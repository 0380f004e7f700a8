import DaeRs.Dns.Question

/-! Identical queries to the direct server at the same time: the first of them forwards, the others
wait for it and look into the cache again. -/

namespace DaeRs.Dns

open Checked Forwarder List Function

/-- Queries that have one `FlightKey`, by the tasks that resolve them. -/
structure Identical where
  queries : Nat → Asked
  key : CacheKey
  same : ∀ t,(queries t).parsed.key=key

/-- Where a task is in `resolve`. A task that was released remembers by whom, and with which
response; that is only kept for the statements. -/
inductive Progress where
  | idle
  | missed
  | joined (n : Nat)
  | waiting (n : Nat)
  | released (t : Nat) (response : Option (List UInt8))
  | forwarding
  | storing (response : List UInt8)
  | done (response : Option (List UInt8))
  deriving DecidableEq

/-- Notifiers have numbers: `notifiers` is the next one. What was stored, and until when it is
valid, is only kept for the statements. -/
structure Flights where
  cache : DnsCache Reply
  inflight : Option Nat
  notifiers : Nat
  tasks : Nat → Progress
  stored : List (List UInt8×Nat)

/-- The steps of a task between which others can take theirs; `respond` is what `forward_direct`
returns, with `end_inflight`. -/
inductive FlightEvent where
  | lookup (t now : Nat)
  | register (t : Nat)
  | subscribe (t : Nat)
  | respond (t : Nat) (response : Option (List UInt8))
  | store (t now : Nat)
  | recheck (t now : Nat)

namespace Flights

def new : Flights := ⟨.new,none,0,fun _ => .idle,[]⟩

variable (s : Flights)

def set (t : Nat) (p : Progress) : Flights := { s with tasks := update s.tasks t p }

@[simp] theorem set_self (t : Nat) (p : Progress) : (s.set t p).tasks t=p :=
  update_self _ _ _

theorem set_of_ne {t u : Nat} (h : u≠t) (p : Progress) : (s.set t p).tasks u=s.tasks u :=
  update_of_ne h _ _

/-- `begin_inflight`: whether the caller is the creator, and the notifier. -/
def beginInflight : (Bool×Nat)×Flights :=
  match s.inflight with
  | some n => ((false,n),s)
  | none =>
    ((true,s.notifiers),{ s with inflight := some s.notifiers,notifiers := s.notifiers+1 })

/-- `end_inflight`: all who wait on the notifier at that time are released. -/
def endInflight (t : Nat) (response : Option (List UInt8)) : Flights :=
  match s.inflight with
  | none => s
  | some n => { s with
      inflight := none
      tasks := fun u => if s.tasks u=.waiting n then .released t response else s.tasks u }

section Step

variable (g : Group) (i : Identical)

def cacheTtl (response : List UInt8) : Option Nat :=
  if !g.enableCache then none
  else
    match (parseResponseMinTtl response).run with
    | .ok (some ttl) => if ttl=0 then none else some ttl
    | _ => none

def step (s : Flights) : FlightEvent → Flights
  | .lookup t now =>
    match s.tasks t with
    | .idle =>
      match cachedLookup g s.cache (i.queries t) now with
      | some r => s.set t (.done (some r.payload))
      | none => s.set t .missed
    | _ => s
  | .register t =>
    match s.tasks t with
    | .missed =>
      let ((isCreator,n),s) := s.beginInflight
      s.set t (if isCreator then .forwarding else .joined n)
    | _ => s
  | .subscribe t =>
    match s.tasks t with
    | .joined n => s.set t (.waiting n)
    | _ => s
  | .respond t response =>
    match s.tasks t with
    | .forwarding => (s.endInflight t response).set t (response.elim (.done none) .storing)
    | _ => s
  | .store t now =>
    match s.tasks t with
    | .storing response =>
      let q := i.queries t
      let s := { s with
        cache := cacheStore g s.cache q now ⟨response,q.query⟩
        stored := match cacheTtl g response with
          | some ttl => (response,now+ttl*10^9)::s.stored
          | none => s.stored }
      s.set t (.done (some response))
    | _ => s
  | .recheck t now =>
    match s.tasks t with
    | .released _ _ =>
      match cachedLookup g s.cache (i.queries t) now with
      | some r => s.set t (.done (some r.payload))
      | none => s.set t .forwarding
    | _ => s

def run (s : Flights) (es : List FlightEvent) : Flights := es.foldl (step g i) s

/-- Nobody waits on a notifier that has been removed. -/
def NoneLost (s : Flights) : Prop := ∀ t n,s.tasks t=.waiting n → s.inflight=some n

def FindsStep (s : Flights) : FlightEvent → Prop
  | .recheck t now => ∀ c response,s.tasks t=.released c (some response) →
      (cacheTtl g response).isSome=true →
      (s.cache.get now i.key).map Reply.payload=some response
  | _ => True

/-- The task calls `notified` before the notifier is removed, and comes back when the response is
stored, before another replaces it or it expires. -/
def InTimeStep (s : Flights) : FlightEvent → Prop
  | .subscribe t => ∀ n,s.tasks t=.joined n → s.inflight=some n
  | .recheck t now => ∀ c response,s.tasks t=.released c (some response) →
      (cacheTtl g response).isSome=true →
      ∃ expires,s.stored.head?=some (response,expires) ∧ now<expires
  | _ => True

def SafeThroughout (s : Flights) : List FlightEvent → Prop
  | [] => s.NoneLost
  | e::es => s.NoneLost ∧ FindsStep g i s e ∧ SafeThroughout (step g i s e) es

def InTime (s : Flights) : List FlightEvent → Prop
  | [] => True
  | e::es => InTimeStep g s e ∧ InTime (step g i s e) es

end Step

section Safety

variable {g : Group} {i : Identical} {s : Flights}

def Mirrors (i : Identical) (s : Flights) : Prop :=
  s.cache.entries.map (fun e => (e.1,e.2.response.payload,e.2.expires)) =
    s.stored.head?.toList.map fun x => (i.key,x)

theorem mirrors_get (hs : s.Mirrors i) {now : Nat} {response : List UInt8} :
    (s.cache.get now i.key).map Reply.payload=some response ↔
      ∃ expires,s.stored.head?=some (response,expires) ∧ now<expires := by
  unfold Mirrors at hs
  cases hhead : s.stored.head? with
  | none =>
    rw [hhead] at hs
    have hempty : s.cache.entries=[] := by simpa using hs
    simp [DnsCache.get,hempty]
  | some x =>
    rw [hhead] at hs
    obtain ⟨e,he,hx⟩ := map_eq_singleton_iff.mp hs
    obtain ⟨hkey,hx⟩ := Prod.mk.inj hx
    have hget : s.cache.get now i.key=if now<e.2.expires then some e.2.response else none := by
      simp [DnsCache.get,he,hkey]
    rw [hget,← hx]
    split_ifs with hlive
    · simp [hlive]
    · simp [hlive]

theorem mirrors_store (hs : s.Mirrors i) (t now : Nat) (response : List UInt8) : Mirrors i { s with
      cache := cacheStore g s.cache (i.queries t) now ⟨response,(i.queries t).query⟩
      stored := match cacheTtl g response with
        | some ttl => (response,now+ttl*10^9)::s.stored
        | none => s.stored } := by
  have hlength : s.cache.entries.length≤1 := by
    have h := congrArg List.length hs
    rw [length_map,length_map] at h
    rw [h]
    cases s.stored.head? <;> simp
  have hroom : s.cache.makeRoom now=s.cache.entries := by
    rw [DnsCache.makeRoom,if_neg]
    have hmax : DnsCache.maxEntries=2048 := rfl
    omega
  have hkeys : s.cache.entries.filter (fun e => e.1≠i.key)=[] := by
    rw [filter_eq_nil_iff]
    intro e he
    have hmem := mem_map_of_mem (f := fun e : CacheKey×CacheEntry Reply =>
      (e.1,e.2.response.payload,e.2.expires)) he
    rw [hs] at hmem
    obtain ⟨x,-,hx⟩ := mem_map.mp hmem
    simp [← (Prod.mk.inj hx).1]
  unfold Mirrors cacheStore cacheTtl
  by_cases hcache : (!g.enableCache)=true
  · simp only [if_pos hcache]
    exact hs
  simp only [if_neg hcache]
  cases (parseResponseMinTtl response).run with
  | error e => exact hs
  | ok o =>
    cases o with
    | none => exact hs
    | some ttl =>
      by_cases hzero : ttl=0
      · simp only [DnsCache.insert,if_pos hzero]
        exact hs
      · simp only [DnsCache.insert,if_neg hzero,hroom,i.same,hkeys]
        rfl

theorem noneLost_set (hs : s.NoneLost) {t : Nat} {p : Progress}
    (hp : ∀ n,p=.waiting n → s.inflight=some n) : (s.set t p).NoneLost := by
  intro u n hu
  by_cases htu : u=t
  · rw [htu,set_self] at hu
    exact hp n hu
  · rw [set_of_ne s htu] at hu
    exact hs u n hu

theorem noneLost_beginInflight (hs : s.NoneLost) : s.beginInflight.2.NoneLost := by
  unfold beginInflight
  cases hflight : s.inflight with
  | some n => exact hs
  | none =>
    intro t n ht
    rw [hs t n ht] at hflight
    cases hflight

theorem noneLost_endInflight (hs : s.NoneLost) (t : Nat) (response : Option (List UInt8)) :
    (s.endInflight t response).NoneLost := by
  unfold endInflight
  cases hflight : s.inflight with
  | none => exact hs
  | some n =>
    intro u m hu
    dsimp only at hu
    split_ifs at hu with hwaits
    -- whoever waits, waits on the notifier in the map
    have hm := hs u m hu
    rw [hflight] at hm
    cases hm
    exact absurd hu hwaits

theorem mirrors_step (hs : s.Mirrors i) (e : FlightEvent) : (step g i s e).Mirrors i := by
  cases e with
  | lookup t now | recheck t now =>
    rw [step]
    split
    · split <;> exact hs
    · exact hs
  | register t =>
    rw [step]
    split
    · unfold beginInflight
      cases s.inflight <;> exact hs
    · exact hs
  | subscribe t =>
    rw [step]
    split <;> exact hs
  | respond t response =>
    rw [step]
    split
    · unfold endInflight
      cases s.inflight <;> exact hs
    · exact hs
  | store t now =>
    rw [step]
    split
    · exact mirrors_store hs t now _
    · exact hs

theorem SafeThroughout.noneLost {es : List FlightEvent} (h : SafeThroughout g i s es) :
    s.NoneLost := by
  cases es with
  | nil => exact h
  | cons e es => exact h.1

variable (hs : s.NoneLost)
include hs

theorem noneLost_lookup (t now : Nat) : (step g i s (.lookup t now)).NoneLost := by
  rw [step]
  split
  · split
    all_goals exact noneLost_set hs (by simp)
  · exact hs

theorem noneLost_register (t : Nat) : (step g i s (.register t)).NoneLost := by
  rw [step]
  split
  · refine noneLost_set (noneLost_beginInflight hs) ?_
    intro n hn
    split_ifs at hn
  · exact hs

theorem noneLost_respond (t : Nat) (response : Option (List UInt8)) :
    (step g i s (.respond t response)).NoneLost := by
  rw [step]
  split
  · refine noneLost_set (noneLost_endInflight hs t response) ?_
    cases response with
    | none => simp
    | some r => simp
  · exact hs

theorem noneLost_store (t now : Nat) : (step g i s (.store t now)).NoneLost := by
  rw [step]
  split
  · exact noneLost_set (s := { s with cache := _,stored := _ }) hs (by simp)
  · exact hs

theorem noneLost_recheck (t now : Nat) :
    (step g i s (.recheck t now)).NoneLost := by
  rw [step]
  split
  · split
    all_goals exact noneLost_set hs (by simp)
  · exact hs

theorem noneLost_subscribe_iff (t : Nat) :
    (step g i s (.subscribe t)).NoneLost ↔ ∀ n,s.tasks t=.joined n → s.inflight=some n := by
  rw [step]
  split
  · rename_i n hjoined
    constructor
    · intro hlost m hm
      cases hjoined.symm.trans hm
      exact hlost t n (set_self s t _)
    · intro hinflight
      refine noneLost_set hs ?_
      rintro m ⟨⟩
      exact hinflight n hjoined
  · rename_i hother
    exact ⟨fun _ n hn => absurd hn (hother n),fun _ => hs⟩

theorem safeStep_iff (hcache : s.Mirrors i) (e : FlightEvent) :
    FindsStep g i s e ∧ (step g i s e).NoneLost ↔ InTimeStep g s e := by
  cases e with
  | lookup t now => exact iff_of_true ⟨trivial,noneLost_lookup hs t now⟩ trivial
  | register t => exact iff_of_true ⟨trivial,noneLost_register hs t⟩ trivial
  | subscribe t => exact (and_iff_right trivial).trans (noneLost_subscribe_iff hs t)
  | respond t response => exact iff_of_true ⟨trivial,noneLost_respond hs t response⟩ trivial
  | store t now => exact iff_of_true ⟨trivial,noneLost_store hs t now⟩ trivial
  | recheck t now =>
    rw [and_iff_left (noneLost_recheck hs t now)]
    simp only [FindsStep,InTimeStep,mirrors_get hcache]

theorem safeThroughout_iff (hcache : s.Mirrors i) (es : List FlightEvent) :
    SafeThroughout g i s es ↔ InTime g i s es := by
  induction es generalizing s with
  | nil => exact iff_of_true hs trivial
  | cons e es ih =>
    rw [SafeThroughout,InTime,← safeStep_iff hs hcache]
    constructor
    · rintro ⟨-,hfinds,hrest⟩
      exact ⟨⟨hfinds,hrest.noneLost⟩,(ih hrest.noneLost (mirrors_step hcache e)).1 hrest⟩
    · rintro ⟨⟨hfinds,hlost⟩,hrest⟩
      exact ⟨hs,hfinds,(ih hlost (mirrors_step hcache e)).2 hrest⟩

end Safety

/-- In every run of identical queries, nobody is left waiting and all who are released find the
response exactly when all call `notified` and come back in time. -/
theorem inflight_safe_iff (g : Group) (i : Identical) (es : List FlightEvent) :
    SafeThroughout g i new es ↔ InTime g i new es := by
  have hlost : new.NoneLost := by
    intro t n hwaits
    cases hwaits
  have hcache : new.Mirrors i := by
    unfold Mirrors
    rfl
  exact safeThroughout_iff hlost hcache es

def twoLabelsFlights : Identical := ⟨fun _ => twoLabelsAsked,twoLabelsAsked.parsed.key,fun _ => rfl⟩

/-- The creator's response can be kept, but a task that calls `notified` after `end_inflight` waits
on a notifier that is gone, and one released before `cache_store` finds nothing. -/
theorem waiters_missed :
    let response := nameResponse 1 twoLabels 1
    let joined : List FlightEvent := [.lookup 0 0,.lookup 1 0,.register 0,.register 1]
    let late := run dnsGroup twoLabelsFlights new
      (joined++[.respond 0 (some response),.subscribe 1,.store 0 1])
    let early := run dnsGroup twoLabelsFlights new
      (joined++[.subscribe 1,.respond 0 (some response)])
    cacheTtl dnsGroup response=some 300 ∧ late.tasks 1=.waiting 0 ∧ late.inflight=none ∧
      early.tasks 1=.released 0 (some response) ∧
      (early.cache.get 1 twoLabelsFlights.key).isNone=true ∧
      (step dnsGroup twoLabelsFlights early (.recheck 1 1)).tasks 1=.forwarding := by
  decide +kernel

end Flights

end DaeRs.Dns
