import Mathlib.Data.List.Nodup
import DaeRs.Lib.Runs
import DaeRs.Net.Addr

/-! The pool of transparent response sockets, one for each original destination. -/

namespace DaeRs.Control

open Runs List

def respSocketPoolCap : Nat := 256

/-- Destinations with their sockets, and the queue of destinations, least recently used first. -/
structure RespSocketPool (κ σ : Type) where
  map : List (κ×σ)
  lru : List κ

namespace RespSocketPool

variable {κ σ : Type} [DecidableEq κ]

def new : RespSocketPool κ σ := ⟨[],[]⟩

variable (p : RespSocketPool κ σ)

def held : List κ := p.map.map Prod.fst

def lookup (dest : κ) : Option σ := (p.map.find? (·.1=dest)).map Prod.snd

/-- The loop that evicts: destinations that are not held are skipped, and it ends behind the first
one that is. -/
def evict (map : List (κ×σ)) : List κ → RespSocketPool κ σ
  | [] => ⟨map,[]⟩
  | k::lru =>
    if map.length ≤ respSocketPoolCap then ⟨map,k::lru⟩
    else if k∈map.map Prod.fst then ⟨map.filter (·.1≠k),lru⟩
    else evict map lru

def compact : RespSocketPool κ σ :=
  if respSocketPoolCap*4<p.lru.length then { p with lru := p.lru.filter (·∈p.held) } else p

def insert (dest : κ) (sock : σ) : σ×RespSocketPool κ σ :=
  match p.lookup dest with
  | some existing => (existing,p)
  | none => (sock,(evict (p.map++[(dest,sock)]) (p.lru++[dest])).compact)

def get (dest : κ) (created : σ) : σ×RespSocketPool κ σ :=
  match p.lookup dest with
  | some sock => (sock,{ p with lru := p.lru++[dest] })
  | none => p.insert dest created

theorem lookup_eq_none_iff {p : RespSocketPool κ σ} {dest : κ} :
    p.lookup dest=none ↔ dest∉p.held := by
  simp [lookup,held,find?_eq_none]
  aesop

theorem get_hit {p : RespSocketPool κ σ} {dest : κ} (h : dest∈p.held) (created : σ) :
    (p.get dest created).2={ p with lru := p.lru++[dest] } := by
  unfold get
  split
  · rfl
  · next hnone => exact absurd h (lookup_eq_none_iff.mp hnone)

theorem get_miss {p : RespSocketPool κ σ} {dest : κ} (h : dest∉p.held) (created : σ) :
    (p.get dest created).2=(evict (p.map++[(dest,created)]) (p.lru++[dest])).compact := by
  have hnone := lookup_eq_none_iff.mpr h
  rw [get,insert,hnone]

/-- What every call keeps: the cap, and a place in the queue for every destination that is held. -/
structure Queued (p : RespSocketPool κ σ) : Prop where
  cap : p.map.length ≤ respSocketPoolCap
  queued : ∀ k∈p.held,k∈p.lru

theorem queued_evict {map : List (κ×σ)} {lru : List κ}
    (hlen : map.length ≤ respSocketPoolCap+1) (hmem : ∀ k∈map.map Prod.fst,k∈lru) :
    (evict map lru).Queued := by
  induction lru with
  | nil =>
    have hnil : map=[] := by
      cases map with
      | nil => rfl
      | cons x map => exact absurd (hmem x.1 (by simp)) (by simp)
    rw [hnil]
    exact ⟨Nat.zero_le _,by simp [evict,held]⟩
  | cons k lru ih =>
    unfold evict
    split_ifs with hfits hk
    · exact ⟨hfits,hmem⟩
    · obtain ⟨x,hx,rfl⟩ := mem_map.mp hk
      have hshort : (map.filter (·.1≠x.1)).length < map.length :=
        length_filter_lt_length_iff_exists.mpr ⟨x,hx,by simp⟩
      refine ⟨Nat.lt_succ_iff.mp (hshort.trans_le hlen),fun k' hk' => ?_⟩
      obtain ⟨y,hy,rfl⟩ := mem_map.mp hk'
      obtain ⟨hy,hne⟩ := mem_filter.mp hy
      exact (mem_cons.mp (hmem y.1 (mem_map_of_mem hy))).resolve_left (by simpa using hne)
    · refine ih fun k' hk' => (mem_cons.mp (hmem k' hk')).resolve_left ?_
      rintro rfl
      exact hk hk'

theorem Queued.compact {p : RespSocketPool κ σ} (h : p.Queued) : p.compact.Queued := by
  unfold RespSocketPool.compact
  split_ifs
  · exact ⟨h.cap,fun k hk => mem_filter.mpr ⟨h.queued k hk,decide_eq_true hk⟩⟩
  · exact h

theorem Queued.get {p : RespSocketPool κ σ} (h : p.Queued) (dest : κ) (created : σ) :
    (p.get dest created).2.Queued := by
  by_cases hheld : dest∈p.held
  · rw [get_hit hheld]
    exact ⟨h.cap,fun k hk => mem_append_left _ (h.queued k hk)⟩
  · rw [get_miss hheld]
    refine (queued_evict ?_ fun k hk => ?_).compact
    · simpa using h.cap
    · rw [map_append,mem_append] at hk
      exact mem_append.mpr (hk.imp (h.queued k) (by simp))

end RespSocketPool

/-- The pool, with the destinations of all calls so far, the last one first. -/
structure ServedPool (κ σ : Type) where
  pool : RespSocketPool κ σ
  calls : List κ

namespace ServedPool

open RespSocketPool

variable {κ σ : Type} [DecidableEq κ]

def new : ServedPool κ σ := ⟨.new,[]⟩

variable (s : ServedPool κ σ) (call : κ×σ)

def step : ServedPool κ σ := ⟨(s.pool.get call.1 call.2).2,call.1::s.calls⟩

def Capped : Prop := (s.step call).pool.map.length ≤ respSocketPoolCap

def age (k : κ) : Nat := (call.1::s.calls).idxOf k

/-- No destination that is held was asked for less recently than one that the call evicts. -/
def OldestEvicted : Prop := ∀ k∈s.pool.held++[call.1],k∉(s.step call).pool.held →
    ∀ k'∈s.pool.held++[call.1],s.age call k' ≤ s.age call k

def QueueBounded (bound : Nat) (s : ServedPool κ σ) (call : κ×σ) : Prop :=
  (s.step call).pool.lru.length≤bound

def Misses : Prop := call.1∉s.pool.held

/-- The queue has the destinations that are held, in the order of their last calls. -/
structure InTurn (s : ServedPool κ σ) : Prop where
  cap : s.pool.map.length ≤ respSocketPoolCap
  queue : s.pool.held=s.pool.lru
  order : s.pool.lru.Pairwise fun a b => s.calls.idxOf b < s.calls.idxOf a

theorem evict_of_le {map : List (κ×σ)} (h : map.length ≤ respSocketPoolCap) (lru : List κ) :
    evict map lru=⟨map,lru⟩ := by
  cases lru with
  | nil => rfl
  | cons k lru => exact if_pos h

theorem compact_of_le {p : RespSocketPool κ σ} (h : p.lru.length ≤ respSocketPoolCap) :
    p.compact=p := if_neg (by omega)

theorem held_compact (p : RespSocketPool κ σ) : p.compact.held=p.held := by
  unfold compact
  split_ifs
  · rfl
  · rfl

theorem order_append {s : ServedPool κ σ} (h : s.InTurn) {dest : κ} (hmiss : dest∉s.pool.held) :
    (s.pool.lru++[dest]).Pairwise fun a b =>
      (dest::s.calls).idxOf b<(dest::s.calls).idxOf a := by
  rw [h.queue] at hmiss
  have hsucc (k : κ) (hk : k∈s.pool.lru) : (dest::s.calls).idxOf k=s.calls.idxOf k+1 :=
    idxOf_cons_ne _ (fun heq => hmiss (heq ▸ hk))
  refine pairwise_append.mpr ⟨?_,pairwise_singleton ..,fun a ha b hb => ?_⟩
  · refine h.order.imp_of_mem fun ha hb hlt => ?_
    rw [hsucc _ ha,hsucc _ hb]
    exact Nat.succ_lt_succ hlt
  · rw [mem_singleton.mp hb,hsucc _ ha,idxOf_cons_self]
    exact Nat.succ_pos _

theorem InTurn.step {s : ServedPool κ σ} (h : s.InTurn) {call : κ×σ} (hmiss : s.Misses call) :
    (s.OldestEvicted call ∧ s.QueueBounded respSocketPoolCap call) ∧ (s.step call).InTurn := by
  have horder := order_append h hmiss
  have hlen : s.pool.map.length=s.pool.lru.length := by rw [← h.queue,held,length_map]
  have hkeys : (s.pool.map++[call]).map Prod.fst=s.pool.lru++[call.1] := by
    rw [map_append,← h.queue]
    rfl
  have hget : (s.step call).pool=(evict (s.pool.map++[call]) (s.pool.lru++[call.1])).compact :=
    get_miss hmiss call.2
  unfold OldestEvicted QueueBounded
  by_cases hfits : (s.pool.map++[call]).length ≤ respSocketPoolCap
  · have hqueue : (s.pool.lru++[call.1]).length ≤ respSocketPoolCap := by
      simpa [hlen] using hfits
    rw [evict_of_le hfits,compact_of_le hqueue] at hget
    refine ⟨⟨fun k hk hgone => absurd ?_ hgone,by rwa [hget]⟩,by rwa [hget],?_,by rwa [hget]⟩
    · rw [hget,held,hkeys,← h.queue]
      exact hk
    · rw [hget]
      exact hkeys
  · -- the destination at the head of the queue goes
    have hqueue := congrArg List.length hkeys
    generalize hlru : s.pool.lru++[call.1]=lru at hget hkeys horder hqueue
    cases lru with
    | nil => simp at hlru
    | cons k rest =>
      obtain ⟨hfirst,horder⟩ := pairwise_cons.mp horder
      have hrest : ((s.pool.map++[call]).filter (·.1≠k)).map Prod.fst=rest := by
        have hfilter := filter_map (f := Prod.fst) (p := (·≠k)) (l := s.pool.map++[call])
        rw [hkeys,filter_cons_of_neg (by simp)] at hfilter
        refine hfilter.symm.trans (filter_eq_self.mpr fun k' hk' => decide_eq_true fun heq => ?_)
        exact Nat.lt_irrefl _ (heq ▸ hfirst k' hk')
      have hcap : rest.length ≤ respSocketPoolCap := by
        have := h.cap
        simp at hqueue
        omega
      rw [evict,if_neg hfits,if_pos (by simp [hkeys]),compact_of_le hcap] at hget
      refine ⟨⟨fun k₁ hk₁ hgone k₂ hk₂ => ?_,by rwa [hget]⟩,?_,?_,by rwa [hget]⟩
      · rw [h.queue,hlru] at hk₁ hk₂
        rw [hget,held,hrest] at hgone
        obtain rfl := (mem_cons.mp hk₁).resolve_right hgone
        rcases mem_cons.mp hk₂ with rfl | hk₂
        · exact Nat.le_refl _
        · exact (hfirst k₂ hk₂).le
      · rw [← hrest,length_map] at hcap
        rwa [hget]
      · rw [hget]
        exact hrest

/-- The cap holds after every call. Where no call hits, only the oldest destination is evicted and
the queue is no longer than the cap. -/
theorem pool_lawful_of_misses (calls : List (κ×σ)) : Along step Capped new calls ∧
    (Along step Misses new calls →
      Along step (fun s call => s.OldestEvicted call ∧ s.QueueBounded respSocketPoolCap call) new
        calls) := by
  constructor
  · refine Along.imp (fun s => s.pool.Queued) (fun s call hs _ => ?_) ⟨Nat.zero_le _,by simp [new,
      RespSocketPool.new,held]⟩ (along_true new calls)
    have hnext := hs.get call.1 call.2
    exact ⟨hnext.cap,hnext⟩
  · exact Along.imp InTurn (fun s call hs hmiss => hs.step hmiss)
      ⟨Nat.zero_le _,rfl,List.Pairwise.nil⟩

theorem run_replicate (dest : κ) (sock : σ) (n : Nat) :
    (run step new (replicate (n+1) (dest,sock))).pool=⟨[(dest,sock)],replicate (n+1) dest⟩ := by
  induction n with
  | zero => rfl
  | succ n ih =>
    have hrun : run step new (replicate (n+2) (dest,sock))=
        step (run step new (replicate (n+1) (dest,sock))) (dest,sock) := by
      rw [replicate_succ',run_append]
      rfl
    rw [hrun,step,ih]
    rw [get_hit (by simp [held]),← replicate_succ']

theorem run_fresh {ds : List κ} (hnodup : ds.Nodup) (hlen : ds.length ≤ respSocketPoolCap)
    (sock : σ) :
    run step new (ds.map (·,sock))=⟨⟨ds.map (·,sock),ds⟩,ds.reverse⟩ := by
  induction ds using reverseRecOn with
  | nil => rfl
  | append_singleton ds d ih =>
    obtain ⟨hnodup,-,hd⟩ := nodup_append.mp hnodup
    have hlen' : ds.length ≤ respSocketPoolCap := by simp at hlen; omega
    have hmiss : d∉(⟨ds.map (·,sock),ds⟩ : RespSocketPool κ σ).held := by
      simpa [held] using fun hmem => hd d hmem d (by simp) rfl
    rw [map_append,run_append]
    change step (run step new (ds.map (·,sock))) (d,sock)=_
    rw [ih hnodup hlen',step]
    simp only
    rw [get_miss hmiss,evict_of_le (by simpa using hlen),compact_of_le hlen]
    simp

theorem misses_of_nodup {ds : List κ} (hnodup : ds.Nodup) (hlen : ds.length ≤ respSocketPoolCap+1)
    (sock : σ) : Along step Misses new (ds.map (·,sock)) := by
  induction ds using reverseRecOn with
  | nil => trivial
  | append_singleton ds d ih =>
    obtain ⟨hds,-,hd⟩ := nodup_append.mp hnodup
    have hlen' : ds.length ≤ respSocketPoolCap := by simpa using hlen
    rw [map_append]
    refine along_concat.mpr ⟨ih hds (by omega),?_⟩
    rw [run_fresh hds hlen']
    simpa [Misses,held] using fun hmem => hd d hmem d (by simp) rfl

theorem not_oldestEvicted {d e k : κ} {ds : List κ} (hnodup : (d::ds).Nodup)
    (hlen : (d::ds).length=respSocketPoolCap) (hnew : e∉d::ds) (hk : k∈ds) (sock : σ) :
    ¬OldestEvicted (run step new ((d::ds).map (·,sock)++[(d,sock)])) (e,sock) := by
  have hrun : run step new ((d::ds).map (·,sock)++[(d,sock)])=
      ⟨⟨(d::ds).map (·,sock),d::ds++[d]⟩,d::(d::ds).reverse⟩ := by
    rw [run_append]
    change step (run step new ((d::ds).map (·,sock))) (d,sock)=_
    rw [run_fresh hnodup hlen.le,step]
    simp only
    rw [get_hit (by simp [held])]
  intro h
  rw [hrun] at h
  have hmiss : e∉(⟨(d::ds).map (·,sock),d::ds++[d]⟩ : RespSocketPool κ σ).held := by
    simpa [held] using hnew
  have hdk : d≠k := fun heq => (nodup_cons.mp hnodup).1 (heq ▸ hk)
  have hde : e≠d := fun heq => hnew (heq ▸ mem_cons_self)
  have hke : e≠k := fun heq => hnew (heq ▸ mem_cons_of_mem d hk)
  have hle := h d (by simp [held]) ?_ k (by simp [held,hk])
  · simp [age,hde,hke,hdk] at hle
  · rw [step,get_miss hmiss,held_compact,cons_append,cons_append,evict,
      if_neg (by simp at hlen ⊢; omega),if_pos (by simp)]
    simp [held]

def destination (i : Nat) : Net.IpAddr×UInt16 := (.v4 (BitVec.ofNat 32 i),53)

def destinations : List (Net.IpAddr×UInt16) :=
  destination 0::(List.range' 1 (respSocketPoolCap-1)).map destination

theorem nodup_destinations : (destinations++[destination respSocketPoolCap]).Nodup := by
  have hlist : destinations++[destination respSocketPoolCap]=(range' 0 257).map destination := by
    rw [range'_succ,range'_concat,map_cons,map_append]
    rfl
  rw [hlist]
  refine List.Nodup.map_on (fun i hi j hj h => ?_) (nodup_range' ..)
  have hbits := congrArg BitVec.toNat (Net.IpAddr.v4.inj (Prod.mk.inj h).1)
  simp [mem_range'_1] at hbits hi hj
  omega

/-- One destination more than the pool holds, each asked for once. -/
theorem pool_lawful_of_misses_once :
    let calls := (destinations++[destination respSocketPoolCap]).map (·,())
    Along step Misses new calls ∧
      Along step (fun s call => s.OldestEvicted call ∧ s.QueueBounded respSocketPoolCap call) new
        calls := by
  intro calls
  have h : Along step Misses new calls :=
    misses_of_nodup nodup_destinations (by simp [destinations,respSocketPoolCap]) ()
  exact ⟨h,(pool_lawful_of_misses calls).2 h⟩

/-- A destination that was asked for just before is evicted, and calls for one destination grow the
queue beyond every bound. -/
theorem recent_evicted_and_queue_grows : ¬Along step OldestEvicted new
      (destinations.map (·,())++[(destination 0,())]++[(destination respSocketPoolCap,())]) ∧
    ∀ bound,¬Along step (QueueBounded bound) new
      (List.replicate (bound+1) (destination 0,())) := by
  constructor
  · intro h
    obtain ⟨hnodup,-,hnew⟩ := List.nodup_append.mp nodup_destinations
    refine not_oldestEvicted (k := destination 1) hnodup (by simp [respSocketPoolCap])
      (fun hmem => hnew _ hmem _ (by simp) rfl) ?_ () h.last
    exact List.mem_map_of_mem (by simp [respSocketPoolCap,List.mem_range'_1])
  · intro bound h
    rw [List.replicate_succ'] at h
    have hlast : (run step new (List.replicate bound (destination 0,())++
        [(destination 0,())])).pool.lru.length≤bound := by
      rw [run_append]
      exact h.last
    rw [← List.replicate_succ',run_replicate,List.length_replicate] at hlast
    omega

end ServedPool

end DaeRs.Control
