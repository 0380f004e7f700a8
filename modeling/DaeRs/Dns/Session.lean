import DaeRs.Dns.Cache
import DaeRs.Routing.Dns

/-! Queries that the DNS forwarder sends through a proxy group. They share one UDP session of the
group, one at a time; what arrives on the session waits there until somebody receives it. -/

namespace DaeRs.Dns

open Checked Net RuleSet Routing List Function

abbrev SocketAddr := IpAddr×Nat

structure Asked where
  query : List UInt8
  parsed : DnsQuery
  parses : (parseDnsQuery query).run=.ok (some parsed)

def Asked.of (query : List UInt8) : Option Asked :=
  match h : (parseDnsQuery query).run with
  | .ok (some parsed) => some ⟨query,parsed,h⟩
  | _ => none

structure Transaction where
  id : List UInt8
  labels : List String
  typeAndClass : List UInt8
  deriving DecidableEq

def transaction (buf : List UInt8) : Option Transaction :=
  match (queryLabels buf (buf.length+1) dnsHeaderLen).run with
  | .ok (some (labels,pos)) => some ⟨Octets.slice buf 0 2,labels,Octets.slice buf pos 4⟩
  | _ => none

/-- A response, with the query that it is the answer to, which the forwarder does not see. -/
structure Reply where
  payload : List UInt8
  origin : List UInt8

/-- A datagram that the session delivers, with the address that the relay names as its source. -/
structure Datagram extends Reply where
  dest : SocketAddr

/-- What a forwarder is configured with. -/
structure Group where
  env : Env
  routes : List DnsDomainRoute
  fallback : DnsOutbound
  name : String
  server : SocketAddr
  enableCache : Bool

/-- The query that waits for a response. -/
structure Flight extends Asked where
  session : Nat

inductive Via where
  | session
  | cache
  | direct
  deriving DecidableEq

structure Answer extends Asked where
  reply : Reply
  via : Via

/-- Sessions have numbers: `dialled` is the next one. What was sent on which session, and the
answers, are only kept for the statements. -/
structure Forwarder where
  session : Option (String×Nat)
  dialled : Nat
  queue : Nat → List Datagram
  sent : List (Nat×List UInt8)
  flight : Option Flight
  cache : DnsCache Reply
  directCache : DnsCache Reply
  answers : List Answer

/-- A query that looks into the cache, before or after it waits for the lock; one that has the lock
and forwards, with the group's current node and whether dialling and sending succeed; an arrival on
a session; the end of waiting for a response. A query that fails on the session goes to the direct
server, whose response, if any, the event names. -/
inductive DnsEvent where
  | lookup (query : List UInt8) (now : Nat)
  | forward (query : List UInt8) (nodeKey : String) (dials sends : Bool)
      (direct : Option (List UInt8)) (now : Nat)
  | deliver (session : Nat) (d : Datagram)
  | receive (now : Nat)
  | receiveError (direct : Option (List UInt8)) (now : Nat)
  | timeout (direct : Option (List UInt8)) (now : Nat)

namespace Forwarder

def new : Forwarder := ⟨none,0,fun _ => [],[],none,.new,.new,[]⟩

section Step

variable (g : Group)

def routed (query : List UInt8) : Option Asked := (Asked.of query).filter fun q =>
    routeDomain g.env g.fallback q.parsed.qname g.routes=.group g.name

def cachedLookup (cache : DnsCache Reply) (q : Asked) (now : Nat) : Option Reply :=
  if !g.enableCache then none
  else (cache.get now q.parsed.key).map fun r =>
    { r with payload := rewriteResponseId r.payload q.parsed.id }

def cacheStore (cache : DnsCache Reply) (q : Asked) (now : Nat) (r : Reply) : DnsCache Reply :=
  if !g.enableCache then cache
  else
    match (parseResponseMinTtl r.payload).run with
    | .ok (some ttl) => cache.insert now q.parsed.key r ttl
    | _ => cache

def answer (s : Forwarder) (q : Asked) (reply : Reply) (via : Via) : Forwarder :=
  { s with answers := { q with reply,via }::s.answers }

/-- The direct query after an error. It has a socket of its own, on which nothing but its own
response can arrive. -/
def fallBack (s : Forwarder) (q : Asked) (direct : Option (List UInt8)) (now : Nat) : Forwarder :=
  match direct with
  | none => s
  | some payload =>
    let r : Reply := ⟨payload,q.query⟩
    answer { s with directCache := cacheStore g s.directCache q now r } q r .direct

/-- The session of the group: the stored one, unless the group has moved to another node, or a new
one, if it can be dialled. -/
def takeSession (s : Forwarder) (nodeKey : String) (dials : Bool) : Forwarder×Option Nat :=
  let dialSession : Forwarder×Option Nat :=
    if dials then
      ({ s with session := some (nodeKey,s.dialled),dialled := s.dialled+1 },some s.dialled)
    else ({ s with session := none },none)
  match s.session with
  | some (storedNode,n) =>
    if nodeKey = "" ∨ storedNode=nodeKey then (s,some n) else dialSession
  | none => dialSession

def forwardViaProxy (s : Forwarder) (q : Asked) (nodeKey : String) (dials sends : Bool)
    (direct : Option (List UInt8)) (now : Nat) : Forwarder :=
  match s.takeSession nodeKey dials with
  | (s,none) => fallBack g s q direct now
  | (s,some n) =>
    if sends then { s with flight := some { q with session := n },sent := (n,q.query)::s.sent }
    else fallBack g { s with session := none } q direct now

def step (s : Forwarder) : DnsEvent → Forwarder
  | .lookup query now =>
    match routed g query with
    | none => s
    | some q =>
      match cachedLookup g s.cache q now with
      | none => s
      | some r => s.answer q r .cache
  | .forward query nodeKey dials sends direct now =>
    match s.flight,routed g query with
    | none,some q =>
      match cachedLookup g s.cache q now with
      | some r => s.answer q r .cache
      | none => forwardViaProxy g s q nodeKey dials sends direct now
    | _,_ => s
  | .deliver n d =>
    -- the server only sends replies to what it was sent on the session, late or several times
    if d.dest=g.server ∧ (n,d.origin)∉s.sent then s
    else { s with queue := update s.queue n (s.queue n++[d]) }
  | .receive now =>
    match s.flight with
    | none => s
    | some f =>
      match s.queue f.session with
      | [] => s
      | d::rest =>
        let s := { s with queue := update s.queue f.session rest }
        if d.dest=g.server then
          answer { s with
            flight := none
            cache := cacheStore g s.cache f.toAsked now d.toReply } f.toAsked d.toReply .session
        else s
  | .receiveError direct now =>
    match s.flight with
    | none => s
    | some f => fallBack g { s with session := none,flight := none } f.toAsked direct now
  | .timeout direct now =>
    match s.flight with
    | none => s
    -- the session stays
    | some f => fallBack g { s with flight := none } f.toAsked direct now

def run (es : List DnsEvent) : Forwarder := es.foldl (step g) new

end Step

def Stored (key : CacheKey) (r : Reply) : Prop :=
  ∃ q : Asked,q.parsed.key=key ∧ transaction r.origin=transaction q.query

/-- What was returned for a query is a reply to it or, from the cache, to one with its key; what is
stored under a key is a reply to one with it. -/
structure Paired (s : Forwarder) : Prop where
  answers : ∀ a∈s.answers,match a.via with
    | .cache => Stored a.parsed.key a.reply
    | _ => transaction a.reply.origin=transaction a.query
  cache : ∀ e∈s.cache.entries,Stored e.1 e.2.response
  directCache : ∀ e∈s.directCache.entries,Stored e.1 e.2.response

section Conditions

variable (g : Group)

def InOrderStep (s : Forwarder) : DnsEvent → Prop
  | .receive _ => ∀ f d rest,s.flight=some f → s.queue f.session=d::rest →
      d.dest=g.server → transaction d.origin=transaction f.query
  | _ => True

/-- A reply arrives on the group's session while its query is in flight there and no other reply
waits, and no query times out while a reply waits. -/
def TimelyStep (s : Forwarder) : DnsEvent → Prop
  | .deliver n d => d.dest=g.server → s.session.map Prod.snd=some n →
      (s.flight.map fun f => transaction f.query)=some (transaction d.origin) ∧
        ∀ d'∈s.queue n,d'.dest≠g.server
  | .timeout _ _ => ∀ d∈s.flight.elim [] fun f => s.queue f.session,d.dest≠g.server
  | _ => True

instance (s : Forwarder) (e : DnsEvent) : Decidable (TimelyStep g s e) :=
  match e with
  | .deliver n d => inferInstanceAs (Decidable (d.dest=g.server →
      s.session.map Prod.snd=some n →
      (s.flight.map fun f => transaction f.query)=some (transaction d.origin) ∧
        ∀ d'∈s.queue n,d'.dest≠g.server))
  | .timeout _ _ => inferInstanceAs (Decidable
      (∀ d∈s.flight.elim [] fun f => s.queue f.session,d.dest≠g.server))
  | .lookup .. | .forward .. | .receive _ | .receiveError .. => inferInstanceAs (Decidable True)

def InOrder (s : Forwarder) : List DnsEvent → Prop
  | [] => True
  | e::es => InOrderStep g s e ∧ InOrder (step g s e) es

def Timely (s : Forwarder) : List DnsEvent → Prop
  | [] => True
  | e::es => TimelyStep g s e ∧ Timely (step g s e) es

instance decidableTimely : (s : Forwarder) → (es : List DnsEvent) → Decidable (Timely g s es)
  | _,[] => inferInstanceAs (Decidable True)
  | s,e::es =>
    have := decidableTimely (step g s e) es
    inferInstanceAs (Decidable (TimelyStep g s e ∧ Timely g (step g s e) es))

def PairedThroughout (s : Forwarder) : List DnsEvent → Prop
  | [] => s.Paired
  | e::es => s.Paired ∧ PairedThroughout (step g s e) es

end Conditions

section Pairing

variable {g : Group} {s : Forwarder}

theorem stored_cachedLookup {cache : DnsCache Reply} {q : Asked} {now : Nat} {r : Reply}
    (hcache : ∀ e∈cache.entries,Stored e.1 e.2.response)
    (h : cachedLookup g cache q now=some r) : Stored q.parsed.key r := by
  unfold cachedLookup at h
  split_ifs at h
  obtain ⟨r',hget,rfl⟩ := Option.map_eq_some_iff.mp h
  obtain ⟨e,he,hkey,hresponse⟩ := DnsCache.get_mem hget
  obtain ⟨q',hq',htransaction⟩ := hcache e he
  refine ⟨q',hq'.trans hkey,?_⟩
  rw [← htransaction,hresponse]

theorem stored_cacheStore {cache : DnsCache Reply} {q : Asked} {now : Nat} {r : Reply}
    (hcache : ∀ e∈cache.entries,Stored e.1 e.2.response) (hr : Stored q.parsed.key r) :
    ∀ e∈(cacheStore g cache q now r).entries,Stored e.1 e.2.response := by
  intro e he
  unfold cacheStore at he
  split_ifs at he
  · exact hcache e he
  · split at he
    · rcases DnsCache.mem_insert he with hold | ⟨hkey,hresponse⟩
      · exact hcache e hold
      · rw [hkey,hresponse]
        exact hr
    · exact hcache e he

theorem paired_answer_cache (hs : s.Paired) {q : Asked} {r : Reply}
    (hr : Stored q.parsed.key r) : (s.answer q r .cache).Paired where
  answers := by
    intro a ha
    rcases mem_cons.mp ha with rfl | hold
    · exact hr
    · exact hs.answers a hold
  cache := hs.cache
  directCache := hs.directCache

theorem paired_fallBack (hs : s.Paired) (q : Asked) (direct : Option (List UInt8)) (now : Nat) :
    (fallBack g s q direct now).Paired := by
  cases direct with
  | none => exact hs
  | some payload =>
    refine ⟨?_,hs.cache,stored_cacheStore hs.directCache ⟨q,rfl,rfl⟩⟩
    intro a ha
    rcases mem_cons.mp ha with rfl | hold
    · rfl
    · exact hs.answers a hold

theorem takeSession_cases (s : Forwarder) (nodeKey : String) (dials : Bool) :
    (∃ node n,s.session=some (node,n) ∧ s.takeSession nodeKey dials=(s,some n)) ∨
    s.takeSession nodeKey dials=({ s with
      session := some (nodeKey,s.dialled),dialled := s.dialled+1 },some s.dialled) ∨
    s.takeSession nodeKey dials=({ s with session := none },none) := by
  unfold takeSession
  cases hsession : s.session with
  | none =>
    cases dials
    · exact .inr (.inr rfl)
    · exact .inr (.inl rfl)
  | some stored =>
    dsimp only
    by_cases hnode : nodeKey = "" ∨ stored.1=nodeKey
    · rw [if_pos hnode]
      exact .inl ⟨stored.1,stored.2,rfl,rfl⟩
    · rw [if_neg hnode]
      cases dials
      · exact .inr (.inr rfl)
      · exact .inr (.inl rfl)

theorem paired_forwardViaProxy (hs : s.Paired) (q : Asked) (nodeKey : String) (dials sends : Bool)
    (direct : Option (List UInt8)) (now : Nat) :
    (forwardViaProxy g s q nodeKey dials sends direct now).Paired := by
  have hsame : ∀ session dialled,({ s with session,dialled } : Forwarder).Paired :=
    fun _ _ => ⟨hs.answers,hs.cache,hs.directCache⟩
  unfold forwardViaProxy
  rcases takeSession_cases s nodeKey dials with ⟨node,n,-,htake⟩ | htake | htake
  · rw [htake]
    dsimp only
    split_ifs
    · exact ⟨hs.answers,hs.cache,hs.directCache⟩
    · exact paired_fallBack (hsame none s.dialled) q direct now
  · rw [htake]
    dsimp only
    split_ifs
    · exact ⟨hs.answers,hs.cache,hs.directCache⟩
    · exact paired_fallBack (hsame none (s.dialled+1)) q direct now
  · rw [htake]
    exact paired_fallBack (hsame none s.dialled) q direct now

theorem paired_step_iff (hs : s.Paired) (e : DnsEvent) :
    (step g s e).Paired ↔ InOrderStep g s e := by
  cases e with
  | lookup query now =>
    refine iff_of_true ?_ trivial
    rw [step]
    split
    · exact hs
    · split
      · exact hs
      · rename_i hlookup
        exact paired_answer_cache hs (stored_cachedLookup hs.cache hlookup)
  | forward query nodeKey dials sends direct now =>
    refine iff_of_true ?_ trivial
    rw [step]
    split
    · split
      · rename_i hlookup
        exact paired_answer_cache hs (stored_cachedLookup hs.cache hlookup)
      · exact paired_forwardViaProxy hs _ _ _ _ _ _
    · exact hs
  | deliver n d =>
    refine iff_of_true ?_ trivial
    rw [step]
    split_ifs
    · exact hs
    · exact ⟨hs.answers,hs.cache,hs.directCache⟩
  | receiveError direct now | timeout direct now =>
    refine iff_of_true ?_ trivial
    rw [step]
    cases hflight : s.flight with
    | none => exact hs
    | some f =>
      refine paired_fallBack ?_ f.toAsked direct now
      exact ⟨hs.answers,hs.cache,hs.directCache⟩
  | receive now =>
    rw [step,InOrderStep]
    cases hflight : s.flight with
    | none =>
      refine iff_of_true hs ?_
      intro f d rest hf
      cases hf
    | some f =>
      dsimp only
      cases hqueue : s.queue f.session with
      | nil =>
        refine iff_of_true hs ?_
        intro f' d rest hf hd
        cases hf
        rw [hqueue] at hd
        cases hd
      | cons d rest =>
        dsimp only
        by_cases hserver : d.dest=g.server
        · rw [if_pos hserver]
          constructor
          · intro hpaired f' d' rest' hf hd _
            cases hf
            rw [hqueue] at hd
            cases hd
            exact hpaired.answers _ (mem_cons_self ..)
          · intro horder
            have hreply := horder f d rest rfl hqueue hserver
            refine ⟨?_,stored_cacheStore hs.cache ⟨f.toAsked,rfl,hreply⟩,hs.directCache⟩
            intro a ha
            rcases mem_cons.mp ha with rfl | hold
            · exact hreply
            · exact hs.answers a hold
        · rw [if_neg hserver]
          refine iff_of_true ⟨hs.answers,hs.cache,hs.directCache⟩ ?_
          intro f' d' rest' hf hd hdest
          cases hf
          rw [hqueue] at hd
          cases hd
          exact absurd hdest hserver

theorem pairedThroughout_iff (hs : s.Paired) (es : List DnsEvent) :
    PairedThroughout g s es ↔ InOrder g s es := by
  induction es generalizing s with
  | nil => exact iff_of_true hs trivial
  | cons e es ih =>
    constructor
    · intro hpaired
      have hstep : (step g s e).Paired := by
        cases es with
        | nil => exact hpaired.2
        | cons e' es => exact hpaired.2.1
      exact ⟨(paired_step_iff hs e).mp hstep,(ih hstep).mp hpaired.2⟩
    · intro horder
      exact ⟨hs,(ih ((paired_step_iff hs e).mpr horder.1)).mpr horder.2⟩

theorem paired_new : new.Paired where
  answers := by
    intro a ha
    cases ha
  cache := by
    intro e he
    cases he
  directCache := by
    intro e he
    cases he

end Pairing

def fromServer (g : Group) (ds : List Datagram) : List Datagram :=
  ds.filter fun d => d.dest=g.server

/-- Nothing of the server waits but the reply in flight. -/
structure Expected (g : Group) (s : Forwarder) : Prop where
  held : ∀ f,s.flight=some f → ∃ node,s.session=some (node,f.session)
  sent : ∀ p∈s.sent,p.1 < s.dialled
  session : ∀ node n,s.session=some (node,n) → n < s.dialled
  origin : ∀ n,∀ d∈s.queue n,d.dest=g.server → (n,d.origin)∈s.sent
  waiting : ∀ node n,s.session=some (node,n) → fromServer g (s.queue n)=[] ∨
    ∃ f d,s.flight=some f ∧ fromServer g (s.queue n)=[d] ∧ transaction d.origin=transaction f.query

section Order

variable {g : Group} {s : Forwarder}

theorem fromServer_eq_nil_iff {ds : List Datagram} :
    fromServer g ds=[] ↔ ∀ d∈ds,d.dest≠g.server := by
  simp [fromServer,filter_eq_nil_iff]

theorem forall_session {node : String} {n : Nat} (hsession : s.session=some (node,n))
    {P : Nat → Prop} (hn : P n) : ∀ node' n',s.session=some (node',n') → P n' := by
  intro node' n' hsession'
  rw [hsession] at hsession'
  cases hsession'
  exact hn

theorem expected_new : Expected g new where
  held := by
    intro f hf
    cases hf
  sent := by
    intro p hp
    cases hp
  session := by
    intro node n hn
    cases hn
  origin := by
    intro n d hd
    cases hd
  waiting := by
    intro node n hn
    cases hn

variable (hs : Expected g s)
include hs

theorem Expected.idle (hflight : s.flight=none) {node : String} {n : Nat}
    (hsession : s.session=some (node,n)) : fromServer g (s.queue n)=[] := by
  rcases hs.waiting node n hsession with hnone | ⟨f,d,hf,-⟩
  · exact hnone
  · rw [hflight] at hf
    cases hf

theorem expected_answer (q : Asked) (r : Reply) (via : Via) :
    Expected g (s.answer q r via) :=
  ⟨hs.held,hs.sent,hs.session,hs.origin,hs.waiting⟩

theorem expected_fallBack (q : Asked) (direct : Option (List UInt8))
    (now : Nat) : Expected g (fallBack g s q direct now) := by
  cases direct with
  | none => exact hs
  | some payload => exact ⟨hs.held,hs.sent,hs.session,hs.origin,hs.waiting⟩

theorem expected_drop :
    Expected g { s with session := none,flight := none } where
  held := by
    intro f hf
    cases hf
  sent := hs.sent
  session := by
    intro node n hn
    cases hn
  origin := hs.origin
  waiting := by
    intro node n hn
    cases hn

theorem expected_send (q : Asked) {node : String} {n : Nat}
    (hsession : s.session=some (node,n)) (hnone : fromServer g (s.queue n)=[]) :
    Expected g { s with
      flight := some { q with session := n },sent := (n,q.query)::s.sent } where
  held := by
    intro f hf
    cases hf
    exact ⟨node,hsession⟩
  sent := by
    intro p hp
    rcases mem_cons.mp hp with rfl | hold
    · exact hs.session node n hsession
    · exact hs.sent p hold
  session := hs.session
  origin := by
    intro n' d hd hserver
    exact mem_cons_of_mem _ (hs.origin n' d hd hserver)
  waiting := forall_session hsession (.inl hnone)

theorem expected_dial (hflight : s.flight=none) (nodeKey : String) :
    fromServer g (s.queue s.dialled)=[] ∧ Expected g { s with
      session := some (nodeKey,s.dialled),dialled := s.dialled+1 } := by
  have hempty : fromServer g (s.queue s.dialled)=[] := by
    rw [fromServer_eq_nil_iff]
    intro d hd hserver
    exact absurd (hs.sent _ (hs.origin _ d hd hserver)) (Nat.lt_irrefl _)
  refine ⟨hempty,?_,?_,?_,hs.origin,?_⟩
  · intro f hf
    dsimp only at hf
    rw [hflight] at hf
    cases hf
  · intro p hp
    exact Nat.lt_succ_of_lt (hs.sent p hp)
  · intro node n hn
    cases hn
    exact Nat.lt_succ_self _
  · intro node n hn
    cases hn
    exact .inl hempty

theorem expected_forwardViaProxy (hflight : s.flight=none) (q : Asked)
    (nodeKey : String) (dials sends : Bool) (direct : Option (List UInt8)) (now : Nat) :
    Expected g (forwardViaProxy g s q nodeKey dials sends direct now) := by
  have hdrop : ∀ {s : Forwarder},Expected g s → s.flight=none →
      Expected g { s with session := none } := by
    intro s hs hflight
    have hs' := expected_drop hs
    rw [← hflight] at hs'
    exact hs'
  unfold forwardViaProxy
  rcases takeSession_cases s nodeKey dials with ⟨node,n,hsession,htake⟩ | htake | htake
  · rw [htake]
    dsimp only
    split_ifs
    · exact expected_send hs q hsession (hs.idle hflight hsession)
    · exact expected_fallBack (hdrop hs hflight) q direct now
  · obtain ⟨hempty,hdial⟩ := expected_dial hs hflight nodeKey
    rw [htake]
    dsimp only
    split_ifs
    · exact expected_send hdial q rfl hempty
    · exact expected_fallBack (hdrop hdial hflight) q direct now
  · rw [htake]
    exact expected_fallBack (hdrop hs hflight) q direct now

theorem expected_deliver {n : Nat} {d : Datagram}
    (htimely : TimelyStep g s (.deliver n d)) : Expected g (step g s (.deliver n d)) := by
  rw [step]
  by_cases hunsent : d.dest=g.server ∧ (n,d.origin)∉s.sent
  · rw [if_pos hunsent]
    exact hs
  rw [if_neg hunsent]
  refine ⟨hs.held,hs.sent,hs.session,?_,?_⟩
  · intro n' d' hd' hserver
    dsimp only at hd' ⊢
    by_cases hn : n'=n
    · subst hn
      rw [update_self,mem_append,mem_singleton] at hd'
      rcases hd' with hd' | rfl
      · exact hs.origin n' d' hd' hserver
      · by_contra hnot
        exact hunsent ⟨hserver,hnot⟩
    · rw [update_of_ne hn] at hd'
      exact hs.origin n' d' hd' hserver
  · intro node n' hsession
    have hsession : s.session=some (node,n') := hsession
    dsimp only
    by_cases hn : n'=n
    · subst hn
      rw [update_self,fromServer,filter_append]
      by_cases hserver : d.dest=g.server
      · obtain ⟨hreply,hnone⟩ := htimely hserver (by rw [hsession]; rfl)
        obtain ⟨f,hf,hreply⟩ := Option.map_eq_some_iff.mp hreply
        right
        refine ⟨f,d,hf,?_,hreply.symm⟩
        have hempty : (s.queue n').filter (fun d => d.dest=g.server)=[] :=
          fromServer_eq_nil_iff.mpr hnone
        rw [hempty]
        simp [hserver]
      · have hother : [d].filter (fun d => d.dest=g.server)=[] := by simp [hserver]
        rw [hother,append_nil]
        exact hs.waiting node n' hsession
    · rw [update_of_ne hn]
      exact hs.waiting node n' hsession

theorem Expected.inOrder {f : Flight} {d : Datagram} {rest : List Datagram}
    (hflight : s.flight=some f) (hqueue : s.queue f.session=d::rest)
    (hserver : d.dest=g.server) :
    transaction d.origin=transaction f.query ∧ fromServer g rest=[] := by
  obtain ⟨node,hsession⟩ := hs.held f hflight
  have hhead : fromServer g (d::rest)=d::fromServer g rest := by
    simp [fromServer,hserver]
  rcases hs.waiting node f.session hsession with hnone | ⟨f',d',hf',hone,hreply⟩
  · rw [hqueue,hhead] at hnone
    cases hnone
  · rw [hflight] at hf'
    cases hf'
    rw [hqueue,hhead,List.cons.injEq] at hone
    obtain ⟨rfl,hrest⟩ := hone
    exact ⟨hreply,hrest⟩

theorem expected_receive (now : Nat) :
    Expected g (step g s (.receive now)) := by
  rw [step]
  cases hflight : s.flight with
  | none => exact hs
  | some f =>
    dsimp only
    cases hqueue : s.queue f.session with
    | nil => exact hs
    | cons d rest =>
      obtain ⟨node,hsession⟩ := hs.held f hflight
      have horigin : ∀ n,∀ d'∈update s.queue f.session rest n,d'.dest=g.server →
          (n,d'.origin)∈s.sent := by
        intro n d' hd' hserver
        by_cases hn : n=f.session
        · subst hn
          rw [update_self] at hd'
          exact hs.origin _ d' (hqueue ▸ mem_cons_of_mem d hd') hserver
        · rw [update_of_ne hn] at hd'
          exact hs.origin n d' hd' hserver
      dsimp only
      by_cases hserver : d.dest=g.server
      · rw [if_pos hserver]
        refine expected_answer ?_ _ _ _
        refine ⟨?_,hs.sent,hs.session,horigin,?_⟩
        · intro f' hf'
          cases hf'
        · refine forall_session hsession (.inl ?_)
          dsimp only
          rw [update_self]
          exact (hs.inOrder hflight hqueue hserver).2
      · rw [if_neg hserver]
        refine ⟨fun f' hf' => hs.held f' (hflight ▸ hf'),hs.sent,hs.session,horigin,?_⟩
        refine forall_session hsession ?_
        dsimp only
        rw [update_self]
        have hwaiting := hs.waiting node f.session hsession
        have hskip : fromServer g (d::rest)=fromServer g rest := by
          simp [fromServer,hserver]
        rw [hqueue,hskip,hflight] at hwaiting
        exact hwaiting

theorem expected_timeout {direct : Option (List UInt8)} {now : Nat}
    (htimely : TimelyStep g s (.timeout direct now)) :
    Expected g (step g s (.timeout direct now)) := by
  rw [step]
  cases hflight : s.flight with
  | none => exact hs
  | some f =>
    obtain ⟨node,hsession⟩ := hs.held f hflight
    refine expected_fallBack ?_ f.toAsked direct now
    refine ⟨?_,hs.sent,hs.session,hs.origin,?_⟩
    · intro f' hf'
      cases hf'
    · rw [TimelyStep,hflight] at htimely
      exact forall_session hsession (.inl (fromServer_eq_nil_iff.mpr htimely))

theorem expected_step {e : DnsEvent} (htimely : TimelyStep g s e) :
    Expected g (step g s e) := by
  cases e with
  | lookup query now =>
    rw [step]
    split
    · exact hs
    · split
      · exact hs
      · exact expected_answer hs _ _ _
  | forward query nodeKey dials sends direct now =>
    rw [step]
    split
    · rename_i hflight _
      split
      · exact expected_answer hs _ _ _
      · exact expected_forwardViaProxy hs hflight _ _ _ _ _ _
    · exact hs
  | deliver n d => exact expected_deliver hs htimely
  | receive now => exact expected_receive hs now
  | receiveError direct now =>
    rw [step]
    cases hflight : s.flight with
    | none => exact hs
    | some f => exact expected_fallBack (expected_drop hs) f.toAsked direct now
  | timeout direct now => exact expected_timeout hs htimely

theorem inOrder_of_timely {es : List DnsEvent} (htimely : Timely g s es) :
    InOrder g s es := by
  induction es generalizing s with
  | nil => trivial
  | cons e es ih =>
    refine ⟨?_,ih (expected_step hs htimely.1) htimely.2⟩
    cases e with
    | receive now =>
      intro f d rest hflight hqueue hserver
      exact (hs.inOrder hflight hqueue hserver).1
    | _ => trivial

end Order

/-- In every run, all responses that are returned or stored are replies to their queries exactly
when every datagram of the server is, when it is received, a reply to the query in flight; in
particular when no reply is late or comes twice. -/
theorem session_replies_iff (g : Group) (es : List DnsEvent) :
    (PairedThroughout g new es ↔ InOrder g new es) ∧
      (Timely g new es → PairedThroughout g new es) :=
  ⟨pairedThroughout_iff paired_new es,fun htimely =>
      (pairedThroughout_iff paired_new es).mpr (inOrder_of_timely expected_new htimely)⟩

def dnsGroup : Group := ⟨Env.empty,[],.group "g", "g",(.v4 0x08080808,53),true⟩

def letterQuery (id letter : UInt8) : List UInt8 := [0,id,1,0,0,1,0,0,0,0,0,0,1,letter,0,0,1,0,1]

def letterResponse (id letter : UInt8) : List UInt8 :=
  [0,id,0x81,0x80,0,1,0,1,0,0,0,0,1,letter,0,0,1,0,1,0xC0,0x0C,0,1,0,1,0,0,1,44,0,4,192,0,2,letter]

def letterReply (id letter : UInt8) : Datagram :=
  ⟨⟨letterResponse id letter,letterQuery id letter⟩,dnsGroup.server⟩

theorem session_replies_in_turn :
    let es : List DnsEvent :=
      [.forward (letterQuery 1 97) "n" true true none 0,.deliver 0 (letterReply 1 97),.receive 1,
        .forward (letterQuery 2 98) "n" true true none 2,.deliver 0 (letterReply 2 98),.receive 3]
    Timely dnsGroup new es ∧ PairedThroughout dnsGroup new es ∧
      (run dnsGroup es).answers.map (fun a => (a.query,a.reply.payload)) =
        [(letterQuery 2 98,letterResponse 2 98),(letterQuery 1 97,letterResponse 1 97)] := by
  intro es
  have htimely : Timely dnsGroup new es := by decide +kernel
  exact ⟨htimely,(session_replies_iff dnsGroup es).2 htimely,by decide +kernel⟩

/-- The reply to a query that timed out is taken for the reply to the next one, for another name,
and stored under it, where a third query finds it. -/
theorem late_reply_taken :
    let es : List DnsEvent := [.forward (letterQuery 1 97) "n" true true none 0,.timeout none 1,
        .deliver 0 (letterReply 1 97),.forward (letterQuery 2 98) "n" true true none 2,.receive 3,
        .lookup (letterQuery 3 98) 4]
    transaction (letterQuery 1 97)≠transaction (letterQuery 2 98) ∧
      (run dnsGroup es).answers.map (fun a => (a.query,a.reply.payload,a.reply.origin)) =
        [(letterQuery 3 98,letterResponse 3 97,letterQuery 1 97),
          (letterQuery 2 98,letterResponse 1 97,letterQuery 1 97)] ∧
      ((run dnsGroup es).cache.get 4 ⟨"b",1,false,false⟩).map (·.payload) =
        some (letterResponse 1 97) := by
  decide +kernel

end Forwarder

end DaeRs.Dns
