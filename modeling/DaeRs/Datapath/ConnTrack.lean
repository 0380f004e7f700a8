import DaeRs.Datapath.Packet

/-! `conn_state_map`: what is kept of a flow, and what a packet makes of it. An entry is looked up,
deleted, changed in place and inserted under one key only, so a function of the source is one on
what the map has under that key. -/

namespace DaeRs.Datapath

open Bpf Control

/-- The `state` of an entry; those of UDP flows stay active. -/
inductive TcpState where
  | active
  | closing
  deriving DecidableEq

/-- The decision in a `conn_state` entry. -/
structure RoutingMeta where
  mark : UInt32
  outbound : UInt8
  must : Bool
  dscp : UInt8
  hasRouting : Bool
  deriving DecidableEq

def buildRoutingMeta (r : RouteResult) (dscp : UInt8) : RoutingMeta :=
  ⟨r.mark,r.outbound,r.must,dscp,true⟩

def RoutingMeta.result (x : RoutingMeta) : RouteResult := ⟨x.outbound,x.mark,x.must⟩

/-- `struct conn_state`, in `conn_state_map`. -/
structure ConnState where
  isWanIngressDirection : Bool
  state : TcpState
  lastSeenNs : UInt64
  routing : RoutingMeta
  mac : Mac
  pname : Bytes16
  pid : UInt32
  routingEpochSlot : UInt8
  datapathGeneration : UInt16
  deriving DecidableEq

abbrev ConnStateMap := TuplesKey → Option ConnState

def routingEpochSlotUnknown : UInt8 := 0

def routingEpochSlotSanitize (encoded : UInt8) : UInt8 :=
  if encoded.toNat ≤ routingEpochSlotNum then encoded else routingEpochSlotUnknown

/-- `struct conntrack_args`; what stands behind a flag is there or not. A result comes with its
epoch slot. -/
structure ConntrackArgs where
  routing : Option (RouteResult×UInt8)
  mac : Option Mac
  dscp : UInt8
  pname : Option Bytes16
  pid : UInt32

def ConntrackArgs.refresh (dscp : UInt8) : ConntrackArgs := ⟨none,none,dscp,none,0⟩

namespace ConnState

def decision (s : ConnState) : Option RouteResult :=
  if s.routing.hasRouting then some s.routing.result else none

def publish (s : ConnState) (generation : UInt16) (args : ConntrackArgs) : ConnState :=
  match args.routing with
  | none => s
  | some (r,slot) =>
    { s with
      mac := args.mac.getD s.mac
      pname := args.pname.getD s.pname
      pid := args.pid
      routingEpochSlot := routingEpochSlotSanitize slot
      datapathGeneration := generation
      routing := buildRoutingMeta r args.dscp }

def fresh (isWanIngressDirection : Bool) (nowNs : UInt64) (args : ConntrackArgs) : ConnState where
  isWanIngressDirection
  state := .active
  lastSeenNs := nowNs
  routing := ⟨0,0,false,args.dscp,false⟩
  mac := 0
  pname := 0
  pid := args.pid
  routingEpochSlot := 0
  datapathGeneration := 0

def touch (s : ConnState) (nowNs : UInt64) : ConnState :=
  if nowNs-s.lastSeenNs > 1000000000 then { s with lastSeenNs := nowNs } else s

end ConnState

def udpConnStateTimeoutNs : UInt64 := 120000000000
def tcpConnStateClosingTimeoutNs : UInt64 := 10000000000

def udpConnStateExpired (s : ConnState) (nowNs : UInt64) : Bool :=
  decide (nowNs-s.lastSeenNs > udpConnStateTimeoutNs)

def tcpConnStateExpired (s : ConnState) (nowNs : UInt64) : Bool :=
  decide (s.state=.closing) && decide (nowNs-s.lastSeenNs > tcpConnStateClosingTimeoutNs)

def isNewTcpConnection (tcph : Tcphdr) : Bool := tcph.syn && !tcph.ack

def isFinRst (tcph : Tcphdr) : Bool := tcph.fin || tcph.rst

section Mark

variable (generation : UInt16) (nowNs : UInt64) (fits isWanIngressDirection : Bool)

/-- `__mark_udp_seen`. A new entry is not stored when the map has no room for it; what is returned
is what the map has afterwards. -/
def markUdpSeen (args : ConntrackArgs) (entry : Option ConnState) : Option ConnState :=
  match entry.filter fun s => !udpConnStateExpired s nowNs with
  | some s => some ((s.touch nowNs).publish generation args)
  | none =>
    if fits then some ((ConnState.fresh isWanIngressDirection nowNs args).publish generation args)
    else none

def markTcpSeen (tcph : Tcphdr) (args : ConntrackArgs) (entry : Option ConnState) :
    Option ConnState :=
  match entry.filter fun s => !isNewTcpConnection tcph && !tcpConnStateExpired s nowNs with
  | some s =>
    let s := s.touch nowNs
    let s := if isFinRst tcph then { s with state := .closing } else s
    some (s.publish generation args)
  | none =>
    -- packets other than a SYN never allocate an entry
    if isNewTcpConnection tcph && fits then
      some ((ConnState.fresh isWanIngressDirection nowNs args).publish generation args)
    else none

end Mark

def copyReversedTuples (key : TuplesKey) : TuplesKey :=
  ⟨key.dip,key.sip,key.dport,key.sport,key.l4proto⟩

namespace ConnState

variable (s : ConnState) (generation : UInt16)

@[simp] theorem publish_refresh (dscp : UInt8) : s.publish generation (.refresh dscp)=s := rfl

@[simp] theorem touch_state (nowNs : UInt64) : (s.touch nowNs).state=s.state := by
  unfold touch
  split_ifs <;> rfl

@[simp] theorem touch_routing (nowNs : UInt64) : (s.touch nowNs).routing=s.routing := by
  unfold touch
  split_ifs <;> rfl

@[simp] theorem touch_direction (nowNs : UInt64) :
    (s.touch nowNs).isWanIngressDirection=s.isWanIngressDirection := by
  unfold touch
  split_ifs <;> rfl

@[simp] theorem fresh_decision (direction : Bool) (nowNs : UInt64) (args : ConntrackArgs) :
    (fresh direction nowNs args).decision=none := rfl

theorem publish_state (args : ConntrackArgs) : (s.publish generation args).state=s.state := by
  unfold publish
  split <;> rfl

theorem publish_decision (args : ConntrackArgs) :
    (s.publish generation args).decision=(args.routing.map Prod.fst).or s.decision := by
  unfold publish
  split
  · rename_i h
    rw [h]
    rfl
  · rename_i r slot h
    rw [h]
    rfl

/-- The entry is the same up to the time and the state of the connection. -/
structure Kept (s s' : ConnState) : Prop where
  direction : s'.isWanIngressDirection=s.isWanIngressDirection
  routing : s'.routing=s.routing

theorem Kept.decision {s s' : ConnState} (h : Kept s s') : s'.decision=s.decision := by
  rw [ConnState.decision,ConnState.decision,h.routing]

theorem Kept.trans {s s' s'' : ConnState} (h : Kept s s') (h' : Kept s' s'') : Kept s s'' :=
  ⟨h'.direction.trans h.direction,h'.routing.trans h.routing⟩

end ConnState

section Mark

variable (generation : UInt16) {nowNs : UInt64} (fits direction : Bool) {tcph : Tcphdr}
  (dscp : UInt8) {entry : Option ConnState} {s : ConnState}

theorem markTcpSeen_other (entry : Option ConnState) (hsyn : isNewTcpConnection tcph=false) :
    (∃ s s',entry=some s ∧ tcpConnStateExpired s nowNs=false ∧ ConnState.Kept s s' ∧
      s'.state=(if isFinRst tcph then .closing else s.state) ∧
      markTcpSeen generation nowNs fits direction tcph (.refresh dscp) entry=some s') ∨
    ((∀ s,entry=some s → tcpConnStateExpired s nowNs=true) ∧
      markTcpSeen generation nowNs fits direction tcph (.refresh dscp) entry=none) := by
  unfold markTcpSeen
  cases entry with
  | none => exact .inr ⟨by simp,by simp [hsyn]⟩
  | some s =>
    by_cases hexp : tcpConnStateExpired s nowNs=true
    · have hdrop : (some s).filter (fun s => !isNewTcpConnection tcph &&
          !tcpConnStateExpired s nowNs)=none := by
        simp [hexp]
      refine .inr ⟨?_,?_⟩
      · intro s' hs'
        cases hs'
        exact hexp
      · rw [hdrop]
        simp only [hsyn,Bool.false_and,Bool.false_eq_true,if_false]
    · have hkeep : (some s).filter (fun s => !isNewTcpConnection tcph &&
          !tcpConnStateExpired s nowNs)=some s := by
        simp [hsyn,hexp]
      simp only [hkeep,ConnState.publish_refresh]
      by_cases hfin : isFinRst tcph=true
      all_goals exact .inl ⟨s,_,rfl,by simpa using hexp,⟨by simp [hfin],by simp [hfin]⟩,
        by simp [hfin],rfl⟩

theorem markTcpSeen_syn (hsyn : isNewTcpConnection tcph=true) (args : ConntrackArgs) :
    markTcpSeen generation nowNs fits direction tcph args entry =
      if fits then some ((ConnState.fresh direction nowNs args).publish generation args)
      else none := by
  have hdrop : entry.filter (fun s => !isNewTcpConnection tcph && !tcpConnStateExpired s nowNs) =
      none := by
    cases entry <;> simp [hsyn]
  rw [markTcpSeen,hdrop]
  simp only [hsyn,Bool.true_and]

theorem markTcpSeen_syn_decision (hsyn : isNewTcpConnection tcph=true) {args : ConntrackArgs}
    (h : markTcpSeen generation nowNs fits direction tcph args entry=some s) :
    s.state=.active ∧ s.decision=args.routing.map Prod.fst := by
  rw [markTcpSeen_syn _ _ _ hsyn] at h
  cases hfits : fits with
  | false =>
    rw [hfits] at h
    cases h
  | true =>
    rw [hfits] at h
    cases h
    rw [ConnState.publish_state,ConnState.publish_decision,ConnState.fresh_decision,Option.or_none]
    exact ⟨rfl,rfl⟩

theorem markUdpSeen_live (hlive : udpConnStateExpired s nowNs=false) :
    ∃ s',ConnState.Kept s s' ∧ s'.state=s.state ∧
      markUdpSeen generation nowNs fits direction (.refresh dscp) (some s)=some s' := by
  have hkeep : (some s).filter (fun s => !udpConnStateExpired s nowNs)=some s := by
    simp [hlive]
  refine ⟨s.touch nowNs,⟨by simp,by simp⟩,by simp,?_⟩
  simp only [markUdpSeen,hkeep,ConnState.publish_refresh]

theorem markUdpSeen_new (hnew : ∀ s,entry=some s → udpConnStateExpired s nowNs=true) :
    markUdpSeen generation nowNs fits direction (.refresh dscp) entry =
      if fits then some (ConnState.fresh direction nowNs (.refresh dscp)) else none := by
  have hdrop : entry.filter (fun s => !udpConnStateExpired s nowNs)=none := by
    cases entry with
    | none => rfl
    | some s => simp [hnew s rfl]
  simp only [markUdpSeen,hdrop,ConnState.publish_refresh]

end Mark

end DaeRs.Datapath
