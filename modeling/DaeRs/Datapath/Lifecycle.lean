import DaeRs.Datapath.Hooks

/-! TCP connections in `conn_state_map`, over sequences of packets. -/

namespace DaeRs.Datapath

open Bpf Net Control List Function

/-- What changes the map: a packet at a hook, and the deletion of an entry, which the map itself
evicts or the janitor removes. -/
inductive FlowEvent where
  | packet (h : Hook) (k : Kernel) (a : Arrival)
  | delete (key : TuplesKey)

namespace FlowEvent

def step (m : ConnStateMap) : FlowEvent → ConnStateMap
  | packet h k a => update m (h.key a) (h.handle k a (m (h.key a))).entry
  | delete key => update m key none

def run (m : ConnStateMap) (es : List FlowEvent) : ConnStateMap := es.foldl step m

def isSyn (key : TuplesKey) : FlowEvent → Bool
  | packet h _ a => decide (h.key a=key) && a.isTcp && isNewTcpConnection a.pkt.tcph
  | delete _ => false

def isFin (key : TuplesKey) : FlowEvent → Bool
  | packet h _ a => decide (h.key a=key) && a.isTcp && isFinRst a.pkt.tcph
  | delete _ => false

def routesSyn : FlowEvent → Option RouteResult
  | packet h k a => h.routesSyn k a
  | delete _ => none

def latestSyn (key : TuplesKey) (es : List FlowEvent) : Option FlowEvent :=
  (es.filter (isSyn key)).getLast?

/-- The WAN hook passes a SYN on to the connection tracking: it was not received elsewhere, is not
the control plane's own, and can be routed. -/
def tracked : FlowEvent → Bool
  | packet .wanEgress k a =>
    !a.forwarded && !pidIsControlPlane k a && (routed k a true).isSome
  | _ => true

end FlowEvent

/-- What a packet may do to a TCP entry. -/
inductive TcpChange (h : Hook) (k : Kernel) (a : Arrival) (entry : Option ConnState) :
    Option ConnState → Prop where
  | skipped (hsyn : isNewTcpConnection a.pkt.tcph=false) : TcpChange h k a entry entry
  | restarted {s : ConnState} (hsyn : isNewTcpConnection a.pkt.tcph=true)
      (hstate : s.state=.active) (hdecision : ∀ r,s.decision=some r → h.routesSyn k a=some r) :
      TcpChange h k a entry (some s)
  | unstored (hsyn : isNewTcpConnection a.pkt.tcph=true) : TcpChange h k a entry none
  | kept {s s' : ConnState} (hsyn : isNewTcpConnection a.pkt.tcph=false) (hentry : entry=some s)
      (hkept : s.Kept s') (hstate : s'.state=if isFinRst a.pkt.tcph then .closing else s.state) :
      TcpChange h k a entry (some s')
  | absent (hsyn : isNewTcpConnection a.pkt.tcph=false) : TcpChange h k a entry none

section Handle

variable {h : Hook} {k : Kernel} {a : Arrival} {entry : Option ConnState}

theorem tcpChange_mark (generation : UInt16) (direction : Bool) (dscp : UInt8) :
    TcpChange h k a entry
      (markTcpSeen generation a.nowNs a.fits direction a.pkt.tcph (.refresh dscp) entry) := by
  by_cases hsyn : isNewTcpConnection a.pkt.tcph=true
  · rw [markTcpSeen_syn _ _ _ hsyn]
    cases a.fits with
    | false => exact .unstored hsyn
    | true =>
      refine .restarted hsyn rfl ?_
      intro r hr
      cases hr
  · have hother : isNewTcpConnection a.pkt.tcph=false := by simpa using hsyn
    rcases markTcpSeen_other generation a.fits direction dscp entry hother with
      ⟨s,s',hentry,-,hkept,hstate,heq⟩ | ⟨-,heq⟩
    · rw [heq]
      exact .kept hother hentry hkept hstate
    · rw [heq]
      exact .absent hother

theorem lanIngressTcp_entry : (lanIngressTcp k a entry).entry =
    markTcpSeen k.param.datapathGeneration a.nowNs a.fits false a.pkt.tcph (.refresh 0) entry := by
  unfold lanIngressTcp
  dsimp only
  split
  · rfl
  · split_ifs <;> rfl

theorem lanRoute_entry : (lanRoute k a entry).entry=match routed k a false with
    | none => entry
    | some (r,slot) => entry.map fun s => { s with
      mac := a.pkt.ethh.hSource
      routingEpochSlot := slot
      datapathGeneration := k.param.datapathGeneration
      routing := buildRoutingMeta r a.pkt.tuples.dscp } := by
  unfold lanRoute
  cases routed k a false <;> rfl

theorem lanIngress_tcpChange (htcp : a.isTcp=true) :
    TcpChange .lanIngress k a entry (doTproxyLanIngress k a entry).entry := by
  unfold doTproxyLanIngress
  rw [if_pos htcp]
  by_cases hsyn : isNewTcpConnection a.pkt.tcph=true
  · rw [hsyn,Bool.not_true,if_neg Bool.false_ne_true,lanRoute_entry,markTcpSeen_syn _ _ _ hsyn]
    cases a.fits with
    | false =>
      split
      all_goals exact .unstored hsyn
    | true =>
      split
      · refine .restarted hsyn rfl ?_
        intro r hr
        cases hr
      · rename_i r slot hroute
        refine .restarted hsyn rfl ?_
        intro r' hr
        cases hr
        exact congrArg (Option.map Prod.fst) hroute
  · rw [if_pos (by simpa using hsyn),lanIngressTcp_entry]
    exact tcpChange_mark _ _ _

theorem wanEgressTcp_tcpChange (hsyn : isNewTcpConnection a.pkt.tcph=true)
    (hforwarded : a.forwarded=false) (hpid : pidIsControlPlane k a=false)
    (hroute : (routed k a true).isSome=true) :
    TcpChange .wanEgress k a entry (doTproxyWanEgressTcp k a entry).entry := by
  obtain ⟨⟨r,slot⟩,hr⟩ := Option.isSome_iff_exists.mp hroute
  unfold doTproxyWanEgressTcp
  simp only [hsyn,if_true,hpid,Bool.false_eq_true,if_false,hr]
  generalize hargs :
    ConntrackArgs.mk (if isPlainDirect r=true then none else some (r,slot)) _ _ _ _ =
    args
  cases hentry :
    markTcpSeen k.param.datapathGeneration a.nowNs a.fits false a.pkt.tcph args entry with
  | none => exact .unstored hsyn
  | some s =>
    obtain ⟨hstate,hdecision⟩ := markTcpSeen_syn_decision _ _ _ hsyn hentry
    refine .restarted hsyn hstate ?_
    intro r' hr'
    rw [hdecision,← hargs] at hr'
    by_cases hplain : isPlainDirect r=true
    · simp [hplain] at hr'
    · have heq : r=r' := by simpa [hplain] using hr'
      rw [← heq]
      simp only [Hook.routesSyn,hforwarded,hpid,Bool.or_self,Bool.false_eq_true,if_false,hr,
        Option.map_some]

theorem wanEgressTcp_entry (hsyn : isNewTcpConnection a.pkt.tcph=false) :
    (doTproxyWanEgressTcp k a entry).entry =
      markTcpSeen k.param.datapathGeneration a.nowNs a.fits false a.pkt.tcph (.refresh 0) entry := by
  unfold doTproxyWanEgressTcp
  simp only [hsyn,Bool.false_eq_true,if_false]
  split
  · rfl
  · split_ifs <;> rfl

theorem handle_tcpChange (htcp : a.isTcp=true)
    (htracked : isNewTcpConnection a.pkt.tcph=true → (FlowEvent.packet h k a).tracked=true) :
    TcpChange h k a entry (h.handle k a entry).entry := by
  have hreversed : (refreshReversed k a entry).entry =
      markTcpSeen k.param.datapathGeneration a.nowNs a.fits true a.pkt.tcph (.refresh 0) entry := by
    simp only [refreshReversed,htcp,if_true]
  cases h with
  | lanEgress | wanIngress =>
    rw [Hook.handle,hreversed]
    exact tcpChange_mark _ _ _
  | lanIngress => exact lanIngress_tcpChange htcp
  | wanEgress =>
    rw [Hook.handle,doTproxyWanEgress]
    by_cases hsyn : isNewTcpConnection a.pkt.tcph=true
    · have hcond := htracked hsyn
      simp only [FlowEvent.tracked,Bool.and_eq_true,Bool.not_eq_true'] at hcond
      obtain ⟨⟨hforwarded,hpid⟩,hroute⟩ := hcond
      rw [hforwarded,if_neg Bool.false_ne_true,if_pos htcp]
      exact wanEgressTcp_tcpChange hsyn hforwarded hpid hroute
    · have hother : isNewTcpConnection a.pkt.tcph=false := by simpa using hsyn
      by_cases hforwarded : a.forwarded=true
      · rw [if_pos hforwarded]
        exact .skipped hother
      · rw [if_neg hforwarded,if_pos htcp,wanEgressTcp_entry hother]
        exact tcpChange_mark _ _ _

end Handle

theorem Hook.key_l4proto (h : Hook) (a : Arrival) : (h.key a).l4proto=a.pkt.l4proto := by
  obtain ⟨iph,ipv6h,heq⟩ := a.tuples_eq
  have hfive : a.pkt.tuples.five.l4proto=a.pkt.l4proto := by
    rw [heq]
    rfl
  cases h <;> exact hfive

theorem Hook.isTcp_iff (h : Hook) (a : Arrival) : a.isTcp=true ↔ (h.key a).l4proto=ipprotoTcp := by
  rw [Arrival.isTcp,h.key_l4proto a,decide_eq_true_iff]

def Current (key : TuplesKey) (es : List FlowEvent) (entry : Option ConnState) : Prop :=
  ∀ s r,entry=some s → s.decision=some r →
    ∃ syn,FlowEvent.latestSyn key es=some syn ∧ syn.routesSyn=some r

structure Lifecycle (key : TuplesKey) (before : List FlowEvent) (e : FlowEvent)
    (entry entry' : Option ConnState) : Prop where
  created : entry=none → entry'≠none → e.isSyn key=true
  restarted : e.isSyn key=true → ∀ s r,entry'=some s → s.decision=some r → e.routesSyn=some r
  closing : ∀ s',entry'=some s' → s'.state=.closing →
    e.isFin key=true ∨ ∃ s,entry=some s ∧ s.state=.closing
  closed : ∀ s,entry=some s → s.state=.closing →
    e.isSyn key=true ∨ entry'=none ∨ ∃ s',entry'=some s' ∧ s'.state=.closing
  current : Current key (before++[e]) entry'

namespace FlowEvent

variable {key : TuplesKey} {es : List FlowEvent} {e : FlowEvent}

theorem run_append_singleton (m : ConnStateMap) (es : List FlowEvent) (e : FlowEvent) :
    run m (es++[e])=e.step (run m es) := by
  rw [run,run,foldl_append]
  rfl

theorem latestSyn_syn (h : e.isSyn key=true) : latestSyn key (es++[e])=some e := by
  rw [latestSyn,filter_append,filter_singleton,h,getLast?_append]
  rfl

theorem latestSyn_other (h : e.isSyn key=false) : latestSyn key (es++[e])=latestSyn key es := by
  rw [latestSyn,filter_append,filter_singleton,h,latestSyn]
  simp

end FlowEvent

section Step

variable {key : TuplesKey} {before : List FlowEvent} {e : FlowEvent}
  {entry entry' : Option ConnState}

theorem Lifecycle.of_none : Lifecycle key before e entry none := by
  refine ⟨fun _ hsome => absurd rfl hsome,?_,?_,fun _ _ _ => .inr (.inl rfl),?_⟩
  · intro _ s r hs
    cases hs
  · intro s hs
    cases hs
  · intro s r hs
    cases hs

theorem Lifecycle.of_same (hsyn : e.isSyn key=false) (hcurrent : Current key before entry) :
    Lifecycle key before e entry entry := by
  refine ⟨fun hnone hsome => absurd hnone hsome,?_,?_,?_,?_⟩
  · intro h
    rw [hsyn] at h
    cases h
  · exact fun s hs hclosing => .inr ⟨s,hs,hclosing⟩
  · exact fun s hs hclosing => .inr (.inr ⟨s,hs,hclosing⟩)
  · intro s r hs hr
    rw [FlowEvent.latestSyn_other hsyn]
    exact hcurrent s r hs hr

theorem Lifecycle.of_tcpChange {h : Hook} {k : Kernel} {a : Arrival} (hkey : h.key a=key)
    (htcp : a.isTcp=true) (hcurrent : Current key before entry)
    (hchange : TcpChange h k a entry entry') :
    Lifecycle key before (.packet h k a) entry entry' := by
  have hisSyn : (FlowEvent.packet h k a).isSyn key=isNewTcpConnection a.pkt.tcph := by
    simp [FlowEvent.isSyn,hkey,htcp]
  have hisFin : (FlowEvent.packet h k a).isFin key=isFinRst a.pkt.tcph := by
    simp [FlowEvent.isFin,hkey,htcp]
  cases hchange with
  | skipped hsyn => exact .of_same (hisSyn.trans hsyn) hcurrent
  | absent hsyn | unstored hsyn => exact .of_none
  | @restarted s hsyn hstate hdecision =>
    have hown : (FlowEvent.packet h k a).isSyn key=true := hisSyn.trans hsyn
    refine ⟨fun _ _ => hown,?_,?_,fun _ _ _ => .inl hown,?_⟩
    · intro _ s' r hs hr
      cases hs
      exact hdecision r hr
    · intro s' hs hclosing
      cases hs
      rw [hstate] at hclosing
      cases hclosing
    · intro s' r hs hr
      cases hs
      exact ⟨_,FlowEvent.latestSyn_syn hown,hdecision r hr⟩
  | @kept s s' hsyn hentry hkept hstate =>
    have hnot : (FlowEvent.packet h k a).isSyn key=false := hisSyn.trans hsyn
    refine ⟨?_,?_,?_,?_,?_⟩
    · intro hnone
      rw [hentry] at hnone
      cases hnone
    · intro h
      rw [hnot] at h
      cases h
    · intro s'' hs hclosing
      cases hs
      rw [hstate] at hclosing
      by_cases hfin : isFinRst a.pkt.tcph=true
      · exact .inl (hisFin.trans hfin)
      · rw [if_neg hfin] at hclosing
        exact .inr ⟨s,hentry,hclosing⟩
    · intro s'' hs hclosing
      rw [hentry] at hs
      cases hs
      refine .inr (.inr ⟨s',rfl,?_⟩)
      rw [hstate,hclosing,ite_self]
    · intro s'' r hs hr
      cases hs
      rw [FlowEvent.latestSyn_other hnot]
      exact hcurrent s r hentry (hkept.decision ▸ hr)

theorem step_lifecycle (hkey : key.l4proto=ipprotoTcp) {m : ConnStateMap}
    (hcurrent : Current key before (m key)) (htracked : e.isSyn key=true → e.tracked=true) :
    Lifecycle key before e (m key) (e.step m key) := by
  cases e with
  | delete k =>
    rw [FlowEvent.step]
    by_cases hk : key=k
    · rw [hk,update_self]
      exact .of_none
    · rw [update_of_ne hk]
      exact .of_same rfl hcurrent
  | packet h k a =>
    by_cases hk : h.key a=key
    · have htcp : a.isTcp=true := (h.isTcp_iff a).2 (hk ▸ hkey)
      have hentry : (FlowEvent.packet h k a).step m key=(h.handle k a (m key)).entry := by
        rw [FlowEvent.step,hk,update_self]
      rw [hentry]
      refine .of_tcpChange hk htcp hcurrent (handle_tcpChange htcp ?_)
      intro hsyn
      exact htracked (by simp [FlowEvent.isSyn,hk,htcp,hsyn])
    · rw [FlowEvent.step,update_of_ne (Ne.symm hk)]
      refine .of_same ?_ hcurrent
      simp [FlowEvent.isSyn,hk]

end Step

theorem run_current {key : TuplesKey} (hkey : key.l4proto=ipprotoTcp) (es : List FlowEvent)
    (htracked : ∀ e∈es,e.isSyn key=true → e.tracked=true) :
    Current key es (FlowEvent.run (fun _ => none) es key) := by
  induction es using reverseRecOn with
  | nil =>
    intro s r hs
    cases hs
  | append_singleton es e ih =>
    have hcurrent := ih fun x hx => htracked x (by simp [hx])
    rw [FlowEvent.run_append_singleton]
    exact (step_lifecycle hkey hcurrent (htracked e (by simp))).current

/-- In every run in which the WAN hook tracks the SYNs that it sees, each event treats the entry of
a TCP connection as the life cycle asks: only a SYN creates it, with no decision but its own; only a
FIN or RST closes it, until a SYN or its deletion; a decision in it is the one made for the latest
SYN. -/
theorem tcp_lifecycle {key : TuplesKey} (hkey : key.l4proto=ipprotoTcp) (before : List FlowEvent)
    (e : FlowEvent) (htracked : ∀ x∈before++[e],x.isSyn key=true → x.tracked=true) :
    Lifecycle key before e (FlowEvent.run (fun _ => none) before key)
      (FlowEvent.run (fun _ => none) (before++[e]) key) := by
  have hcurrent := run_current hkey before fun x hx => htracked x (by simp [hx])
  rw [FlowEvent.run_append_singleton]
  exact step_lifecycle hkey hcurrent (htracked e (by simp))

/-- Every packet is routed to the first group; process 77 is the control plane. -/
def proxyKernel : Kernel where
  param := ⟨77,0,0⟩
  maps := { loadedMaps with
    routingMap := fun _ => ⟨.fallback,false,2,false,0⟩
    routingMetaMap := fun _ => 1 }
  connectivity := fun _ => none

def tcpHeader (syn ack fin : Bool) : Tcphdr :=
  ⟨htons 49152,htons 443,1,0,5,fin,syn,false,false,ack,false,0⟩

def tcpArrival (tcph : Tcphdr) (pid : UInt32) (nowNs : UInt64) : Arrival where
  pkt :=
    let c := ParseTransportCtx.zero
    ⟨⟨0,0,htons ethPIp⟩,getTuples ⟨4,5,0,0,ipprotoTcp,0x0a000001,0x01010101⟩ c.ipv6h tcph
      c.udph ipprotoTcp,tcph,c.udph,ipprotoTcp,0⟩
  transport := .inl rfl
  tuples_eq := ⟨_,_,rfl⟩
  protocol := htons ethPIp
  linkHLen := 0
  ingressIfindex := 0
  ifindex := 2
  mark := 0
  cookiePid := some ⟨pid,0⟩
  nowNs
  laterNs := nowNs
  fits := true
  localSocket := false
  prepared := true
  handed := true

def tcpFlow : TuplesKey :=
  ⟨(IpAddr.v4 0x0a000001).mapped,(IpAddr.v4 0x01010101).mapped,htons 49152,htons 443,ipprotoTcp⟩

theorem tcp_lifecycle_closed :
    let syn := FlowEvent.packet .wanEgress proxyKernel (tcpArrival (tcpHeader true false false) 5 1)
    let fin := FlowEvent.packet .wanEgress proxyKernel (tcpArrival (tcpHeader false true true) 5 2)
    Lifecycle tcpFlow [syn] fin (FlowEvent.run (fun _ => none) [syn] tcpFlow)
        (FlowEvent.run (fun _ => none) ([syn]++[fin]) tcpFlow) ∧
      (FlowEvent.run (fun _ => none) [syn,fin] tcpFlow).map (fun s => (s.state,s.decision)) =
        some (.closing,some ⟨2,0,false⟩) := by
  refine ⟨tcp_lifecycle rfl _ _ ?_,by decide +kernel⟩
  decide +kernel

/-- The control plane's own SYN from the same port leaves the entry, and the next segment is
redirected by the decision of the old connection. -/
theorem syn_keeps_old_decision :
    let old := FlowEvent.packet .wanEgress proxyKernel (tcpArrival (tcpHeader true false false) 5 1)
    let syn := FlowEvent.packet .wanEgress proxyKernel (tcpArrival (tcpHeader true false false) 77 2)
    syn.isSyn tcpFlow=true ∧ syn.routesSyn=none ∧
      (FlowEvent.run (fun _ => none) [old,syn] tcpFlow).map (fun s => (s.lastSeenNs,s.decision)) =
        some (1,some ⟨2,0,false⟩) ∧
      (Hook.wanEgress.handle proxyKernel (tcpArrival (tcpHeader false true false) 77 3)
        (FlowEvent.run (fun _ => none) [old,syn] tcpFlow)).act=.redirect := by
  decide +kernel

end DaeRs.Datapath
