import DaeRs.Control.Commit

/-! TCP connections after their SYN: how later packets are handled, by the decision that was made
for the SYN, or by one that an older connection left behind. -/

namespace DaeRs.Datapath

open Bpf Net Control List Option Function

def HandoffEntry.result (e : HandoffEntry) : RouteResult := ⟨e.outbound,e.mark,e.must⟩

/-- What becomes of a packet; one that is redirected may come with a decision. -/
inductive Fate where
  | passed
  | dropped
  | redirected (handoff : Option RouteResult)
  deriving DecidableEq

def Verdict.fate (v : Verdict) : Fate :=
  match v.act with
  | .ok _ | .pipe => .passed
  | .shot => .dropped
  | .redirect => .redirected (v.handoff.map HandoffEntry.result)

namespace Hook

def passes (h : Hook) (r : RouteResult) : Bool :=
  match h with
  | lanEgress | wanIngress => true
  | lanIngress => decide (r.outbound=Outbound.direct)
  | wanEgress => !wanEgressNeedsControlPlane r

def fateOf (h : Hook) (a : Arrival) (r : RouteResult) : Fate :=
  if h.passes r then .passed
  else if r.outbound=Outbound.block then .dropped
  else if a.prepared then .redirected (if a.handed then some r else none)
  else .dropped

def reversed : Hook → Bool
  | lanEgress | wanIngress => true
  | lanIngress | wanEgress => false

end Hook

section Fate

variable {h : Hook} {k : Kernel} {a : Arrival} {s : ConnState} {entry : Option ConnState}
  {r : RouteResult}

theorem redirectLan_fate (a : Arrival) (routing : RoutingMeta) (slot : UInt8)
    (generation : UInt16) : (redirectLanPacketToControlPlane a routing slot generation).fate =
      if a.prepared then .redirected (if a.handed then some routing.result else none)
      else .dropped := by
  unfold redirectLanPacketToControlPlane
  cases a.prepared with
  | false => rfl
  | true => cases a.handed <;> rfl

theorem lanCached_fate (a : Arrival) (s : ConnState) :
    (lanCached a s).fate=Hook.lanIngress.fateOf a s.routing.result := by
  unfold lanCached Hook.fateOf Hook.passes
  have hout : s.routing.outbound=s.routing.result.outbound := rfl
  rw [hout]
  by_cases hdirect : s.routing.result.outbound=Outbound.direct
  · simp only [decide_true,if_true,hdirect]
    rfl
  · by_cases hblock : s.routing.result.outbound=Outbound.block
    · simp only [if_neg hdirect,if_pos hblock,decide_eq_true_eq]
      rfl
    · simp only [if_neg hdirect,if_neg hblock,decide_eq_true_eq,redirectLan_fate]

theorem wanTcpVerdict_fate (halive : wanOutboundIsAlive k a r.outbound=true) {e : HandoffEntry}
    (he : e.result=r) : (wanTcpVerdict k a r e).fate=Hook.wanEgress.fateOf a r := by
  unfold wanTcpVerdict Hook.fateOf Hook.passes
  simp only [halive,Bool.not_true,Bool.false_eq_true,if_false]
  split_ifs <;> first | rfl | simp [Verdict.fate, *]

theorem lanIngress_syn (htcp : a.isTcp=true) (hsyn : isNewTcpConnection a.pkt.tcph=true)
    (hrouted : (doTproxyLanIngress k a entry).decided=.routed r)
    (hstored : (doTproxyLanIngress k a entry).entry=some s)
    (halive : wanOutboundIsAlive k a r.outbound=true) :
    (doTproxyLanIngress k a entry).fate=Hook.lanIngress.fateOf a r ∧ s.decision=some r := by
  have hroute : doTproxyLanIngress k a entry=lanRoute k a (markTcpSeen
      k.param.datapathGeneration a.nowNs a.fits false a.pkt.tcph (.refresh a.pkt.tuples.dscp)
      entry) := by
    rw [doTproxyLanIngress,if_pos htcp,hsyn,Bool.not_true,if_neg Bool.false_ne_true]
  rw [hroute] at hrouted hstored ⊢
  generalize markTcpSeen k.param.datapathGeneration a.nowNs a.fits false a.pkt.tcph
    (.refresh a.pkt.tuples.dscp) entry=entry₁ at hrouted hstored ⊢
  unfold lanRoute at hrouted hstored ⊢
  cases hr : routed k a false with
  | none => simp [hr] at hrouted
  | some res =>
    obtain ⟨r',slot⟩ := res
    simp only [hr] at hrouted hstored ⊢
    cases hrouted
    obtain ⟨s₁,rfl,rfl⟩ := map_eq_some_iff.mp hstored
    refine ⟨?_,rfl⟩
    simp only [map_some,isNone_some,Bool.and_false,Bool.false_eq_true,if_false,halive,Bool.not_true]
    unfold Hook.fateOf Hook.passes
    by_cases hdirect : r.outbound=Outbound.direct
    · simp only [hdirect,if_true,decide_true]
      rfl
    · by_cases hblock : r.outbound=Outbound.block
      · simp only [if_neg hdirect,if_pos hblock,decide_eq_true_eq]
        rfl
      · simp only [if_neg hdirect,if_neg hblock,decide_eq_true_eq]
        exact redirectLan_fate a _ slot _

theorem wanEgress_syn (htcp : a.isTcp=true) (hsyn : isNewTcpConnection a.pkt.tcph=true)
    (hrouted : (doTproxyWanEgress k a entry).decided=.routed r)
    (hstored : (doTproxyWanEgress k a entry).entry=some s)
    (halive : wanOutboundIsAlive k a r.outbound=true) :
    (doTproxyWanEgress k a entry).fate=Hook.wanEgress.fateOf a r ∧
      (s.decision=some r ∨ s.decision=none ∧ Hook.wanEgress.passes r=true) := by
  unfold doTproxyWanEgress at hrouted hstored ⊢
  by_cases hforwarded : a.forwarded=true
  · simp [hforwarded] at hrouted
  rw [if_neg hforwarded,if_pos htcp] at hrouted hstored ⊢
  unfold doTproxyWanEgressTcp at hrouted hstored ⊢
  by_cases hpid : pidIsControlPlane k a=true
  · simp [hsyn,hpid] at hrouted
  rw [if_pos hsyn,if_neg hpid] at hrouted hstored ⊢
  cases hr : routed k a true with
  | none => simp [hr] at hrouted
  | some res =>
    obtain ⟨r',slot⟩ := res
    simp only [hr] at hrouted hstored ⊢
    cases hrouted
    have hdecision := (markTcpSeen_syn_decision _ _ _ hsyn hstored).2
    simp only [hstored,isNone_some,Bool.false_eq_true,if_false]
    refine ⟨wanTcpVerdict_fate halive rfl,?_⟩
    by_cases hplain : isPlainDirect r=true
    · refine .inr ⟨by simpa [hplain] using hdecision,?_⟩
      simp only [isPlainDirect,Bool.and_eq_true,decide_eq_true_eq] at hplain
      simp [Hook.passes,wanEgressNeedsControlPlane,hplain.1.1,hplain.1.2]
    · exact .inl (by simpa [hplain] using hdecision)

theorem syn_fate (hh : h.reversed=false) (htcp : a.isTcp=true)
    (hsyn : isNewTcpConnection a.pkt.tcph=true)
    (hrouted : (h.handle k a entry).decided=.routed r)
    (hstored : (h.handle k a entry).entry=some s)
    (halive : wanOutboundIsAlive k a r.outbound=true) :
    (h.handle k a entry).fate=h.fateOf a r ∧
      (s.decision=some r ∨ s.decision=none ∧ h.passes r=true) := by
  cases h with
  | lanEgress => cases hh
  | wanIngress => cases hh
  | lanIngress =>
    obtain ⟨hfate,hdecision⟩ := lanIngress_syn htcp hsyn hrouted hstored halive
    exact ⟨hfate,.inl hdecision⟩
  | wanEgress => exact wanEgress_syn htcp hsyn hrouted hstored halive

theorem later_fate (hh : h.reversed=false) (htcp : a.isTcp=true) (hfinds : a.finds s=true)
    (hown : h=.wanEgress → a.forwarded=false)
    (halive : ∀ r,s.decision=some r → wanOutboundIsAlive k a r.outbound=true) :
    (h.handle k a (some s)).fate=s.decision.elim .passed (h.fateOf a) := by
  obtain ⟨hsyn,s',hkept,heq⟩ := tcp_found k.param.datapathGeneration false 0 htcp hfinds
  have hdecision : s.decision=if s'.routing.hasRouting then some s'.routing.result else none := by
    rw [← hkept.decision,ConnState.decision]
  cases h with
  | lanEgress => cases hh
  | wanIngress => cases hh
  | lanIngress =>
    rw [Hook.handle,doTproxyLanIngress,if_pos htcp,hsyn,Bool.not_false,if_pos rfl,lanIngressTcp]
    simp only [heq]
    by_cases hrouting : s'.routing.hasRouting=true
    · rw [hdecision,if_pos hrouting]
      simp only [hrouting,Bool.not_true,Bool.false_eq_true,if_false]
      exact lanCached_fate a s'
    · rw [hdecision,if_neg hrouting,if_pos (by simpa using hrouting)]
      rfl
  | wanEgress =>
    rw [Hook.handle,doTproxyWanEgress,hown rfl,if_neg Bool.false_ne_true,if_pos htcp,
      doTproxyWanEgressTcp]
    simp only [hsyn,Bool.false_eq_true,if_false,heq]
    by_cases hrouting : s'.routing.hasRouting=true
    · rw [if_pos hrouting] at hdecision
      rw [hdecision]
      simp only [hrouting,Bool.not_true,Bool.false_eq_true,if_false]
      exact wanTcpVerdict_fate (halive _ hdecision) rfl
    · rw [hdecision,if_neg hrouting,if_pos (by simpa using hrouting)]
      rfl

end Fate

/-- The event neither removes the entry of a TCP connection nor finds it expired; a packet that is
read as a SYN is of the other direction, and has room for its entry. -/
def Settles (key : TuplesKey) (entry : Option ConnState) : FlowEvent → Prop
  | .packet h _ a => h.key a=key →
    if isNewTcpConnection a.pkt.tcph then h.reversed=true ∧ a.fits=true
    else ∀ s,entry=some s → tcpConnStateExpired s a.nowNs=false
  | .delete k => k≠key

def RunSettles (key : TuplesKey) : ConnStateMap → List FlowEvent → Prop
  | _,[] => True
  | m,e::es => Settles key (m key) e ∧ RunSettles key (e.step m) es

section Settled

variable {key : TuplesKey} {m : ConnStateMap} {s : ConnState}

theorem step_settled (hkey : key.l4proto=ipprotoTcp) {e : FlowEvent} (hs : m key=some s)
    (he : Settles key (m key) e) :
    ∃ s',e.step m key=some s' ∧ s'.decision=if e.isSyn key then none else s.decision := by
  cases e with
  | delete k =>
    rw [FlowEvent.step,update_of_ne (Ne.symm he)]
    exact ⟨s,hs,rfl⟩
  | packet h k a =>
    by_cases hk : h.key a=key
    · have htcp : a.isTcp=true := (h.isTcp_iff a).2 (hk ▸ hkey)
      have hisSyn : (FlowEvent.packet h k a).isSyn key=isNewTcpConnection a.pkt.tcph := by
        simp [FlowEvent.isSyn,hk,htcp]
      rw [FlowEvent.step,hk,update_self,hs,hisSyn]
      have hcond := he hk
      by_cases hsyn : isNewTcpConnection a.pkt.tcph=true
      · rw [if_pos hsyn] at hcond
        obtain ⟨hreversed,hfits⟩ := hcond
        have hhandle : h.handle k a (some s)=refreshReversed k a (some s) := by
          cases h with
          | lanEgress => rfl
          | wanIngress => rfl
          | lanIngress | wanEgress => cases hreversed
        rw [hhandle,if_pos hsyn,refreshReversed]
        simp only [htcp,if_true,markTcpSeen_syn _ _ _ hsyn,hfits]
        exact ⟨_,rfl,rfl⟩
      · rw [if_neg hsyn] at hcond
        have hfinds : a.finds s=true := by
          simp [Arrival.finds,htcp,hcond s hs,by simpa using hsyn]
        obtain ⟨s',hs',hkept⟩ := handle_tcp_kept (h := h) (k := k) htcp hfinds
        rw [if_neg hsyn]
        exact ⟨s',hs',hkept.decision⟩
    · rw [FlowEvent.step,update_of_ne (Ne.symm hk)]
      refine ⟨s,hs,?_⟩
      simp [FlowEvent.isSyn,hk]

theorem run_settled_decision (hkey : key.l4proto=ipprotoTcp) {es : List FlowEvent}
    (hs : m key=some s) (hes : RunSettles key m es) :
    ∃ s',FlowEvent.run m es key=some s' ∧
      s'.decision=if es.any (FlowEvent.isSyn key) then none else s.decision := by
  induction es generalizing m s with
  | nil => exact ⟨s,hs,rfl⟩
  | cons e es ih =>
    obtain ⟨s₁,hs₁,hdecision₁⟩ := step_settled hkey hs hes.1
    obtain ⟨s₂,hs₂,hdecision₂⟩ := ih hs₁ hes.2
    refine ⟨s₂,hs₂,?_⟩
    rw [hdecision₂,hdecision₁,any_cons]
    cases e.isSyn key <;> cases es.any (FlowEvent.isSyn key) <;> rfl

end Settled

/-- After a SYN that is routed and tracked, a later packet at the same hook is handled as the SYN
was exactly when no packet of the connection was read as a SYN since, or the SYN was passed. -/
theorem tcp_sticky_iff {h : Hook} (hh : h.reversed=false) (k₀ k : Kernel) (a₀ a : Arrival)
    (htcp : a₀.isTcp=true) (hsyn : isNewTcpConnection a₀.pkt.tcph=true) {m : ConnStateMap}
    {r : RouteResult} (hrouted : (h.handle k₀ a₀ (m (h.key a₀))).decided=.routed r)
    (hstored : (h.handle k₀ a₀ (m (h.key a₀))).entry.isSome=true) (later : List FlowEvent)
    (hlater : RunSettles (h.key a₀) ((FlowEvent.packet h k₀ a₀).step m) later)
    (hkey : h.key a=h.key a₀)
    (hfinds : ∀ s,FlowEvent.run m (.packet h k₀ a₀::later) (h.key a₀)=some s →
      a.finds s=true)
    (hown : h=.wanEgress → a.forwarded=false)
    (halive₀ : wanOutboundIsAlive k₀ a₀ r.outbound=true)
    (halive : wanOutboundIsAlive k a r.outbound=true) (hprepared : a.prepared=a₀.prepared)
    (hhanded : a.handed=a₀.handed) :
    (h.handle k a (FlowEvent.run m (.packet h k₀ a₀::later) (h.key a₀))).fate =
        (h.handle k₀ a₀ (m (h.key a₀))).fate ↔
      (∀ e∈later,e.isSyn (h.key a₀)=false) ∨ (h.handle k₀ a₀ (m (h.key a₀))).fate=.passed := by
  obtain ⟨s₀,hs₀⟩ := Option.isSome_iff_exists.mp hstored
  have hproto : (h.key a₀).l4proto=ipprotoTcp := (h.isTcp_iff a₀).1 htcp
  have htcp' : a.isTcp=true := (h.isTcp_iff a).2 (hkey ▸ hproto)
  obtain ⟨hfate,hdecision₀⟩ := syn_fate hh htcp hsyn hrouted hs₀ halive₀
  have hstart : (FlowEvent.packet h k₀ a₀).step m (h.key a₀)=some s₀ := by
    rw [FlowEvent.step,update_self,hs₀]
  obtain ⟨s,hs,hdecision⟩ := run_settled_decision hproto hstart hlater
  have hrun : FlowEvent.run m (.packet h k₀ a₀::later) (h.key a₀)=some s := hs
  have hlive : ∀ r',s.decision=some r' → wanOutboundIsAlive k a r'.outbound=true := by
    intro r' hr'
    rw [hdecision] at hr'
    split_ifs at hr'
    rcases hdecision₀ with hsome | ⟨hnone,-⟩
    · rw [hsome] at hr'
      cases hr'
      exact halive
    · rw [hnone] at hr'
      cases hr'
  have hsame : h.fateOf a r=h.fateOf a₀ r := by
    rw [Hook.fateOf,Hook.fateOf,hprepared,hhanded]
  rw [hrun,later_fate hh htcp' (hfinds s hrun) hown hlive,hfate,hdecision]
  by_cases hany : later.any (FlowEvent.isSyn (h.key a₀))=true
  · have hnot : ¬∀ e∈later,e.isSyn (h.key a₀)=false := by
      obtain ⟨e,he,hisSyn⟩ := List.any_eq_true.mp hany
      intro hall
      rw [hall e he] at hisSyn
      cases hisSyn
    rw [if_pos hany]
    exact ⟨fun heq => .inr heq.symm,fun hcond => (hcond.resolve_left hnot).symm⟩
  · have hnone : ∀ e∈later,e.isSyn (h.key a₀)=false := by
      simpa using hany
    rw [if_neg hany]
    refine iff_of_true ?_ (.inl hnone)
    rcases hdecision₀ with hsome | ⟨hplain,hpasses⟩
    · rw [hsome]
      exact hsame
    · rw [hplain,Hook.fateOf,if_pos hpasses]
      rfl

def serverPacket (flags : UInt8) : Skb := ipv4Packet [1,1,1,1] [10,0,0,1] ipprotoTcp
    [0x01,0xbb,0xc0,0,0,0,0,1,0,0,0,2,0x50,flags,0,0,0,0,0,0] 2

def serverArrival (flags : UInt8) (nowNs : UInt64) : Arrival :=
  let a := tcpArrival (tcpHeader false true false) 5 nowNs
  (a.receive (serverPacket flags)).getD a

theorem tcp_sticky_reply :
    let syn := FlowEvent.packet .lanIngress proxyKernel (tcpArrival (tcpHeader true false false) 5 1)
    let reply := FlowEvent.packet .lanEgress proxyKernel (serverArrival 0x10 2)
    (Hook.lanIngress.handle proxyKernel (tcpArrival (tcpHeader false true false) 5 3)
        (FlowEvent.run (fun _ => none) [syn,reply] tcpFlow)).fate =
      (Hook.lanIngress.handle proxyKernel (tcpArrival (tcpHeader true false false) 5 1) none).fate := by
  intro syn reply
  have hkey : Hook.lanIngress.key (tcpArrival (tcpHeader true false false) 5 1)=tcpFlow := by
    decide +kernel
  have hentry : ((FlowEvent.run (fun _ => none) [syn] tcpFlow).map fun s =>
      tcpConnStateExpired s 2)=some false := by
    decide +kernel
  have hafter : ((FlowEvent.run (fun _ => none) [syn,reply] tcpFlow).map fun s =>
      (tcpArrival (tcpHeader false true false) 5 3).finds s)=some true := by
    decide +kernel
  rw [← hkey] at hentry hafter ⊢
  have hstick := tcp_sticky_iff (h := .lanIngress) rfl proxyKernel proxyKernel
    (tcpArrival (tcpHeader true false false) 5 1) (tcpArrival (tcpHeader false true false) 5 3)
    (by decide +kernel) (by decide +kernel)
    (m := fun _ => none) (r := ⟨2,0,false⟩) (by decide +kernel) (by decide +kernel)
    [reply] ⟨?_,trivial⟩ (by decide +kernel) ?_ (by decide +kernel) (by decide +kernel)
    (by decide +kernel) rfl rfl
  refine hstick.mpr (.inl ?_)
  intro e he
  rw [List.mem_singleton.mp he]
  decide +kernel
  · intro _
    rw [if_neg (by decide +kernel)]
    intro s hs
    have hrun : FlowEvent.run (fun _ => none) [syn]
        (Hook.lanIngress.key (tcpArrival (tcpHeader true false false) 5 1))=some s := hs
    have hnow : (serverArrival 0x10 2).nowNs=2 := by decide +kernel
    rw [hrun] at hentry
    rw [hnow]
    exact Option.some.inj hentry
  · intro s hs
    rw [hs] at hafter
    exact Option.some.inj hafter

/-- The SYN-ACK of the server is read as a SYN: from then on the packets of the client pass. -/
theorem syn_ack_ends_proxying :
    let syn := FlowEvent.packet .lanIngress proxyKernel (tcpArrival (tcpHeader true false false) 5 1)
    let reply := FlowEvent.packet .lanEgress proxyKernel (serverArrival 0x12 2)
    carriesAck (serverPacket 0x12) 0=true ∧
      (parsePacket (serverPacket 0x12) 0).toOption=some (serverArrival 0x12 2).pkt ∧
      Hook.lanEgress.key (serverArrival 0x12 2)=tcpFlow ∧
      (Hook.lanIngress.handle proxyKernel (tcpArrival (tcpHeader true false false) 5 1) none).fate =
        .redirected (some ⟨2,0,false⟩) ∧
      (Hook.lanIngress.handle proxyKernel (tcpArrival (tcpHeader false true false) 5 3)
        (FlowEvent.run (fun _ => none) [syn,reply] tcpFlow)).fate=.passed := by
  decide +kernel

def FlowEvent.untouched : FlowEvent → Bool
  | .packet .wanEgress k a =>
    a.forwarded || (isNewTcpConnection a.pkt.tcph && !(packet .wanEgress k a).tracked)
  | _ => false

def Spares (key : TuplesKey) (entry : Option ConnState) : FlowEvent → Prop
  | .packet h k a => h.key a=key →
    (FlowEvent.packet h k a).untouched=true ∨ ∀ s,entry=some s → a.finds s=true
  | .delete k => k≠key

def RunSpares (key : TuplesKey) : ConnStateMap → List FlowEvent → Prop
  | _,[] => True
  | m,e::es => Spares key (m key) e ∧ RunSpares key (e.step m) es

section Spared

variable {h : Hook} {k : Kernel} {a : Arrival} {entry : Option ConnState} {key : TuplesKey}
  {m : ConnStateMap} {s s' : ConnState} {r : RouteResult}

theorem decision_eq_some : s.decision=some r ↔ s.routing.hasRouting=true ∧ s.routing.result=r := by
  rw [ConnState.decision]
  split_ifs with hrouting
  · simp [hrouting]
  · simp [hrouting]

theorem untouched_entry (htcp : a.isTcp=true)
    (huntouched : (FlowEvent.packet h k a).untouched=true) :
    (h.handle k a entry).entry=entry := by
  cases h with
  | lanEgress | lanIngress | wanIngress => cases huntouched
  | wanEgress =>
    simp only [FlowEvent.untouched,FlowEvent.tracked,Bool.or_eq_true,Bool.and_eq_true,
      Bool.not_eq_true',Bool.and_eq_false_iff,Bool.not_eq_false'] at huntouched
    rw [Hook.handle,doTproxyWanEgress]
    by_cases hforwarded : a.forwarded=true
    · rw [if_pos hforwarded]
    rw [if_neg hforwarded,if_pos htcp,doTproxyWanEgressTcp]
    rcases huntouched with hfalse | ⟨hsyn,(hfalse | hpid) | hroute⟩
    · exact absurd hfalse hforwarded
    · exact absurd hfalse hforwarded
    · simp only [hsyn,hpid,if_true]
    · have hnone : routed k a true=none := by simpa using hroute
      simp only [hsyn,if_true,hnone]
      split_ifs <;> rfl

theorem other_decision (htcp : a.isTcp=true) (hother : isNewTcpConnection a.pkt.tcph=false)
    (huntouched : (FlowEvent.packet h k a).untouched=false)
    (hs' : (h.handle k a entry).entry=some s') :
    ∃ s,entry=some s ∧ a.finds s=true ∧ s.Kept s' := by
  have hmark : ∃ direction,(h.handle k a entry).entry=markTcpSeen k.param.datapathGeneration
      a.nowNs a.fits direction a.pkt.tcph (.refresh 0) entry := by
    cases h with
    | lanEgress | wanIngress => exact ⟨true,by simp only [Hook.handle,refreshReversed,htcp,if_true]⟩
    | lanIngress =>
      refine ⟨false,?_⟩
      rw [Hook.handle,doTproxyLanIngress,if_pos htcp,hother,Bool.not_false,if_pos rfl,
        lanIngressTcp_entry]
    | wanEgress =>
      refine ⟨false,?_⟩
      simp only [FlowEvent.untouched,Bool.or_eq_false_iff] at huntouched
      rw [Hook.handle,doTproxyWanEgress,huntouched.1,if_neg Bool.false_ne_true,if_pos htcp,
        wanEgressTcp_entry hother]
  obtain ⟨direction,hentry⟩ := hmark
  rw [hentry] at hs'
  rcases tcp_mark_cases k.param.datapathGeneration direction 0 entry htcp hother with
    ⟨-,hnone⟩ | ⟨s,s₁,hold,hfinds,hkept,heq⟩
  · rw [hnone] at hs'
    cases hs'
  · rw [heq] at hs'
    cases hs'
    exact ⟨s,hold,hfinds,hkept⟩

theorem syn_decision (htcp : a.isTcp=true) (hsyn : isNewTcpConnection a.pkt.tcph=true)
    (hroute : h.routesSyn k a=none) (huntouched : (FlowEvent.packet h k a).untouched=false)
    (hs' : (h.handle k a entry).entry=some s') : s'.decision=none := by
  have htracked : (FlowEvent.packet h k a).tracked=true := by
    cases h with
    | lanEgress => rfl
    | lanIngress => rfl
    | wanIngress => rfl
    | wanEgress =>
      simp only [FlowEvent.untouched,hsyn,Bool.true_and,Bool.or_eq_false_iff,
        Bool.not_eq_false'] at huntouched
      exact huntouched.2
  have hchange : TcpChange h k a entry (h.handle k a entry).entry :=
    handle_tcpChange htcp fun _ => htracked
  rw [hs'] at hchange
  cases hchange with
  | skipped hother | kept hother =>
    rw [hsyn] at hother
    cases hother
  | restarted _ _ hdecision =>
    cases hd : s'.decision with
    | none => rfl
    | some r =>
      rw [hdecision r hd] at hroute
      cases hroute

theorem runSpares_append {es es' : List FlowEvent} :
    RunSpares key m (es++es') ↔ RunSpares key m es ∧ RunSpares key (FlowEvent.run m es) es' := by
  induction es generalizing m with
  | nil => simp [RunSpares,FlowEvent.run]
  | cons e es ih =>
    rw [cons_append,RunSpares,RunSpares,ih,and_assoc]
    rfl

theorem step_spared (hkey : key.l4proto=ipprotoTcp) {e : FlowEvent} (hs : m key=some s)
    (he : Spares key (m key) e) : ∃ s',e.step m key=some s' ∧ s.Kept s' := by
  cases e with
  | delete k =>
    rw [FlowEvent.step,update_of_ne (Ne.symm he)]
    exact ⟨s,hs,rfl,rfl⟩
  | packet h k a =>
    by_cases hk : h.key a=key
    · have htcp : a.isTcp=true := (h.isTcp_iff a).2 (hk ▸ hkey)
      rw [FlowEvent.step,hk,update_self,hs]
      rcases he hk with huntouched | hfinds
      · rw [untouched_entry htcp huntouched]
        exact ⟨s,rfl,rfl,rfl⟩
      · exact handle_tcp_kept htcp (hfinds s hs)
    · rw [FlowEvent.step,update_of_ne (Ne.symm hk)]
      exact ⟨s,hs,rfl,rfl⟩

theorem step_inherited (hkey : key.l4proto=ipprotoTcp) {e : FlowEvent}
    (hsyn : e.isSyn key=true → e.routesSyn=none) (hs' : e.step m key=some s')
    (hr : s'.decision=some r) :
    Spares key (m key) e ∧ ∃ s,m key=some s ∧ s.decision=some r := by
  cases e with
  | delete k =>
    rw [FlowEvent.step] at hs'
    by_cases hk : key=k
    · rw [hk,update_self] at hs'
      cases hs'
    · rw [update_of_ne hk] at hs'
      exact ⟨Ne.symm hk,s',hs',hr⟩
  | packet h k a =>
    by_cases hk : h.key a=key
    · have htcp : a.isTcp=true := (h.isTcp_iff a).2 (hk ▸ hkey)
      rw [FlowEvent.step,hk,update_self] at hs'
      by_cases huntouched : (FlowEvent.packet h k a).untouched=true
      · rw [untouched_entry htcp huntouched] at hs'
        exact ⟨fun _ => .inl huntouched,s',hs',hr⟩
      have htouched : (FlowEvent.packet h k a).untouched=false := by simpa using huntouched
      by_cases hnew : isNewTcpConnection a.pkt.tcph=true
      · have hisSyn : (FlowEvent.packet h k a).isSyn key=true := by
          simp [FlowEvent.isSyn,hk,htcp,hnew]
        rw [syn_decision htcp hnew (hsyn hisSyn) htouched hs'] at hr
        cases hr
      · obtain ⟨s,hs,hfinds,hkept⟩ := other_decision htcp (by simpa using hnew) htouched hs'
        refine ⟨fun _ => .inr ?_,s,hs,hkept.decision ▸ hr⟩
        intro s₁ hs₁
        rw [hs] at hs₁
        cases hs₁
        exact hfinds
    · rw [FlowEvent.step,update_of_ne (Ne.symm hk)] at hs'
      exact ⟨fun hk' => absurd hk' hk,s',hs',hr⟩

theorem run_spared (hkey : key.l4proto=ipprotoTcp) {es : List FlowEvent} (hs : m key=some s)
    (hes : RunSpares key m es) : ∃ s',FlowEvent.run m es key=some s' ∧ s.Kept s' := by
  induction es generalizing m s with
  | nil => exact ⟨s,hs,rfl,rfl⟩
  | cons e es ih =>
    obtain ⟨s₁,hs₁,hkept⟩ := step_spared hkey hs hes.1
    obtain ⟨s₂,hs₂,hkept'⟩ := ih hs₁ hes.2
    exact ⟨s₂,hs₂,hkept.trans hkept'⟩

theorem run_inherited (hkey : key.l4proto=ipprotoTcp) {es : List FlowEvent}
    (hsyn : ∀ e∈es,e.isSyn key=true → e.routesSyn=none)
    (hs' : FlowEvent.run m es key=some s') (hr : s'.decision=some r) :
    RunSpares key m es ∧ ∃ s,m key=some s ∧ s.decision=some r := by
  induction es generalizing m with
  | nil => exact ⟨trivial,s',hs',hr⟩
  | cons e es ih =>
    obtain ⟨hrest,s₁,hs₁,hr₁⟩ := ih (fun x hx => hsyn x (mem_cons_of_mem e hx)) hs'
    obtain ⟨hfirst,s,hs,hr₀⟩ := step_inherited hkey (hsyn e mem_cons_self) hs₁ hr₁
    exact ⟨⟨hfirst,hrest⟩,s,hs,hr₀⟩

theorem own_syn (m : ConnStateMap) (htcp : a.isTcp=true)
    (hsyn : isNewTcpConnection a.pkt.tcph=true) (hown : pidIsControlPlane k a=true) :
    (Hook.wanEgress.handle k a (m (Hook.wanEgress.key a))).act=.ok none ∧
      (FlowEvent.packet .wanEgress k a).step m=m := by
  constructor
  · rw [Hook.handle,doTproxyWanEgress]
    by_cases hforwarded : a.forwarded=true
    · rw [if_pos hforwarded]
      rfl
    rw [if_neg hforwarded,if_pos htcp,doTproxyWanEgressTcp]
    simp only [hsyn,hown,if_true]
    rfl
  · have huntouched : (FlowEvent.packet .wanEgress k a).untouched=true := by
      simp [FlowEvent.untouched,FlowEvent.tracked,hsyn,hown]
    rw [FlowEvent.step,untouched_entry htcp huntouched]
    exact update_eq_self _ _

theorem redirect_reuses (htcp : a.isTcp=true) (hother : isNewTcpConnection a.pkt.tcph=false)
    (hact : (Hook.wanEgress.handle k a entry).act=.redirect) :
    a.forwarded=false ∧ ∃ s,entry=some s ∧ a.finds s=true ∧ s.decision=some s.routing.result ∧
      Hook.wanEgress.carriesOut k a s.routing.result=.redirect := by
  cases handle_handling .wanEgress k a entry with
  | undecided _ _ hpass => exact absurd hact hpass
  | cached hs hreuses _ hcarried =>
    simp only [Hook.reuses,Hook.decides,Bool.and_eq_true,Bool.not_eq_true'] at hreuses
    exact ⟨hreuses.1.1.1.1,_,hs,hreuses.1.1.2,if_pos hreuses.2,hcarried ▸ hact⟩
  | routed _ _ hdecided =>
    -- only a SYN is routed
    exfalso
    rw [Hook.handle,doTproxyWanEgress,doTproxyWanEgressTcp] at hdecided
    simp only [htcp,hother,Bool.false_eq_true,if_true,if_false] at hdecided
    split_ifs at hdecided
    split at hdecided
    · cases hdecided
    · split_ifs at hdecided

end Spared

/-- A SYN taken for the control plane's own passes and leaves the map as it is. A later packet,
before a SYN of the same addresses is routed, is redirected to the control plane exactly when an
older connection has left a decision that redirects it, and the packets since have spared it. -/
theorem own_connection_redirected_iff (k₀ k : Kernel) (a₀ a : Arrival) (htcp : a₀.isTcp=true)
    (hsyn : isNewTcpConnection a₀.pkt.tcph=true) (hown : pidIsControlPlane k₀ a₀=true)
    (m : ConnStateMap) (later : List FlowEvent)
    (hlater : ∀ e∈later,e.isSyn (Hook.wanEgress.key a₀)=true → e.routesSyn=none)
    (hkey : Hook.wanEgress.key a=Hook.wanEgress.key a₀)
    (hother : isNewTcpConnection a.pkt.tcph=false) :
    let key := Hook.wanEgress.key a₀
    let own := FlowEvent.packet .wanEgress k₀ a₀
    (Hook.wanEgress.handle k₀ a₀ (m key)).act=.ok none ∧
      ((Hook.wanEgress.handle k a (FlowEvent.run m (own::later) key)).act=.redirect ↔
        ∃ s r,m key=some s ∧ s.decision=some r ∧
          RunSpares key m (later++[.packet .wanEgress k a]) ∧ a.forwarded=false ∧
          Hook.wanEgress.carriesOut k a r=.redirect) := by
  intro key own
  have hproto : key.l4proto=ipprotoTcp := (Hook.wanEgress.isTcp_iff a₀).1 htcp
  have htcp' : a.isTcp=true := (Hook.wanEgress.isTcp_iff a).2 (hkey ▸ hproto)
  obtain ⟨hpass,hsame⟩ := own_syn m htcp hsyn hown
  have hrun : FlowEvent.run m (own::later)=FlowEvent.run m later := by
    rw [FlowEvent.run,List.foldl_cons,hsame]
    rfl
  refine ⟨hpass,?_⟩
  rw [hrun]
  constructor
  · intro hact
    obtain ⟨hforwarded,s',hs',hfinds,hr,hout⟩ := redirect_reuses htcp' hother hact
    obtain ⟨hspared,s,hs,hr₀⟩ := run_inherited hproto hlater hs' hr
    refine ⟨s,_,hs,hr₀,runSpares_append.2 ⟨hspared,fun _ => .inr ?_,trivial⟩,hforwarded,hout⟩
    intro s₁ hs₁
    rw [hs'] at hs₁
    cases hs₁
    exact hfinds
  · rintro ⟨s,r,hs,hr,hspares,hforwarded,hout⟩
    obtain ⟨hlater',hnext,-⟩ := runSpares_append.1 hspares
    obtain ⟨s',hs',hkept⟩ := run_spared hproto hs hlater'
    have hfinds : a.finds s'=true := by
      rcases hnext hkey with huntouched | hfinds
      · simp [FlowEvent.untouched,hforwarded,hother] at huntouched
      · exact hfinds s' hs'
    obtain ⟨hrouting,hresult⟩ := decision_eq_some.1 (hkept.decision.trans hr)
    have hreuses : Hook.wanEgress.reuses k a s'=true := by
      simp [Hook.reuses,Hook.decides,hforwarded,htcp',hfinds,hrouting]
    rw [hs',(handle_reuses hreuses).2,hresult]
    exact hout

/-- A process has left a decision under the tuple; its entry is deleted after the SYN. -/
theorem own_connection_passes :
    let old := FlowEvent.packet .wanEgress proxyKernel (tcpArrival (tcpHeader true false false) 5 1)
    let used := FlowEvent.run (fun _ => none) [old]
    let own := FlowEvent.packet .wanEgress proxyKernel (tcpArrival (tcpHeader true false false) 77 3)
    ((used tcpFlow).bind ConnState.decision).isSome=true ∧
      (Hook.wanEgress.handle proxyKernel (tcpArrival (tcpHeader false true false) 77 4)
        (FlowEvent.run used [own,.delete tcpFlow] tcpFlow)).act≠.redirect := by
  intro old used own
  refine ⟨by decide +kernel,fun hact => ?_⟩
  have hkey : Hook.wanEgress.key (tcpArrival (tcpHeader true false false) 77 3)=tcpFlow := by
    decide +kernel
  have hsame : Hook.wanEgress.key (tcpArrival (tcpHeader false true false) 77 4)=tcpFlow := by
    decide +kernel
  have hiff := (own_connection_redirected_iff proxyKernel proxyKernel
    (tcpArrival (tcpHeader true false false) 77 3) (tcpArrival (tcpHeader false true false) 77 4)
    (by decide +kernel) (by decide +kernel) (by decide +kernel) used [.delete tcpFlow]
    (by simp [FlowEvent.isSyn]) (hsame.trans hkey.symm) (by decide +kernel)).2
  rw [hkey] at hiff
  obtain ⟨s,r,-,-,hspares,-⟩ := hiff.1 hact
  exact hspares.1 rfl

/-- A proxied connection is closed, and the control plane opens one from the same port: its first
segment is redirected to the control plane. -/
theorem own_connection_looped :
    let old := FlowEvent.packet .wanEgress proxyKernel (tcpArrival (tcpHeader true false false) 5 1)
    let fin := FlowEvent.packet .wanEgress proxyKernel (tcpArrival (tcpHeader false true true) 5 2)
    let own := FlowEvent.packet .wanEgress proxyKernel (tcpArrival (tcpHeader true false false) 77 3)
    pidIsControlPlane proxyKernel (tcpArrival (tcpHeader true false false) 77 3)=true ∧
      (Hook.wanEgress.handle proxyKernel (tcpArrival (tcpHeader true false false) 77 3)
        (FlowEvent.run (fun _ => none) [old,fin] tcpFlow)).act=.ok none ∧
      (Hook.wanEgress.handle proxyKernel (tcpArrival (tcpHeader false true false) 77 4)
        (FlowEvent.run (fun _ => none) [old,fin,own] tcpFlow)).act=.redirect := by
  decide +kernel

end DaeRs.Datapath
