import DaeRs.Datapath.Hooks

/-! Packets that are handled by the decision of their flow's entry, and those that are not. -/

namespace DaeRs.Datapath

open Bpf Net Control Option

namespace Arrival

/-- The packet continues the flow of an entry: the entry has not expired, and the packet does not
open a new connection. -/
def finds (a : Arrival) (s : ConnState) : Bool :=
  if a.isTcp then !isNewTcpConnection a.pkt.tcph && !tcpConnStateExpired s a.nowNs
  else !udpConnStateExpired s a.nowNs

end Arrival

namespace Hook

def decides (h : Hook) (k : Kernel) (a : Arrival) : Bool :=
  match h with
  | lanEgress | wanIngress => false
  | lanIngress => true
  | wanEgress => !a.forwarded && (a.isTcp || !pidIsControlPlane k a)

/-- The packet is handled by the decision of its flow's entry. -/
def reuses (h : Hook) (k : Kernel) (a : Arrival) (s : ConnState) : Bool :=
  h.decides k a && a.finds s && (a.isTcp || !s.isWanIngressDirection) && s.routing.hasRouting

def carriesOut (h : Hook) (k : Kernel) (a : Arrival) (r : RouteResult) : TcAct :=
  match h with
  | lanEgress | wanIngress => .pipe
  | lanIngress =>
    if r.outbound=Outbound.direct then .ok (some r.mark)
    else if r.outbound=Outbound.block then .shot
    else if a.prepared then .redirect else .shot
  | wanEgress =>
    if !wanEgressNeedsControlPlane r then .ok (if a.isTcp then some r.mark else none)
    else if r.outbound=Outbound.block then .shot
    -- only the TCP path looks whether the outbound is alive
    else if a.isTcp && !wanOutboundIsAlive k a r.outbound then .shot
    else if a.prepared then .redirect else .shot

end Hook

section Reuse

variable {h : Hook} {k : Kernel} {a : Arrival} {s : ConnState} {entry : Option ConnState}

variable (generation : UInt16)

variable (direction : Bool) (dscp : UInt8)

theorem tcp_found (htcp : a.isTcp=true) (hfinds : a.finds s=true) :
    isNewTcpConnection a.pkt.tcph=false ∧ ∃ s',s.Kept s' ∧
      markTcpSeen generation a.nowNs a.fits direction a.pkt.tcph (.refresh dscp) (some s) =
        some s' := by
  simp only [Arrival.finds,htcp,if_true,Bool.and_eq_true,Bool.not_eq_true'] at hfinds
  obtain ⟨hsyn,hlive⟩ := hfinds
  rcases markTcpSeen_other generation a.fits direction dscp (some s) hsyn with
    ⟨s₀,s',hentry,-,hkept,-,heq⟩ | ⟨hexp,-⟩
  · cases hentry
    exact ⟨hsyn,s',hkept,heq⟩
  · rw [hexp s rfl] at hlive
    cases hlive

theorem udp_found (hudp : a.isTcp=false) (hfinds : a.finds s=true) : ∃ s',s.Kept s' ∧
      markUdpSeen generation a.nowNs a.fits direction (.refresh dscp) (some s)=some s' := by
  simp only [Arrival.finds,hudp,Bool.false_eq_true,if_false,Bool.not_eq_true'] at hfinds
  obtain ⟨s',hkept,-,heq⟩ := markUdpSeen_live generation a.fits direction dscp hfinds
  exact ⟨s',hkept,heq⟩

theorem redirectLan_act (a : Arrival) (routing : RoutingMeta) (slot : UInt8) (generation : UInt16) :
    (redirectLanPacketToControlPlane a routing slot generation).act =
      if a.prepared then .redirect else .shot := by
  unfold redirectLanPacketToControlPlane
  cases a.prepared <;> rfl

theorem lanCached_act (a : Arrival) (s : ConnState) (k : Kernel) :
    (lanCached a s).act=Hook.lanIngress.carriesOut k a s.routing.result := by
  unfold lanCached Hook.carriesOut
  have hout : s.routing.outbound=s.routing.result.outbound := rfl
  rw [hout]
  by_cases hdirect : s.routing.result.outbound=Outbound.direct
  · simp only [if_pos hdirect]
    rfl
  · by_cases hblock : s.routing.result.outbound=Outbound.block
    · simp only [if_neg hdirect,if_pos hblock]
      rfl
    · simp only [if_neg hdirect,if_neg hblock,redirectLan_act]

theorem wanTcpVerdict_act (htcp : a.isTcp=true) (r : RouteResult) (handoff : HandoffEntry) :
    (wanTcpVerdict k a r handoff).act=Hook.wanEgress.carriesOut k a r := by
  unfold wanTcpVerdict Hook.carriesOut
  simp only [htcp,Bool.true_and,if_true]
  split_ifs <;> rfl

theorem wanUdpFinish_act (hudp : a.isTcp=false) (r : RouteResult) (mac : Mac) (pname : Bytes16)
    (pid : UInt32) (slot : UInt8) (generation : UInt16) :
    (wanUdpFinish k a (some s) true r mac pname pid slot generation).act =
      Hook.wanEgress.carriesOut k a r := by
  unfold wanUdpFinish Hook.carriesOut
  simp only [hudp,Bool.false_and,Bool.not_true,Bool.false_eq_true,if_false,map_some,
    isNone_some,Bool.and_false]
  split_ifs <;> rfl

theorem tcp_mark_cases (entry : Option ConnState) (htcp : a.isTcp=true)
    (hsyn : isNewTcpConnection a.pkt.tcph=false) :
    (∀ s,entry=some s → a.finds s=false) ∧
      markTcpSeen generation a.nowNs a.fits direction a.pkt.tcph (.refresh dscp) entry=none ∨
    ∃ s s',entry=some s ∧ a.finds s=true ∧ s.Kept s' ∧
      markTcpSeen generation a.nowNs a.fits direction a.pkt.tcph (.refresh dscp) entry=some s' := by
  rcases markTcpSeen_other generation a.fits direction dscp entry hsyn with
    ⟨s,s',hentry,hlive,hkept,-,heq⟩ | ⟨hexpired,heq⟩
  · refine .inr ⟨s,s',hentry,?_,hkept,heq⟩
    simp [Arrival.finds,htcp,hsyn,hlive]
  · exact .inl ⟨fun s hs => by simp [Arrival.finds,htcp,hexpired s hs],heq⟩

theorem udp_mark_cases (entry : Option ConnState) (hudp : a.isTcp=false) :
    (∀ s,entry=some s → a.finds s=false) ∧
      (∀ s,markUdpSeen generation a.nowNs a.fits false (.refresh dscp) entry=some s →
        s.isWanIngressDirection=false ∧ s.routing.hasRouting=false) ∨
    ∃ s s',entry=some s ∧ a.finds s=true ∧ s.Kept s' ∧
      markUdpSeen generation a.nowNs a.fits false (.refresh dscp) entry=some s' := by
  by_cases hnew : ∀ s,entry=some s → udpConnStateExpired s a.nowNs=true
  · refine .inl ⟨fun s hs => by simp [Arrival.finds,hudp,hnew s hs],?_⟩
    intro s hs
    rw [markUdpSeen_new _ _ _ _ hnew] at hs
    split_ifs at hs
    cases hs
    exact ⟨rfl,rfl⟩
  · right
    push Not at hnew
    obtain ⟨s,rfl,hlive⟩ := hnew
    have hfinds : a.finds s=true := by simpa [Arrival.finds,hudp] using hlive
    obtain ⟨s',hkept,heq⟩ := udp_found generation false dscp hudp hfinds
    exact ⟨s,s',rfl,hfinds,hkept,heq⟩

def Hook.rules (h : Hook) (k : Kernel) (a : Arrival) : Option RouteResult :=
  (routed k a (decide (h=.wanEgress))).map Prod.fst

def ByRules (h : Hook) (k : Kernel) (a : Arrival) (d : Decided) : Prop :=
  d=.none ∨ ∃ r,d=.routed r ∧ h.rules k a=some r

def Inherits (entry entry' : Option ConnState) : Prop :=
  ∀ s' r,entry'=some s' → s'.decision=some r → ∃ s,entry=some s ∧ s.decision=some r

def Keeps (entry : Option ConnState) (o : Outcome) : Prop :=
  ∀ s' r,o.entry=some s' → s'.decision=some r → o.decided=.routed r ∨
    (∀ r',o.decided≠.routed r') ∧ ∃ s,entry=some s ∧ s.decision=some r

theorem inherits_refl (entry : Option ConnState) : Inherits entry entry :=
  fun s' _ hs' hr => ⟨s',hs',hr⟩

theorem inherits_markTcp (entry : Option ConnState) : Inherits entry
      (markTcpSeen generation a.nowNs a.fits direction a.pkt.tcph (.refresh dscp) entry) := by
  intro s' r hs' hr
  by_cases hsyn : isNewTcpConnection a.pkt.tcph=true
  · rw [markTcpSeen_syn _ _ _ hsyn] at hs'
    split_ifs at hs'
    cases hs'
    cases hr
  · rcases markTcpSeen_other generation a.fits direction dscp entry (by simpa using hsyn) with
      ⟨s,s₁,hentry,-,hkept,-,heq⟩ | ⟨-,heq⟩
    · rw [heq] at hs'
      cases hs'
      exact ⟨s,hentry,hkept.decision ▸ hr⟩
    · rw [heq] at hs'
      cases hs'

theorem inherits_markUdp (entry : Option ConnState) : Inherits entry
      (markUdpSeen generation a.nowNs a.fits direction (.refresh dscp) entry) := by
  intro s' r hs' hr
  by_cases hnew : ∀ s,entry=some s → udpConnStateExpired s a.nowNs=true
  · rw [markUdpSeen_new _ _ _ _ hnew] at hs'
    split_ifs at hs'
    cases hs'
    cases hr
  · push Not at hnew
    obtain ⟨s,rfl,hlive⟩ := hnew
    obtain ⟨s₁,hkept,-,heq⟩ :=
      markUdpSeen_live generation a.fits direction dscp (by simpa using hlive)
    rw [heq] at hs'
    cases hs'
    exact ⟨s,rfl,hkept.decision ▸ hr⟩

theorem decision_eq_none {s : ConnState} (h : ¬s.routing.hasRouting=true) : s.decision=none := by
  rw [ConnState.decision,if_neg h]

/-- What becomes of a packet: nothing is decided about it, the decision of its flow's entry is carried
out, or the rules decide. -/
inductive Handling (h : Hook) (k : Kernel) (a : Arrival) (entry : Option ConnState) (o : Outcome) :
    Prop
  | undecided (hnot : ∀ s,entry=some s → h.reuses k a s=false) (hdecided : o.decided=.none)
      (hact : o.act≠.redirect) (hentry : Inherits entry o.entry)
  | cached {s : ConnState} (hs : entry=some s) (hreuses : h.reuses k a s=true)
      (hdecided : o.decided=.cached s.routing.result)
      (hact : o.act=h.carriesOut k a s.routing.result) (hentry : Inherits entry o.entry)
  | routed {r : RouteResult} (hnot : ∀ s,entry=some s → h.reuses k a s=false)
      (hrules : h.rules k a=some r) (hdecided : o.decided=.routed r)
      (hact : o.act=.redirect → wanOutboundIsAlive k a r.outbound=true)
      (hentry : ∀ s' r',o.entry=some s' → s'.decision=some r' → r'=r)

section Programs

variable {entry₁ : Option ConnState} (hnot : ∀ s,entry=some s → h.reuses k a s=false)
include hnot

theorem handling_pass (hentry : Inherits entry entry₁) :
    Handling h k a entry { Verdict.pass none with entry := entry₁,decided := .none } :=
  .undecided hnot rfl nofun hentry

theorem handling_shot (hentry : Inherits entry entry₁) :
    Handling h k a entry { Verdict.shot with entry := entry₁,decided := .none } :=
  .undecided hnot rfl nofun hentry

end Programs

theorem inherits_of_none {entry₁ : Option ConnState} (hnone : ∀ s,entry₁=some s → s.decision=none) :
    Inherits entry entry₁ := by
  intro s' r hs' hr
  rw [hnone s' hs'] at hr
  cases hr

theorem handling_lanRoute {entry₁ : Option ConnState}
    (hnot : ∀ s,entry=some s → Hook.lanIngress.reuses k a s=false)
    (hnone : ∀ s,entry₁=some s → s.decision=none) :
    Handling .lanIngress k a entry (lanRoute k a entry₁) := by
  unfold lanRoute
  cases hr : routed k a false with
  | none => exact handling_shot hnot (inherits_of_none hnone)
  | some res =>
    refine .routed hnot (congrArg (Option.map Prod.fst) hr) rfl ?_ ?_
    · intro hact
      by_contra hdead
      simp only [eq_false_of_ne_true hdead,Bool.not_false,if_true] at hact
      split_ifs at hact <;> cases hact
    · intro s' r' hs' hr'
      obtain ⟨s,-,rfl⟩ := map_eq_some_iff.mp hs'
      cases hr'
      rfl

theorem not_reuses_of_finds (hnone : ∀ s,entry=some s → a.finds s=false) :
    ∀ s,entry=some s → h.reuses k a s=false := by
  intro s hs
  simp [Hook.reuses,hnone s hs]

theorem not_reuses_of_routing {s' : ConnState} (hs : entry=some s) (hkept : s.Kept s')
    (hrouting : ¬s'.routing.hasRouting=true) : ∀ s,entry=some s → h.reuses k a s=false := by
  rintro _ h'
  cases hs.symm.trans h'
  rw [hkept.routing] at hrouting
  simp [Hook.reuses,hrouting]

theorem handling_cached {s' : ConnState} {o : Outcome} (hdecides : h.decides k a=true)
    (hs : entry=some s) (hfinds : a.finds s=true) (hkept : s.Kept s')
    (hclient : a.isTcp=true ∨ s'.isWanIngressDirection=false)
    (hrouting : s'.routing.hasRouting=true) (hdecided : o.decided=.cached s'.routing.result)
    (hact : o.act=h.carriesOut k a s'.routing.result) (hentry : Inherits entry o.entry) :
    Handling h k a entry o := by
  rw [hkept.routing] at hrouting hdecided hact
  rw [hkept.direction] at hclient
  refine .cached hs ?_ hdecided hact hentry
  rcases hclient with hclient | hclient <;>
    simp [Hook.reuses,hdecides,hfinds,hrouting,hclient]

theorem handling_lanIngress : Handling .lanIngress k a entry (doTproxyLanIngress k a entry) := by
  unfold doTproxyLanIngress
  by_cases htcp : a.isTcp=true
  · rw [if_pos htcp]
    by_cases hsyn : isNewTcpConnection a.pkt.tcph=true
    · rw [hsyn,Bool.not_true,if_neg Bool.false_ne_true,markTcpSeen_syn _ _ _ hsyn]
      refine handling_lanRoute (fun s _ => by simp [Hook.reuses,Arrival.finds,htcp,hsyn]) ?_
      intro s hs
      split_ifs at hs
      cases hs
      rfl
    · have hother : isNewTcpConnection a.pkt.tcph=false := by simpa using hsyn
      have hmark := inherits_markTcp (a := a) k.param.datapathGeneration false 0 entry
      rw [hother,Bool.not_false,if_pos rfl,lanIngressTcp]
      rcases tcp_mark_cases k.param.datapathGeneration false 0 entry htcp hother with
        ⟨hnone,heq⟩ | ⟨s,s',hs,hfinds,hkept,heq⟩
      · rw [heq] at hmark
        simp only [heq]
        exact handling_pass (not_reuses_of_finds hnone) hmark
      · rw [heq] at hmark
        simp only [heq]
        by_cases hrouting : s'.routing.hasRouting=true
        · rw [if_neg (by simpa using hrouting)]
          exact handling_cached rfl hs hfinds hkept (.inl htcp) hrouting rfl (lanCached_act a s' k)
            hmark
        · rw [if_pos (by simpa using hrouting)]
          exact handling_pass (not_reuses_of_routing hs hkept hrouting) hmark
  · have hudp : a.isTcp=false := by simpa using htcp
    have hmark := inherits_markUdp (a := a) k.param.datapathGeneration false a.pkt.tuples.dscp entry
    have hlookup {entry₁ : Option ConnState}
        (hnot : ∀ s,entry=some s → Hook.lanIngress.reuses k a s=false)
        (hnone : ∀ s,entry₁=some s → s.decision=none) : Handling .lanIngress k a entry
          (if a.localSocket=true then { Verdict.pass none with entry := entry₁,decided := .none }
          else lanRoute k a entry₁) := by
      split_ifs
      · exact handling_pass hnot (inherits_of_none hnone)
      · exact handling_lanRoute hnot hnone
    rw [if_neg htcp,lanIngressUdp]
    rcases udp_mark_cases k.param.datapathGeneration a.pkt.tuples.dscp entry hudp with
      ⟨hnone,hfresh⟩ | ⟨s,s',hs,hfinds,hkept,heq⟩
    · dsimp only
      split
      · next heq => exact hlookup (not_reuses_of_finds hnone) (by simp [heq])
      · next s heq =>
        obtain ⟨hdirection,hrouting⟩ := hfresh s heq
        simp only [hdirection,hrouting,Bool.false_eq_true,if_false,heq]
        refine hlookup (not_reuses_of_finds hnone) ?_
        rintro _ ⟨⟩
        exact decision_eq_none (by simp [hrouting])
    · rw [heq] at hmark
      simp only [heq]
      by_cases hdirection : s'.isWanIngressDirection=true
      · rw [if_pos hdirection]
        refine handling_pass ?_ hmark
        rintro _ h'
        cases hs.symm.trans h'
        rw [hkept.direction] at hdirection
        simp [Hook.reuses,hudp,hdirection]
      · rw [if_neg hdirection]
        by_cases hrouting : s'.routing.hasRouting=true
        · rw [if_pos hrouting]
          refine handling_cached rfl hs hfinds hkept (.inr (by simpa using hdirection)) hrouting rfl
            (lanCached_act a s' k) fun s'' r hs'' hr => hmark s' r rfl ?_
          dsimp only at hs''
          split_ifs at hs'' <;> cases hs'' <;> exact hr
        · rw [if_neg hrouting]
          refine hlookup (not_reuses_of_routing hs hkept hrouting) ?_
          rintro _ ⟨⟩
          exact decision_eq_none hrouting

theorem handling_wanEgressTcp (hforwarded : a.forwarded=false) (htcp : a.isTcp=true) :
    Handling .wanEgress k a entry (doTproxyWanEgressTcp k a entry) := by
  unfold doTproxyWanEgressTcp
  by_cases hsyn : isNewTcpConnection a.pkt.tcph=true
  · have hnot : ∀ s,entry=some s → Hook.wanEgress.reuses k a s=false :=
      not_reuses_of_finds fun s _ => by simp [Arrival.finds,htcp,hsyn]
    rw [if_pos hsyn]
    by_cases hpid : pidIsControlPlane k a=true
    · rw [if_pos hpid]
      exact handling_pass hnot (inherits_refl _)
    · rw [if_neg hpid]
      cases hr : routed k a true with
      | none => exact handling_shot hnot (inherits_refl _)
      | some res =>
        refine .routed hnot (congrArg (Option.map Prod.fst) hr) rfl ?_ ?_
        · intro hact
          by_contra hdead
          simp only [wanTcpVerdict,eq_false_of_ne_true hdead,Bool.not_false,if_true] at hact
          split_ifs at hact <;> cases hact
        · intro s' r' hs' hr'
          rw [(markTcpSeen_syn_decision _ _ _ hsyn hs').2] at hr'
          by_cases hplain : isPlainDirect res.1=true
          · simp [hplain] at hr'
          · simpa [hplain,eq_comm] using hr'
  · have hother : isNewTcpConnection a.pkt.tcph=false := by simpa using hsyn
    have hmark := inherits_markTcp (a := a) k.param.datapathGeneration false 0 entry
    rw [if_neg hsyn]
    rcases tcp_mark_cases k.param.datapathGeneration false 0 entry htcp hother with
      ⟨hnone,heq⟩ | ⟨s,s',hs,hfinds,hkept,heq⟩
    · rw [heq] at hmark
      simp only [heq]
      exact handling_pass (not_reuses_of_finds hnone) hmark
    · rw [heq] at hmark
      simp only [heq]
      by_cases hrouting : s'.routing.hasRouting=true
      · rw [if_neg (by simpa using hrouting)]
        exact handling_cached (by simp [Hook.decides,hforwarded,htcp]) hs hfinds hkept (.inl htcp)
          hrouting rfl (wanTcpVerdict_act htcp _ _) hmark
      · rw [if_pos (by simpa using hrouting)]
        exact handling_pass (not_reuses_of_routing hs hkept hrouting) hmark

theorem handling_wanEgressUdp (hforwarded : a.forwarded=false) (hudp : a.isTcp=false) :
    Handling .wanEgress k a entry (doTproxyWanEgressUdp k a entry) := by
  have hmark := inherits_markUdp (a := a) k.param.datapathGeneration false 0 entry
  -- what the flow's entry was, if it is the one that was found
  have hfound {s₁ : ConnState} (hs₁ : markUdpSeen k.param.datapathGeneration a.nowNs a.fits false
      (.refresh 0) entry=some s₁)
      (hused : s₁.isWanIngressDirection=true ∨ s₁.routing.hasRouting=true) :
      ∃ s,entry=some s ∧ a.finds s=true ∧ s.Kept s₁ := by
    rcases udp_mark_cases k.param.datapathGeneration 0 entry hudp with
      ⟨-,hfresh⟩ | ⟨s,s',hs,hfinds,hkept,heq⟩
    · simp [hfresh s₁ hs₁] at hused
    · cases hs₁.symm.trans heq
      exact ⟨s,hs,hfinds,hkept⟩
  have hnot (hnew : ∀ s,markUdpSeen k.param.datapathGeneration a.nowNs a.fits false (.refresh 0)
      entry=some s → s.isWanIngressDirection=false ∧ s.routing.hasRouting=false) :
      ∀ s,entry=some s → Hook.wanEgress.reuses k a s=false := by
    rcases udp_mark_cases k.param.datapathGeneration 0 entry hudp with
      ⟨hnone,-⟩ | ⟨s,s',hs,-,hkept,heq⟩
    · exact not_reuses_of_finds hnone
    · exact not_reuses_of_routing hs hkept (by simp [(hnew s' heq).2])
  refine doTproxyWanEgressUdp_cases rfl ?_ ?_ ?_ ?_ ?_
  · intro hpid
    refine handling_pass ?_ (inherits_refl _)
    intro s _
    simp [Hook.reuses,Hook.decides,hpid,hudp]
  · intro s₁ hs₁ hdirection
    obtain ⟨s,hs,-,hkept⟩ := hfound hs₁ (.inl hdirection)
    refine handling_pass ?_ hmark
    rintro _ h'
    cases hs.symm.trans h'
    rw [hkept.direction] at hdirection
    simp [Hook.reuses,hudp,hdirection]
  · intro hpid s₁ hs₁ hdirection hrouting
    obtain ⟨s,hs,hfinds,hkept⟩ := hfound hs₁ (.inr hrouting)
    rw [hs₁] at hmark ⊢
    refine handling_cached (by simp [Hook.decides,hforwarded,hpid]) hs hfinds hkept (.inr hdirection)
      hrouting rfl (wanUdpFinish_act hudp _ _ _ _ _ _) ?_
    intro s' r hs' hr
    cases hs'
    refine hmark s₁ r rfl ?_
    by_cases hplain : isPlainDirect s₁.routing.result=true
    · simpa only [hplain,if_true,ConnState.decision] using hr
    · simp only [if_neg hplain] at hr
      rw [← hr,ConnState.decision,if_pos hrouting]
      rfl
  · intro hr hnew
    exact handling_shot (hnot hnew) hmark
  · intro r slot hr hnew
    refine .routed (hnot hnew) (congrArg (Option.map Prod.fst) hr) rfl ?_ ?_
    · intro hact
      by_contra hdead
      simp only [wanUdpFinish,eq_false_of_ne_true hdead,Bool.not_false,Bool.and_self,if_true] at hact
      split_ifs at hact <;> cases hact
    · intro s' r' hs' hr'
      obtain ⟨s,hs,rfl⟩ := map_eq_some_iff.mp hs'
      have hdecision := decision_eq_none (s := s) (by simp [(hnew s hs).2])
      by_cases hplain : isPlainDirect r=true
      · simp only [hplain,if_true] at hr'
        cases hdecision.symm.trans hr'
      · simp only [if_neg hplain] at hr'
        cases hr'
        rfl

theorem handle_handling (h : Hook) (k : Kernel) (a : Arrival) (entry : Option ConnState) :
    Handling h k a entry (h.handle k a entry) := by
  have hreversed (hh : h.decides k a=false) : Handling h k a entry (refreshReversed k a entry) := by
    refine .undecided (fun s _ => by simp [Hook.reuses,hh]) rfl nofun ?_
    unfold refreshReversed
    dsimp only
    split_ifs
    · exact inherits_markTcp _ _ _ _
    · exact inherits_markUdp _ _ _ _
  cases h with
  | lanEgress | wanIngress => exact hreversed rfl
  | lanIngress => exact handling_lanIngress
  | wanEgress =>
    rw [Hook.handle,doTproxyWanEgress]
    split_ifs with hforwarded htcp
    · refine handling_pass ?_ (inherits_refl _)
      intro s _
      simp [Hook.reuses,Hook.decides,hforwarded]
    · exact handling_wanEgressTcp (by simpa using hforwarded) htcp
    · exact handling_wanEgressUdp (by simpa using hforwarded) (by simpa using htcp)

theorem handle_reuses (hreuses : h.reuses k a s=true) :
    (h.handle k a (some s)).decided=.cached s.routing.result ∧
      (h.handle k a (some s)).act=h.carriesOut k a s.routing.result := by
  cases handle_handling h k a (some s) with
  | undecided hnot | routed hnot =>
    rw [hnot s rfl] at hreuses
    cases hreuses
  | cached hs _ hdecided hact =>
    cases hs
    exact ⟨hdecided,hact⟩

theorem handle_byRules (hnot : ∀ s,entry=some s → h.reuses k a s=false) :
    ByRules h k a (h.handle k a entry).decided := by
  cases handle_handling h k a entry with
  | undecided _ hdecided => exact .inl hdecided
  | routed _ hrules hdecided => exact .inr ⟨_,hdecided,hrules⟩
  | cached hs hreuses =>
    rw [hnot _ hs] at hreuses
    cases hreuses

theorem rules_of_routed {r : RouteResult} (hr : (h.handle k a entry).decided=.routed r) :
    h.rules k a=some r := by
  cases handle_handling h k a entry with
  | undecided _ hdecided | cached _ _ hdecided =>
    rw [hdecided] at hr
    cases hr
  | routed _ hrules hdecided =>
    rw [hdecided] at hr
    cases hr
    exact hrules

theorem handle_keeps (h : Hook) (k : Kernel) (a : Arrival) (entry : Option ConnState) :
    Keeps entry (h.handle k a entry) := by
  intro s' r hs' hr
  cases handle_handling h k a entry with
  | undecided _ hdecided _ hentry | cached _ _ hdecided _ hentry =>
    exact .inr ⟨by simp [hdecided],hentry s' r hs' hr⟩
  | routed _ _ hdecided _ hentry => exact .inl (hentry s' r hs' hr ▸ hdecided)

end Reuse

end DaeRs.Datapath
