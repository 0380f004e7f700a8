import DaeRs.Datapath.Sticky

/-! UDP flows that a client opened, and the replies to them: the direction of the entry decides
whether the packets of the client are proxied, and it is that of the packet that created it. -/

namespace DaeRs.Datapath

open Bpf Net Control List Function

def Incoming (entry : Option ConnState) : Prop := ∃ s,entry=some s ∧ s.isWanIngressDirection=true

def Arrival.Finds (a : Arrival) (entry : Option ConnState) : Prop :=
  ∃ s,entry=some s ∧ a.finds s=true

/-- The packet is a client's, if it is not a reply: the hook has to decide about it, and the rules
do not send it out directly. -/
def FlowEvent.Proxied (key : TuplesKey) : FlowEvent → Prop
  | .packet h k a => h.key a=key → h.reversed=false →
    h.decides k a=true ∧ (h=.lanIngress → a.localSocket=false) ∧
      ∀ r,h.rules k a=some r → r.outbound≠Outbound.direct
  | .delete _ => True

def Reopens (key : TuplesKey) (entry : Option ConnState) : FlowEvent → Prop
  | .packet h _ a => h.key a=key ∧ h.reversed=true ∧ a.fits=true ∧ ¬a.Finds entry
  | .delete _ => False

def Reopened (key : TuplesKey) : ConnStateMap → List FlowEvent → Prop
  | _,[] => False
  | m,e::es =>
    Reopens key (m key) e ∧ RunContinues key (e.step m) es ∨ Reopened key (e.step m) es

section Udp

variable {h : Hook} {k : Kernel} {a : Arrival} {entry : Option ConnState} {s : ConnState}
  {r : RouteResult} {key : TuplesKey} {m : ConnStateMap}

theorem Hook.client_of_reversed (hh : h.reversed=false) : h=.lanIngress ∨ h=.wanEgress := by
  cases h with
  | lanEgress => cases hh
  | wanIngress => cases hh
  | lanIngress => exact .inl rfl
  | wanEgress => exact .inr rfl

theorem incoming_some : Incoming (some s) ↔ s.isWanIngressDirection=true := by
  simp [Incoming]

theorem udp_mark_incoming (generation : UInt16) (direction : Bool) (dscp : UInt8)
    (hudp : a.isTcp=false) :
    Incoming (markUdpSeen generation a.nowNs a.fits direction (.refresh dscp) entry) ↔
      direction=true ∧ a.fits=true ∧ ¬a.Finds entry ∨ a.Finds entry ∧ Incoming entry := by
  by_cases hfinds : a.Finds entry
  · obtain ⟨s,rfl,hs⟩ := hfinds
    obtain ⟨s',hkept,heq⟩ := udp_found generation direction dscp hudp hs
    have hfound : a.Finds (some s) := ⟨s,rfl,hs⟩
    rw [heq,incoming_some,incoming_some,hkept.direction]
    simp [hfound]
  · have hnew : ∀ s,entry=some s → udpConnStateExpired s a.nowNs=true := by
      intro s hs
      by_contra hlive
      exact hfinds ⟨s,hs,by simpa [Arrival.finds,hudp] using hlive⟩
    rw [markUdpSeen_new _ _ _ _ hnew]
    cases hfits : a.fits with
    | false => simp [Incoming,hfinds]
    | true => simp [incoming_some,ConnState.fresh,hfinds]

theorem incoming_map (f : ConnState → ConnState)
    (hf : ∀ s,(f s).isWanIngressDirection=s.isWanIngressDirection) :
    Incoming (entry.map f) ↔ Incoming entry := by
  cases entry with
  | none => rfl
  | some s => rw [Option.map_some,incoming_some,incoming_some,hf]

theorem lanRoute_incoming : Incoming (lanRoute k a entry).entry ↔ Incoming entry := by
  unfold lanRoute
  cases routed k a false with
  | none => rfl
  | some res => exact incoming_map _ fun _ => rfl

theorem wanUdpFinish_incoming (cached : Bool) (r : RouteResult) (mac : Mac) (pname : Bytes16)
    (pid : UInt32) (slot : UInt8) (generation : UInt16) :
    Incoming (wanUdpFinish k a entry cached r mac pname pid slot generation).entry ↔
      Incoming entry := by
  apply incoming_map
  intro s
  dsimp only
  split_ifs <;> rfl

theorem lanIngressUdp_incoming : Incoming (lanIngressUdp k a entry).entry ↔
      Incoming (markUdpSeen k.param.datapathGeneration a.nowNs a.fits false
        (.refresh a.pkt.tuples.dscp) entry) := by
  unfold lanIngressUdp
  dsimp only
  generalize markUdpSeen k.param.datapathGeneration a.nowNs a.fits false
    (.refresh a.pkt.tuples.dscp) entry=mark
  have hlookup : Incoming (if a.localSocket=true then
      ({ Verdict.pass none with entry := mark,decided := .none } : Outcome)
      else lanRoute k a mark).entry ↔ Incoming mark := by
    split_ifs
    · rfl
    · exact lanRoute_incoming
  cases mark with
  | none => exact hlookup
  | some s =>
    dsimp only
    by_cases hdirection : s.isWanIngressDirection=true
    · rw [if_pos hdirection]
    · rw [if_neg hdirection]
      by_cases hrouting : s.routing.hasRouting=true
      · rw [if_pos hrouting]
        dsimp only
        split_ifs
        · rw [incoming_some,incoming_some]
        · rfl
      · rw [if_neg hrouting]
        exact hlookup

theorem wanEgressUdp_incoming (hpid : pidIsControlPlane k a=false) :
    Incoming (doTproxyWanEgressUdp k a entry).entry ↔
      Incoming (markUdpSeen k.param.datapathGeneration a.nowNs a.fits false (.refresh 0) entry) := by
  refine doTproxyWanEgressUdp_cases (P := fun o => Incoming o.entry ↔ _) rfl ?_ ?_ ?_ ?_ ?_
  · intro hown
    rw [hpid] at hown
    cases hown
  · exact fun _ _ _ => Iff.rfl
  · exact fun _ _ _ _ _ => wanUdpFinish_incoming _ _ _ _ _ _ _
  · exact fun _ _ => Iff.rfl
  · exact fun _ _ _ _ => wanUdpFinish_incoming _ _ _ _ _ _ _

theorem client_incoming (hh : h.reversed=false) (hdecides : h.decides k a=true)
    (hudp : a.isTcp=false) :
    Incoming (h.handle k a entry).entry ↔ a.Finds entry ∧ Incoming entry := by
  cases h with
  | lanEgress => cases hh
  | wanIngress => cases hh
  | lanIngress =>
    rw [Hook.handle,doTproxyLanIngress,if_neg (by simp [hudp]),lanIngressUdp_incoming,
      udp_mark_incoming _ _ _ hudp]
    simp
  | wanEgress =>
    simp only [Hook.decides,hudp,Bool.false_or,Bool.and_eq_true,Bool.not_eq_true'] at hdecides
    rw [Hook.handle,doTproxyWanEgress,hdecides.1,if_neg Bool.false_ne_true,
      if_neg (by simp [hudp]),wanEgressUdp_incoming hdecides.2,udp_mark_incoming _ _ _ hudp]
    simp

theorem reply_incoming (hh : h.reversed=true) (hudp : a.isTcp=false) :
    Incoming (h.handle k a entry).entry ↔
      a.fits=true ∧ ¬a.Finds entry ∨ a.Finds entry ∧ Incoming entry := by
  have hrefresh : Incoming (refreshReversed k a entry).entry ↔
      a.fits=true ∧ ¬a.Finds entry ∨ a.Finds entry ∧ Incoming entry := by
    rw [refreshReversed,hudp,if_neg Bool.false_ne_true,udp_mark_incoming _ _ _ hudp]
    simp
  cases h with
  | lanEgress | wanIngress => exact hrefresh
  | lanIngress => cases hh
  | wanEgress => cases hh

theorem isTcp_of_key (hkey : h.key a=key) (hudp : key.l4proto=ipprotoUdp) : a.isTcp=false := by
  rw [Arrival.isTcp,← h.key_l4proto a,hkey,hudp]
  decide

theorem step_incoming (hudp : key.l4proto=ipprotoUdp) {e : FlowEvent} (he : e.Proxied key) :
    Incoming (e.step m key) ↔
      Reopens key (m key) e ∨ Incoming (m key) ∧ Continues key (m key) e := by
  cases e with
  | delete k =>
    by_cases hk : key=k
    · rw [FlowEvent.step,hk,update_self]
      simp [Incoming,Reopens,Continues]
    · rw [FlowEvent.step,update_of_ne hk]
      simp [Reopens,Continues,Ne.symm hk]
  | packet h k a =>
    by_cases hk : h.key a=key
    · rw [FlowEvent.step,hk,update_self]
      have hcontinues : Incoming (m key) ∧ Continues key (m key) (.packet h k a) ↔
          a.Finds (m key) ∧ Incoming (m key) := by
        constructor
        · rintro ⟨⟨s,hs,hdirection⟩,hfinds⟩
          exact ⟨⟨s,hs,hfinds hk s hs⟩,s,hs,hdirection⟩
        · rintro ⟨⟨s,hs,hfinds⟩,hincoming⟩
          refine ⟨hincoming,fun _ s' hs' => ?_⟩
          rw [hs] at hs'
          cases hs'
          exact hfinds
      rw [hcontinues]
      cases hh : h.reversed with
      | false =>
        rw [client_incoming hh (he hk hh).1 (isTcp_of_key hk hudp)]
        simp [Reopens,hh]
      | true =>
        rw [reply_incoming hh (isTcp_of_key hk hudp)]
        simp [Reopens,hh,hk]
    · rw [FlowEvent.step,update_of_ne (Ne.symm hk)]
      simp [Reopens,Continues,hk]

theorem run_incoming (hudp : key.l4proto=ipprotoUdp) {es : List FlowEvent}
    (hes : ∀ e∈es,e.Proxied key) :
    Incoming (FlowEvent.run m es key) ↔
      Reopened key m es ∨ Incoming (m key) ∧ RunContinues key m es := by
  induction es generalizing m with
  | nil => simp [FlowEvent.run,Reopened,RunContinues]
  | cons e es ih =>
    have hrest := ih (m := e.step m) fun x hx => hes x (mem_cons_of_mem e hx)
    have hrun : FlowEvent.run m (e::es)=FlowEvent.run (e.step m) es := rfl
    rw [hrun,hrest,step_incoming hudp (hes e mem_cons_self),Reopened,RunContinues]
    tauto

theorem redirect_or_shot_of_handled {act : TcAct} (hhandled : Handled r act) :
    act=.redirect ∨ act=.shot := by
  unfold Handled at hhandled
  split_ifs at hhandled
  · exact .inr hhandled
  · exact hhandled

theorem fate_ne_passed {v : Verdict} (hact : v.act=.redirect ∨ v.act=.shot) : v.fate≠.passed := by
  unfold Verdict.fate
  rcases hact with hact | hact
  · simp [hact]
  · simp [hact]

theorem lanRoute_proxied
    (hrules : ∀ r,Hook.lanIngress.rules k a=some r → r.outbound≠Outbound.direct) :
    (lanRoute k a entry).act=.redirect ∨ (lanRoute k a entry).act=.shot := by
  unfold lanRoute
  cases hr : routed k a false with
  | none => exact .inr rfl
  | some res =>
    have hout : res.1.outbound≠Outbound.direct := hrules res.1 (congrArg (Option.map Prod.fst) hr)
    simp only [hout,false_and,if_false]
    split_ifs
    · exact .inr rfl
    · exact .inr rfl
    · exact .inr rfl
    · rw [redirectLan_act]
      split_ifs
      · exact .inl rfl
      · exact .inr rfl

theorem wanUdpFinish_proxied (hout : r.outbound≠Outbound.direct) (cached : Bool) (mac : Mac)
    (pname : Bytes16) (pid : UInt32) (slot : UInt8) (generation : UInt16) :
    (wanUdpFinish k a entry cached r mac pname pid slot generation).act=.redirect ∨
      (wanUdpFinish k a entry cached r mac pname pid slot generation).act=.shot := by
  have hneeds : wanEgressNeedsControlPlane r=true := by simp [wanEgressNeedsControlPlane,hout]
  have hact : (wanUdpFinish k a entry cached r mac pname pid slot generation).act =
      if r.outbound=Outbound.block then .shot
      else if !cached && !wanOutboundIsAlive k a r.outbound then .shot
      else if !a.handed && entry.isNone then .shot
      else if a.prepared then .redirect else .shot := by
    unfold wanUdpFinish
    simp only [hneeds,Bool.not_true,Bool.false_eq_true,if_false,Option.isNone_map]
    split_ifs <;> rfl
  rw [hact]
  split_ifs
  · exact .inr rfl
  · exact .inr rfl
  · exact .inr rfl
  · exact .inl rfl
  · exact .inr rfl

/-- No decision in the entry sends packets out directly. -/
def ProxiedEntry (entry : Option ConnState) : Prop :=
  ∀ s r,entry=some s → s.decision=some r → r.outbound≠Outbound.direct

theorem lanIngressUdp_proxied (hlocal : a.localSocket=false)
    (hrules : ∀ r,Hook.lanIngress.rules k a=some r → r.outbound≠Outbound.direct)
    {mark : Option ConnState} (hmark : markUdpSeen k.param.datapathGeneration a.nowNs a.fits false
      (.refresh a.pkt.tuples.dscp) entry=mark)
    (hout : ¬Incoming mark) (hentry : ProxiedEntry mark) :
    (lanIngressUdp k a entry).act=.redirect ∨ (lanIngressUdp k a entry).act=.shot := by
  unfold lanIngressUdp
  rw [hmark]
  simp only [hlocal,Bool.false_eq_true,if_false]
  cases mark with
  | none => exact lanRoute_proxied hrules
  | some s =>
    rw [incoming_some] at hout
    simp only [if_neg hout]
    by_cases hrouting : s.routing.hasRouting=true
    · simp only [if_pos hrouting]
      have hdirect : s.routing.result.outbound≠Outbound.direct := hentry s _ rfl (if_pos hrouting)
      have hhandled : Handled s.routing.result (lanCached a s).act := by
        rw [lanCached_act a s k]
        exact carriesOut_handled (.inl rfl) hdirect
      exact redirect_or_shot_of_handled hhandled
    · simp only [if_neg hrouting]
      exact lanRoute_proxied hrules

theorem wanEgressUdp_proxied (hpid : pidIsControlPlane k a=false)
    (hrules : ∀ r,Hook.wanEgress.rules k a=some r → r.outbound≠Outbound.direct)
    {mark : Option ConnState} (hmark : markUdpSeen k.param.datapathGeneration a.nowNs a.fits false
      (.refresh 0) entry=mark)
    (hout : ¬Incoming mark) (hentry : ProxiedEntry mark) :
    (doTproxyWanEgressUdp k a entry).act=.redirect ∨
      (doTproxyWanEgressUdp k a entry).act=.shot := by
  refine doTproxyWanEgressUdp_cases (P := fun o => o.act=.redirect ∨ o.act=.shot) hmark
    ?_ ?_ ?_ ?_ ?_
  · intro hown
    rw [hpid] at hown
    cases hown
  · intro s hs hdirection
    rw [hs,incoming_some] at hout
    exact absurd hdirection hout
  · intro _ s hs _ hrouting
    exact wanUdpFinish_proxied (hentry s _ hs (if_pos hrouting)) _ _ _ _ _ _
  · exact fun _ _ => .inr rfl
  · intro r slot hr _
    exact wanUdpFinish_proxied (hrules r (congrArg (Option.map Prod.fst) hr)) _ _ _ _ _ _

theorem proxiedEntry_mark (generation : UInt16) (dscp : UInt8) (hentry : ProxiedEntry entry) :
    ProxiedEntry (markUdpSeen generation a.nowNs a.fits false (.refresh dscp) entry) := by
  intro s' r hs' hr
  obtain ⟨s,hs,hr'⟩ := inherits_markUdp generation false dscp entry s' r hs' hr
  exact hentry s r hs hr'

theorem client_passed_iff (hkey : h.key a=key) (hudp : key.l4proto=ipprotoUdp)
    (hh : h.reversed=false) (hclient : (FlowEvent.packet h k a).Proxied key)
    (hentry : ProxiedEntry entry) :
    (h.handle k a entry).fate=.passed ↔ a.Finds entry ∧ Incoming entry := by
  obtain ⟨hdecides,hlocal,hrules⟩ := hclient hkey hh
  have hother := isTcp_of_key hkey hudp
  constructor
  · intro hpassed
    by_contra hout
    refine fate_ne_passed ?_ hpassed
    cases h with
    | lanEgress => cases hh
    | wanIngress => cases hh
    | lanIngress =>
      rw [Hook.handle,doTproxyLanIngress,if_neg (by simp [hother])]
      refine lanIngressUdp_proxied (hlocal rfl) hrules rfl ?_ (proxiedEntry_mark _ _ hentry)
      rw [udp_mark_incoming _ _ _ hother]
      simpa using hout
    | wanEgress =>
      simp only [Hook.decides,hother,Bool.false_or,Bool.and_eq_true,Bool.not_eq_true']
        at hdecides
      rw [Hook.handle,doTproxyWanEgress,hdecides.1,if_neg Bool.false_ne_true,
        if_neg (by simp [hother])]
      refine wanEgressUdp_proxied hdecides.2 hrules rfl ?_ (proxiedEntry_mark _ _ hentry)
      rw [udp_mark_incoming _ _ _ hother]
      simpa using hout
  · rintro ⟨⟨s,rfl,hfinds⟩,hincoming⟩
    have hpass := handle_udp_reversed (h := h) (k := k) hother hfinds (incoming_some.1 hincoming)
    rw [Verdict.fate,(hpass.2 (Hook.client_of_reversed hh)).1]

theorem handle_proxiedEntry (hkey : h.key a=key)
    (hclient : (FlowEvent.packet h k a).Proxied key) (hentry : ProxiedEntry entry) :
    ProxiedEntry (h.handle k a entry).entry := by
  intro s' r hs' hr
  rcases handle_keeps h k a entry s' r hs' hr with hrouted | ⟨-,s,hs,hr'⟩
  · cases hh : h.reversed with
    | false => exact (hclient hkey hh).2.2 r (rules_of_routed hrouted)
    | true =>
      cases h with
      | lanEgress | wanIngress => cases hrouted
      | lanIngress => cases hh
      | wanEgress => cases hh
  · exact hentry s r hs hr'

theorem step_proxiedEntry {e : FlowEvent} (he : e.Proxied key) (hentry : ProxiedEntry (m key)) :
    ProxiedEntry (e.step m key) := by
  cases e with
  | delete k =>
    rw [FlowEvent.step]
    by_cases hk : key=k
    · rw [hk,update_self]
      rintro s r ⟨⟩
    · rw [update_of_ne hk]
      exact hentry
  | packet h k a =>
    rw [FlowEvent.step]
    by_cases hk : h.key a=key
    · rw [hk,update_self]
      exact handle_proxiedEntry hk he hentry
    · rw [update_of_ne (Ne.symm hk)]
      exact hentry

theorem run_proxiedEntry {es : List FlowEvent} (hes : ∀ e∈es,e.Proxied key)
    (hentry : ProxiedEntry (m key)) : ProxiedEntry (FlowEvent.run m es key) := by
  induction es generalizing m with
  | nil => exact hentry
  | cons e es ih =>
    exact ih (fun x hx => hes x (mem_cons_of_mem e hx))
      (step_proxiedEntry (hes e mem_cons_self) hentry)

theorem decides_of_routed (hudp : a.isTcp=false)
    (hrouted : (h.handle k a entry).decided=.routed r) :
    h.reversed=false ∧ h.decides k a=true := by
  cases h with
  | lanEgress | wanIngress => cases hrouted
  | lanIngress => exact ⟨rfl,rfl⟩
  | wanEgress =>
    rw [Hook.handle,doTproxyWanEgress] at hrouted
    by_cases hforwarded : a.forwarded=true
    · rw [if_pos hforwarded] at hrouted
      cases hrouted
    rw [if_neg hforwarded,if_neg (by simp [hudp]),doTproxyWanEgressUdp] at hrouted
    by_cases hpid : pidIsControlPlane k a=true
    · rw [if_pos hpid] at hrouted
      cases hrouted
    exact ⟨rfl,by simp [Hook.decides,hforwarded,hpid]⟩

theorem first_entry (hkey : h.key a=key) (hudp : key.l4proto=ipprotoUdp)
    (hrouted : (h.handle k a entry).decided=.routed r)
    (hout : r.outbound≠Outbound.direct) :
    ¬Incoming (h.handle k a entry).entry ∧ ProxiedEntry (h.handle k a entry).entry := by
  have hother := isTcp_of_key hkey hudp
  obtain ⟨hh,hdecides⟩ := decides_of_routed hother hrouted
  constructor
  · rw [client_incoming hh hdecides hother]
    rintro ⟨⟨s,rfl,hfinds⟩,hincoming⟩
    have hhook := Hook.client_of_reversed hh
    have hpass := handle_udp_reversed (h := h) (k := k) hother hfinds (incoming_some.1 hincoming)
    rw [(hpass.2 hhook).2] at hrouted
    cases hrouted
  · intro s' r' hs' hr'
    rcases handle_keeps h k a entry s' r' hs' hr' with hown | ⟨hnone,-⟩
    · rw [hrouted] at hown
      cases hown
      exact hout
    · exact absurd hrouted (hnone r)

end Udp

/-- Of a UDP flow whose first packet is not routed direct, a later packet of the client passes
exactly when the entry that it finds was created by a reply. -/
theorem udp_client_passed_iff (h₀ h : Hook) (k₀ k : Kernel) (a₀ a : Arrival)
    (hudp : a₀.isTcp=false) (m : ConnStateMap) {r : RouteResult}
    (hrouted : (h₀.handle k₀ a₀ (m (h₀.key a₀))).decided=.routed r)
    (hout : r.outbound≠Outbound.direct) (later : List FlowEvent)
    (hlater : ∀ e∈later,e.Proxied (h₀.key a₀)) (hkey : h.key a=h₀.key a₀)
    (hh : h.reversed=false) (hclient : (FlowEvent.packet h k a).Proxied (h₀.key a₀)) :
    let first := FlowEvent.packet h₀ k₀ a₀
    (h.handle k a (FlowEvent.run m (first::later) (h₀.key a₀))).fate=.passed ↔
      Reopened (h₀.key a₀) (first.step m) (later++[.packet h k a]) := by
  intro first
  have hproto : (h₀.key a₀).l4proto=ipprotoUdp := by
    rw [h₀.key_l4proto]
    exact a₀.transport.resolve_left (by simpa [Arrival.isTcp] using hudp)
  obtain ⟨houtgoing,hentry⟩ := first_entry rfl hproto hrouted hout
  have hstep : first.step m (h₀.key a₀)=(h₀.handle k₀ a₀ (m (h₀.key a₀))).entry := by
    rw [FlowEvent.step,update_self]
  rw [← hstep] at houtgoing hentry
  have hall : ∀ e∈later++[.packet h k a],e.Proxied (h₀.key a₀) := by
    intro e he
    rcases List.mem_append.mp he with he | he
    · exact hlater e he
    · rw [List.mem_singleton.mp he]
      exact hclient
  -- the packet leaves an entry of a flow from the WAN exactly when it has found one
  have hlast : Incoming (FlowEvent.run (first.step m) (later++[.packet h k a]) (h₀.key a₀)) ↔
      a.Finds (FlowEvent.run (first.step m) later (h₀.key a₀)) ∧
        Incoming (FlowEvent.run (first.step m) later (h₀.key a₀)) := by
    rw [FlowEvent.run,List.foldl_append,List.foldl_cons,List.foldl_nil,FlowEvent.step,hkey,
      update_self]
    exact client_incoming hh (hclient hkey hh).1 (isTcp_of_key hkey hproto)
  have hrun : FlowEvent.run m (first::later)=FlowEvent.run (first.step m) later := rfl
  rw [hrun]
  calc (h.handle k a (FlowEvent.run (first.step m) later (h₀.key a₀))).fate=.passed
      ↔ a.Finds (FlowEvent.run (first.step m) later (h₀.key a₀)) ∧
          Incoming (FlowEvent.run (first.step m) later (h₀.key a₀)) :=
        client_passed_iff hkey hproto hh hclient (run_proxiedEntry hlater hentry)
    _ ↔ Incoming (FlowEvent.run (first.step m) (later++[.packet h k a]) (h₀.key a₀)) := hlast.symm
    _ ↔ Reopened (h₀.key a₀) (first.step m) (later++[.packet h k a]) ∨
          Incoming (first.step m (h₀.key a₀)) ∧
            RunContinues (h₀.key a₀) (first.step m) (later++[.packet h k a]) :=
        run_incoming hproto hall
    _ ↔ Reopened (h₀.key a₀) (first.step m) (later++[.packet h k a]) :=
        or_iff_left fun hboth => houtgoing hboth.1

def serverDatagram (nowNs : UInt64) : Arrival :=
  let a := udpArrival nowNs
  (a.receive (ipv4Packet [1,1,1,1] [10,0,0,1] ipprotoUdp
    [0,53,0xc0,0,0,108,0,0] 2)).getD a

theorem udp_client_redirected :
    let first := FlowEvent.packet .lanIngress proxyKernel (udpArrival 1)
    let reply := FlowEvent.packet .lanEgress proxyKernel (serverDatagram 2)
    (Hook.lanIngress.handle proxyKernel (udpArrival 3) (FlowEvent.run (fun _ => none) [first,reply]
      (Hook.lanIngress.key (udpArrival 1)))).fate≠.passed := by
  intro first reply hpassed
  have hrules : Hook.lanIngress.rules proxyKernel (udpArrival 3)=some ⟨2,0,false⟩ := by
    decide +kernel
  have hfinds : ((first.step (fun _ => none) (Hook.lanIngress.key (udpArrival 1))).map
      (serverDatagram 2).finds)=some true := by
    decide +kernel
  have hreopened := (udp_client_passed_iff .lanIngress .lanIngress proxyKernel proxyKernel
    (udpArrival 1) (udpArrival 3) (by decide +kernel) (fun _ => none) (r := ⟨2,0,false⟩)
    (by decide +kernel) (by decide) [reply] ?_ (by decide +kernel) rfl ?_).1 hpassed
  · rcases hreopened with ⟨⟨-,-,-,hnot⟩,-⟩ | ⟨⟨-,hreversed,-⟩,-⟩ | hnil
    · refine hnot ?_
      obtain ⟨s,hs,hfound⟩ := Option.map_eq_some_iff.mp hfinds
      exact ⟨s,hs,hfound⟩
    · cases hreversed
    · exact hnil
  · intro e he
    rw [List.mem_singleton.mp he]
    rintro - ⟨⟩
  · intro _ _
    refine ⟨rfl,fun _ => by decide +kernel,?_⟩
    intro r hr
    rw [hrules] at hr
    cases hr
    decide

/-- The entry runs out, and a reply comes before the next packet of the client: that one passes. -/
theorem late_reply_ends_proxying :
    let first := FlowEvent.packet .lanIngress proxyKernel (udpArrival 1)
    let reply := FlowEvent.packet .lanEgress proxyKernel (serverDatagram 120000000002)
    let key := Hook.lanIngress.key (udpArrival 1)
    Hook.lanEgress.key (serverDatagram 120000000002)=key ∧
      Hook.lanIngress.rules proxyKernel (udpArrival 120000000003)=some ⟨2,0,false⟩ ∧
      (Hook.lanIngress.handle proxyKernel (udpArrival 1) none).fate =
        .redirected (some ⟨2,0,false⟩) ∧
      (Hook.lanIngress.handle proxyKernel (udpArrival 120000000003)
        (FlowEvent.run (fun _ => none) [first,reply] key)).fate=.passed := by
  decide +kernel

end DaeRs.Datapath
