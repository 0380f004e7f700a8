import DaeRs.Datapath.Lifecycle
import DaeRs.Datapath.Reuse
import DaeRs.Lib.Runs

/-! Packets of a flow whose outbound is marked dead. -/

namespace DaeRs.Datapath

open Bpf Control Runs

/-- A stored decision is carried out without a look at the outbound. -/
def Hook.unchecked (h : Hook) (a : Arrival) : Bool :=
  match h with
  | lanEgress | wanIngress => false
  | lanIngress => true
  | wanEgress => !a.isTcp

namespace FlowEvent

variable (key : TuplesKey)

/-- The packet is not of the flow, or is not redirected to the control plane. -/
def Spared (m : ConnStateMap) : FlowEvent → Prop
  | packet h k a => h.key a=key → (h.handle k a (m key)).act≠.redirect
  | delete _ => True

/-- A stored decision of the flow that redirects the packet is not carried out unchecked. -/
def Looked (m : ConnStateMap) : FlowEvent → Prop
  | packet h k a => h.key a=key → ∀ s,m key=some s → h.reuses k a s=true →
      h.carriesOut k a s.routing.result=.redirect → h.unchecked a=false
  | delete _ => True

/-- The rules send a packet of the flow to the outbound, if anywhere, and it is marked dead. -/
def Dead (o : UInt8) : FlowEvent → Prop
  | packet h k a => h.key a=key →
      (∀ r,h.rules k a=some r → r.outbound=o) ∧ wanOutboundIsAlive k a o=false
  | delete _ => True

end FlowEvent

variable {key : TuplesKey} {o : UInt8} {m : ConnStateMap} {e : FlowEvent}

theorem carriesOut_dead {h : Hook} {k : Kernel} {a : Arrival} {r : RouteResult}
    (hchecked : h.unchecked a=false) (hdead : wanOutboundIsAlive k a r.outbound=false) :
    h.carriesOut k a r≠.redirect := by
  cases h with
  | lanEgress | wanIngress =>
    intro hact
    cases hact
  | lanIngress => cases hchecked
  | wanEgress =>
    have htcp : a.isTcp=true := by simpa [Hook.unchecked] using hchecked
    simp only [Hook.carriesOut,htcp,hdead,Bool.not_false,Bool.and_self,if_true]
    split_ifs <;> simp

/-- The decision of the flow's entry, if it has one, is for the outbound. -/
def StoredFor (key : TuplesKey) (o : UInt8) (m : ConnStateMap) : Prop :=
  ∀ s r,m key=some s → s.decision=some r → r.outbound=o

theorem spared_iff_looked (hdead : e.Dead key o) (hm : StoredFor key o m) :
    e.Spared key m ↔ e.Looked key m := by
  cases e with
  | delete _ => exact Iff.rfl
  | packet h k a =>
    refine forall_congr' fun hkey => ?_
    obtain ⟨hrules,hdead⟩ := hdead hkey
    cases handle_handling h k a (m key) with
    | undecided hnot _ hact =>
      exact iff_of_true hact fun s hs hreuses => by simp [hnot s hs] at hreuses
    | @cached s hs hreuses _ hact =>
      have hout : s.routing.result.outbound=o := by
        refine hm s _ hs (if_pos ?_)
        simp only [Hook.reuses,Bool.and_eq_true] at hreuses
        exact hreuses.2
      rw [hact]
      constructor
      · intro hspared s' hs' _ hcarried
        cases hs.symm.trans hs'
        exact absurd hcarried hspared
      · intro hlooked hcarried
        exact carriesOut_dead (hlooked s hs hreuses hcarried) (hout ▸ hdead) hcarried
    | routed hnot hrule _ halive =>
      refine iff_of_true (fun hact => ?_) fun s hs hreuses => by simp [hnot s hs] at hreuses
      -- the rules send the packet to the dead outbound
      have hlive := halive hact
      rw [hrules _ hrule,hdead] at hlive
      cases hlive

theorem storedFor_step (hdead : e.Dead key o) (hm : StoredFor key o m) :
    StoredFor key o (e.step m) := by
  intro s r hs hr
  cases e with
  | delete key' =>
    by_cases hkey : key=key'
    · simp [FlowEvent.step,hkey] at hs
    · exact hm s r (by simpa [FlowEvent.step,hkey] using hs) hr
  | packet h k a =>
    by_cases hkey : key=h.key a
    · subst hkey
      rw [FlowEvent.step,Function.update_self] at hs
      rcases handle_keeps h k a _ s r hs hr with hrouted | ⟨-,s₀,hs₀,hr₀⟩
      · exact (hdead rfl).1 r (rules_of_routed hrouted)
      · exact hm s₀ r hs₀ hr₀
    · exact hm s r (by simpa [FlowEvent.step,hkey] using hs) hr

/-- A flow whose outbound `outbound_connectivity_map` marks dead from its first packet on is never
redirected iff no stored decision redirects one unchecked. -/
theorem dead_outbound_spared_iff (key : TuplesKey) (o : UInt8) {m : ConnStateMap}
    (hm : m key=none) {es : List FlowEvent} (hdead : ∀ e∈es,e.Dead key o) :
    Along FlowEvent.step (fun m e => e.Spared key m) m es ↔
      Along FlowEvent.step (fun m e => e.Looked key m) m es := by
  refine along_iff_along (StoredFor key o) (fun e he s hs => spared_iff_looked (hdead e he) hs)
    (fun e he s hs _ => storedFor_step (hdead e he) hs) ?_
  intro s r hs
  rw [hm] at hs
  cases hs

def deadKernel : Kernel := { proxyKernel with connectivity := fun _ => some 0 }

theorem dead_outbound_spared_tcp :
    let syn := FlowEvent.packet .wanEgress deadKernel (tcpArrival (tcpHeader true false false) 5 1)
    let ack := FlowEvent.packet .wanEgress deadKernel (tcpArrival (tcpHeader false true false) 5 3)
    Along FlowEvent.step (fun m e => e.Spared tcpFlow m) (fun _ => none) [syn,ack] := by
  intro syn ack
  refine (dead_outbound_spared_iff tcpFlow 2 rfl ?_).2 ⟨?_,?_,trivial⟩
  · have hrules {x : Option RouteResult} (hx : x=some ⟨2,0,false⟩) (r) (hr : x=some r) :
        r.outbound=2 := by
      cases hx.symm.trans hr
      rfl
    refine List.forall_mem_cons.2 ⟨fun _ => ?_,List.forall_mem_singleton.2 fun _ => ?_⟩
    · exact ⟨hrules (by decide +kernel),by decide +kernel⟩
    · exact ⟨hrules (by decide +kernel),by decide +kernel⟩
  all_goals
    intro _ s _ _ _
    decide +kernel

/-- A SYN from the LAN is dropped as the outbound is dead, and leaves its decision: the next segment
is redirected to the control plane by it. -/
theorem dropped_syn_opens_flow :
    let syn := FlowEvent.packet .lanIngress deadKernel (tcpArrival (tcpHeader true false false) 5 1)
    let segment := tcpArrival (tcpHeader false true false) 5 3
    Hook.lanIngress.rules deadKernel segment=some ⟨2,0,false⟩ ∧
      wanOutboundIsAlive deadKernel segment 2=false ∧ Hook.lanIngress.key segment=tcpFlow ∧
      (Hook.lanIngress.handle deadKernel (tcpArrival (tcpHeader true false false) 5 1)
        none).act=.shot ∧
      (Hook.lanIngress.handle deadKernel segment
        (FlowEvent.run (fun _ => none) [syn] tcpFlow)).act=.redirect := by
  decide +kernel

end DaeRs.Datapath
