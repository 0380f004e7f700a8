import DaeRs.Control.Epoch
import DaeRs.Datapath.Lifecycle
import DaeRs.Datapath.Reuse

/-! Reloads and packets: the generation of the decision by which a packet is handled. -/

namespace DaeRs.Control

open Net RuleSet Bpf Routing Config Datapath Function

namespace ControlPlane

variable {env : Env} {parseDaefile : String → Except Error DaefileConfig} {s : ControlPlane}

theorem install_generation (c : CompiledRouting) (o : ReloadOutcome) :
    (s.install c o).1.datapathGeneration=s.datapathGeneration+1 := by
  unfold install
  cases s.ebpf with
  | none => rfl
  | some m =>
    dsimp only
    split <;> rfl

theorem reloadConfig_generation (text : String) (o : ReloadOutcome) :
    (reloadConfig env parseDaefile s text o).1.datapathGeneration=s.datapathGeneration +
      if (s.compiledFor env parseDaefile text o).isSome then 1 else 0 := by
  cases hcomp : s.compiledFor env parseDaefile text o with
  | some c =>
    obtain ⟨dc,hreload,-⟩ := compiledFor_some hcomp
    rw [hreload,install_generation]
    rfl
  | none =>
    have hsame : (reloadConfig env parseDaefile s text o).1.datapathGeneration =
        s.datapathGeneration := by
      rcases reloadConfig_quiet hcomp with heq | ⟨dc,heq⟩
      · rw [heq]
      · rw [heq,accept]
    rw [hsame]
    exact (UInt16.add_zero _).symm

theorem step_generation (e : ReloadEvent) :
    (step env parseDaefile s e).datapathGeneration=s.datapathGeneration +
      if (e.installs env parseDaefile s).isSome then 1 else 0 := by
  have hprepared : (e.prepared s).datapathGeneration=s.datapathGeneration := by
    cases e <;> rfl
  unfold step ReloadEvent.installs
  cases hreq : e.request s with
  | none => simp [hprepared]
  | some r => simp [reloadConfig_generation,hprepared]

end ControlPlane

/-- The control plane and the flows of the kernel, with what the code does not keep: the number of
generations started by reloads, and the decision last made for each flow with that number. -/
structure Gateway where
  plane : ControlPlane
  conn : ConnStateMap
  generations : Nat
  taken : TuplesKey → Option (Nat×RouteResult)

/-- The maps of a packet are those that the hook reads, also within a reload. Everything else that
changes a flow's entry is a write: the consumer's, maybe of an earlier decision, and the deletions.
-/
inductive GatewayEvent where
  | reload (e : ReloadEvent)
  | packet (h : Hook) (maps : Maps) (connectivity : Nat → Option UInt32) (a : Arrival)
  | write (key : TuplesKey) (entry : Option ConnState) (made : Nat)

namespace Gateway

def start (s : ControlPlane) : Gateway := ⟨s,fun _ => none,0,fun _ => none⟩

def put (g : Gateway) (key : TuplesKey) (entry : Option ConnState)
    (label : Option (Nat×RouteResult)) : Gateway :=
  { g with
    conn := update g.conn key entry
    taken := update g.taken key label }

def label (g : Gateway) (key : TuplesKey) : Decided → Option (Nat×RouteResult)
  | .routed r => some (g.generations,r)
  | .none | .cached _ => g.taken key

section Run

variable (env : Env) (parseDaefile : String → Except Error DaefileConfig) (param : DaeParam)

def step (g : Gateway) : GatewayEvent → Gateway
  | .reload e =>
    { g with
      plane := g.plane.step env parseDaefile e
      generations := g.generations +
        if (e.installs env parseDaefile g.plane).isSome then 1 else 0 }
  | .packet h maps connectivity a =>
    let o := h.handle ⟨param,maps,connectivity⟩ a (g.conn (h.key a))
    g.put (h.key a) o.entry (g.label (h.key a) o.decided)
  | .write key entry made =>
    g.put key entry ((entry.bind ConnState.decision).map (min made g.generations,·))

def run (g : Gateway) (es : List GatewayEvent) : Gateway := es.foldl (step env parseDaefile param) g

end Run

/-- The generations are counted, and a decision in an entry is the one last made for its flow. -/
structure Traced (first : UInt16) (g : Gateway) : Prop where
  counted : g.plane.datapathGeneration=first+UInt16.ofNat g.generations
  stored : ∀ key s r,g.conn key=some s → s.decision=some r → ∃ n,g.taken key=some (n,r)
  bounded : ∀ key n r,g.taken key=some (n,r) → n≤g.generations

/-- The packet is handled by what the active rules make of it, or by the decision that they made
for an earlier packet of the flow. -/
def HandledFresh (g : Gateway) (h : Hook) (k : Kernel) (a : Arrival) : Prop :=
  ByRules h k a (h.handle k a (g.conn (h.key a))).decided ∨
    ∃ r,(h.handle k a (g.conn (h.key a))).decided=.cached r ∧
      g.taken (h.key a)=some (g.generations,r)

section Run

variable {env : Env} {parseDaefile : String → Except Error DaefileConfig} {param : DaeParam}
  {first : UInt16} {g : Gateway}

theorem traced_start (s : ControlPlane) : Traced s.datapathGeneration (start s) where
  counted := (UInt16.add_zero _).symm
  stored := by
    intro key c r hc
    cases hc
  bounded := by
    intro key n r hn
    cases hn

section Traced

variable (hg : Traced first g)
include hg

theorem traced_put (key : TuplesKey) {entry : Option ConnState} {l : Option (Nat×RouteResult)}
    (hstored : ∀ s r,entry=some s → s.decision=some r → ∃ n,l=some (n,r))
    (hbounded : ∀ n r,l=some (n,r) → n≤g.generations) : Traced first (g.put key entry l) where
  counted := hg.counted
  stored := by
    intro key' s r hs hr
    by_cases hkey : key'=key
    · subst hkey
      simp only [put,update_self] at hs ⊢
      exact hstored s r hs hr
    · simp only [put,update_of_ne hkey] at hs ⊢
      exact hg.stored key' s r hs hr
  bounded := by
    intro key' n r hn
    by_cases hkey : key'=key
    · subst hkey
      simp only [put,update_self] at hn
      exact hbounded n r hn
    · simp only [put,update_of_ne hkey] at hn
      exact hg.bounded key' n r hn

theorem traced_reload (e : ReloadEvent) :
    Traced first (g.step env parseDaefile param (.reload e)) where
  counted := by
    simp only [step,ControlPlane.step_generation,hg.counted]
    split_ifs
    · rw [UInt16.ofNat_add,UInt16.add_assoc]
      rfl
    · exact UInt16.add_zero _
  stored := hg.stored
  bounded := by
    intro key n r hn
    exact Nat.le_add_right_of_le (hg.bounded key n r hn)

theorem traced_outcome (key : TuplesKey) {o : Outcome} (hkeeps : Keeps (g.conn key) o) :
    Traced first (g.put key o.entry (g.label key o.decided)) := by
  have hold : (∀ r,o.decided≠.routed r) → Traced first (g.put key o.entry (g.taken key)) := by
    intro hnot
    refine traced_put hg key ?_ (hg.bounded key)
    intro s r hs hr
    rcases hkeeps s r hs hr with hrouted | ⟨-,s₀,hs₀,hr₀⟩
    · exact absurd hrouted (hnot r)
    · exact hg.stored key s₀ r hs₀ hr₀
  cases hd : o.decided with
  | none | cached r₀ => exact hold (by simp [hd])
  | routed r₀ =>
    refine traced_put hg key ?_ ?_
    · intro s r hs hr
      rcases hkeeps s r hs hr with hrouted | ⟨hnot,-⟩
      · rw [hd] at hrouted
        cases hrouted
        exact ⟨g.generations,rfl⟩
      · exact absurd hd (hnot r₀)
    · intro n r hn
      cases hn
      exact Nat.le_refl _

theorem traced_step (e : GatewayEvent) : Traced first (g.step env parseDaefile param e) := by
  cases e with
  | reload e => exact traced_reload hg e
  | packet h maps connectivity a =>
    exact traced_outcome hg (h.key a) (handle_keeps h ⟨param,maps,connectivity⟩ a _)
  | write key entry made =>
    refine traced_put hg key ?_ ?_
    · intro s r hs hr
      rw [hs,Option.bind_some,hr]
      exact ⟨_,rfl⟩
    · intro n r hn
      obtain ⟨r',-,heq⟩ := Option.map_eq_some_iff.mp hn
      cases heq
      exact Nat.min_le_right _ _

theorem traced_run (es : List GatewayEvent) : Traced first (g.run env parseDaefile param es) := by
  induction es generalizing g with
  | nil => exact hg
  | cons e es ih => exact ih (traced_step hg e)

/-- Nothing but the time and the kind of the packet decides whether an entry is used, so an old
decision is followed whenever there is one to follow. -/
theorem handledFresh_iff (h : Hook) (k : Kernel) (a : Arrival) :
    g.HandledFresh h k a ↔ ∀ c n r,g.conn (h.key a)=some c → h.reuses k a c=true →
      g.taken (h.key a)=some (n,r) → n=g.generations := by
  unfold HandledFresh
  constructor
  · intro hfresh c n r hc hreuses htaken
    rw [hc,(handle_reuses hreuses).1] at hfresh
    rcases hfresh with (hnone | ⟨r',hrouted,-⟩) | ⟨r',-,hcurrent⟩
    · cases hnone
    · cases hrouted
    · rw [hcurrent] at htaken
      cases htaken
      rfl
  · intro hcurrent
    by_cases hreuse : ∃ c,g.conn (h.key a)=some c ∧ h.reuses k a c=true
    · obtain ⟨c,hc,hreuses⟩ := hreuse
      have hdecision : c.decision=some c.routing.result := by
        simp only [Hook.reuses,Bool.and_eq_true] at hreuses
        exact if_pos hreuses.2
      obtain ⟨n,hn⟩ := hg.stored _ c _ hc hdecision
      have hlabel := hcurrent c n _ hc hreuses hn
      rw [hlabel] at hn
      rw [hc]
      exact .inr ⟨_,(handle_reuses hreuses).1,hn⟩
    · refine .inl (handle_byRules ?_)
      intro c hc
      by_contra hne
      exact hreuse ⟨c,hc,by simpa using hne⟩

end Traced

/-- After any run, and whatever the maps then hold, a packet is handled by the active rules or by a
decision of the current generation exactly unless it meets an unexpired entry with an older one. -/
theorem handled_fresh_iff (env : Env) (parseDaefile : String → Except Error DaefileConfig)
    (param : DaeParam) (s : ControlPlane) (es : List GatewayEvent) (h : Hook) (maps : Maps)
    (connectivity : Nat → Option UInt32) (a : Arrival) :
    let g := (start s).run env parseDaefile param es
    let k : Kernel := ⟨param,maps,connectivity⟩
    g.plane.datapathGeneration=s.datapathGeneration+UInt16.ofNat g.generations ∧
      (g.HandledFresh h k a ↔ ∀ c n r,g.conn (h.key a)=some c → h.reuses k a c=true →
        g.taken (h.key a)=some (n,r) → n=g.generations) := by
  have hg : Traced s.datapathGeneration ((start s).run env parseDaefile param es) :=
    traced_run (traced_start s) es
  exact ⟨hg.counted,handledFresh_iff hg h _ a⟩

def portBlocked (s : ControlPlane) (m : Maps) : Gateway :=
  let text := daefileText "192.0.2.1:1080" "dport(443) -> block\nfallback: direct\n"
  let parse := parsesAs text
    (daefileConfig "192.0.2.1:1080" ⟨[⟨"dport(443)", "block"⟩], "direct"⟩)
  (start s).run Env.empty parse ⟨77,0,0⟩
    [.packet .wanEgress m (fun _ => none) (tcpArrival (tcpHeader true false false) 5 1),
      .reload (.reload text .all)]

/-- The connection was opened while everything was sent to a group: after the reload its segments
are still redirected to the control plane. -/
theorem reload_keeps_old_decision : ∃ s m m',
    ControlPlane.start Env.empty true (.new ⟨"192.0.2.1:1080", "", "",5000, "info"⟩
      (some (daefileConfig "192.0.2.1:1080" ⟨[], "proxy(g)"⟩)) none noRuleSets) .all=.ok s ∧
    s.ebpf=some m ∧ (portBlocked s m).plane.ebpf=some m' ∧
    let g := portBlocked s m
    let k : Kernel := ⟨⟨77,0,0⟩,m',fun _ => none⟩
    let data := tcpArrival (tcpHeader false true false) 5 2
    s.datapathGeneration=0 ∧ g.plane.datapathGeneration=1 ∧ Hook.wanEgress.key data=tcpFlow ∧
      g.taken tcpFlow=some (0,⟨Outbound.controlPlaneRouting,0,false⟩) ∧
      Hook.wanEgress.rules k data=some ⟨Outbound.block,0,false⟩ ∧
      (Hook.wanEgress.handle k data (g.conn tcpFlow)).decided =
        .cached ⟨Outbound.controlPlaneRouting,0,false⟩ ∧
      (Hook.wanEgress.handle k data (g.conn tcpFlow)).act=.redirect := by
  simp only [exists_and_left]
  decide +kernel

end Run

end Gateway

end DaeRs.Control
