import DaeRs.Control.Reload

/-! Sequences of reloads, and the epoch slot that the control plane and the kernel agree on. -/

namespace DaeRs.Control

open Net RuleSet Bpf Routing Config List

namespace MapWrite

def IntoSlot (slot : Nat) : MapWrite → Prop
  | rule key _ => key/maxMatchSetLen=slot
  | ruleCount s _ => s=slot
  | trie key _ => key/maxMatchSetLen=slot
  | epoch _ => False
  | forget _ _ => False

def ruleKey : MapWrite → Option Nat
  | rule key _ => some key
  | _ => none

theorem IntoSlot.inSlot {slot : Nat} {w : MapWrite} (h : w.IntoSlot slot) : InSlot slot w.loc := by
  cases w with
  | epoch _ => cases h
  | forget _ _ => cases h
  | _ => exact h

theorem get_foldl_of_ne {ws : List MapWrite} {l : MapLoc} (h : ∀ w∈ws,l≠w.loc) (m : Maps) :
    (ws.foldl apply m).get l=m.get l := by
  induction ws generalizing m with
  | nil => rfl
  | cons w ws ih =>
    rw [foldl_cons,ih fun w' hw' => h w' (mem_cons_of_mem w hw'),
      get_apply_of_ne m (h w mem_cons_self)]

theorem active_foldl {ws : List MapWrite} (h : ∀ w∈ws,∃ slot,InSlot slot w.loc) (m : Maps) :
    (ws.foldl apply m).activeRoutingEpochMap=m.activeRoutingEpochMap := by
  have hne : ∀ w∈ws,MapLoc.activeEpoch≠w.loc := by
    intro w hw heq
    obtain ⟨slot,hslot⟩ := h w hw
    rw [← heq] at hslot
    exact hslot
  exact get_foldl_of_ne hne m

end MapWrite

theorem inSlot_unique {a b : Nat} {l : MapLoc} (ha : InSlot a l) (hb : InSlot b l) : a=b := by
  cases l with
  | activeEpoch => cases ha
  | _ => exact ha.symm.trans hb

/-- A reload on a signal or by the API, new rule sets from the watcher, and the call that handles
the watcher's signal. -/
inductive ReloadEvent where
  | reload (text : String) (o : ReloadOutcome)
  | ruleSetsUpdated (cache : RuleSetCache)
  | handleRuleSetReloads (o : ReloadOutcome)

namespace ReloadEvent

def request (s : ControlPlane) : ReloadEvent → Option (String×ReloadOutcome)
  | reload text o => some (text,o)
  | ruleSetsUpdated _ => none
  | handleRuleSetReloads o => if s.reloadSignalled then s.daefileContent.map (·,o) else none

def prepared (s : ControlPlane) : ReloadEvent → ControlPlane
  | reload _ _ => s
  | ruleSetsUpdated cache => { s with ruleSetCache := cache,reloadSignalled := true }
  | handleRuleSetReloads _ => { s with reloadSignalled := false }

end ReloadEvent

/-- Maps, slot and consumer's matcher are unchanged. -/
structure SameDatapath (s s' : ControlPlane) : Prop where
  ebpf : s'.ebpf=s.ebpf
  slot : s'.currentEpochSlot=s.currentEpochSlot
  consumer : s'.consumerMatcher=s.consumerMatcher

theorem ReloadEvent.prepared_same (s : ControlPlane) (e : ReloadEvent) :
    SameDatapath s (e.prepared s) := by
  cases e <;> exact ⟨rfl,rfl,rfl⟩

section Run

variable (env : Env) (parseDaefile : String → Except Error DaefileConfig)

namespace ControlPlane

def compiledFor (s : ControlPlane) (text : String) (o : ReloadOutcome) : Option CompiledRouting :=
  match parseDaefile text with
  | .error _ => none
  | .ok c =>
    match validateConfig env c with
    | .error _ => none
    | .ok () => ((s.accept text c).compile env c o.order).toOption

end ControlPlane

def ReloadEvent.installs (s : ControlPlane) (e : ReloadEvent) :
    Option (CompiledRouting×ReloadOutcome) :=
  (e.request s).bind fun r =>
    ((e.prepared s).compiledFor env parseDaefile r.1 r.2).map (·,r.2)

namespace ControlPlane

def log (s : ControlPlane) (e : ReloadEvent) : List MapWrite :=
  match e.installs env parseDaefile s,s.ebpf with
  | some (c,o),some _ => (reloadWrites c s.nextEpochSlot s.currentEpochSlot o).log
  | _,_ => []

def step (s : ControlPlane) (e : ReloadEvent) : ControlPlane :=
  match e.request s with
  | none => e.prepared s
  | some (text,o) => (reloadConfig env parseDaefile (e.prepared s) text o).1

def run (s : ControlPlane) (es : List ReloadEvent) : ControlPlane :=
  es.foldl (step env parseDaefile) s

end ControlPlane

namespace ControlPlane

variable {env parseDaefile} {s : ControlPlane} {e : ReloadEvent} {m : Maps} {c : CompiledRouting}
  {o : ReloadOutcome}

theorem compiledFor_some {text : String} (h : s.compiledFor env parseDaefile text o=some c) :
    ∃ dc,reloadConfig env parseDaefile s text o=(s.accept text dc).install c o ∧ Fits c := by
  unfold compiledFor at h
  cases hparse : parseDaefile text with
  | error e => simp [hparse] at h
  | ok dc =>
    cases hvalid : validateConfig env dc with
    | error e => simp [hparse,hvalid] at h
    | ok u =>
      cases hcomp : (s.accept text dc).compile env dc o.order with
      | error e => simp [hparse,hvalid,hcomp,Except.toOption] at h
      | ok c' =>
        have hc : c'=c := by simpa [hparse,hvalid,hcomp,Except.toOption] using h
        subst hc
        exact ⟨dc,reloadConfig_compiled ⟨hparse,hvalid⟩ hcomp,compile_fits hcomp⟩

theorem reloadConfig_quiet {text : String} (h : s.compiledFor env parseDaefile text o=none) :
    (reloadConfig env parseDaefile s text o).1=s ∨
      ∃ dc,(reloadConfig env parseDaefile s text o).1=s.accept text dc := by
  unfold compiledFor at h
  unfold reloadConfig
  cases hparse : parseDaefile text with
  | error e => exact .inl rfl
  | ok dc =>
    cases hvalid : validateConfig env dc with
    | error e =>
      simp only [hvalid]
      exact .inl trivial
    | ok u =>
      cases hcomp : (s.accept text dc).compile env dc o.order with
      | error e =>
        simp only [hvalid,hcomp]
        exact .inr ⟨dc,rfl⟩
      | ok c => simp [hparse,hvalid,hcomp,Except.toOption] at h

theorem compiledFor_none {text : String} (h : s.compiledFor env parseDaefile text o=none) :
    SameDatapath s (reloadConfig env parseDaefile s text o).1 := by
  rcases reloadConfig_quiet h with heq | ⟨dc,heq⟩
  all_goals
    rw [heq]
    exact ⟨rfl,rfl,rfl⟩

theorem step_quiet (h : e.installs env parseDaefile s=none) :
    SameDatapath s (step env parseDaefile s e) ∧ log env parseDaefile s e=[] := by
  have hprep := e.prepared_same s
  refine ⟨?_,by simp [log,h]⟩
  unfold step
  cases hreq : e.request s with
  | none => exact hprep
  | some r =>
    have hnone : (e.prepared s).compiledFor env parseDaefile r.1 r.2=none := by
      simpa [ReloadEvent.installs,hreq] using h
    have hsame := compiledFor_none hnone
    exact ⟨hsame.ebpf.trans hprep.ebpf,hsame.slot.trans hprep.slot,
      hsame.consumer.trans hprep.consumer⟩

theorem step_installs (hm : s.ebpf=some m) (h : e.installs env parseDaefile s=some (c,o)) :
    Fits c ∧ log env parseDaefile s e =(reloadWrites c s.nextEpochSlot s.currentEpochSlot o).log ∧
      (step env parseDaefile s e).ebpf =some ((log env parseDaefile s e).foldl MapWrite.apply m) ∧
      (step env parseDaefile s e).consumerMatcher=s.consumerMatcher ∧
      (o.rules.Succeeds → (step env parseDaefile s e).currentEpochSlot=s.nextEpochSlot) ∧
      (¬o.rules.Succeeds → (step env parseDaefile s e).currentEpochSlot=s.currentEpochSlot) := by
  have hlog : log env parseDaefile s e =
      (reloadWrites c s.nextEpochSlot s.currentEpochSlot o).log := by simp [log,h,hm]
  rw [hlog]
  obtain ⟨⟨text,o'⟩,hreq,h⟩ := Option.bind_eq_some_iff.mp h
  obtain ⟨c',hcomp,heq⟩ := Option.map_eq_some_iff.mp h
  have ho : o'=o := congrArg Prod.snd heq
  have hc : c'=c := congrArg Prod.fst heq
  rw [ho] at hreq hcomp
  rw [hc] at hcomp
  obtain ⟨dc,hreload,hfits⟩ := compiledFor_some hcomp
  have hstep : step env parseDaefile s e=(((e.prepared s).accept text dc).install c o).1 := by
    rw [← hreload]
    simp only [step,hreq]
  have hprep := e.prepared_same s
  have hm' : ((e.prepared s).accept text dc).ebpf=some m := hprep.ebpf.trans hm
  have hnext : ((e.prepared s).accept text dc).nextEpochSlot=s.nextEpochSlot := by
    show ((e.prepared s).currentEpochSlot+1)%routingEpochSlotNum=s.nextEpochSlot
    rw [hprep.slot]
    rfl
  have hslot : ((e.prepared s).accept text dc).currentEpochSlot=s.currentEpochSlot := hprep.slot
  refine ⟨hfits,rfl,?_⟩
  rw [hstep]
  by_cases hok : o.rules.Succeeds
  · rw [install_succeeded hm' hfits hok,hnext,hslot]
    exact ⟨rfl,hprep.consumer,fun _ => rfl,fun hnot => absurd hok hnot⟩
  · obtain ⟨err,hinst⟩ := install_failed hm' hfits hok
    rw [hinst,hnext,hslot]
    exact ⟨rfl,hprep.consumer,fun hyes => absurd hyes hok,fun _ => rfl⟩

theorem step_ebpf (hm : s.ebpf=some m) :
    (step env parseDaefile s e).ebpf=some ((log env parseDaefile s e).foldl MapWrite.apply m) := by
  cases hinst : e.installs env parseDaefile s with
  | none =>
    obtain ⟨hsame,hlog⟩ := step_quiet hinst
    rw [hlog,hsame.ebpf,hm]
    rfl
  | some co => exact (step_installs hm hinst).2.2.1

theorem step_unloaded (hm : s.ebpf=none) : (step env parseDaefile s e).ebpf=none := by
  have hprep := e.prepared_same s
  unfold step
  cases hreq : e.request s with
  | none => exact hprep.ebpf.trans hm
  | some r =>
    cases hcomp : (e.prepared s).compiledFor env parseDaefile r.1 r.2 with
    | none => exact (compiledFor_none hcomp).ebpf.trans (hprep.ebpf.trans hm)
    | some c =>
      obtain ⟨dc,hreload,-⟩ := compiledFor_some hcomp
      have hm' : ((e.prepared s).accept r.1 dc).ebpf=none := hprep.ebpf.trans hm
      show (reloadConfig env parseDaefile (e.prepared s) r.1 r.2).1.ebpf=none
      rw [hreload,install_unloaded hm']
      exact hm'

end ControlPlane

end Run

section Sync

open ControlPlane

def InSync (s : ControlPlane) : Prop :=
  ∀ m,s.ebpf=some m → m.activeRoutingEpochMap=s.currentEpochSlot

def WritesActive (m : Maps) (ws : List MapWrite) : Prop := ∃ pre w post,ws=pre++w::post ∧
    w.IntoSlot (pre.foldl MapWrite.apply m).activeRoutingEpochMap

variable (env : Env) (parseDaefile : String → Except Error DaefileConfig)

def EpochSafe : ControlPlane → List ReloadEvent → Prop
  | _,[] => True
  | s,e::es =>
    (∀ m,s.ebpf=some m → ¬WritesActive m (log env parseDaefile s e)) ∧
      InSync (step env parseDaefile s e) ∧ EpochSafe (step env parseDaefile s e) es

def SwitchSucceeds (s : ControlPlane) (e : ReloadEvent) : Prop :=
  ∀ c o,e.installs env parseDaefile s=some (c,o) → s.ebpf≠none → o.rules.Succeeds →
    o.epochUpdated=true

def SwitchesSucceed : ControlPlane → List ReloadEvent → Prop
  | _,[] => True
  | s,e::es =>
    SwitchSucceeds env parseDaefile s e ∧ SwitchesSucceed (step env parseDaefile s e) es

variable {env parseDaefile} {s : ControlPlane} {e : ReloadEvent}

theorem nextEpochSlot_ne (s : ControlPlane) : s.nextEpochSlot≠s.currentEpochSlot := by
  have hnum : routingEpochSlotNum=2 := rfl
  rw [nextEpochSlot,hnum]
  omega

variable {m : Maps}

theorem not_writesActive {fill rest : List MapWrite} {next : Nat}
    (hne : next≠m.activeRoutingEpochMap) (hfill : ∀ w∈fill,InSlot next w.loc)
    (hrest : ∀ w∈rest,∀ slot,¬w.IntoSlot slot) : ¬WritesActive m (fill++rest) := by
  rintro ⟨pre,w,post,hlog,hw⟩
  have hmem : w∉rest := fun h => hrest w h _ hw
  obtain ⟨mid,hmid⟩ : ∃ mid,fill=pre++w::mid := by
    rcases append_eq_append_iff.mp hlog with ⟨mid,hpre,htail⟩ | ⟨mid,hpre,htail⟩
    · exact absurd (htail ▸ mem_append_right mid mem_cons_self) hmem
    · cases mid with
      | nil =>
        have hrest' : w::post=rest := htail
        exact absurd (hrest' ▸ mem_cons_self) hmem
      | cons v mid =>
        obtain ⟨rfl,-⟩ := List.cons.inj htail
        exact ⟨mid,hpre⟩
  have hactive := MapWrite.active_foldl
    (fun v hv => ⟨next,hfill v (hmid ▸ mem_append_left _ hv)⟩) m
  rw [hactive] at hw
  have hin := hfill w (hmid ▸ mem_append_right pre mem_cons_self)
  exact hne (inSlot_unique hin hw.inSlot)

theorem log_not_writesActive (hsync : InSync s) (hm : s.ebpf=some m) :
    ¬WritesActive m (log env parseDaefile s e) := by
  have hne : s.nextEpochSlot≠m.activeRoutingEpochMap := by
    rw [hsync m hm]
    exact nextEpochSlot_ne s
  cases hinst : e.installs env parseDaefile s with
  | none =>
    rw [(step_quiet hinst).2]
    rintro ⟨pre,w,post,hlog,-⟩
    simp at hlog
  | some co =>
    obtain ⟨hfits,hlog,-⟩ := step_installs hm hinst
    rw [hlog]
    by_cases hok : co.2.rules.Succeeds
    · rw [(reloadWrites_succeeded s.currentEpochSlot hfits s.nextEpochSlot_lt hok).2]
      apply not_writesActive hne (fun w hw => mem_fillWrites hfits hw)
      intro w hw slot hslot
      rw [mem_append,mem_map] at hw
      rcases hw with hw | ⟨ip,-,rfl⟩
      · split_ifs at hw
        · rw [mem_singleton.mp hw] at hslot
          exact hslot
        · cases hw
      · exact hslot
    · have hin := (reloadWrites_failed s.currentEpochSlot hfits s.nextEpochSlot_lt hok).2
      rw [← append_nil (reloadWrites _ _ _ _).log]
      exact not_writesActive hne hin (by simp)

theorem active_reloadWrites {c : CompiledRouting} {o : ReloadOutcome} {next prev : Nat}
    (hc : Fits c) (hnext : next < routingEpochSlotNum) (h : o.rules.Succeeds) :
    ((reloadWrites c next prev o).log.foldl MapWrite.apply m).activeRoutingEpochMap =
      if o.epochUpdated then next else m.activeRoutingEpochMap := by
  have hfill : ∀ w∈fillWrites c next o,∃ slot,InSlot slot w.loc :=
    fun w hw => ⟨next,mem_fillWrites hc hw⟩
  have hforget : ∀ w∈o.clearedPrev.map (MapWrite.forget prev),∃ slot,InSlot slot w.loc := by
    intro w hw
    obtain ⟨ip,-,rfl⟩ := mem_map.mp hw
    exact ⟨prev,rfl⟩
  rw [(reloadWrites_succeeded prev hc hnext h).2,foldl_append,foldl_append,
    MapWrite.active_foldl hforget]
  cases o.epochUpdated with
  | true => rfl
  | false => exact MapWrite.active_foldl hfill m

theorem inSync_iff (hm : s.ebpf=some m) :
    InSync s ↔ m.activeRoutingEpochMap=s.currentEpochSlot := by
  constructor
  · intro h
    exact h m hm
  · intro h m' hm'
    rw [hm] at hm'
    cases hm'
    exact h

theorem switchSucceeds_iff (hm : s.ebpf=some m) {c : CompiledRouting}
    {o : ReloadOutcome} (hinst : e.installs env parseDaefile s=some (c,o)) :
    SwitchSucceeds env parseDaefile s e ↔ (o.rules.Succeeds → o.epochUpdated=true) := by
  constructor
  · intro h
    exact h c o hinst (by simp [hm])
  · intro h c' o' hsome _
    rw [hinst] at hsome
    cases hsome
    exact h

theorem inSync_step_iff (hsync : InSync s) :
    InSync (step env parseDaefile s e) ↔ SwitchSucceeds env parseDaefile s e := by
  cases hm : s.ebpf with
  | none =>
    constructor
    · intro _ c o _ hloaded
      exact absurd hm hloaded
    · intro _ m hm'
      rw [step_unloaded hm] at hm'
      cases hm'
  | some m =>
    cases hinst : e.installs env parseDaefile s with
    | none =>
      have hsame := (step_quiet hinst).1
      constructor
      · intro _ c o hsome
        rw [hinst] at hsome
        cases hsome
      · intro _ m' hm'
        rw [hsame.slot]
        exact hsync m' (hsame.ebpf.symm.trans hm')
    | some co =>
      obtain ⟨hfits,hlog,hebpf,-,hnext,hstay⟩ := step_installs hm hinst
      have hcur := hsync m hm
      rw [inSync_iff hebpf,switchSucceeds_iff hm hinst,hlog]
      by_cases hok : co.2.rules.Succeeds
      · rw [hnext hok,active_reloadWrites hfits s.nextEpochSlot_lt hok,hcur]
        cases co.2.epochUpdated with
        | true => simp
        | false => simpa [hok] using (nextEpochSlot_ne s).symm
      · have hin := (reloadWrites_failed s.currentEpochSlot hfits s.nextEpochSlot_lt hok).2
        rw [hstay hok,MapWrite.active_foldl (fun w hw => ⟨_,hin w hw⟩),hcur]
        simp [hok]

/-- From a state in which the slots agree, a run is safe exactly when every switch of the epoch
that it comes to succeeds. -/
theorem epochSafe_iff (hsync : InSync s) (es : List ReloadEvent) :
    EpochSafe env parseDaefile s es ↔ SwitchesSucceed env parseDaefile s es := by
  induction es generalizing s with
  | nil => exact Iff.rfl
  | cons e es ih =>
    constructor
    · rintro ⟨-,hstep,hrest⟩
      exact ⟨(inSync_step_iff hsync).mp hstep,(ih hstep).mp hrest⟩
    · rintro ⟨hswitch,hrest⟩
      have hstep := (inSync_step_iff hsync).mpr hswitch
      exact ⟨fun m hm => log_not_writesActive hsync hm,hstep,(ih hstep).mpr hrest⟩

theorem start_inSync {checks : Bool} {so : StartOutcome} {config : HotConfig}
    {daefile : Option DaefileConfig} {content : Option String} {cache : RuleSetCache}
    (h : start env checks (new config daefile content cache) so=.ok s) : InSync s := by
  rcases start_ok h with ⟨dc,c,hcomp,hlaunch⟩ | rfl
  · obtain ⟨hwrites,matcher,-,rfl⟩ := launch_ok hlaunch
    intro m hm
    cases hm
    have hfill : ∀ w∈fillWrites c 0 so.toReload,∃ slot,InSlot slot w.loc :=
      fun w hw => ⟨0,mem_fillWrites (compile_fits hcomp) hw⟩
    have hwrites : (startWrites c 0 so).result=.ok () := hwrites
    show ((startWrites c 0 so).log.foldl MapWrite.apply loadedMaps).activeRoutingEpochMap=0
    rw [startWrites_succeeded (compile_fits hcomp) (by decide) hwrites,foldl_append]
    cases so.epochUpdated with
    | true => rfl
    | false => exact MapWrite.active_foldl hfill loadedMaps
  · intro m hm
    cases hm
    rfl

/-- After startup, no reload writes into the active slot and the slots agree after every one,
exactly when every switch of the epoch succeeds. -/
theorem reload_epochs_iff {checks : Bool} {so : StartOutcome} {config : HotConfig}
    {daefile : Option DaefileConfig} {content : Option String} {cache : RuleSetCache}
    (h : start env checks (new config daefile content cache) so=.ok s)
    (es : List ReloadEvent) :
    EpochSafe env parseDaefile s es ↔ SwitchesSucceed env parseDaefile s es :=
  epochSafe_iff (start_inSync h) es

theorem reload_epochs_switched : ∃ s,
    start Env.empty true (new ⟨"192.0.2.1:1080", "", "",5000, "info"⟩
      (some (daefileConfig "192.0.2.1:1080" ⟨[], "direct"⟩)) none noRuleSets) .all=.ok s ∧
    EpochSafe Env.empty (parsesAs (daefileText "192.0.2.1:1080" "fallback: direct\n")
      (daefileConfig "192.0.2.1:1080" ⟨[], "direct"⟩)) s
      [.reload (daefileText "192.0.2.1:1080" "fallback: direct\n") .all] := by
  have hrun : (start Env.empty true (new ⟨"192.0.2.1:1080", "", "",5000, "info"⟩
      (some (daefileConfig "192.0.2.1:1080" ⟨[], "direct"⟩)) none noRuleSets) .all).toOption.map
      (·.currentEpochSlot)=some 0 := by
    decide +kernel
  obtain ⟨s,hs,-⟩ := Fallible.exists_ok_of_map hrun
  refine ⟨s,hs,(reload_epochs_iff hs _).mpr ⟨?_,trivial⟩⟩
  intro c o hinst _ _
  obtain ⟨r,hreq,hinst⟩ := Option.bind_eq_some_iff.mp hinst
  obtain ⟨c',-,heq⟩ := Option.map_eq_some_iff.mp hinst
  cases hreq
  cases heq
  rfl

/-- If the switch of one reload fails, the slots disagree after it, and the next reload writes
into the active slot. -/
theorem missed_switch_overwrites : ∃ s,
    start Env.empty true (new ⟨"192.0.2.1:1080", "", "",5000, "info"⟩
      (some (daefileConfig "192.0.2.1:1080" ⟨[], "direct"⟩)) none noRuleSets) .all=.ok s ∧
    let text := daefileText "192.0.2.1:1080" "fallback: direct\n"
    let parse := parsesAs text (daefileConfig "192.0.2.1:1080" ⟨[], "direct"⟩)
    let s₁ := step Env.empty parse s (.reload text { ReloadOutcome.all with epochUpdated := false })
    s₁.currentEpochSlot=1 ∧ ∃ m,s₁.ebpf=some m ∧ m.activeRoutingEpochMap=0 ∧
      WritesActive m (log Env.empty parse s₁ (.reload text .all)) := by
  have hrun : (start Env.empty true (new ⟨"192.0.2.1:1080", "", "",5000, "info"⟩
      (some (daefileConfig "192.0.2.1:1080" ⟨[], "direct"⟩)) none noRuleSets) .all).toOption.map
      (fun s =>
        let text := daefileText "192.0.2.1:1080" "fallback: direct\n"
        let parse := parsesAs text (daefileConfig "192.0.2.1:1080" ⟨[], "direct"⟩)
        let s₁ := step Env.empty parse s
          (.reload text { ReloadOutcome.all with epochUpdated := false })
        (s₁.currentEpochSlot,s₁.ebpf.map (·.activeRoutingEpochMap),
          (log Env.empty parse s₁ (.reload text .all)).head?.bind MapWrite.ruleKey)) =
      some (1,some 0,some 0) := by
    decide +kernel
  obtain ⟨s,hs,hres⟩ := Fallible.exists_ok_of_map hrun
  simp only [Prod.mk.injEq] at hres
  obtain ⟨hslot,hactive,hhead⟩ := hres
  obtain ⟨m,hm,hzero⟩ := Option.map_eq_some_iff.mp hactive
  obtain ⟨w,hw,hkey⟩ := Option.bind_eq_some_iff.mp hhead
  obtain ⟨post,hlog⟩ := List.head?_eq_some_iff.mp hw
  refine ⟨s,hs,hslot,m,hm,hzero,[],w,post,hlog,?_⟩
  cases w with
  | rule key ms =>
    cases hkey
    exact hzero.symm
  | _ => cases hkey

end Sync

end DaeRs.Control
