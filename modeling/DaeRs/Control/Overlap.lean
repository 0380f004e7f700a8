import DaeRs.Control.Serving

/-! A walk of `route` while a reload changes the maps. -/

namespace DaeRs.Control

open Interleave Net RuleSet Bpf Routing Config ControlPlane List

section Whole

def wholeMaps (c : CompiledRouting) : Maps where
  routingMap key := c.matchSets.getD key .zeroed
  routingMetaMap _ := c.matchSets.length
  activeRoutingEpochMap := 0
  lpmArrayMap key := c.lpmTries[key]?.map lpmTrie
  domainRoutingMap _ := none

def wholeDecision (c : CompiledRouting) (args : RouteArgs) : Option RouteResult :=
  decodeRoute (route (wholeMaps c) args)

variable {m : Maps} {slot : Nat} {c : CompiledRouting}

theorem wholeMaps_holds (h : c.matchSets.length ≤ maxMatchSetLen) :
    Holds (wholeMaps c) 0 c.matchSets where
  active := rfl
  slot_lt := by decide
  len := rfl
  len_le := h
  entry := by
    intro j hj
    show c.matchSets.getD (0*maxMatchSetLen+j) .zeroed=c.matchSets[j]
    rw [Nat.zero_mul,Nat.zero_add,getD_eq_getElem?_getD,getElem?_eq_getElem hj]
    rfl

theorem lpmEval_whole (h : Serves m slot c) {k : UInt32} (hk : k.toNat < maxMatchSetLen)
    (hne : c.lpmTries.getD k.toNat []≠[]) (addr : Bytes16) :
    lpmEval m slot k addr=lpmEval (wholeMaps c) 0 k addr := by
  have hslot := h.holds.slot_lt
  have hlt : k.toNat < c.lpmTries.length := by
    by_contra hge
    apply hne
    rw [getD_eq_getElem?_getD,getElem?_eq_none (by omega)]
    rfl
  have hwhole : (wholeMaps c).lpmArrayMap (0*maxMatchSetLen+k.toNat) =
      some (lpmTrie (c.lpmTries.getD k.toNat [])) := by
    show c.lpmTries[0*maxMatchSetLen+k.toNat]?.map lpmTrie=_
    rw [Nat.zero_mul,Nat.zero_add,getD_eq_getElem?_getD,getElem?_eq_getElem hlt]
    rfl
  have hzero : 0 < routingEpochSlotNum := by decide
  unfold lpmEval
  rw [if_neg (by omega),if_neg (by omega),h.tries _ hk hne,hwhole]

theorem entryEval_whole (h : Serves m slot c) (hne : ListsNonempty c) (args : RouteArgs)
    {ms : MatchSet} (hms : ms∈c.matchSets) (i : Nat) :
    entryEval m slot args i ms=entryEval (wholeMaps c) 0 args i ms := by
  have hlpm : ∀ k addr,lpmIndex ms.value=some k →
      lpmEval m slot k addr=lpmEval (wholeMaps c) 0 k addr := by
    intro k addr hk
    exact lpmEval_whole h (h.index_lt ms hms k hk) (hne ms hms k hk) addr
  unfold entryEval
  cases hv : ms.value with
  | mac k => exact hlpm k args.mac (by rw [hv]; rfl)
  | ipSet k => exact hlpm k args.daddr (by rw [hv]; rfl)
  | sourceIpSet k => exact hlpm k args.saddr (by rw [hv]; rfl)
  | domainSet k =>
    simp only [domainBits,h.names]
    rfl
  | _ => rfl

theorem route_whole (h : Serves m slot c) (hne : ListsNonempty c) (args : RouteArgs) :
    decodeRoute (route m args)=wholeDecision c args := by
  rw [wholeDecision,route_eq_arrayAction h.holds,
    route_eq_arrayAction (wholeMaps_holds h.holds.len_le)]
  apply arrayAction_congr
  intro e he
  exact entryEval_whole h hne args (fst_mem_of_mem_zipIdx he) e.2

end Whole

section Overlap

/-- The decision of a walk when `gaps` tells how many of the map operations come before each of its
lookups. -/
def walkAmong (m : Maps) (ws : List MapWrite) (gaps : List Nat) (args : RouteArgs) :
    Option RouteResult :=
  decodeRoute ((Walk.route args).among Maps.get MapWrite.apply gaps m ws)

def NoNames (m : Maps) : Prop := ∀ k,m.domainRoutingMap k=none

theorem keeps_forget (P : MapLoc → Prop) (slot : Nat) (ip : Bytes16) :
    Reader.Keeps Maps.get MapWrite.apply NoNames P (.forget slot ip) := by
  intro m hm
  rw [apply_forget hm]
  exact ⟨hm,fun _ _ => rfl⟩

theorem keeps_other {P : MapLoc → Prop} {w : MapWrite} (h : ∀ l,P l → l≠w.loc) :
    Reader.Keeps Maps.get MapWrite.apply NoNames P w := by
  cases w with
  | forget slot ip => exact keeps_forget P slot ip
  | _ =>
    intro m hm
    exact ⟨hm,fun l hl => MapWrite.get_apply_of_ne m (h l hl)⟩

theorem keeps_fill {c : CompiledRouting} {active next : Nat} (hc : Fits c) (hne : next≠active)
    (o : ReloadOutcome) : ∀ w∈fillWrites c next o,
    Reader.Keeps Maps.get MapWrite.apply NoNames (fun l => l=.activeEpoch ∨ InSlot active l) w := by
  intro w hw
  have hin := mem_fillWrites hc hw
  apply keeps_other
  intro l hl heq
  rw [← heq] at hin
  rcases hl with rfl | hl
  · exact hin
  · exact hne (inSlot_unique hin hl)

theorem keeps_switch (slot next : Nat) :
    Reader.Keeps Maps.get MapWrite.apply NoNames (InSlot slot) (.epoch next) := by
  apply keeps_other
  intro l hl heq
  rw [heq] at hl
  exact hl

variable {env : Env} {parseDaefile : String → Except Error DaefileConfig} {s : ControlPlane}
  {e : ReloadEvent} {m : Maps}

theorem walkAmong_log (env : Env) (parseDaefile : String → Except Error DaefileConfig)
    (hm : s.ebpf=some m) (hactive : m.activeRoutingEpochMap=s.currentEpochSlot)
    (hnames : NoNames m) (he : e.Succeeds) (gaps : List Nat) (args : RouteArgs) :
    walkAmong m (log env parseDaefile s e) gaps args=decodeRoute (route m args) ∨
      walkAmong m (log env parseDaefile s e) gaps args =
        decodeRoute (route ((log env parseDaefile s e).foldl MapWrite.apply m) args) := by
  unfold walkAmong
  rw [← Walk.route_eval,← Walk.route_eval]
  cases hinst : e.installs env parseDaefile s with
  | none =>
    left
    rw [(step_quiet hinst).2,Reader.among_nil]
  | some co =>
    obtain ⟨hfits,hlog,-⟩ := step_installs hm hinst
    have ho := installs_succeeds he hinst
    have hne : s.nextEpochSlot≠m.activeRoutingEpochMap := by
      rw [hactive]
      exact nextEpochSlot_ne s
    rw [(reloadWrites_succeeded s.currentEpochSlot hfits s.nextEpochSlot_lt ho.rules).2,
      if_pos ho.epochUpdated] at hlog
    rw [hlog]
    have hrest : ∀ w∈co.2.clearedPrev.map (MapWrite.forget s.currentEpochSlot),
        Reader.Keeps Maps.get MapWrite.apply NoNames (fun l => l=.activeEpoch ∨
          InSlot (m.get .activeEpoch) l ∨ InSlot s.nextEpochSlot l) w := by
      intro w hw
      obtain ⟨ip,-,rfl⟩ := mem_map.mp hw
      exact keeps_forget _ _ ip
    have hwalk := Reader.among_switch (Walk.inSlot_within args) (keeps_fill hfits hne co.2)
      (keeps_switch _ s.nextEpochSlot) (fun _ _ => rfl) hrest hnames gaps
    exact hwalk.imp (congrArg decodeRoute) (congrArg decodeRoute)

variable {checks : Bool} {so : StartOutcome} {config : HotConfig} {daefile : Option DaefileConfig}
  {content : Option String} {cache : RuleSetCache}

/-- A walk among the operations of a reload decides as the old configuration or as the new one does,
if no rule of the two refers to an empty list. -/
theorem overlapping_walk_old_or_new
    (h : start env checks (new config daefile content cache) so=.ok s) (hso : so.Succeeds)
    (es : List ReloadEvent) (hes : ∀ e∈es,e.Succeeds) (e : ReloadEvent) (he : e.Succeeds)
    (hold : ListsNonempty (compiledLast env parseDaefile s s.startRules es))
    (hnew : ListsNonempty (compiledLast env parseDaefile s s.startRules (es++[e]))) :
    ∃ m,(run env parseDaefile s es).ebpf=some m ∧ ∀ gaps args,
      walkAmong m (log env parseDaefile (run env parseDaefile s es) e) gaps args =
          wholeDecision (compiledLast env parseDaefile s s.startRules es) args ∨
        walkAmong m (log env parseDaefile (run env parseDaefile s es) e) gaps args =
          wholeDecision (compiledLast env parseDaefile s s.startRules (es++[e])) args := by
  obtain ⟨m,hm,hserves,-⟩ := run_start_serves h hso hes
  have hes' : ∀ e'∈es++[e],e'.Succeeds := by
    intro e' he'
    rw [List.mem_append,List.mem_singleton] at he'
    rcases he' with he' | rfl
    · exact hes e' he'
    · exact he
  obtain ⟨m',hm',hserves',-⟩ := run_start_serves h hso hes'
  have hmaps : (log env parseDaefile (run env parseDaefile s es) e).foldl MapWrite.apply m=m' := by
    rw [run,List.foldl_append,List.foldl_cons,List.foldl_nil] at hm'
    exact Option.some.inj ((step_ebpf hm).symm.trans hm')
  refine ⟨m,hm,?_⟩
  intro gaps args
  have hwalk := walkAmong_log env parseDaefile hm hserves.holds.active hserves.names he gaps args
  rw [hmaps,route_whole hserves hold,route_whole hserves' hnew] at hwalk
  exact hwalk

def netHome : IpNet := .v4 ⟨0xc0a80000,16,by decide⟩

theorem overlapping_walk_refreshed : ∃ s,
    start Env.empty true (new ⟨"192.0.2.1:1080", "", "",5000, "info"⟩ (some ruleSetConfig)
      (some ruleSetText) (cacheOf [netTen])) .all=.ok s ∧
    let parse := parsesAs ruleSetText ruleSetConfig
    let es := [.ruleSetsUpdated (cacheOf [netHome])]
    let last := [.ruleSetsUpdated (cacheOf [netHome]),.handleRuleSetReloads .all]
    ∃ m,(run Env.empty parse s es).ebpf=some m ∧ ∀ gaps args,
      walkAmong m (log Env.empty parse (run Env.empty parse s es) (.handleRuleSetReloads .all)) gaps
          args=wholeDecision (compiledLast Env.empty parse s s.startRules es) args ∨
        walkAmong m (log Env.empty parse (run Env.empty parse s es) (.handleRuleSetReloads .all))
          gaps args=wholeDecision (compiledLast Env.empty parse s s.startRules last) args := by
  have hrun : ∃ s,start Env.empty true (new ⟨"192.0.2.1:1080", "", "",5000, "info"⟩
      (some ruleSetConfig) (some ruleSetText) (cacheOf [netTen])) .all=.ok s ∧
      let parse := parsesAs ruleSetText ruleSetConfig
      ListsNonempty (compiledLast Env.empty parse s s.startRules
          [.ruleSetsUpdated (cacheOf [netHome])]) ∧
        ListsNonempty (compiledLast Env.empty parse s s.startRules
          [.ruleSetsUpdated (cacheOf [netHome]),.handleRuleSetReloads .all]) := by
    decide +kernel
  obtain ⟨s,hs,hold,hnew⟩ := hrun
  exact ⟨s,hs,overlapping_walk_old_or_new hs ReloadOutcome.all_succeeds
    [.ruleSetsUpdated (cacheOf [netHome])] (List.forall_mem_singleton.2 trivial)
    (.handleRuleSetReloads .all) ReloadOutcome.all_succeeds hold hnew⟩

def packetTen : RouteArgs :=
  ⟨1,1,0,0,false,0,0x5000,(IpAddr.v4 0xc0000205).mapped,(IpAddr.v4 0x0a010101).mapped,0⟩

/-- 10.0.0.0/8 is replaced by 192.168.0.0/16 and then by nothing. A walk that starts just after the
second switch blocks 10.1.1.1, as neither of the last two would. -/
theorem overlapping_walk_meets_older_trie : ∃ s,
    start Env.empty true (new ⟨"192.0.2.1:1080", "", "",5000, "info"⟩ (some ruleSetConfig)
      (some ruleSetText) (cacheOf [netTen])) .all=.ok s ∧
    let parse := parsesAs ruleSetText ruleSetConfig
    let es := [.ruleSetsUpdated (cacheOf [netHome]),.handleRuleSetReloads .all,
      .ruleSetsUpdated (cacheOf [])]
    let e := .handleRuleSetReloads { ReloadOutcome.all with clearedPrev := [0] }
    ∃ m,(run Env.empty parse s es).ebpf=some m ∧
      walkAmong m (log Env.empty parse (run Env.empty parse s es) e) [1027,1] packetTen =
        some ⟨1,0,false⟩ ∧
      wholeDecision (compiledLast Env.empty parse s s.startRules es) packetTen =some ⟨0,0,false⟩ ∧
      wholeDecision (compiledLast Env.empty parse s s.startRules (es++[e])) packetTen =
        some ⟨0,0,false⟩ := by
  decide +kernel

end Overlap

end DaeRs.Control
