import DaeRs.Control.Epoch

/-! What the kernel and the handoff consumer hold after reloads whose map operations all succeed. -/

namespace DaeRs.Control

open Net RuleSet Bpf Routing Config ControlPlane List

structure ReloadOutcome.Succeeds (o : ReloadOutcome) : Prop where
  rules : o.rules.Succeeds
  batch : o.rules.batch.Complete
  cidr : o.cidr.Succeeds
  epochUpdated : o.epochUpdated=true

def StartOutcome.Succeeds (o : StartOutcome) : Prop := o.toReload.Succeeds

def ReloadEvent.Succeeds : ReloadEvent → Prop
  | reload _ o => o.Succeeds
  | ruleSetsUpdated _ => True
  | handleRuleSetReloads o => o.Succeeds

theorem ReloadOutcome.all_succeeds : ReloadOutcome.all.Succeeds :=
  ⟨⟨rfl,fun _ _ _ => rfl,rfl,rfl⟩,fun _ => rfl,
    ⟨rfl,fun _ => rfl,fun _ _ => rfl,fun _ _ _ => rfl,fun _ => rfl⟩,rfl⟩

def noRules : CompiledRouting := ⟨[],[],[],0,0,false⟩

def ControlPlane.startRules (s : ControlPlane) : CompiledRouting := s.compiledRouting.getD noRules

/-- A slot holds compiled rules and their non-empty tries; no trie is empty, and no domain entry
exists, since nothing ever writes one. -/
structure Serves (m : Maps) (slot : Nat) (c : CompiledRouting) : Prop where
  holds : Holds m slot c.matchSets
  tries : ∀ i < maxMatchSetLen,c.lpmTries.getD i []≠[] →
    m.lpmArrayMap (slot*maxMatchSetLen+i)=some (lpmTrie (c.lpmTries.getD i []))
  filled : ∀ k,m.lpmArrayMap k≠some []
  names : ∀ k,m.domainRoutingMap k=none
  index_lt : ∀ ms∈c.matchSets,∀ i,lpmIndex ms.value=some i → i.toNat < maxMatchSetLen

section Writes

variable {c : CompiledRouting} {next : Nat} {o : ReloadOutcome} {m : Maps}

theorem apply_forget (hm : ∀ k,m.domainRoutingMap k=none) (slot : Nat) (ip : Bytes16) :
    MapWrite.apply m (.forget slot ip)=m := by
  have hsame : Function.update m.domainRoutingMap (slot,ip) none=m.domainRoutingMap := by
    rw [← hm (slot,ip),Function.update_eq_self]
  simp only [MapWrite.apply,hsame]

theorem foldl_forget (hm : ∀ k,m.domainRoutingMap k=none) (slot : Nat) (ips : List Bytes16) :
    (ips.map (MapWrite.forget slot)).foldl MapWrite.apply m=m := by
  induction ips with
  | nil => rfl
  | cons ip ips ih => rw [map_cons,foldl_cons,apply_forget hm,ih]

theorem writeCompiled_fill (hc : Fits c) (hnext : next < routingEpochSlotNum) (h : o.Succeeds)
    (hm : ∀ k,m.domainRoutingMap k=none) :
    writeCompiled c next m =
      .ok ((fillWrites c next o++[MapWrite.epoch next]).foldl MapWrite.apply m) := by
  have hrules := Calls.foldl_writeRoutingRules hnext c.matchSets h.rules h.batch m
  have htable := Calls.foldl_writeCidrTable hnext hc.entries_lt h.cidr
    ((Calls.writeRoutingRules c.matchSets next o.rules).log.foldl MapWrite.apply m)
  rw [writeCompiled,if_neg hc.not_isEmpty,hrules,Fallible.ok_bind]
  simp only [fillWrites,foldl_append,foldl_forget hm]
  by_cases hempty : (allCidrEntries c.lpmTries).isEmpty
  · have hsame : writeCidrTable (allCidrEntries c.lpmTries) next
        ((Calls.writeRoutingRules c.matchSets next o.rules).log.foldl MapWrite.apply m) =
        .ok ((Calls.writeRoutingRules c.matchSets next o.rules).log.foldl MapWrite.apply m) := by
      rw [writeCidrTable,routingEpochSlotBase,if_neg (by omega),Fallible.ok_bind,if_pos hempty]
      rfl
    rw [if_pos hempty,← hsame,htable]
    rfl
  · rw [if_neg hempty,htable]
    rfl

theorem lpmTrie_ne_nil {cidrs : List IpNet} (h : cidrs≠[]) : lpmTrie cidrs≠[] := by
  intro hkeys
  rw [lpmTrie,cidrsToCidrEntries,map_map,map_eq_nil_iff,zipIdx_eq_nil_iff] at hkeys
  exact h hkeys

theorem trie_fill_other (hc : Fits c) (o : ReloadOutcome) (m : Maps) {key : Nat}
    (hkey : key/maxMatchSetLen≠next) :
    ((fillWrites c next o++[MapWrite.epoch next]).foldl MapWrite.apply m).lpmArrayMap key =
      m.lpmArrayMap key := by
  have hmiss : ∀ w∈fillWrites c next o++[MapWrite.epoch next],MapLoc.trie key≠w.loc := by
    intro w hw heq
    rw [mem_append,mem_singleton] at hw
    rcases hw with hw | rfl
    · have hin := mem_fillWrites hc hw
      rw [← heq] at hin
      exact hkey hin
    · cases heq
  exact MapWrite.get_foldl_of_ne hmiss m

theorem serves_fill (hc : Fits c) (hnext : next < routingEpochSlotNum) (h : o.Succeeds)
    (hnames : ∀ k,m.domainRoutingMap k=none) (hfilled : ∀ k,m.lpmArrayMap k≠some []) :
    Serves ((fillWrites c next o++[MapWrite.epoch next]).foldl MapWrite.apply m) next c := by
  have hw := writeCompiled_spec (writeCompiled_fill hc hnext h hnames) hc.matchSets_ne
    hc.matchSets_le
  refine ⟨hw.holds,?_,?_,?_,fun ms hms i hi => (hc.index_lt ms hms i hi).trans hc.lpmTries_lt⟩
  · intro i hi hne
    rw [hw.lpm i hi,if_neg hne]
  · intro k
    by_cases hk : k/maxMatchSetLen=next
    · have hsplit : k=next*maxMatchSetLen+k%maxMatchSetLen := by
        rw [← hk,Nat.mul_comm]
        exact (Nat.div_add_mod k maxMatchSetLen).symm
      rw [hsplit,hw.lpm _ (Nat.mod_lt _ (by decide))]
      split_ifs with hnil
      · exact hfilled _
      · intro heq
        exact lpmTrie_ne_nil hnil (Option.some.inj heq)
    · rw [trie_fill_other hc o m hk]
      exact hfilled k
  · intro k
    rw [hw.domain]
    exact hnames k

theorem serves_reloadWrites (hc : Fits c) (hnext : next < routingEpochSlotNum) (h : o.Succeeds)
    (hnames : ∀ k,m.domainRoutingMap k=none) (hfilled : ∀ k,m.lpmArrayMap k≠some [])
    (prev : Nat) :
    Serves ((reloadWrites c next prev o).log.foldl MapWrite.apply m) next c := by
  have hserves := serves_fill hc hnext h hnames hfilled
  rw [(reloadWrites_succeeded prev hc hnext h.rules).2,if_pos h.epochUpdated,
    ← append_assoc,foldl_append,foldl_forget hserves.names]
  exact hserves

end Writes

section Run

variable (env : Env) (parseDaefile : String → Except Error DaefileConfig)

def compiledLast : ControlPlane → CompiledRouting → List ReloadEvent → CompiledRouting
  | _,c,[] => c
  | s,c,e::es =>
    compiledLast (step env parseDaefile s e)
      (((e.installs env parseDaefile s).map Prod.fst).getD c) es

variable {env parseDaefile} {s : ControlPlane} {c c₀ : CompiledRouting} {m : Maps}

theorem installs_succeeds {e : ReloadEvent} (he : e.Succeeds) {o : ReloadOutcome}
    (h : e.installs env parseDaefile s=some (c,o)) : o.Succeeds := by
  obtain ⟨⟨text,o'⟩,hreq,h⟩ := Option.bind_eq_some_iff.mp h
  obtain ⟨c',-,heq⟩ := Option.map_eq_some_iff.mp h
  have ho : o'=o := congrArg Prod.snd heq
  rw [← ho]
  cases e with
  | reload t oe =>
    cases hreq
    exact he
  | ruleSetsUpdated cache => cases hreq
  | handleRuleSetReloads oe =>
    unfold ReloadEvent.request at hreq
    split_ifs at hreq
    obtain ⟨t,-,heq'⟩ := Option.map_eq_some_iff.mp hreq
    cases heq'
    exact he

theorem step_serves (hm : s.ebpf=some m) (h : Serves m s.currentEpochSlot c) {e : ReloadEvent}
    (he : e.Succeeds) : ∃ m',(step env parseDaefile s e).ebpf=some m' ∧
      Serves m' (step env parseDaefile s e).currentEpochSlot
        (((e.installs env parseDaefile s).map Prod.fst).getD c) ∧
      (step env parseDaefile s e).consumerMatcher=s.consumerMatcher := by
  cases hinst : e.installs env parseDaefile s with
  | none =>
    have hsame := (step_quiet hinst).1
    refine ⟨m,hsame.ebpf.trans hm,?_,hsame.consumer⟩
    rw [hsame.slot]
    exact h
  | some co =>
    have ho := installs_succeeds he hinst
    obtain ⟨hfits,hlog,hebpf,hconsumer,hnext,-⟩ := step_installs hm hinst
    refine ⟨_,hebpf,?_,hconsumer⟩
    rw [hnext ho.rules,hlog]
    exact serves_reloadWrites hfits s.nextEpochSlot_lt ho h.names h.filled s.currentEpochSlot

theorem run_serves (hm : s.ebpf=some m) (h : Serves m s.currentEpochSlot c)
    {es : List ReloadEvent} (hes : ∀ e∈es,e.Succeeds) :
    ∃ m',(run env parseDaefile s es).ebpf=some m' ∧
      Serves m' (run env parseDaefile s es).currentEpochSlot
        (compiledLast env parseDaefile s c es) ∧
      (run env parseDaefile s es).consumerMatcher=s.consumerMatcher := by
  induction es generalizing s c m with
  | nil => exact ⟨m,hm,h,rfl⟩
  | cons e es ih =>
    obtain ⟨m₁,hm₁,hserves,hconsumer⟩ := step_serves hm h (hes e mem_cons_self)
    obtain ⟨m',hm',hserves',hconsumer'⟩ :=
      ih hm₁ hserves fun e' he' => hes e' (mem_cons_of_mem e he')
    exact ⟨m',hm',hserves',hconsumer'.trans hconsumer⟩

variable {checks : Bool} {so : StartOutcome} {config : HotConfig} {daefile : Option DaefileConfig}
  {content : Option String} {cache : RuleSetCache}

theorem serves_loaded : Serves loadedMaps 0 noRules where
  holds := ⟨rfl,by decide,rfl,by decide,fun j h => absurd h (Nat.not_lt_zero j)⟩
  tries := fun i _ hne => absurd (getD_nil) hne
  filled := fun _ h => nomatch h
  names := fun _ => rfl
  index_lt := fun ms hms => absurd hms not_mem_nil

theorem start_serves (h : start env checks (new config daefile content cache) so=.ok s)
    (hso : so.Succeeds) :
    ∃ m,s.ebpf=some m ∧ Serves m s.currentEpochSlot s.startRules ∧
      ∀ matcher,s.consumerMatcher=some matcher →
        RoutingMatcher.fromCompiled checks s.startRules=some matcher := by
  rcases start_ok h with ⟨dc,c,hcomp,hlaunch⟩ | rfl
  · obtain ⟨hwrites,matcher,hmatcher,rfl⟩ := launch_ok hlaunch
    have hfits := compile_fits hcomp
    refine ⟨_,rfl,?_,?_⟩
    · have hwrites : (startWrites c 0 so).result=.ok () := hwrites
      have hswitch : so.epochUpdated=true := hso.epochUpdated
      show Serves ((startWrites c 0 so).log.foldl MapWrite.apply loadedMaps) 0 c
      rw [startWrites_succeeded hfits (by decide) hwrites,if_pos hswitch]
      exact serves_fill hfits (by decide) hso (fun _ => rfl) fun _ h => nomatch h
    · intro matcher' heq
      cases heq
      exact hmatcher
  · refine ⟨loadedMaps,rfl,serves_loaded,?_⟩
    intro matcher heq
    cases heq

theorem run_start_serves (h : start env checks (new config daefile content cache) so=.ok s)
    (hso : so.Succeeds) {es : List ReloadEvent} (hes : ∀ e∈es,e.Succeeds) :
    ∃ m,(run env parseDaefile s es).ebpf=some m ∧
      Serves m (run env parseDaefile s es).currentEpochSlot
        (compiledLast env parseDaefile s s.startRules es) ∧
      ∀ matcher,(run env parseDaefile s es).consumerMatcher=some matcher →
        RoutingMatcher.fromCompiled checks s.startRules=some matcher := by
  obtain ⟨m₀,hm₀,hserves₀,hmatcher⟩ := start_serves h hso
  obtain ⟨m,hm,hserves,hconsumer⟩ := run_serves hm₀ hserves₀ hes
  refine ⟨m,hm,hserves,?_⟩
  intro matcher heq
  exact hmatcher matcher (hconsumer.symm.trans heq)

end Run

section Tries

/-- Every trie that a rule of the active slot refers to is there, with exactly the prefixes of the
compiled list. -/
def TriesCurrent (m : Maps) (c : CompiledRouting) : Prop :=
  ∀ j < m.routingMetaMap m.activeRoutingEpochMap,∀ i,
    lpmIndex (m.routingMap (m.activeRoutingEpochMap*maxMatchSetLen+j)).value=some i →
      m.lpmArrayMap (m.activeRoutingEpochMap*maxMatchSetLen+i.toNat) =
        some (lpmTrie (c.lpmTries.getD i.toNat []))

def ListsNonempty (c : CompiledRouting) : Prop :=
  ∀ ms∈c.matchSets,∀ i∈lpmIndex ms.value,c.lpmTries.getD i.toNat []≠[]

theorem listsNonempty_iff_all (c : CompiledRouting) :
    (c.matchSets.all fun ms => (lpmIndex ms.value).all fun i =>
      !(c.lpmTries.getD i.toNat []).isEmpty)=true ↔ ListsNonempty c := by
  simp only [ListsNonempty,all_eq_true,Option.all_eq_true,Bool.not_eq_true',
    isEmpty_eq_false_iff,Option.mem_def]

instance (c : CompiledRouting) : Decidable (ListsNonempty c) :=
  decidable_of_iff _ (listsNonempty_iff_all c)

theorem triesCurrent_iff {m : Maps} {slot : Nat} {c : CompiledRouting} (h : Serves m slot c) :
    TriesCurrent m c ↔ ListsNonempty c := by
  unfold TriesCurrent
  rw [h.holds.active]
  constructor
  · intro hcur ms hms i hi hnil
    obtain ⟨j,hj,rfl⟩ := getElem_of_mem hms
    rw [← h.holds.entry j hj] at hi
    have htrie := hcur j (by rw [h.holds.len]; exact hj) i hi
    rw [hnil] at htrie
    exact h.filled _ htrie
  · intro hne j hj i hi
    rw [h.holds.len] at hj
    rw [h.holds.entry j hj] at hi
    have hms : c.matchSets[j]∈c.matchSets := getElem_mem hj
    exact h.tries _ (h.index_lt _ hms i hi) (hne _ hms i hi)

variable {env : Env} {parseDaefile : String → Except Error DaefileConfig} {checks : Bool}
  {so : StartOutcome} {config : HotConfig} {daefile : Option DaefileConfig}
  {content : Option String} {cache : RuleSetCache} {s : ControlPlane}

/-- After any sequence of successful reloads the active slot's tries are those of the rules
compiled last exactly when no rule refers to an empty list. -/
theorem active_tries_current_iff
    (h : start env checks (new config daefile content cache) so=.ok s) (hso : so.Succeeds)
    (es : List ReloadEvent) (hes : ∀ e∈es,e.Succeeds) :
    ∃ m,(run env parseDaefile s es).ebpf=some m ∧
      (TriesCurrent m (compiledLast env parseDaefile s s.startRules es) ↔
        ListsNonempty (compiledLast env parseDaefile s s.startRules es)) := by
  obtain ⟨m,hm,hserves,-⟩ := run_start_serves h hso hes
  exact ⟨m,hm,triesCurrent_iff hserves⟩

def ruleSetText : String :=
  daefileText "192.0.2.1:1080" "dip(set:s) -> block\nfallback: direct\n" ++
    "rule_set \x7b\ns \x7b\ntype: ip_list\nurl: 'https://example.com/s.txt'\n" ++
    "update: period: 3h2m\n\x7d\n\x7d\n"

def ruleSetConfig : DaefileConfig :=
  { daefileConfig "192.0.2.1:1080" ⟨[⟨"dip(set:s)", "block"⟩], "direct"⟩ with
    ruleSet := [⟨"s", "https://example.com/s.txt",some (.period "3h2m")⟩] }

def cacheOf (nets : List IpNet) : RuleSetCache :=
  ⟨fun name => if name = "s" then some nets else none,fun _ => none⟩

def netTen : IpNet := .v4 ⟨0x0a000000,8,by decide⟩

theorem active_tries_current_refreshed : ∃ s,
    start Env.empty true (new ⟨"192.0.2.1:1080", "", "",5000, "info"⟩ (some ruleSetConfig)
      (some ruleSetText) (cacheOf [])) .all=.ok s ∧
    let es := [.ruleSetsUpdated (cacheOf [netTen]),.handleRuleSetReloads .all]
    ∃ m,(run Env.empty (parsesAs ruleSetText ruleSetConfig) s es).ebpf=some m ∧
      TriesCurrent m (compiledLast Env.empty (parsesAs ruleSetText ruleSetConfig) s
        s.startRules es) := by
  have hrun : ∃ s,start Env.empty true (new ⟨"192.0.2.1:1080", "", "",5000, "info"⟩
      (some ruleSetConfig) (some ruleSetText) (cacheOf [])) .all=.ok s ∧
      ListsNonempty (compiledLast Env.empty (parsesAs ruleSetText ruleSetConfig) s s.startRules
        [.ruleSetsUpdated (cacheOf [netTen]),.handleRuleSetReloads .all]) := by
    decide +kernel
  obtain ⟨s,hs,hlists⟩ := hrun
  obtain ⟨m,hm,hiff⟩ := active_tries_current_iff hs ReloadOutcome.all_succeeds
    [.ruleSetsUpdated (cacheOf [netTen]),.handleRuleSetReloads .all]
    (List.forall_mem_cons.2 ⟨trivial,List.forall_mem_singleton.2 ReloadOutcome.all_succeeds⟩)
  exact ⟨s,hs,m,hm,hiff.mpr hlists⟩

/-- A rule set that becomes empty leaves its rule without a trie in one slot, and with the trie of
the old prefixes in the other. -/
theorem emptied_set_keeps_old_trie : ∃ s,
    start Env.empty true (new ⟨"192.0.2.1:1080", "", "",5000, "info"⟩ (some ruleSetConfig)
      (some ruleSetText) (cacheOf [netTen])) .all=.ok s ∧
    let parse := parsesAs ruleSetText ruleSetConfig
    let es := [.ruleSetsUpdated (cacheOf []),.handleRuleSetReloads .all]
    (compiledLast Env.empty parse s s.startRules es).lpmTries.getD 1 [netTen]=[] ∧
    (compiledLast Env.empty parse s s.startRules (es++es)).lpmTries.getD 1 [netTen]=[] ∧
    (∃ m,(run Env.empty parse s es).ebpf=some m ∧ m.activeRoutingEpochMap=1 ∧
      m.routingMetaMap 1=4 ∧ lpmIndex (m.routingMap (maxMatchSetLen+2)).value=some 1 ∧
      m.lpmArrayMap (maxMatchSetLen+1)=none) ∧
    ∃ m,(run Env.empty parse s (es++es)).ebpf=some m ∧ m.activeRoutingEpochMap=0 ∧
      m.routingMetaMap 0=4 ∧ lpmIndex (m.routingMap 2).value=some 1 ∧
      m.lpmArrayMap 1=some (lpmTrie [netTen]) := by
  decide +kernel

end Tries

section Consumer

/-- The two differ in nothing that is matched. -/
structure SameRules (checks : Bool) (c₀ c : CompiledRouting) : Prop where
  matchSets : c.matchSets=c₀.matchSets
  lpmSets : c.lpmTries.mapM (CompiledIpSet.compile checks) =
    c₀.lpmTries.mapM (CompiledIpSet.compile checks)
  domainSets : c.domainSets=c₀.domainSets
  fallbackOutbound : c.fallbackOutbound=c₀.fallbackOutbound
  fallbackMark : c.fallbackMark=c₀.fallbackMark
  fallbackMust : c.fallbackMust=c₀.fallbackMust

instance (checks : Bool) (c₀ c : CompiledRouting) : Decidable (SameRules checks c₀ c) :=
  decidable_of_iff (c.matchSets=c₀.matchSets ∧
      c.lpmTries.mapM (CompiledIpSet.compile checks) =
        c₀.lpmTries.mapM (CompiledIpSet.compile checks) ∧
      c.domainSets=c₀.domainSets ∧ c.fallbackOutbound=c₀.fallbackOutbound ∧
      c.fallbackMark=c₀.fallbackMark ∧ c.fallbackMust=c₀.fallbackMust)
    ⟨fun ⟨h₁,h₂,h₃,h₄,h₅,h₆⟩ => ⟨h₁,h₂,h₃,h₄,h₅,h₆⟩,fun ⟨h₁,h₂,h₃,h₄,h₅,h₆⟩ => ⟨h₁,h₂,h₃,h₄,h₅,h₆⟩⟩

theorem fromCompiled_eq_iff {checks : Bool} {c₀ c : CompiledRouting} {matcher : RoutingMatcher}
    (h : RoutingMatcher.fromCompiled checks c₀=some matcher) :
    RoutingMatcher.fromCompiled checks c=some matcher ↔ SameRules checks c₀ c := by
  obtain ⟨sets₀,hsets₀,heq⟩ := Option.bind_eq_some_iff.mp h
  cases heq
  constructor
  · intro hc
    obtain ⟨sets,hsets,heq⟩ := Option.bind_eq_some_iff.mp hc
    injection heq with heq
    injection heq with hms hlpm hdom hob hmark hmust
    refine ⟨hms,?_,hdom,hob,hmark,hmust⟩
    rw [hsets,hsets₀,hlpm]
  · intro hsame
    rw [RoutingMatcher.fromCompiled,hsame.lpmSets,hsets₀,hsame.matchSets,hsame.domainSets,
      hsame.fallbackOutbound,hsame.fallbackMark,hsame.fallbackMust]
    rfl

variable {env : Env} {parseDaefile : String → Except Error DaefileConfig} {checks : Bool}
  {so : StartOutcome} {config : HotConfig} {daefile : Option DaefileConfig}
  {content : Option String} {cache : RuleSetCache} {s : ControlPlane}

/-- After any successful reloads the active slot holds the rules compiled last, and the consumer's
matcher is built from them exactly when they are those of startup. -/
theorem consumer_matcher_current_iff
    (h : start env checks (new config daefile content cache) so=.ok s) (hso : so.Succeeds)
    (es : List ReloadEvent) (hes : ∀ e∈es,e.Succeeds) :
    ∃ m,(run env parseDaefile s es).ebpf=some m ∧ Holds m m.activeRoutingEpochMap
        (compiledLast env parseDaefile s s.startRules es).matchSets ∧
      ∀ matcher,(run env parseDaefile s es).consumerMatcher=some matcher →
        (RoutingMatcher.fromCompiled checks (compiledLast env parseDaefile s s.startRules es) =
            some matcher ↔
          SameRules checks s.startRules (compiledLast env parseDaefile s s.startRules es)) := by
  obtain ⟨m,hm,hserves,hconsumer⟩ := run_start_serves h hso hes
  refine ⟨m,hm,?_,?_⟩
  · rw [hserves.holds.active]
    exact hserves.holds
  · intro matcher hmatcher
    exact fromCompiled_eq_iff (hconsumer matcher hmatcher)

theorem consumer_matcher_current_unchanged : ∃ s,
    start Env.empty true (new ⟨"192.0.2.1:1080", "", "",5000, "info"⟩
      (some (daefileConfig "192.0.2.1:1080" ⟨[⟨"dport(80)", "block"⟩], "direct"⟩)) none
      noRuleSets) .all=.ok s ∧
    let text := daefileText "192.0.2.1:1080" "dport(80) -> block\nfallback: direct\n"
    let parse := parsesAs text
      (daefileConfig "192.0.2.1:1080" ⟨[⟨"dport(80)", "block"⟩], "direct"⟩)
    ∃ matcher,(run Env.empty parse s [.reload text .all]).consumerMatcher=some matcher ∧
      RoutingMatcher.fromCompiled true
        (compiledLast Env.empty parse s s.startRules [.reload text .all])=some matcher := by
  have hrun : ∃ s,start Env.empty true (new ⟨"192.0.2.1:1080", "", "",5000, "info"⟩
      (some (daefileConfig "192.0.2.1:1080" ⟨[⟨"dport(80)", "block"⟩], "direct"⟩)) none
      noRuleSets) .all=.ok s ∧
      let text := daefileText "192.0.2.1:1080" "dport(80) -> block\nfallback: direct\n"
      let parse := parsesAs text
        (daefileConfig "192.0.2.1:1080" ⟨[⟨"dport(80)", "block"⟩], "direct"⟩)
      (run Env.empty parse s [.reload text .all]).consumerMatcher.isSome=true ∧
        SameRules true s.startRules
          (compiledLast Env.empty parse s s.startRules [.reload text .all]) := by
    decide +kernel
  obtain ⟨s,hs,hsome,hsame⟩ := hrun
  obtain ⟨matcher,hmatcher⟩ := Option.isSome_iff_exists.mp hsome
  obtain ⟨m,-,-,hiff⟩ := consumer_matcher_current_iff hs ReloadOutcome.all_succeeds
    [.reload _ .all] (List.forall_mem_singleton.2 ReloadOutcome.all_succeeds)
  exact ⟨s,hs,matcher,hmatcher,(hiff matcher hmatcher).mpr hsame⟩

/-- After a reload without the rule of startup the kernel has one rule less than the consumer. -/
theorem consumer_keeps_startup_rules : ∃ s,
    start Env.empty true (new ⟨"192.0.2.1:1080", "", "",5000, "info"⟩
      (some (daefileConfig "192.0.2.1:1080" ⟨[⟨"dport(80)", "block"⟩], "direct"⟩)) none
      noRuleSets) .all=.ok s ∧
    let text := daefileText "192.0.2.1:1080" "fallback: direct\n"
    let parse := parsesAs text (daefileConfig "192.0.2.1:1080" ⟨[], "direct"⟩)
    ∃ m matcher,(run Env.empty parse s [.reload text .all]).ebpf=some m ∧
      (run Env.empty parse s [.reload text .all]).consumerMatcher=some matcher ∧
      m.routingMetaMap m.activeRoutingEpochMap=3 ∧ matcher.matchSets.length=4 := by
  simp only [exists_and_left]
  decide +kernel

end Consumer

end DaeRs.Control
