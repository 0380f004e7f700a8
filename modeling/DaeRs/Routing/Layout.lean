import DaeRs.Routing.EntryIndex
import DaeRs.Bpf.RouteEval

/-! The chain of conditions that a whole configuration lays out, and its reading on a packet. -/

namespace DaeRs.Routing

open Chain Net RuleSet Bpf Config List

def Item.link (item : Item) : Link :=
  if item.outbound=Outbound.logicalOr then .or
  else if item.outbound=Outbound.logicalAnd then .and
  else .stop

/-- What the kernel finds for a condition in a slot that was empty before: an empty prefix list has
no trie, and no address has a domain bitmap. -/
def condEval (args : RouteArgs) : Cond → Except Int Bool
  | .domain _ => .ok false
  | .dip cidrs => if cidrs=[] then .error efault else .ok (cidrs.any (·.covers args.daddr))
  | .sip cidrs => if cidrs=[] then .error efault else .ok (cidrs.any (·.covers args.saddr))
  | .mac cidrs => if cidrs=[] then .error efault else .ok (cidrs.any (·.covers args.mac))
  | .plain v => plainEval args v

def itemReader (args : RouteArgs) : Reader Item Int where
  link := Item.link
  neg := Item.not
  eval item := condEval args item.cond

def itemHit (must : Bool) (item : Item) : Bool ⊕ RouteResult :=
  if item.outbound=Outbound.mustRules then .inl true
  else .inr ⟨item.outbound,item.mark,must || item.must⟩

def itemsAction (args : RouteArgs) (items : List Item) : Option RouteResult :=
  outcome (Reader.scan (itemReader args).rule itemHit id false ((itemReader args).rules items))

section Program

variable (env : Env) (cache : Option RuleSetCache) (idMap : OutboundIdMap)

def ruleItems (rule : NormalizedRule) (idx : Nat) : List Item :=
  let id := (resolveOutboundId rule.outbound idMap).toOption.getD 0
  if rule.andFunctions.isEmpty then
    [⟨.plain .fallback,false,id,rule.outbound.must,rule.outbound.mark⟩]
  else (functionsItems env cache rule.outbound id rule.andFunctions idx).flatten.flatten

def rulesItems : List NormalizedRule → Nat → List Item
  | [],_ => []
  | rule::rules,idx =>
    ruleItems env cache idMap rule idx++rulesItems rules (idx+rule.domainGroups)

def proxyItems (ips : List IpAddr) : List Item :=
  if ips=[] then []
  else [⟨.dip (ips.map hostNet),false,Outbound.logicalAnd,false,0⟩,
    ⟨.plain (.port ⟨53,53⟩),true,Outbound.direct,false,0⟩]

def fallbackItem (fallback : Outbound) : Item :=
  ⟨.plain .fallback,false,(idMap fallback.name).getD Outbound.controlPlaneRouting,
    fallback.must,fallback.mark⟩

def programItems (ips : List IpAddr) (program : NormalizedProgram) : List Item :=
  proxyItems ips++rulesItems env cache idMap program.rules 0 ++[fallbackItem idMap program.fallback]

end Program

def isPlain : MatchValue → Bool
  | .domainSet _ | .ipSet _ | .sourceIpSet _ | .mac _ => false
  | _ => true

section Members

variable {env : Env} {cache : Option RuleSetCache} {idMap : OutboundIdMap}

theorem mem_functionsItems {ob : Outbound} {id : UInt8} {fs : List Function} {idx : Nat}
    {item : Item} (h : item∈(functionsItems env cache ob id fs idx).flatten.flatten) :
    ∃ f∈fs,∃ kind,f.kind=some kind ∧ ∃ vs∈f.groups,∃ k,
      item.cond∈groupConds env cache f vs k kind := by
  induction fs generalizing idx with
  | nil => cases h
  | cons f rest ih =>
    rw [functionsItems,flatten_cons,flatten_append] at h
    rcases mem_append.mp h with h | h
    · unfold functionItems at h
      split at h
      · cases h
      · next kind hkind =>
        obtain ⟨vs,hvs,k,hk⟩ := mem_groupsItems h
        exact ⟨f,by simp,kind,hkind,vs,hvs,k,hk⟩
    · obtain ⟨g,hg,hrest⟩ := ih h
      exact ⟨g,by simp [hg],hrest⟩

theorem mem_rulesItems {rules : List NormalizedRule} {idx : Nat} {item : Item}
    (h : item∈rulesItems env cache idMap rules idx) :
    item.cond=.plain .fallback ∨ ∃ rule∈rules,∃ f∈rule.andFunctions,∃ kind,
      f.kind=some kind ∧ ∃ vs∈f.groups,∃ k,
        item.cond∈groupConds env cache f vs k kind := by
  induction rules generalizing idx with
  | nil => cases h
  | cons rule rest ih =>
    rcases mem_append.mp h with h | h
    · simp only [ruleItems] at h
      split_ifs at h
      · rw [mem_singleton] at h
        exact .inl (by rw [h])
      · exact .inr ⟨rule,by simp,mem_functionsItems h⟩
    · rcases ih h with hbare | ⟨r,hr,hrest⟩
      · exact .inl hbare
      · exact .inr ⟨r,by simp [hr],hrest⟩

theorem exists_cond_mono {conds : Nat → List Cond} {items items' : List Item}
    (hsub : items⊆items') (h : ∃ k,∀ c∈conds k,∃ item∈items,item.cond=c) :
    ∃ k,∀ c∈conds k,∃ item∈items',item.cond=c := by
  obtain ⟨k,hk⟩ := h
  refine ⟨k,fun c hc => ?_⟩
  obtain ⟨item,hitem,hcond⟩ := hk c hc
  exact ⟨item,hsub hitem,hcond⟩

variable (env cache) in
theorem exists_groupsItem {f : Function} {kind : FunctionKind} {isLast : Bool} {ob : Outbound}
    {id : UInt8} {groups : List (List String)} {vs : List String} (hvs : vs∈groups) (idx : Nat) :
    ∃ k,∀ c∈groupConds env cache f vs k kind,
      ∃ item∈(groupsItems env cache f kind isLast ob id groups idx).flatten,item.cond=c := by
  induction groups generalizing idx with
  | nil => cases hvs
  | cons values rest ih =>
    simp only [groupsItems,flatten_cons]
    rcases mem_cons.mp hvs with rfl | hvs
    · exact ⟨idx,fun c hc => ⟨_,mem_append_left _ (mem_map_of_mem hc),rfl⟩⟩
    · exact exists_cond_mono (subset_append_right _ _) (ih hvs _)

variable (env cache) in
theorem exists_functionsItem {ob : Outbound} {id : UInt8} {fs : List Function} {f : Function}
    (hf : f∈fs) {kind : FunctionKind} (hkind : f.kind=some kind) {vs : List String}
    (hvs : vs∈f.groups) (idx : Nat) :
    ∃ k,∀ c∈groupConds env cache f vs k kind,
      ∃ item∈(functionsItems env cache ob id fs idx).flatten.flatten,item.cond=c := by
  induction fs generalizing idx with
  | nil => cases hf
  | cons g rest ih =>
    simp only [functionsItems,flatten_cons,flatten_append]
    rcases mem_cons.mp hf with rfl | hf
    · rw [functionItems,hkind]
      exact exists_cond_mono (subset_append_left _ _) (exists_groupsItem env cache hvs idx)
    · exact exists_cond_mono (subset_append_right _ _) (ih hf _)

variable (env cache idMap) in
theorem exists_rulesItem {rules : List NormalizedRule} {rule : NormalizedRule}
    (hr : rule∈rules) {f : Function} (hf : f∈rule.andFunctions) {kind : FunctionKind}
    (hkind : f.kind=some kind) {vs : List String} (hvs : vs∈f.groups) (idx : Nat) :
    ∃ k,∀ c∈groupConds env cache f vs k kind,
      ∃ item∈rulesItems env cache idMap rules idx,item.cond=c := by
  induction rules generalizing idx with
  | nil => cases hr
  | cons r rest ih =>
    rw [rulesItems]
    rcases mem_cons.mp hr with rfl | hr
    · have hne : ¬rule.andFunctions.isEmpty=true := by
        intro hempty
        rw [List.isEmpty_iff.mp hempty] at hf
        cases hf
      rw [ruleItems,if_neg hne]
      exact exists_cond_mono (subset_append_left _ _)
        (exists_functionsItem env cache hf hkind hvs idx)
    · exact exists_cond_mono (subset_append_right _ _) (ih hr _)

/-- No item has a condition with `P`, where in the groups just functions of two kinds with `R` have
one. -/
theorem no_item_iff {ips : List IpAddr} {program : NormalizedProgram} {P : Cond → Prop}
    {k₁ k₂ : FunctionKind} {R : Function → Prop} (hfallback : ¬P (.plain .fallback))
    (hproxy : ∀ item∈proxyItems ips,¬P item.cond)
    (hconds : ∀ f kind,∀ vs∈f.groups,∀ k,
      (∃ c∈groupConds env cache f vs k kind,P c) ↔ (kind=k₁ ∨ kind=k₂) ∧ R f) :
    (∀ item∈programItems env cache idMap ips program,¬P item.cond) ↔
      ∀ rule∈program.rules,∀ f∈rule.andFunctions,
        f.kind=some k₁ ∨ f.kind=some k₂ → f.groups≠[] → ¬R f := by
  constructor
  · intro hnone rule hr f hf hkind hne hR
    have hkinds : ∃ kind,f.kind=some kind ∧ (kind=k₁ ∨ kind=k₂) := by
      rcases hkind with hk | hk
      · exact ⟨_,hk,.inl rfl⟩
      · exact ⟨_,hk,.inr rfl⟩
    obtain ⟨kind,hkind,hk⟩ := hkinds
    obtain ⟨vs,hvs⟩ := exists_mem_of_ne_nil _ hne
    obtain ⟨k,hitems⟩ := exists_rulesItem env cache idMap hr hf hkind hvs 0
    obtain ⟨c,hc,hP⟩ := (hconds f kind vs hvs k).mpr ⟨hk,hR⟩
    obtain ⟨item,hitem,hcond⟩ := hitems c hc
    exact hnone item (by simp [programItems,hitem]) (hcond ▸ hP)
  · intro hall item hitem hP
    simp only [programItems,mem_append,mem_singleton] at hitem
    rcases hitem with (hitem | hitem) | rfl
    · exact hproxy item hitem hP
    · rcases mem_rulesItems hitem with hbare | ⟨rule,hr,f,hf,kind,hkind,vs,hvs,k,hk⟩
      · rw [hbare] at hP
        exact hfallback hP
      · obtain ⟨hkinds,hR⟩ := (hconds f kind vs hvs k).mp ⟨_,hk,hP⟩
        refine hall rule hr f hf ?_ (ne_nil_of_mem hvs) hR
        rw [hkind]
        exact hkinds.imp (congrArg some) (congrArg some)
    · exact hfallback hP

theorem groupConds_plain {f : Function} {values : List String} {idx : Nat} {kind : FunctionKind}
    {v : MatchValue} (h : .plain v∈groupConds env cache f values idx kind) :
    isPlain v=true := by
  cases kind with
  | mac =>
    simp only [groupConds] at h
    split_ifs at h <;> simp at h
  | dport | sport | dscp | processName | upstream =>
    simp only [groupConds,mem_map,Cond.plain.injEq] at h
    obtain ⟨a,-,rfl⟩ := h
    rfl
  | l4proto | ipversion | qtype =>
    simp only [groupConds,mem_singleton,Cond.plain.injEq] at h
    rw [h]
    rfl
  | dip | sip | domain => simp [groupConds] at h

theorem programItems_plain {ips : List IpAddr} {program : NormalizedProgram} {item : Item}
    (h : item∈programItems env cache idMap ips program) {v : MatchValue}
    (hv : item.cond=.plain v) : isPlain v=true := by
  simp only [programItems,mem_append,mem_singleton] at h
  rcases h with (h | h) | h
  · unfold proxyItems at h
    split_ifs at h
    · cases h
    · simp only [mem_cons,not_mem_nil,or_false] at h
      rcases h with rfl | rfl
      · cases hv
      · cases hv
        rfl
  · rcases mem_rulesItems h with hbare | ⟨rule,-,f,-,kind,-,vs,-,k,hk⟩
    · rw [hbare] at hv
      cases hv
      rfl
    · rw [hv] at hk
      exact groupConds_plain hk
  · rw [h] at hv
    cases hv
    rfl

end Members

section Represent

variable {env : Env} {cache : Option RuleSetCache} {idMap : OutboundIdMap}
  {tries : List (List IpNet)}

theorem FunctionsLowered.represent {ob : Outbound} {id : UInt8} {idx : Nat}
    {lfs : List LoweredFunction} (h : FunctionsLowered env cache tries ob id idx lfs) :
    List.Forall₂ (List.Forall₂ (List.Forall₂ (Represents tries)))
      (functionsItems env cache ob id (lfs.map LoweredFunction.func) idx)
      (lfs.map LoweredFunction.groups) := by
  induction h with
  | nil idx => exact .nil
  | @cons idx lf rest head _ ih =>
    have hlast : (rest.map LoweredFunction.func).isEmpty=rest.isEmpty := by
      cases rest <;> rfl
    rw [map_cons,functionsItems,hlast]
    exact .cons head.groups ih

theorem RuleLowered.represent {idx : Nat} {l : LoweredRule} {id : UInt8}
    (h : RuleLowered env cache idMap tries idx l id) :
    List.Forall₂ (Represents tries) (ruleItems env cache idMap l.rule idx) l.entries := by
  have hid : (resolveOutboundId l.rule.outbound idMap).toOption.getD 0=id := by
    simp [h.resolved,Except.toOption]
  have hfuncs := h.functions.represent
  rw [h.funcs] at hfuncs
  have hentries : l.functions.flatMap LoweredFunction.entries =
      (l.functions.map LoweredFunction.groups).flatten.flatten := by
    rw [flatten_flatten,map_map,flatMap_def]
    rfl
  unfold ruleItems
  rw [LoweredRule.entries,h.bare,hid,hentries]
  split_ifs with hempty
  · have hnil : l.functions=[] := by
      have hmap := h.funcs
      rw [List.isEmpty_iff.mp hempty] at hmap
      exact map_eq_nil_iff.mp hmap
    rw [hnil]
    exact .cons ⟨rfl,rfl,rfl,rfl,rfl⟩ .nil
  · exact rel_flatten (rel_flatten hfuncs)

theorem RulesLowered.represent {idx : Nat} {ls : List LoweredRule}
    (h : RulesLowered env cache idMap tries idx ls) :
    List.Forall₂ (Represents tries)
      (rulesItems env cache idMap (ls.map LoweredRule.rule) idx)
      (ls.flatMap LoweredRule.entries) := by
  induction h with
  | nil idx => exact .nil
  | cons head _ ih => exact rel_append head.represent ih

theorem Compiled.represent {routing : RoutingConfig} {outbounds : OutboundsConfig}
    {ips : List IpAddr} {t : Compilation} (h : Compiled env cache routing outbounds ips t) :
    List.Forall₂ (Represents t.routing.lpmTries)
      (programItems env cache (buildOutboundIdMap outbounds) ips t.program)
      t.routing.matchSets := by
  have hproxy : List.Forall₂ (Represents t.routing.lpmTries) (proxyItems ips) t.proxyEntries := by
    rcases h.proxy with ⟨hnil,hp⟩ | ⟨hne,hp,htrie⟩
    · rw [hp,proxyItems,if_pos hnil]
      exact .nil
    · rw [hp,proxyItems,if_neg hne]
      exact .cons ⟨⟨0,rfl,htrie⟩,rfl,rfl,rfl,rfl⟩ (.cons ⟨rfl,rfl,rfl,rfl,rfl⟩ .nil)
  have hfallback : Represents t.routing.lpmTries
      (fallbackItem (buildOutboundIdMap outbounds) t.program.fallback) t.routing.fallbackEntry :=
    ⟨rfl,rfl,h.fallbackOutbound,h.fallbackMust,h.fallbackMark⟩
  have hrules := h.lowered.represent
  rw [h.rules] at hrules
  rw [h.matchSets,programItems]
  exact rel_append (rel_append hproxy hrules) (.cons hfallback .nil)

end Represent

end DaeRs.Routing
