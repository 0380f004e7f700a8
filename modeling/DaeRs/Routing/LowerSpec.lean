import DaeRs.Routing.Items

/-! `compile_rules` lays out the conditions of the configuration. -/

namespace DaeRs.Routing

open RustStr Net RuleSet Bpf Config List

variable {env : Env} {cache : Option RuleSetCache} {idMap : OutboundIdMap} {ob : Outbound}

theorem resolve_override {id : UInt8} (h : resolveOutboundId ob idMap=.ok id)
    (isLast isLastFunction : Bool) :
    resolveOutboundId (computeOverrideOutbound isLast isLastFunction ob) idMap =
      .ok (overrideId isLast isLastFunction id) := by
  cases isLast with
  | false => rfl
  | true =>
    cases isLastFunction with
    | false => rfl
    | true => exact h

theorem override_fields (isLast isLastFunction : Bool) (ob : Outbound) :
    (computeOverrideOutbound isLast isLastFunction ob).must=ob.must ∧
      (computeOverrideOutbound isLast isLastFunction ob).mark=ob.mark := by
  cases isLast <;> cases isLastFunction <;> exact ⟨rfl,rfl⟩

theorem forall₂_entries {tries : List (List IpNet)} {conds : List Cond} {vals : List MatchValue}
    (h : List.Forall₂ (CondValue tries) conds vals) (not : Bool) (outbound : UInt8) (must : Bool)
    (mark : UInt32) :
    List.Forall₂ (Represents tries) (conds.map fun c => ⟨c,not,outbound,must,mark⟩)
      (vals.map fun v => ⟨v,not,outbound,must,mark⟩) := by
  induction h with
  | nil => exact .nil
  | cons hv _ ih => exact .cons ⟨hv,rfl,rfl,rfl,rfl⟩ ih

variable {st st' : LowerState}

theorem lowerGroups_spec {f : Function} {kind : FunctionKind} (hkind : f.kind=some kind)
    {isLastFunction : Bool} {id : UInt8}
    (hid : resolveOutboundId ob idMap=.ok id) {groups : List (List String)}
    {gss : List (List MatchSet)}
    (h : lowerGroups env cache idMap f isLastFunction ob groups st=.ok (gss,st')) :
    Grown st st' gss.flatten.length (if kind=.domain then groups.length else 0) ∧
      List.Forall₂ (List.Forall₂ (Represents st'.lpm.items))
        (groupsItems env cache f kind isLastFunction ob id groups st.ruleDomainIdx) gss ∧
      ∀ vs∈groups,ValuesParse env cache f vs kind := by
  induction groups generalizing st gss with
  | nil =>
    cases h
    refine ⟨?_,.nil,by simp⟩
    simpa using Grown.refl _
  | cons values rest ih =>
    rw [lowerGroups,resolve_override hid,Fallible.ok_bind] at h
    obtain ⟨⟨entries,st₁⟩,hbuild,h⟩ := Fallible.bind_ok_iff.mp h
    obtain ⟨⟨more,st₂⟩,hmore,h⟩ := Fallible.bind_ok_iff.mp h
    cases h
    rw [buildMatchSetForFunction,hkind] at hbuild
    obtain ⟨⟨vals,st₁'⟩,hvals,hbuild⟩ := Fallible.bind_ok_iff.mp hbuild
    cases hbuild
    obtain ⟨hgrow,hconds,hparse⟩ := lowerValues_spec hvals
    obtain ⟨hgrow',hitems,hparse'⟩ := ih hmore
    obtain ⟨new,hnew,-⟩ := hgrow'.items
    obtain ⟨hmust,hmark⟩ := override_fields rest.isEmpty isLastFunction ob
    refine ⟨?_,?_,?_⟩
    · have htrans := hgrow.trans hgrow'
      have hd : (if kind=.domain then 1 else 0)+(if kind=.domain then rest.length else 0) =
          if kind=.domain then (values::rest).length else 0 := by
        split_ifs
        · rw [length_cons,Nat.add_comm]
        · rfl
      rw [hd] at htrans
      simpa using htrans
    · rw [groupsItems]
      have hidx : (if kind=.domain then st.ruleDomainIdx+1 else st.ruleDomainIdx) =
          st₁.ruleDomainIdx := by
        rw [hgrow.idx]
        split_ifs <;> rfl
      rw [hidx]
      refine .cons ?_ hitems
      rw [hmust,hmark,hnew]
      exact (forall₂_entries hconds _ _ _ _).imp fun _ _ hr => hr.mono
    · intro vs hvs
      rcases mem_cons.mp hvs with rfl | hvs
      · exact hparse
      · exact hparse' vs hvs

theorem lowerFunction_spec {f : Function} {isLastFunction : Bool} {id : UInt8}
    (hid : resolveOutboundId ob idMap=.ok id) {gss : List (List MatchSet)}
    (h : lowerGroups env cache idMap f isLastFunction ob f.groups st=.ok (gss,st')) :
    Grown st st' gss.flatten.length f.domainGroups ∧
      FunctionLowered env cache st'.lpm.items isLastFunction ob id st.ruleDomainIdx ⟨f,gss⟩ := by
  cases hkind : f.kind with
  | some kind =>
    obtain ⟨hgrow,hitems,hparse⟩ := lowerGroups_spec hkind hid h
    refine ⟨?_,?_,fun hn => ?_,fun k hk vs hvs => ?_⟩
    · rw [Function.domainGroups,hkind]
      simpa using hgrow
    · simpa only [functionItems,hkind] using hitems
    · rw [hkind] at hn
      cases hn
    · rw [hkind] at hk
      cases hk
      exact hparse vs hvs
  | none =>
    have hempty : f.groups=[] := by
      cases hg : f.groups with
      | nil => rfl
      | cons values rest =>
        rw [hg,lowerGroups,resolve_override hid,Fallible.ok_bind,buildMatchSetForFunction,
          hkind] at h
        cases h
    rw [hempty] at h
    cases h
    refine ⟨?_,?_,fun _ => hempty,fun k hk => ?_⟩
    · simpa [Function.domainGroups,hkind] using Grown.refl st
    · simp only [functionItems,hkind]
      exact .nil
    · rw [hkind] at hk
      cases hk

theorem lowerFunctions_spec {id : UInt8}
    (hid : resolveOutboundId ob idMap=.ok id) {fs : List Function} {lfs : List LoweredFunction}
    (h : lowerFunctions env cache idMap ob fs st=.ok (lfs,st')) :
    Grown st st' (lfs.flatMap LoweredFunction.entries).length
        (fs.map Function.domainGroups).sum ∧
      lfs.map LoweredFunction.func=fs ∧
      FunctionsLowered env cache st'.lpm.items ob id st.ruleDomainIdx lfs := by
  induction fs generalizing st lfs with
  | nil =>
    cases h
    exact ⟨by simpa using Grown.refl _,rfl,.nil _⟩
  | cons f rest ih =>
    rw [lowerFunctions] at h
    obtain ⟨⟨gss,st₁⟩,hgroups,h⟩ := Fallible.bind_ok_iff.mp h
    obtain ⟨⟨more,st₂⟩,hmore,h⟩ := Fallible.bind_ok_iff.mp h
    cases h
    obtain ⟨hgrow,hf⟩ := lowerFunction_spec hid hgroups
    obtain ⟨hgrow',hfuncs,hrest⟩ := ih hmore
    obtain ⟨new,hnew,-⟩ := hgrow'.items
    have hlast : rest.isEmpty=more.isEmpty := by
      rw [← hfuncs]
      cases more <;> rfl
    refine ⟨?_,by simp [hfuncs],.cons ?_ ?_⟩
    · simpa [LoweredFunction.entries] using hgrow.trans hgrow'
    · rw [hnew,← hlast]
      exact hf.mono
    · rw [← hgrow.idx]
      exact hrest

theorem lowerRule_spec {rule : NormalizedRule} {l : LoweredRule}
    (h : lowerRule env cache idMap rule st=.ok (l,st')) :
    l.rule=rule ∧ Grown st st' l.entries.length rule.domainGroups ∧
      ∃ id,RuleLowered env cache idMap st'.lpm.items st.ruleDomainIdx l id := by
  rw [lowerRule] at h
  obtain ⟨id,hid,h⟩ := Fallible.bind_ok_iff.mp h
  split_ifs at h with hempty
  · cases h
    have hnil : rule.andFunctions=[] := by simpa using hempty
    refine ⟨rfl,⟨⟨[],by simp,by simp⟩,?_⟩,id,hid,?_,?_,.nil _⟩
    · simp [NormalizedRule.domainGroups,hnil]
    · rw [if_pos hempty]
    · simp [hnil]
  · obtain ⟨⟨fs,st₁⟩,hfs,h⟩ := Fallible.bind_ok_iff.mp h
    cases h
    obtain ⟨hgrow,hfuncs,hlow⟩ := lowerFunctions_spec hid hfs
    refine ⟨rfl,?_,id,hid,?_,hfuncs,hlow⟩
    · simpa [LoweredRule.entries,NormalizedRule.domainGroups] using hgrow
    · rw [if_neg hempty]

theorem lowerRules_spec {rules : List NormalizedRule}
    {ls : List LoweredRule} (h : lowerRules env cache idMap rules st=.ok (ls,st')) :
    Grown st st' (ls.flatMap LoweredRule.entries).length
        (rules.map NormalizedRule.domainGroups).sum ∧
      ls.map LoweredRule.rule=rules ∧
      RulesLowered env cache idMap st'.lpm.items st.ruleDomainIdx ls := by
  induction rules generalizing st ls with
  | nil =>
    cases h
    exact ⟨by simpa using Grown.refl _,rfl,.nil _⟩
  | cons rule rest ih =>
    rw [lowerRules] at h
    obtain ⟨⟨l,st₁⟩,hl,h⟩ := Fallible.bind_ok_iff.mp h
    obtain ⟨⟨more,st₂⟩,hmore,h⟩ := Fallible.bind_ok_iff.mp h
    cases h
    obtain ⟨hrule,hgrow,id,hlow⟩ := lowerRule_spec hl
    obtain ⟨hgrow',hrules,hrest⟩ := ih hmore
    obtain ⟨new,hnew,-⟩ := hgrow'.items
    have hhead : RuleLowered env cache idMap st'.lpm.items st.ruleDomainIdx l id := by
      rw [hnew]
      exact hlow.mono
    refine ⟨?_,by simp [hrules,hrule],.cons hhead ?_⟩
    · simpa using hgrow.trans hgrow'
    · rw [hrule,← hgrow.idx]
      exact hrest

def CompiledRouting.fallbackEntry (c : CompiledRouting) : MatchSet :=
  ⟨.fallback,false,c.fallbackOutbound,c.fallbackMust,c.fallbackMark⟩

/-- What a compilation has to do with its source. -/
structure Compiled (env : Env) (cache : Option RuleSetCache) (routing : RoutingConfig)
    (outbounds : OutboundsConfig) (proxyServerIps : List IpAddr) (t : Compilation) : Prop where
  normalized : NormalizedProgram.fromConfig routing=.ok t.program
  rules : t.lowered.map LoweredRule.rule=t.program.rules
  lowered : RulesLowered env cache (buildOutboundIdMap outbounds) t.routing.lpmTries 0 t.lowered
  matchSets : t.routing.matchSets =
    t.proxyEntries++t.lowered.flatMap LoweredRule.entries++[t.routing.fallbackEntry]
  proxy : (proxyServerIps=[] ∧ t.proxyEntries=[]) ∨
    (proxyServerIps≠[] ∧ t.proxyEntries=proxyDirectEntries 0 ∧
      t.routing.lpmTries[0]?=some (proxyServerIps.map hostNet))
  domainSets : collectDomainSets cache (t.program.rules.flatMap (·.andFunctions)) =
    .ok t.routing.domainSets
  tries : t.routing.lpmTries.length ≤
    t.proxyEntries.length+(t.lowered.flatMap LoweredRule.entries).length
  matchSets_le : t.routing.matchSets.length ≤ maxMatchSetLen
  tries_le : t.routing.lpmTries.length ≤ maxLpmTries
  fallbackOutbound : t.routing.fallbackOutbound =
    (buildOutboundIdMap outbounds t.program.fallback.name).getD Outbound.controlPlaneRouting
  fallbackMark : t.routing.fallbackMark=t.program.fallback.mark
  fallbackMust : t.routing.fallbackMust=t.program.fallback.must

theorem checkCapacity_ok {c : CompiledRouting} {u : Unit} (h : checkCapacity c=.ok u) :
    c.matchSets.length ≤ maxMatchSetLen ∧ c.lpmTries.length ≤ maxLpmTries := by
  unfold checkCapacity at h
  split_ifs at h with h1 h2
  · cases h
  · cases h
  · cases h
  · omega

theorem proxyTrie_spec (ips : List IpAddr) : (ips=[] ∧ proxyTrie ips=(none,Intern.Table.empty)) ∨
      (ips≠[] ∧ (proxyTrie ips).1=some 0 ∧
        (proxyTrie ips).2.items=[ips.map hostNet]) := by
  cases ips with
  | nil => exact .inl ⟨rfl,rfl⟩
  | cons ip ips => exact .inr ⟨by simp,rfl,rfl⟩

theorem compileTrace_spec {routing : RoutingConfig} {outbounds : OutboundsConfig}
    {ips : List IpAddr} {t : Compilation}
    (h : compileTrace env cache routing outbounds ips=.ok t) :
    Compiled env cache routing outbounds ips t := by
  rw [compileTrace] at h
  obtain ⟨program,hprog,h⟩ := Fallible.bind_ok_iff.mp h
  rw [withContext_ok] at hprog
  obtain ⟨domainSets,hdom,h⟩ := Fallible.bind_ok_iff.mp h
  obtain ⟨⟨lowered,st⟩,hlow,h⟩ := Fallible.bind_ok_iff.mp h
  obtain ⟨u,hcap,h⟩ := Fallible.bind_ok_iff.mp h
  cases h
  obtain ⟨hms,htries⟩ := checkCapacity_ok hcap
  obtain ⟨hgrow,hrules,hlowered⟩ := lowerRules_spec hlow
  obtain ⟨new,hnew,hlen⟩ := hgrow.items
  have hproxy := proxyTrie_spec ips
  refine ⟨hprog,hrules,hlowered,rfl,?_,hdom,?_,hms,htries,rfl,rfl,rfl⟩
  · rcases hproxy with ⟨hnil,hp⟩ | ⟨hne,hidx,hitems⟩
    · refine .inl ⟨hnil,?_⟩
      simp [hp]
    · refine .inr ⟨hne,by simp [hidx],?_⟩
      simp only [hnew,hitems]
      rfl
  · rcases hproxy with ⟨-,hp⟩ | ⟨-,hidx,hitems⟩
    · simpa [hnew,hp,Intern.Table.empty] using hlen
    · simp only [hnew,hitems,hidx,length_append,Option.map_some,
        Option.getD_some,proxyDirectEntries,length_cons,length_nil]
      omega

end DaeRs.Routing
