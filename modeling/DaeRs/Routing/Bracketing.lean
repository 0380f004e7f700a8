import DaeRs.Routing.EntryIndex

/-! Where the rules of the flat entry array end. -/

namespace DaeRs.Routing

open RustStr Net RuleSet Bpf Config List

variable {env : Env} {cache : Option RuleSetCache} {idMap : OutboundIdMap}
  {tries : List (List IpNet)}

def Function.entryCount (f : Function) (values : List String) : Nat :=
  match f.kind with
  | none => 0
  | some .mac => if (macNets f).isEmpty then 0 else 1
  | some .dport | some .sport | some .dscp | some .processName | some .upstream => values.length
  | some _ => 1

variable {kind : FunctionKind}

theorem groupConds_length {f : Function} (hkind : f.kind=some kind)
    {values : List String} (h : ValuesParse env cache f values kind) (idx : Nat) :
    (groupConds env cache f values idx kind).length=f.entryCount values := by
  rw [Function.entryCount,hkind]
  cases kind with
  | mac =>
    simp only [groupConds]
    split_ifs <;> rfl
  | dport | sport | dscp =>
    rw [groupConds,length_map]
    exact h
  | processName | upstream => simp [groupConds]
  | dip | sip | l4proto | ipversion | domain | qtype => rfl

variable {id : UInt8}

theorem link_of_outbound {ms : MatchSet} (h : ms.outbound=id) :
    ms.link=.stop ↔ id≠Outbound.logicalOr ∧ id≠Outbound.logicalAnd := by
  rw [ms.link_eq_stop,h]

/-- Entries in front of which a rule cannot end, and then a block of entries with one outbound. -/
structure Closing (entries : List MatchSet) (id : UInt8) (n : Nat) : Prop where
  split : ∃ before block,entries=before++block ∧ (∀ ms∈before,ms.link≠.stop) ∧
    (∀ ms∈block,ms.outbound=id) ∧ block.length=n

variable {entries : List MatchSet}

theorem Closing.prepend {before : List MatchSet} {n : Nat}
    (h : Closing entries id n) (hb : ∀ ms∈before,ms.link≠.stop) :
    Closing (before++entries) id n := by
  obtain ⟨pre,block,rfl,hpre,hblock,hlen⟩ := h.split
  refine ⟨before++pre,block,by rw [append_assoc],fun ms hms => ?_,hblock,hlen⟩
  rcases mem_append.mp hms with hms | hms
  · exact hb ms hms
  · exact hpre ms hms

def EndsOnce (entries : List MatchSet) : Prop :=
  ∃ before tail,entries=before++[tail] ∧ tail.link=.stop ∧ ∀ ms∈before,ms.link≠.stop

theorem Closing.endsOnce_iff {n : Nat} (h : Closing entries id n) :
    EndsOnce entries ↔ n=1 ∧ id≠Outbound.logicalOr ∧ id≠Outbound.logicalAnd := by
  obtain ⟨pre,block,rfl,hpre,hblock,rfl⟩ := h.split
  constructor
  · rintro ⟨before,tail,heq,htail,hbefore⟩
    have htail_mem : tail∈block := by
      have hmem : tail∈pre++block := by simp [heq]
      rcases mem_append.mp hmem with hm | hm
      · exact absurd htail (hpre tail hm)
      · exact hm
    have hid := (link_of_outbound (hblock tail htail_mem)).mp htail
    refine ⟨?_,hid⟩
    -- a second entry of the block would be a rule end among the earlier entries
    by_contra hne
    have hblock_ne : block≠[] := ne_nil_of_mem htail_mem
    obtain ⟨front,last,rfl⟩ := eq_nil_or_concat' block |>.resolve_left hblock_ne
    have hfront : front≠[] := by
      intro hnil
      subst hnil
      simp at hne
    obtain ⟨first,rest,rfl⟩ := exists_cons_of_ne_nil hfront
    rw [← append_assoc] at heq
    obtain ⟨hb,-⟩ := append_inj' heq rfl
    have hfirst : first∈before := by simp [← hb]
    exact hbefore first hfirst ((link_of_outbound (hblock first (by simp))).mpr hid)
  · rintro ⟨hlen,hid⟩
    obtain ⟨tail,rfl⟩ := length_eq_one_iff.mp hlen
    exact ⟨pre,tail,rfl,(link_of_outbound (hblock tail (by simp))).mpr hid,hpre⟩

theorem group_outbound {conds : List Cond} {not must : Bool} {mark : UInt32}
    (h : List.Forall₂ (Represents tries) (conds.map fun c => ⟨c,not,id,must,mark⟩) entries) :
    (∀ ms∈entries,ms.outbound=id) ∧ entries.length=conds.length := by
  refine ⟨fun ms hms => ?_,by rw [← h.length_eq,length_map]⟩
  obtain ⟨item,hitem,hrep⟩ := forall₂_mem_right h hms
  obtain ⟨c,-,rfl⟩ := mem_map.mp hitem
  exact hrep.outbound

theorem not_stop_of_logical {ms : MatchSet}
    (h : ms.outbound=Outbound.logicalOr ∨ ms.outbound=Outbound.logicalAnd) :
    ms.link≠.stop := by
  rw [ne_eq,ms.link_eq_stop]
  rcases h with h | h <;> simp [h]

variable {ob : Outbound} {idx : Nat}

theorem groups_inner {f : Function} {groups : List (List String)} {gss : List (List MatchSet)}
    (h : List.Forall₂ (List.Forall₂ (Represents tries))
      (groupsItems env cache f kind false ob id groups idx) gss) :
    ∀ ms∈gss.flatten,ms.link≠.stop := by
  induction groups generalizing idx gss with
  | nil =>
    cases h
    simp
  | cons values rest ih =>
    rw [groupsItems] at h
    obtain ⟨entries,more,hhead,hrest,rfl⟩ := forall₂_cons_left_iff.mp h
    intro ms hms
    rw [flatten_cons] at hms
    rcases mem_append.mp hms with hms | hms
    · apply not_stop_of_logical
      rw [(group_outbound hhead).1 ms hms]
      cases rest.isEmpty
      · exact .inl rfl
      · exact .inr rfl
    · exact ih hrest ms hms

def Function.lastCount (f : Function) : Nat := (f.groups.getLast?.map f.entryCount).getD 0

theorem groups_last {f : Function} (hkind : f.kind=some kind) {groups : List (List String)}
    {gss : List (List MatchSet)} (h : List.Forall₂ (List.Forall₂ (Represents tries))
      (groupsItems env cache f kind true ob id groups idx) gss)
    (hparse : ∀ vs∈groups,ValuesParse env cache f vs kind) :
    Closing gss.flatten id ((groups.getLast?.map f.entryCount).getD 0) := by
  induction groups generalizing idx gss with
  | nil =>
    cases h
    exact ⟨[],[],rfl,by simp,by simp,rfl⟩
  | cons values rest ih =>
    rw [groupsItems] at h
    obtain ⟨entries,more,hhead,hrest,rfl⟩ := forall₂_cons_left_iff.mp h
    have hcount := groupConds_length hkind (hparse values (by simp)) idx
    cases rest with
    | nil =>
      cases hrest
      obtain ⟨hout,hlen⟩ := group_outbound hhead
      refine ⟨[],entries,by simp,by simp,hout,?_⟩
      simpa [hlen] using hcount
    | cons next others =>
      have hlast : (values::next::others).getLast?=(next::others).getLast? := by simp
      rw [hlast,flatten_cons]
      refine (ih hrest fun vs hvs => hparse vs (by simp [hvs])).prepend fun ms hms => ?_
      exact not_stop_of_logical (.inl ((group_outbound hhead).1 ms hms))

theorem FunctionLowered.inner {lf : LoweredFunction}
    (h : FunctionLowered env cache tries false ob id idx lf) :
    ∀ ms∈lf.entries,ms.link≠.stop := by
  have hg := h.groups
  rw [functionItems] at hg
  cases hkind : lf.func.kind with
  | none =>
    rw [hkind] at hg
    have hnil : lf.groups=[] := forall₂_nil_left_iff.mp hg
    simp [LoweredFunction.entries,hnil]
  | some kind =>
    rw [hkind] at hg
    exact groups_inner hg

theorem FunctionLowered.last {lf : LoweredFunction}
    (h : FunctionLowered env cache tries true ob id idx lf) :
    Closing lf.entries id lf.func.lastCount := by
  have hg := h.groups
  rw [functionItems] at hg
  cases hkind : lf.func.kind with
  | none =>
    rw [hkind] at hg
    have hnil : lf.groups=[] := forall₂_nil_left_iff.mp hg
    rw [Function.lastCount,h.parses.known hkind,LoweredFunction.entries,hnil]
    exact ⟨[],[],rfl,by simp,by simp,rfl⟩
  | some kind =>
    rw [hkind] at hg
    exact groups_last hkind hg (h.parses.values kind hkind)

def NormalizedRule.lastCount (rule : NormalizedRule) : Nat :=
  (rule.andFunctions.getLast?.map Function.lastCount).getD 0

theorem FunctionsLowered.closing
    {lfs : List LoweredFunction} (h : FunctionsLowered env cache tries ob id idx lfs) :
    Closing (lfs.flatMap LoweredFunction.entries) id
      (((lfs.map LoweredFunction.func).getLast?.map Function.lastCount).getD 0) := by
  induction h with
  | nil idx => exact ⟨[],[],rfl,by simp,by simp,rfl⟩
  | @cons idx lf rest head _ ih =>
    rw [flatMap_cons]
    cases rest with
    | nil => simpa using head.last
    | cons next others =>
      have hlast : ((lf::next::others).map LoweredFunction.func).getLast? =
          ((next::others).map LoweredFunction.func).getLast? := by simp
      rw [hlast]
      exact ih.prepend head.inner

theorem RuleLowered.closing {l : LoweredRule}
    (h : RuleLowered env cache idMap tries idx l id) (hne : l.rule.andFunctions≠[]) :
    Closing l.entries id l.rule.lastCount := by
  have hbare : l.bare=[] := by
    rw [h.bare,if_neg (by simpa using hne)]
  have hc := h.functions.closing
  rw [h.funcs] at hc
  rw [LoweredRule.entries,hbare,nil_append]
  exact hc

theorem foldl_insert_builtin {α : Type} (name : α → String) (l : List α) {m : OutboundIdMap}
    (hm : ∀ n id,m n=some id → id≠Outbound.logicalOr ∧ id≠Outbound.logicalAnd) :
    ∀ n id,(l.foldl (fun m a => OutboundIdMap.insert m (name a) Outbound.controlPlaneRouting)
      m) n=some id → id≠Outbound.logicalOr ∧ id≠Outbound.logicalAnd := by
  induction l generalizing m with
  | nil => exact hm
  | cons a as ih =>
    apply ih
    intro n id h
    simp only [OutboundIdMap.insert] at h
    split_ifs at h
    · cases h
      decide
    · exact hm n id h

theorem buildOutboundIdMap_terminal (outbounds : OutboundsConfig) {name : String}
    (h : buildOutboundIdMap outbounds name=some id) :
    id≠Outbound.logicalOr ∧ id≠Outbound.logicalAnd := by
  refine foldl_insert_builtin (fun g : OutboundGroupConfig => g.name) outbounds.groups
    (foldl_insert_builtin (fun n : OutboundNodeConfig => n.name) outbounds.nodes ?_) name id h
  intro n id h
  simp only [OutboundIdMap.insert] at h
  split_ifs at h <;> cases h <;> decide

theorem resolve_terminal {outbounds : OutboundsConfig}
    (h : resolveOutboundId ob (buildOutboundIdMap outbounds)=.ok id) :
    (id≠Outbound.logicalOr ∧ id≠Outbound.logicalAnd) ↔
      (ob.name ≠ "LOGICAL_OR" ∧ ob.name ≠ "LOGICAL_AND") := by
  unfold resolveOutboundId at h
  split at h
  case h_8 hne =>
    split at h
    · next hmap =>
      cases h
      simp_all [buildOutboundIdMap_terminal outbounds hmap]
    · cases h
  all_goals
    cases h
    simp_all [Outbound.direct,Outbound.block,Outbound.mustRules,Outbound.controlPlaneRouting,
      Outbound.logicalOr,Outbound.logicalAnd]

/-- A rule's entries end in its only terminal entry exactly when the last key group of its last
function lays out one and its action is no chaining mark. -/
theorem compile_brackets_rules {routing : RoutingConfig} {outbounds : OutboundsConfig}
    {ips : List IpAddr} {t : Compilation}
    (h : compileTrace env cache routing outbounds ips=.ok t) :
    t.routing.matchSets=t.proxyEntries++t.lowered.flatMap LoweredRule.entries ++
        [t.routing.fallbackEntry] ∧
      ∀ l∈t.lowered,l.rule.andFunctions≠[] →
        (EndsOnce l.entries ↔ l.rule.lastCount=1 ∧ l.rule.outbound.name ≠ "LOGICAL_OR" ∧
          l.rule.outbound.name ≠ "LOGICAL_AND") := by
  have hc := compileTrace_spec h
  refine ⟨hc.matchSets,fun l hl hne => ?_⟩
  obtain ⟨idx,id,hr⟩ := hc.lowered.mem hl
  rw [(hr.closing hne).endsOnce_iff,resolve_terminal hr.resolved]

theorem compile_brackets_rules_and : ∃ t,
    compileTrace Env.empty none ⟨[⟨"dport(80, 443) && l4proto(tcp)", "block"⟩], "direct"⟩
      ⟨[],[]⟩ []=.ok t ∧ t.lowered≠[] ∧ ∀ l∈t.lowered,EndsOnce l.entries := by
  have hrun : (compileTrace Env.empty none
      ⟨[⟨"dport(80, 443) && l4proto(tcp)", "block"⟩], "direct"⟩ ⟨[],[]⟩ []).toOption.map
        (fun t => t.lowered.map fun l => (l.rule.lastCount,l.rule.outbound.name,
          l.rule.andFunctions.length))=some [(1, "block",2)] := by
    decide +kernel
  obtain ⟨t,ht,hrules⟩ := Fallible.exists_ok_of_map hrun
  refine ⟨t,ht,fun hnil => by simp [hnil] at hrules,fun l hl => ?_⟩
  have hl' := List.mem_map_of_mem (f := fun l : LoweredRule => (l.rule.lastCount,
    l.rule.outbound.name,l.rule.andFunctions.length)) hl
  rw [hrules,List.mem_singleton] at hl'
  simp only [Prod.mk.injEq] at hl'
  obtain ⟨hone,hname,hlen⟩ := hl'
  refine ((compile_brackets_rules ht).2 l hl fun hnil => ?_).mpr ⟨hone,?_⟩
  · rw [hnil] at hlen
    cases hlen
  · rw [hname]
    decide

/-- Two ports are two terminal entries; an empty port list leaves no entries, and at the end of a
rule leaves its first condition joined to the fallback. -/
theorem rule_not_bracketed : (compileRules Env.empty none
        ⟨[⟨"dport(80, 443)", "block"⟩,⟨"dport()", "block"⟩,⟨"l4proto(tcp) && dport()", "block"⟩],
          "direct"⟩ ⟨[],[]⟩ []).toOption.map
      (fun c => c.matchSets.map fun ms => (ms.value,ms.link)) =
        some [(.port ⟨80,80⟩,.stop),(.port ⟨443,443⟩,.stop),(.l4Proto 1,.and),
          (.fallback,.stop)] := by
  decide +kernel

end DaeRs.Routing
