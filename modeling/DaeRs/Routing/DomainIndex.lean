import DaeRs.Routing.EntryIndex
import Mathlib.Data.List.Flatten

/-! The domain indices of compiled entries against the domain sets of the first pass. -/

namespace DaeRs.Routing

open RustStr Net RuleSet Bpf Config List

variable {env : Env} {cache : Option RuleSetCache} {idMap : OutboundIdMap}
  {tries : List (List IpNet)}

theorem ofName_domain (name : String) :
    FunctionKind.ofName name=some .domain ↔ name = "domain" ∨ name = "target_domain" := by
  unfold FunctionKind.ofName
  split <;> simp_all

theorem kind_domain_iff (f : Function) : f.kind=some .domain ↔ f.isDomain=true := by
  rw [Function.kind,ofName_domain,Function.isDomain]
  simp

def domainIndex : MatchValue → Option UInt32
  | .domainSet i => some i
  | _ => none

def LoweredFunction.domainIndices (lf : LoweredFunction) : List UInt32 :=
  lf.entries.filterMap fun ms => domainIndex ms.value

variable {idx : Nat} {ob : Outbound}

theorem domainIndices_domain {f : Function} {isLast : Bool} {id : UInt8}
    {groups : List (List String)} {gss : List (List MatchSet)}
    (h : List.Forall₂ (List.Forall₂ (Represents tries))
      (groupsItems env cache f .domain isLast ob id groups idx) gss) :
    (gss.flatten.filterMap fun ms => domainIndex ms.value) =
      (range' idx groups.length).map UInt32.ofNat := by
  induction groups generalizing idx gss with
  | nil =>
    cases h
    rfl
  | cons values rest ih =>
    rw [groupsItems] at h
    obtain ⟨entries,more,hhead,hrest,rfl⟩ := forall₂_cons_left_iff.mp h
    simp only [groupConds,map_cons,map_nil] at hhead
    obtain ⟨ms,others,hms,hothers,rfl⟩ := forall₂_cons_left_iff.mp hhead
    cases hothers
    have hval : domainIndex ms.value=some (UInt32.ofNat idx) := by
      have hv : ms.value=.domainSet (UInt32.ofNat idx) := hms.value
      rw [hv]
      rfl
    rw [if_pos rfl] at hrest
    simp only [flatten_cons,singleton_append,filterMap_cons,hval,ih hrest,
      length_cons,range'_succ,map_cons]

theorem domainIndices_other {kind : FunctionKind} (hkind : kind≠.domain) {f : Function}
    {isLast : Bool} {id : UInt8} {groups : List (List String)} {gss : List (List MatchSet)}
    (h : List.Forall₂ (List.Forall₂ (Represents tries))
      (groupsItems env cache f kind isLast ob id groups idx) gss) :
    (gss.flatten.filterMap fun ms => domainIndex ms.value)=[] := by
  rw [filterMap_eq_nil_iff]
  intro ms hms
  obtain ⟨item,hitem,hrep⟩ := forall₂_mem_right (rel_flatten h) hms
  obtain ⟨vs,-,k,hk⟩ := mem_groupsItems hitem
  have hval := hrep.value
  have hplain : ∀ {α : Type} {l : List α} {g : α → MatchValue},
      item.cond∈l.map (fun a => Cond.plain (g a)) → (∀ a,domainIndex (g a)=none) →
        domainIndex ms.value=none := by
    intro α l g hmem hnone
    obtain ⟨a,-,ha⟩ := mem_map.mp hmem
    rw [← ha] at hval
    rw [hval,hnone]
  cases kind with
  | domain => exact absurd rfl hkind
  | dip | sip =>
    rw [groupConds,mem_singleton] at hk
    rw [hk] at hval
    obtain ⟨n,hv,-⟩ := hval
    rw [hv]
    rfl
  | mac =>
    rw [groupConds] at hk
    split_ifs at hk
    · cases hk
    · rw [mem_singleton] at hk
      rw [hk] at hval
      obtain ⟨n,hv,-⟩ := hval
      rw [hv]
      rfl
  | dport | sport | dscp | processName | upstream => exact hplain hk fun _ => rfl
  | l4proto | ipversion | qtype =>
    rw [groupConds,mem_singleton] at hk
    rw [hk] at hval
    rw [hval]
    rfl

theorem FunctionLowered.domainIndices {isLast : Bool} {id : UInt8}
    {lf : LoweredFunction} (h : FunctionLowered env cache tries isLast ob id idx lf) :
    lf.domainIndices=(range' idx lf.func.domainGroups).map UInt32.ofNat := by
  have hg := h.groups
  rw [functionItems] at hg
  cases hkind : lf.func.kind with
  | none =>
    rw [hkind] at hg
    have hnil : lf.groups=[] := by
      cases hgs : lf.groups with
      | nil => rfl
      | cons g gs =>
        rw [hgs] at hg
        cases hg
    simp [LoweredFunction.domainIndices,LoweredFunction.entries,hnil,Function.domainGroups,hkind]
  | some kind =>
    rw [hkind] at hg
    by_cases hd : kind=.domain
    · subst hd
      rw [Function.domainGroups,if_pos hkind]
      exact domainIndices_domain hg
    · rw [Function.domainGroups,if_neg (by rw [hkind]; simpa using hd)]
      exact domainIndices_other hd hg

/-- The indices of a list of functions, from `idx` on. -/
inductive IndexedFrom : Nat → List LoweredFunction → Prop
  | nil (idx : Nat) : IndexedFrom idx []
  | cons {idx : Nat} {lf : LoweredFunction} {rest : List LoweredFunction}
      (head : lf.domainIndices=(List.range' idx lf.func.domainGroups).map UInt32.ofNat)
      (tail : IndexedFrom (idx+lf.func.domainGroups) rest) : IndexedFrom idx (lf::rest)

theorem IndexedFrom.append {as bs : List LoweredFunction} (h : IndexedFrom idx as)
    (h' : IndexedFrom (idx+(as.map fun lf => lf.func.domainGroups).sum) bs) :
    IndexedFrom idx (as++bs) := by
  induction h with
  | nil idx => simpa using h'
  | cons head _ ih =>
    refine .cons head (ih ?_)
    simpa [Nat.add_assoc] using h'

variable {lfs : List LoweredFunction}

theorem FunctionsLowered.indexed {id : UInt8} (h : FunctionsLowered env cache tries ob id idx lfs) :
    IndexedFrom idx lfs := by
  induction h with
  | nil idx => exact .nil idx
  | cons head _ ih => exact .cons head.domainIndices ih

theorem RulesLowered.indexed {ls : List LoweredRule}
    (h : RulesLowered env cache idMap tries idx ls) :
    IndexedFrom idx (ls.flatMap LoweredRule.functions) := by
  induction h with
  | nil idx => exact .nil idx
  | cons head _ ih =>
    rw [flatMap_cons]
    refine head.functions.indexed.append ?_
    rw [NormalizedRule.domainGroups,← head.funcs,map_map] at ih
    exact ih

theorem IndexedFrom.filter (h : IndexedFrom idx lfs) :
    IndexedFrom idx (lfs.filter fun lf => lf.func.isDomain) := by
  induction h with
  | nil idx => exact .nil idx
  | @cons idx lf rest head _ ih =>
    cases hd : lf.func.isDomain with
    | true =>
      rw [filter_cons_of_pos (by simpa using hd)]
      exact .cons head ih
    | false =>
      have hk : lf.func.kind≠some .domain := by
        rw [ne_eq,kind_domain_iff,hd]
        simp
      rw [filter_cons_of_neg (by simpa using hd)]
      rw [Function.domainGroups,if_neg hk,Nat.add_zero] at ih
      exact ih

/-- The index counter `idx` and the position `pos` meet at every use of an index. -/
def Aligned : Nat → Nat → List Nat → Prop
  | _,_,[] => True
  | idx,pos,c::cs => (∀ k∈List.range' idx c,k=pos) ∧ Aligned (idx+c) (pos+1) cs

theorem aligned_behind {pos : Nat} (h : idx<pos) (cs : List Nat) :
    Aligned idx pos cs ↔ ∀ c∈cs,c=0 := by
  induction cs generalizing idx pos with
  | nil => simp [Aligned]
  | cons c cs ih =>
    rw [Aligned,forall_mem_cons]
    constructor
    · rintro ⟨hc,hcs⟩
      have h0 : c=0 := by
        by_contra hne
        have := hc idx (mem_range'_1.mpr ⟨le_refl _,by omega⟩)
        omega
      rw [h0,Nat.add_zero] at hcs
      exact ⟨h0,(ih (by omega)).mp hcs⟩
    · rintro ⟨rfl,hcs⟩
      exact ⟨by simp,(ih (by omega)).mpr hcs⟩

theorem aligned_iff (n : Nat) (cs : List Nat) :
    Aligned n n cs ↔ ∃ k m,cs=replicate k 1++replicate m 0 := by
  induction cs generalizing n with
  | nil => exact ⟨fun _ => ⟨0,0,rfl⟩,fun _ => trivial⟩
  | cons c cs ih =>
    rw [Aligned]
    constructor
    · rintro ⟨hc,hcs⟩
      have hle : c≤1 := by
        by_contra hgt
        have := hc (n+1) (mem_range'_1.mpr ⟨by omega,by omega⟩)
        omega
      rcases Nat.eq_zero_or_pos c with rfl | hpos
      · have hz := (aligned_behind (by omega) cs).mp hcs
        exact ⟨0,cs.length+1,by
          rw [eq_replicate_of_mem hz]
          simp [replicate_succ]⟩
      · have h1 : c=1 := by omega
        subst h1
        obtain ⟨k,m,rfl⟩ := (ih (n+1)).mp hcs
        exact ⟨k+1,m,by simp [replicate_succ]⟩
    · rintro ⟨k,m,hkm⟩
      cases k with
      | zero =>
        have hz : ∀ d∈c::cs,d=0 := by
          rw [hkm]
          intro d hd
          simpa using (mem_replicate.mp (by simpa using hd)).2
        have hc := hz c (by simp)
        subst hc
        exact ⟨by simp,(aligned_behind (by omega) cs).mpr fun d hd => hz d (by simp [hd])⟩
      | succ k =>
        rw [replicate_succ,cons_append,List.cons.injEq] at hkm
        obtain ⟨rfl,rfl⟩ := hkm
        refine ⟨?_,(ih (n+1)).mpr ⟨k,m,rfl⟩⟩
        intro j hj
        have := mem_range'_1.mp hj
        omega

theorem IndexedFrom.sum_le (h : IndexedFrom idx lfs) :
    (lfs.map fun lf => lf.func.domainGroups).sum≤(lfs.flatMap LoweredFunction.entries).length := by
  induction h with
  | nil idx => simp
  | @cons idx lf rest head _ ih =>
    have hlen : lf.func.domainGroups≤lf.entries.length := by
      have h1 : lf.domainIndices.length=lf.func.domainGroups := by
        rw [head]
        simp
      rw [← h1]
      exact length_filterMap_le _ _
    simp only [map_cons,sum_cons,flatMap_cons,length_append]
    omega

theorem IndexedFrom.aligned_iff (h : IndexedFrom idx lfs)
    (hsmall : idx+(lfs.map fun lf => lf.func.domainGroups).sum<2^32) (pos : Nat) :
    (∀ p (hp : p<lfs.length),∀ i∈lfs[p].domainIndices,i.toNat=pos+p) ↔
      Aligned idx pos (lfs.map fun lf => lf.func.domainGroups) := by
  induction h generalizing pos with
  | nil idx => simp [Aligned]
  | @cons idx lf rest head _ ih =>
    simp only [map_cons,sum_cons] at hsmall
    have htoNat : ∀ k∈range' idx lf.func.domainGroups,(UInt32.ofNat k).toNat=k := by
      intro k hk
      have := (mem_range'_1.mp hk).2
      exact UInt32.toNat_ofNat_of_lt' (by change k<4294967296; omega)
    have hhead : (∀ i∈lf.domainIndices,i.toNat=pos) ↔
        ∀ k∈range' idx lf.func.domainGroups,k=pos := by
      rw [head,forall_mem_map]
      exact forall₂_congr fun k hk => by rw [htoNat k hk]
    rw [map_cons,Aligned,← hhead,← ih (by omega) (pos+1)]
    constructor
    · intro hall
      refine ⟨fun i hi => ?_,fun p hp i hi => ?_⟩
      · simpa using hall 0 (by simp) i hi
      · have := hall (p+1) (by simpa using hp) i hi
        omega
    · rintro ⟨h0,hrest⟩ p hp i hi
      cases p with
      | zero => simpa using h0 i hi
      | succ p =>
        have := hrest p (by simpa using hp) i hi
        omega

theorem collectDomainSets_spec {fs : List Function} {sets : List CompiledDomainSet}
    (h : collectDomainSets cache fs=.ok sets) :
    List.Forall₂ (fun f s => ∃ pats,domainPatterns cache f.rawParams=.ok pats ∧
      s=CompiledDomainSet.compile pats) (fs.filter Function.isDomain) sets := by
  induction fs generalizing sets with
  | nil =>
    cases h
    exact .nil
  | cons f fs ih =>
    rw [collectDomainSets] at h
    split_ifs at h with hd
    · obtain ⟨pats,hpats,h⟩ := Fallible.bind_ok_iff.mp h
      obtain ⟨rest,hrest,h⟩ := Fallible.bind_ok_iff.mp h
      cases h
      rw [filter_cons_of_pos hd]
      exact .cons ⟨pats,hpats,rfl⟩ (ih hrest)
    · rw [filter_cons_of_neg hd]
      exact ih h

theorem RulesLowered.funcs {ls : List LoweredRule} (h : RulesLowered env cache idMap tries idx ls) :
    (ls.flatMap LoweredRule.functions).map LoweredFunction.func =
      (ls.map LoweredRule.rule).flatMap NormalizedRule.andFunctions := by
  induction h with
  | nil idx => rfl
  | cons head _ ih => simp [head.funcs,ih]

def Compilation.domainFunctions (t : Compilation) : List LoweredFunction :=
  (t.lowered.flatMap LoweredRule.functions).filter fun lf => lf.func.isDomain

theorem Compiled.domainGroups_eq (t : Compilation) :
    (t.domainFunctions.map fun lf => lf.func.domainGroups) =
      t.domainFunctions.map fun lf => lf.func.groups.length := by
  apply map_congr_left
  intro lf hlf
  have hd : lf.func.isDomain=true := by simpa using (mem_filter.mp hlf).2
  rw [Function.domainGroups,if_pos ((kind_domain_iff _).mpr hd)]

section Domain

variable {routing : RoutingConfig} {outbounds : OutboundsConfig} {ips : List IpAddr}
  {t : Compilation} (h : Compiled env cache routing outbounds ips t)
include h

theorem Compiled.domainFunctions_funcs : t.domainFunctions.map LoweredFunction.func =
      (t.program.rules.flatMap (·.andFunctions)).filter Function.isDomain := by
  rw [← h.rules,← h.lowered.funcs,filter_map]
  rfl

theorem Compiled.domainSets_spec :
    List.Forall₂ (fun lf s => ∃ pats,domainPatterns cache lf.func.rawParams=.ok pats ∧
      s=CompiledDomainSet.compile pats) t.domainFunctions t.routing.domainSets := by
  have hsets := collectDomainSets_spec h.domainSets
  rwa [← h.domainFunctions_funcs,forall₂_map_left_iff] at hsets

theorem Compiled.domain_small :
    (t.domainFunctions.map fun lf => lf.func.domainGroups).sum<2^32 := by
  have hindexed : IndexedFrom 0 t.domainFunctions := h.lowered.indexed.filter
  have hsum := hindexed.sum_le
  have hsub : (t.domainFunctions.flatMap LoweredFunction.entries).length ≤
      ((t.lowered.flatMap LoweredRule.functions).flatMap LoweredFunction.entries).length :=
    (filter_sublist.flatMap _).length_le
  have hall : ((t.lowered.flatMap LoweredRule.functions).flatMap
      LoweredFunction.entries).length≤(t.lowered.flatMap LoweredRule.entries).length := by
    rw [flatMap_assoc]
    exact (List.Sublist.flatMap_right _ fun l _ => sublist_append_right _ _).length_le
  have hle := h.matchSets_le
  rw [h.matchSets,length_append,length_append,length_singleton] at hle
  have hmax : maxMatchSetLen=1024 := rfl
  omega

theorem Compiled.domain_entry {ms : MatchSet}
    (hms : ms∈t.routing.matchSets) {i : UInt32} (hi : ms.value=.domainSet i) :
    ∃ lf∈t.domainFunctions,ms∈lf.entries := by
  have hidx : domainIndex ms.value=some i := by rw [hi]; rfl
  rw [h.matchSets] at hms
  rcases mem_append.mp hms with hms | hms
  · rcases mem_append.mp hms with hms | hms
    · rcases h.proxy with ⟨-,hp⟩ | ⟨-,hp,-⟩
      · rw [hp] at hms
        cases hms
      · rw [hp] at hms
        simp only [proxyDirectEntries,mem_cons,not_mem_nil,or_false] at hms
        rcases hms with rfl | rfl <;> cases hi
    · obtain ⟨l,hl,hms⟩ := mem_flatMap.mp hms
      obtain ⟨k,id,hr⟩ := h.lowered.mem hl
      rcases mem_append.mp hms with hms | hms
      · rw [hr.bare] at hms
        split_ifs at hms
        · rw [mem_singleton] at hms
          rw [hms] at hi
          cases hi
        · cases hms
      · obtain ⟨lf,hlf,hms⟩ := mem_flatMap.mp hms
        obtain ⟨isLast,k',hf⟩ := hr.functions.mem hlf
        have hmem : i∈lf.domainIndices := mem_filterMap.mpr ⟨ms,hms,hidx⟩
        have hd : lf.func.isDomain=true := by
          rw [← kind_domain_iff]
          by_contra hne
          rw [hf.domainIndices,Function.domainGroups,if_neg hne] at hmem
          simp at hmem
        refine ⟨lf,mem_filter.mpr ⟨mem_flatMap.mpr ⟨l,hl,hlf⟩,hd⟩,hms⟩
  · rw [mem_singleton] at hms
    rw [hms] at hi
    cases hi

end Domain

/-- The sets of the domain pass are those of the domain functions in order; the entries point to
their own exactly when the functions have one key group each, up to functions without any at the
end. -/
theorem compile_domain_indices {routing : RoutingConfig} {outbounds : OutboundsConfig}
    {ips : List IpAddr} {t : Compilation}
    (h : compileTrace env cache routing outbounds ips=.ok t) :
    List.Forall₂ (fun lf s => ∃ pats,domainPatterns cache lf.func.rawParams=.ok pats ∧
        s=CompiledDomainSet.compile pats) t.domainFunctions t.routing.domainSets ∧
      (∀ ms∈t.routing.matchSets,∀ i,ms.value=.domainSet i →
        ∃ lf∈t.domainFunctions,ms∈lf.entries) ∧
      ((∀ p (hp : p<t.domainFunctions.length),∀ ms∈t.domainFunctions[p].entries,∀ i,
          ms.value=.domainSet i → i.toNat=p ∧ i.toNat<t.routing.domainSets.length) ↔
        ∃ k m,(t.domainFunctions.map fun lf => lf.func.groups.length) =
          List.replicate k 1++List.replicate m 0) := by
  have hc := compileTrace_spec h
  have hsets := hc.domainSets_spec
  refine ⟨hsets,fun ms hms i hi => hc.domain_entry hms hi,?_⟩
  have hindexed : IndexedFrom 0 t.domainFunctions := hc.lowered.indexed.filter
  have hsmall := hc.domain_small
  rw [← Compiled.domainGroups_eq t,← aligned_iff 0,← hindexed.aligned_iff (by omega) 0]
  refine forall₂_congr fun p hp => ?_
  constructor
  · intro hall i hi
    obtain ⟨ms,hms,hidx⟩ := List.mem_filterMap.mp hi
    have hv : ms.value=.domainSet i := by
      cases hval : ms.value <;> rw [hval] at hidx <;> cases hidx
      rfl
    rw [Nat.zero_add]
    exact (hall ms hms i hv).1
  · intro hall ms hms i hv
    have hi : i∈t.domainFunctions[p].domainIndices :=
      List.mem_filterMap.mpr ⟨ms,hms,by rw [hv]; rfl⟩
    have heq : i.toNat=p := by simpa using hall i hi
    refine ⟨heq,?_⟩
    rw [heq,← hsets.length_eq]
    exact hp

theorem compile_domain_indices_single : ∃ t,
    compileTrace Env.empty none ⟨[⟨"dport(1) && domain(suffix:a.com, suffix:b.com)", "block"⟩],
      "direct"⟩ ⟨[],[]⟩ []=.ok t ∧
    ∀ p (hp : p<t.domainFunctions.length),∀ ms∈t.domainFunctions[p].entries,∀ i,
      ms.value=.domainSet i → i.toNat=p ∧ i.toNat<t.routing.domainSets.length := by
  have hrun : (compileTrace Env.empty none
      ⟨[⟨"dport(1) && domain(suffix:a.com, suffix:b.com)", "block"⟩], "direct"⟩ ⟨[],[]⟩
      []).toOption.map (fun t => t.domainFunctions.map fun lf => lf.func.groups.length) =
        some [1] := by
    decide +kernel
  obtain ⟨t,ht,hcounts⟩ := Fallible.exists_ok_of_map hrun
  exact ⟨t,ht,(compile_domain_indices ht).2.2.mpr ⟨1,0,hcounts⟩⟩

/-- Two key groups: the second entry's index is past the only domain set, and the next function's
entry is past its own. -/
theorem domain_index_shifted : (compileRules Env.empty none
        ⟨[⟨"domain(suffix:a.com, keyword:b)", "block"⟩,⟨"domain(full:c.com)", "direct"⟩],
          "direct"⟩ ⟨[],[]⟩ []).toOption.map
      (fun c => (c.matchSets.map (·.value),c.domainSets.length)) =
        some ([.domainSet 0,.domainSet 1,.domainSet 2,.fallback],2) := by
  decide +kernel

end DaeRs.Routing
