import DaeRs.Routing.LowerSpec

/-! The trie and domain indices that compiled entries carry. -/

namespace DaeRs.Routing

open RustStr Net RuleSet Bpf Config List

def lpmIndex : MatchValue → Option UInt32
  | .ipSet i | .sourceIpSet i | .mac i => some i
  | _ => none

def Function.lpmCidrs (env : Env) (cache : Option RuleSetCache) (f : Function) :
    Option (List IpNet) :=
  match f.kind with
  | some .dip | some .sip => (parseCidrValues env cache f.rawParams).toOption
  | some .mac => some (macNets f)
  | _ => none

variable {env : Env} {cache : Option RuleSetCache} {idMap : OutboundIdMap}
  {tries : List (List IpNet)}

theorem forall₂_mem_right {α β : Type} {R : α → β → Prop} {as : List α} {bs : List β}
    (h : List.Forall₂ R as bs) {b : β} (hb : b∈bs) : ∃ a∈as,R a b := by
  induction h with
  | nil => cases hb
  | cons hab _ ih =>
    rcases mem_cons.mp hb with rfl | hb
    · exact ⟨_,by simp,hab⟩
    · obtain ⟨a,ha,hR⟩ := ih hb
      exact ⟨a,by simp [ha],hR⟩

variable {id : UInt8} {idx : Nat} {ob : Outbound}

theorem mem_groupsItems {f : Function} {kind : FunctionKind} {isLast : Bool}
    {groups : List (List String)} {item : Item}
    (h : item∈(groupsItems env cache f kind isLast ob id groups idx).flatten) :
    ∃ vs∈groups,∃ k,item.cond∈groupConds env cache f vs k kind := by
  induction groups generalizing idx with
  | nil => cases h
  | cons values rest ih =>
    rw [groupsItems,flatten_cons] at h
    rcases mem_append.mp h with h | h
    · obtain ⟨c,hc,rfl⟩ := mem_map.mp h
      exact ⟨values,by simp,idx,hc⟩
    · obtain ⟨vs,hvs,k,hk⟩ := ih h
      exact ⟨vs,by simp [hvs],k,hk⟩

variable {lf : LoweredFunction}

theorem entry_cond {isLast : Bool} (h : FunctionLowered env cache tries isLast ob id idx lf)
    {ms : MatchSet} (hms : ms∈lf.entries) :
    ∃ kind,lf.func.kind=some kind ∧ ∃ vs∈lf.func.groups,∃ k c,
      c∈groupConds env cache lf.func vs k kind ∧ CondValue tries c ms.value := by
  have hflat := rel_flatten h.groups
  obtain ⟨item,hitem,hrep⟩ := forall₂_mem_right hflat hms
  cases hkind : lf.func.kind with
  | none =>
    rw [functionItems,hkind] at hitem
    cases hitem
  | some kind =>
    rw [functionItems,hkind] at hitem
    obtain ⟨vs,hvs,k,hk⟩ := mem_groupsItems hitem
    exact ⟨kind,rfl,vs,hvs,k,item.cond,hk,hrep.value⟩

theorem entry_lpm {isLast : Bool} (h : FunctionLowered env cache tries isLast ob id idx lf)
    {ms : MatchSet} (hms : ms∈lf.entries) {i : UInt32} (hi : lpmIndex ms.value=some i) :
    ∃ n cidrs,i=UInt32.ofNat n ∧ lf.func.lpmCidrs env cache=some cidrs ∧ tries[n]?=some cidrs := by
  obtain ⟨kind,hkind,vs,hvs,k,c,hc,hval⟩ := entry_cond h hms
  have hparse := h.parses.values kind hkind vs hvs
  have hplain : ∀ {α : Type} {l : List α} {g : α → MatchValue},
      c∈l.map (fun a => Cond.plain (g a)) → (∀ a,lpmIndex (g a)=none) → False := by
    intro α l g hmem hnone
    obtain ⟨a,-,rfl⟩ := mem_map.mp hmem
    rw [hval,hnone] at hi
    cases hi
  cases kind with
  | dip | sip =>
    rw [groupConds,mem_singleton] at hc
    subst hc
    obtain ⟨n,hv,hn⟩ := hval
    rw [hv] at hi
    cases hi
    rw [ValuesParse] at hparse
    exact ⟨n,_,rfl,by simp [Function.lpmCidrs,hkind,hparse,Except.toOption],hn⟩
  | mac =>
    rw [groupConds] at hc
    split_ifs at hc
    · cases hc
    · rw [mem_singleton] at hc
      subst hc
      obtain ⟨n,hv,hn⟩ := hval
      rw [hv] at hi
      cases hi
      exact ⟨n,_,rfl,by simp [Function.lpmCidrs,hkind],hn⟩
  | dport | sport | dscp | processName | upstream => exact (hplain hc fun _ => rfl).elim
  | l4proto | ipversion | domain | qtype =>
    rw [groupConds,mem_singleton] at hc
    subst hc
    rw [hval] at hi
    cases hi

theorem RulesLowered.mem {ls : List LoweredRule}
    (h : RulesLowered env cache idMap tries idx ls) {l : LoweredRule} (hl : l∈ls) :
    ∃ k id,RuleLowered env cache idMap tries k l id := by
  induction h with
  | nil idx => cases hl
  | cons head _ ih =>
    rcases mem_cons.mp hl with rfl | hl
    · exact ⟨_,_,head⟩
    · exact ih hl

theorem FunctionsLowered.mem
    {lfs : List LoweredFunction} (h : FunctionsLowered env cache tries ob id idx lfs)
    (hlf : lf∈lfs) : ∃ isLast k,FunctionLowered env cache tries isLast ob id k lf := by
  induction h with
  | nil idx => cases hlf
  | cons head _ ih =>
    rcases mem_cons.mp hlf with rfl | hlf
    · exact ⟨_,_,head⟩
    · exact ih hlf

theorem lpmIndex_bare {l : LoweredRule}
    (h : RuleLowered env cache idMap tries idx l id) {ms : MatchSet} (hms : ms∈l.bare) :
    lpmIndex ms.value=none := by
  rw [h.bare] at hms
  split_ifs at hms
  · rw [mem_singleton] at hms
    rw [hms]
    rfl
  · cases hms

section Indices

variable {routing : RoutingConfig} {outbounds : OutboundsConfig} {ips : List IpAddr}
  {t : Compilation}

variable (h : Compiled env cache routing outbounds ips t)
include h

theorem Compiled.tries_lt :
    t.routing.lpmTries.length < maxMatchSetLen := by
  have hlen := h.matchSets_le
  rw [h.matchSets,length_append,length_append,length_singleton] at hlen
  have := h.tries
  omega

theorem Compiled.index_toNat {n : Nat}
    {cidrs : List IpNet} (hn : t.routing.lpmTries[n]?=some cidrs) :
    (UInt32.ofNat n).toNat=n := by
  have hlt : n<t.routing.lpmTries.length := (List.getElem?_eq_some_iff.mp hn).1
  have hmax := h.tries_lt
  have hmax' : maxMatchSetLen=1024 := rfl
  exact UInt32.toNat_ofNat_of_lt' (by change n<4294967296; omega)

variable {ms : MatchSet}

theorem Compiled.proxy_index
    (hms : ms∈t.proxyEntries) {i : UInt32} (hi : lpmIndex ms.value=some i) :
    t.routing.lpmTries[i.toNat]?=some (ips.map hostNet) := by
  rcases h.proxy with ⟨-,hp⟩ | ⟨-,hp,htrie⟩
  · rw [hp] at hms
    cases hms
  · rw [hp] at hms
    simp only [proxyDirectEntries,mem_cons,not_mem_nil,or_false] at hms
    rcases hms with rfl | rfl
    · cases hi
      exact htrie
    · cases hi

theorem Compiled.function_index {l : LoweredRule}
    (hl : l∈t.lowered) {lf : LoweredFunction} (hlf : lf∈l.functions)
    (hms : ms∈lf.entries) {i : UInt32} (hi : lpmIndex ms.value=some i) :
    ∃ cidrs,lf.func.lpmCidrs env cache=some cidrs ∧ t.routing.lpmTries[i.toNat]?=some cidrs := by
  obtain ⟨k,id,hr⟩ := h.lowered.mem hl
  obtain ⟨isLast,k',hf⟩ := hr.functions.mem hlf
  obtain ⟨n,cidrs,rfl,hc,hn⟩ := entry_lpm hf hms hi
  exact ⟨cidrs,hc,by rw [h.index_toNat hn,hn]⟩

theorem Compiled.indexed_entry
    (hms : ms∈t.routing.matchSets) {i : UInt32} (hi : lpmIndex ms.value=some i) :
    ms∈t.proxyEntries ∨ ∃ l∈t.lowered,∃ lf∈l.functions,ms∈lf.entries := by
  rw [h.matchSets] at hms
  rcases mem_append.mp hms with hms | hms
  · rcases mem_append.mp hms with hms | hms
    · exact .inl hms
    · right
      obtain ⟨l,hl,hms⟩ := mem_flatMap.mp hms
      obtain ⟨k,id,hr⟩ := h.lowered.mem hl
      rcases mem_append.mp hms with hms | hms
      · rw [lpmIndex_bare hr hms] at hi
        cases hi
      · obtain ⟨lf,hlf,hms⟩ := mem_flatMap.mp hms
        exact ⟨l,hl,lf,hlf,hms⟩
  · rw [mem_singleton] at hms
    rw [hms] at hi
    cases hi

theorem Compiled.index_lt
    (hms : ms∈t.routing.matchSets) {i : UInt32} (hi : lpmIndex ms.value=some i) :
    i.toNat<t.routing.lpmTries.length := by
  rcases h.indexed_entry hms hi with hp | ⟨l,hl,lf,hlf,hms⟩
  · exact (List.getElem?_eq_some_iff.mp (h.proxy_index hp hi)).1
  · obtain ⟨cidrs,-,hget⟩ := h.function_index hl hlf hms hi
    exact (List.getElem?_eq_some_iff.mp hget).1

end Indices

/-- Every trie index is in range, leads to the prefix list of the function that emitted the entry
(or of the proxy servers), and stays within its epoch slot. -/
theorem compile_lpm_indices {routing : RoutingConfig} {outbounds : OutboundsConfig}
    {ips : List IpAddr} {t : Compilation}
    (h : compileTrace env cache routing outbounds ips=.ok t) :
    t.routing.lpmTries.length ≤ maxLpmTries ∧ t.routing.matchSets =
        t.proxyEntries++t.lowered.flatMap LoweredRule.entries++[t.routing.fallbackEntry] ∧
      (∀ ms∈t.proxyEntries,∀ i,lpmIndex ms.value=some i →
        t.routing.lpmTries[i.toNat]?=some (ips.map hostNet)) ∧
      (∀ l∈t.lowered,∀ lf∈l.functions,∀ ms∈lf.entries,∀ i,
        lpmIndex ms.value=some i → ∃ cidrs,lf.func.lpmCidrs env cache=some cidrs ∧
          t.routing.lpmTries[i.toNat]?=some cidrs) ∧
      ∀ ms∈t.routing.matchSets,∀ i,lpmIndex ms.value=some i → i.toNat<t.routing.lpmTries.length ∧
          ∀ slot,slot*maxMatchSetLen+i.toNat<(slot+1)*maxMatchSetLen := by
  have hc := compileTrace_spec h
  refine ⟨hc.tries_le,hc.matchSets,fun ms hms i hi => hc.proxy_index hms hi,
    fun l hl lf hlf ms hms i hi => hc.function_index hl hlf hms hi,fun ms hms i hi => ?_⟩
  have hlt := hc.index_lt hms hi
  refine ⟨hlt,fun slot => ?_⟩
  have hmax := hc.tries_lt
  rw [Nat.add_mul,Nat.one_mul]
  omega

theorem compile_lpm_indices_shared : ∃ t,compileTrace Env.empty none
      ⟨[⟨"dip(10.0.0.1) && sip(10.0.0.1)", "block"⟩,⟨"mac(00:00:00:00:00:07)", "direct"⟩],
        "direct"⟩ ⟨[],[]⟩ [.v4 5]=.ok t ∧
    t.routing.matchSets.filterMap (fun ms => lpmIndex ms.value)=[0,1,1,2] ∧
    ∀ ms∈t.routing.matchSets,∀ i,lpmIndex ms.value=some i → i.toNat<t.routing.lpmTries.length := by
  have hrun : (compileTrace Env.empty none
      ⟨[⟨"dip(10.0.0.1) && sip(10.0.0.1)", "block"⟩,⟨"mac(00:00:00:00:00:07)", "direct"⟩],
        "direct"⟩ ⟨[],[]⟩ [.v4 5]).toOption.map
      (fun t => t.routing.matchSets.filterMap fun ms => lpmIndex ms.value) =some [0,1,1,2] := by
    decide +kernel
  obtain ⟨t,ht,hidx⟩ := Fallible.exists_ok_of_map hrun
  exact ⟨t,ht,hidx,fun ms hms i hi => ((compile_lpm_indices ht).2.2.2.2 ms hms i hi).1⟩

end DaeRs.Routing
