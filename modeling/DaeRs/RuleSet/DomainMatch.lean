import Mathlib.Data.List.Dedup
import DaeRs.RuleSet.SuffixTrie

/-! The linear scan over domain patterns, and the compiled set against it. -/

namespace DaeRs.RuleSet

open RustStr RustVec CompiledDomainSet List

variable (env : Env) (qname : String) (q : String)

def matchDomainPattern (p : DomainPattern) : Bool :=
  let q := normalizeQname qname
  match p.patternType with
  | .suffix =>
    let v := toAsciiLowercase (trimStartMatches p.value '.')
    q==v || endsWith q ("." ++ v)
  | .domain =>
    let v := toAsciiLowercase (trimStartMatches p.value '.')
    q != v && endsWith q ("." ++ v)
  | .full =>
    let v := toAsciiLowercase (trimEndMatches p.value '.')
    q==v
  | .keyword =>
    let v := toAsciiLowercase p.value
    v != "" && RustStr.contains q v
  | .regex =>
    match env.regexNew p.value with
    | some re => re q
    | none => false

def matchDomainPatterns (patterns : List DomainPattern) : Bool :=
  patterns.any (matchDomainPattern env qname)

theorem endsWith_dot (v : String) :
    endsWith q ("." ++ v)=true ↔ ('.' :: v.toList) <:+ q.toList := by
  rw [endsWith,decide_eq_true_eq,String.toList_append]
  rfl

theorem normalizeQname_last : ¬ ['.'] <:+ (normalizeQname qname).toList := by
  intro h
  simp only [normalizeQname,toAsciiLowercase,trimEndMatches,dropEndWhile,String.toList_ofList,
    map_reverse] at h
  rw [← reverse_prefix,reverse_reverse,reverse_singleton] at h
  generalize hl : (trim qname).toList.reverse=l at h
  cases hd : l.dropWhile (· == '.') with
  | nil => simp [hd] at h
  | cons c cs =>
    have hhead := head?_dropWhile_not (· == '.') l
    rw [hd] at h hhead
    rw [map_cons,cons_prefix_cons] at h
    have hc := eq_of_toLower_eq h.1.symm (by decide)
    simp [hc] at hhead

theorem mem_sortDedup {l : List String} {v : String} : v∈sortDedup l ↔ v∈l := by
  rw [sortDedup,mem_dedup,mem_insertionSort]

theorem binarySearch_sortDedup {l : List String} {v : String} :
    binarySearch (sortDedup l) v=true ↔ v∈l := by
  have hsorted : (sortDedup l).Pairwise (· ≤ ·) :=
    (pairwise_insertionSort _ l).sublist (dedup_sublist _)
  rw [binarySearch_iff hsorted,mem_sortDedup]

theorem mem_valuesOf {ty : DomainPatternType} {patterns : List DomainPattern} {v : String} :
    v∈valuesOf ty patterns ↔ ∃ p∈patterns,p.patternType=ty ∧ p.compiledValue=v ∧ v ≠ "" := by
  simp only [valuesOf,mem_filter,mem_map,decide_eq_true_eq]
  constructor
  · intro h
    obtain ⟨⟨p,⟨hp,hty⟩,hv⟩,hne⟩ := h
    exact ⟨p,hp,hty,hv,hne⟩
  · intro h
    obtain ⟨p,hp,hty,hv,hne⟩ := h
    exact ⟨⟨p,⟨hp,hty⟩,hv⟩,hne⟩

theorem mem_dotSuffixes {s l : List Char} : s∈dotSuffixes l ↔ ('.' :: s) <:+ l := by
  induction l with
  | nil => simp [dotSuffixes]
  | cons c cs ih =>
    rw [dotSuffixes,suffix_cons_iff,List.cons.injEq]
    by_cases hc : c = '.'
    · simp [hc,ih]
    · simp [hc,ih,Ne.symm hc]

variable (patterns : List DomainPattern)

theorem compile_suffix_contains : (compile patterns).suffix.contains q=true ↔
      ∃ v∈valuesOf .suffix patterns,q=v ∨ ('.' :: v.toList) <:+ q.toList := by
  have hstores := SuffixTrie.new_stores.foldl_insert (valuesOf .suffix patterns)
  have hlabels : ∀ v,SuffixTrie.labels v <+: SuffixTrie.labels q ↔
      q=v ∨ ('.' :: v.toList) <:+ q.toList := by
    intro v
    have hreversed {l l' : List String} : l.reverse <+: l'.reverse ↔ l <:+ l' := reverse_prefix
    rw [SuffixTrie.labels,SuffixTrie.labels,hreversed,split_suffix_iff,eq_comm]
  have hne : ∀ v,SuffixTrie.labels v≠[] := by
    intro v h
    rw [SuffixTrie.labels,reverse_eq_nil_iff,split,map_eq_nil_iff] at h
    exact splitChars_ne_nil _ _ h
  rw [compile,hstores.contains q]
  constructor
  · intro h
    obtain ⟨word,hword,-,hpre⟩ := h
    rcases hword with hnone | ⟨v,hv,rfl⟩
    · cases hnone
    · exact ⟨v,hv,(hlabels v).mp hpre⟩
  · intro h
    obtain ⟨v,hv,hq⟩ := h
    exact ⟨SuffixTrie.labels v,.inr ⟨v,hv,rfl⟩,hne v,(hlabels v).mpr hq⟩

theorem compile_domainMatches : (compile patterns).domainMatches q=true ↔
      ∃ v∈valuesOf .domain patterns,('.' :: v.toList) <:+ q.toList := by
  simp only [domainMatches,compile,any_eq_true,binarySearch_sortDedup,mem_dotSuffixes]
  constructor
  · intro h
    obtain ⟨suffix,hsuf,hmem⟩ := h
    exact ⟨_,hmem,by rwa [String.toList_ofList]⟩
  · intro h
    obtain ⟨v,hv,hsuf⟩ := h
    exact ⟨v.toList,hsuf,by rwa [String.ofList_toList]⟩

def DomainPatternType.matchesValue (ty : DomainPatternType) (env : Env) (q v : String) : Prop :=
  match ty with
  | .suffix => q=v ∨ ('.' :: v.toList) <:+ q.toList
  | .full => q=v
  | .domain => ('.' :: v.toList) <:+ q.toList
  | .keyword => RustStr.contains q v=true
  | .regex => ∃ re,env.regexNew v=some re ∧ re q=true

theorem compile_full :
    binarySearch (compile patterns).full q=true ↔ ∃ v∈valuesOf .full patterns,q=v := by
  rw [compile,binarySearch_sortDedup,exists_eq_right']

theorem compile_keyword : (compile patterns).keyword.any (fun k => RustStr.contains q k)=true ↔
      ∃ v∈valuesOf .keyword patterns,RustStr.contains q v=true := by
  simp only [compile,any_eq_true,mem_sortDedup]

theorem compile_regex (patterns : List DomainPattern) (q : String) :
    ((compile patterns).regex.filterMap env.regexNew).any (fun re => re q)=true ↔
      ∃ v∈valuesOf .regex patterns,∃ re,env.regexNew v=some re ∧ re q=true := by
  simp only [compile,any_eq_true,mem_filterMap,mem_sortDedup]
  constructor
  · intro h
    obtain ⟨re,⟨v,hv,hre⟩,hm⟩ := h
    exact ⟨v,hv,re,hre,hm⟩
  · intro h
    obtain ⟨v,hv,re,hre,hm⟩ := h
    exact ⟨re,⟨v,hv,hre⟩,hm⟩

theorem compile_matches_values (patterns : List DomainPattern) (qname : String) :
    (compile patterns).matchesQname env qname=true ↔ normalizeQname qname ≠ "" ∧
      ∃ ty,∃ v∈valuesOf ty patterns,
        DomainPatternType.matchesValue ty env (normalizeQname qname) v := by
  rw [matchesQname]
  by_cases h0 : normalizeQname qname = ""
  · simp [h0]
  · rw [if_neg h0]
    simp only [Bool.or_eq_true,compile_suffix_contains,compile_full,compile_domainMatches,
      compile_keyword,compile_regex,ne_eq,h0,not_false_eq_true,true_and]
    constructor
    · intro h
      rcases h with (((h | h) | h) | h) | h
      · exact ⟨.suffix,h⟩
      · exact ⟨.full,h⟩
      · exact ⟨.domain,h⟩
      · exact ⟨.keyword,h⟩
      · exact ⟨.regex,h⟩
    · intro h
      obtain ⟨ty,h⟩ := h
      cases ty with
      | suffix => exact .inl (.inl (.inl (.inl h)))
      | full => exact .inl (.inl (.inl (.inr h)))
      | domain => exact .inl (.inl (.inr h))
      | keyword => exact .inl (.inr h)
      | regex => exact .inr h

theorem compile_matches_iff (patterns : List DomainPattern) (qname : String) :
    (compile patterns).matchesQname env qname=true ↔ normalizeQname qname ≠ "" ∧
      ∃ p∈patterns,p.compiledValue ≠ "" ∧
        p.patternType.matchesValue env (normalizeQname qname) p.compiledValue := by
  rw [compile_matches_values,and_congr_right_iff]
  intro _
  constructor
  · intro h
    obtain ⟨ty,v,hv,hm⟩ := h
    obtain ⟨p,hp,rfl,rfl,hne⟩ := mem_valuesOf.mp hv
    exact ⟨p,hp,hne,hm⟩
  · intro h
    obtain ⟨p,hp,hne,hm⟩ := h
    exact ⟨p.patternType,p.compiledValue,mem_valuesOf.mpr ⟨p,hp,rfl,rfl,hne⟩,hm⟩

theorem matchDomainPattern_iff (hq : normalizeQname qname ≠ "")
    (p : DomainPattern) (hp : p.value ≠ "") :
    matchDomainPattern env qname p=true ↔ p.compiledValue ≠ "" ∧
      p.patternType.matchesValue env (normalizeQname qname) p.compiledValue := by
  have hlast := normalizeQname_last qname
  set q := normalizeQname qname with hqdef
  obtain ⟨ty,value⟩ := p
  simp only [ne_eq] at hp
  cases ty with
  | suffix =>
    simp only [matchDomainPattern,← hqdef,DomainPattern.compiledValue,
      DomainPatternType.matchesValue,Bool.or_eq_true,beq_iff_eq,endsWith_dot]
    constructor
    · intro h
      refine ⟨fun hv => ?_,h⟩
      rw [hv] at h
      exact h.elim hq hlast
    · exact And.right
  | keyword =>
    simp [matchDomainPattern,← hqdef,DomainPattern.compiledValue,DomainPatternType.matchesValue]
  | full =>
    simp only [matchDomainPattern,← hqdef,DomainPattern.compiledValue,
      DomainPatternType.matchesValue,beq_iff_eq]
    constructor
    · intro h
      exact ⟨fun hv => hq (h.trans hv),h⟩
    · exact And.right
  | regex =>
    simp only [matchDomainPattern,← hqdef,DomainPattern.compiledValue,
      DomainPatternType.matchesValue,ne_eq,hp,not_false_eq_true,true_and]
    cases env.regexNew value <;> simp
  | domain =>
    simp only [matchDomainPattern,← hqdef,DomainPattern.compiledValue,
      DomainPatternType.matchesValue,Bool.and_eq_true,bne_iff_ne,endsWith_dot]
    constructor
    · intro h
      obtain ⟨-,h⟩ := h
      refine ⟨fun hv => ?_,h⟩
      rw [hv] at h
      exact hlast h
    · intro h
      obtain ⟨-,h⟩ := h
      refine ⟨fun hqv => ?_,h⟩
      -- a proper suffix is shorter
      have hlen := h.length_le
      rw [hqv,length_cons] at hlen
      omega

/-- Compiled patterns with values match a name as the linear scan does, on names that are not
empty. -/
theorem compile_matches_eq_scan (env : Env) (patterns : List DomainPattern)
    (hvalues : ∀ p∈patterns,p.value ≠ "") (qname : String) :
    (compile patterns).matchesQname env qname =
      (decide (normalizeQname qname ≠ "") && matchDomainPatterns env qname patterns) := by
  rw [Bool.eq_iff_iff,compile_matches_iff,Bool.and_eq_true,decide_eq_true_eq,
    matchDomainPatterns,List.any_eq_true,and_congr_right_iff]
  intro hq
  constructor
  · intro h
    obtain ⟨p,hp,hm⟩ := h
    exact ⟨p,hp,(matchDomainPattern_iff env qname hq p (hvalues p hp)).mpr hm⟩
  · intro h
    obtain ⟨p,hp,hm⟩ := h
    exact ⟨p,hp,(matchDomainPattern_iff env qname hq p (hvalues p hp)).mp hm⟩

theorem compile_matches_eq_scan_sample :
    let patterns : List DomainPattern := [⟨.suffix, ".Example.com"⟩,⟨.full, "a.org."⟩,
      ⟨.domain, "b.net"⟩,⟨.keyword, "ads"⟩]
    (∀ p∈patterns,p.value ≠ "") ∧ matchDomainPatterns Env.empty "WWW.example.COM." patterns=true ∧
      (compile patterns).matchesQname Env.empty "WWW.example.COM." = true := by
  have hvalues : ∀ p∈([⟨.suffix, ".Example.com"⟩,⟨.full, "a.org."⟩,⟨.domain, "b.net"⟩,
      ⟨.keyword, "ads"⟩] : List DomainPattern),p.value ≠ "" := by decide
  refine ⟨hvalues,by decide +kernel,?_⟩
  rw [compile_matches_eq_scan Env.empty _ hvalues]
  decide +kernel

end DaeRs.RuleSet
