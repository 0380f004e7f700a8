import DaeRs.RuleSet.ListParser

/-! The slices that the list parsers take of a line, and the lists that are written for them. -/

namespace DaeRs.RuleSet

open RustStr Net List Option
open String (ofList toList_append ofList_toList utf8ByteSize_append)

/-- `strip_rule_keyword` with its slices; the outer `none` is the panic of one that ends inside a
character. -/
def stripRuleKeywordSliced (line keyword : String) : Option (Option String) :=
  let len := keyword.utf8ByteSize
  if line.utf8ByteSize > len ∧ (utf8 line)[len]?=some 0x2c then
    (sliceAt line.toList len).bind fun p =>
      if eqIgnoreAsciiCase (ofList p.1) keyword then
        (sliceAt line.toList (len+1)).map fun q => some (trim (ofList q.2))
      else some none
  else some none

def parseIpListLineSliced (env : Env) (number : Nat) (line : String) :
    Option (Except ListError (Option IpNet)) :=
  let required (rest : String) : Except ListError (Option IpNet) :=
    match parseIpLine env (firstArg rest) with
    | some net => .ok (some net)
    | none => .error (.invalidIp number line)
  if line = "" ∨ startsWith line "#" then some (.ok none)
  else do
    match ← stripRuleKeywordSliced line "IP-CIDR" with
    | some rest => pure (required rest)
    | none =>
      match ← stripRuleKeywordSliced line "IP-CIDR6" with
      | some rest => pure (required rest)
      | none =>
        if lineIsRuleKeyword line nonIpRulePrefixes then pure (.ok none)
        else
          match parseIpLine env line with
          | some net => pure (.ok (some net))
          | none =>
            if RustStr.contains line "," then pure (.error (.unrecognizedRule number line))
            else pure (.error (.invalidIp number line))

def parseIpLinesSliced (env : Env) : Nat → List String → Option (Except ListError (List IpNet))
  | _,[] => some (.ok [])
  | idx,raw::raws => do
    match ← parseIpListLineSliced env (idx+1) (trim raw) with
    | .error e => pure (.error e)
    | .ok entry =>
      let nets ← parseIpLinesSliced env (idx+1) raws
      pure (nets.map (entry.toList++·))

def parseIpListSliced (env : Env) (text : String) : Option (Except ListError (List IpNet)) :=
  parseIpLinesSliced env 0 (lines text)

def parseRuleDomainSliced (line : String) :
    List (String×DomainPatternType) → Option (Option DomainPattern)
  | [] => some none
  | (keyword,ty)::keywords => do
    match ← stripRuleKeywordSliced line keyword with
    | some rest =>
      let value := firstArg rest
      pure (if value = "" then none else some ⟨ty,value⟩)
    | none => parseRuleDomainSliced line keywords

def parseDomainListLineSliced (number : Nat) (line : String) :
    Option (Except ListError (Option DomainPattern)) :=
  if line = "" ∨ startsWith line "#" then some (.ok none)
  else do
    match ← parseRuleDomainSliced line ruleKeywords with
    | some pat => pure (.ok (some pat))
    | none =>
      if lineIsRuleKeyword line nonDomainRulePrefixes then pure (.ok none)
      else
        match ← parseDomainLine line with
        | some pat => pure (.ok (some pat))
        | none =>
          if ← isNativeDomainPrefix line then pure (.error (.invalidDomain number line))
          else pure (.error (.unrecognizedRule number line))

def parseDomainLinesSliced : Nat → List String → Option (Except ListError (List DomainPattern))
  | _,[] => some (.ok [])
  | idx,raw::raws => do
    match ← parseDomainListLineSliced (idx+1) (trim raw) with
    | .error e => pure (.error e)
    | .ok entry =>
      let pats ← parseDomainLinesSliced (idx+1) raws
      pure (pats.map (entry.toList++·))

def parseDomainListSliced (text : String) : Option (Except ListError (List DomainPattern)) :=
  parseDomainLinesSliced 0 (lines text)

variable {line : String}

theorem comma_iff {keyword : String} : (line.utf8ByteSize > keyword.utf8ByteSize ∧
      (utf8 line)[keyword.utf8ByteSize]?=some 0x2c) ↔
    ∃ head rest,sliceAt line.toList keyword.utf8ByteSize=some (head, ',' :: rest) := by
  constructor
  · intro h
    obtain ⟨head,c,rest,hline,hsize,hcode⟩ := exists_split_of_ascii (by decide) h.2
    have hc : c = ',' := Char.toNat_inj.1 hcode
    rw [hc] at hline
    exact ⟨head,rest,sliceAt_eq_some_iff.2 ⟨hline,hsize⟩⟩
  · intro h
    obtain ⟨head,rest,hslice⟩ := h
    obtain ⟨hline,hsize⟩ := sliceAt_eq_some_iff.1 hslice
    have hlength := length_utf8 head
    rw [hsize] at hlength
    have hbytes : utf8 line=head.flatMap String.utf8EncodeChar ++
        0x2c::rest.flatMap String.utf8EncodeChar := by
      rw [utf8,hline,flatMap_append,flatMap_cons]
      rfl
    have htotal := length_utf8 line.toList
    rw [ofList_toList] at htotal
    change (utf8 line).length=_ at htotal
    rw [hbytes,length_append,length_cons] at htotal
    refine ⟨by omega,?_⟩
    rw [hbytes,← hlength,getElem?_append_right (Nat.le_refl _),Nat.sub_self]
    rfl

theorem stripRuleKeyword_of_comma {keyword : String} {head rest : List Char}
    (h : sliceAt line.toList keyword.utf8ByteSize=some (head, ',' :: rest)) :
    stripRuleKeyword line keyword=if eqIgnoreAsciiCase (ofList head) keyword then
      some (trim (ofList rest)) else none := by
  unfold stripRuleKeyword
  rw [h]
  rfl

theorem stripRuleKeyword_of_no_comma {keyword : String}
    (h : ¬∃ head rest,sliceAt line.toList keyword.utf8ByteSize=some (head, ',' :: rest)) :
    stripRuleKeyword line keyword=none := by
  unfold stripRuleKeyword
  split
  · next head rest hslice => exact absurd ⟨head,rest,hslice⟩ h
  · rfl

theorem stripRuleKeywordSliced_eq (line keyword : String) :
    stripRuleKeywordSliced line keyword=some (stripRuleKeyword line keyword) := by
  by_cases hcomma : ∃ head rest,
      sliceAt line.toList keyword.utf8ByteSize=some (head, ',' :: rest)
  · obtain ⟨head,rest,hslice⟩ := hcomma
    obtain ⟨hline,hsize⟩ := sliceAt_eq_some_iff.1 hslice
    have hnext : sliceAt line.toList (keyword.utf8ByteSize+1)=some (head++[','],rest) := by
      refine sliceAt_eq_some_iff.2 ⟨by rw [hline,append_assoc]; rfl,?_⟩
      rw [String.ofList_append,utf8ByteSize_append,hsize]
      rfl
    unfold stripRuleKeywordSliced
    rw [if_pos (comma_iff.2 ⟨head,rest,hslice⟩),hslice,hnext,stripRuleKeyword_of_comma hslice]
    show (if eqIgnoreAsciiCase (ofList head) keyword then _ else _)=_
    split_ifs
    · rfl
    · rfl
  · unfold stripRuleKeywordSliced
    rw [if_neg (fun h => hcomma (comma_iff.1 h)),stripRuleKeyword_of_no_comma hcomma]

theorem parseIpListLineSliced_eq (env : Env) (number : Nat) (line : String) :
    parseIpListLineSliced env number line=some (parseIpListLine env number line) := by
  unfold parseIpListLineSliced parseIpListLine
  rw [stripRuleKeywordSliced_eq,stripRuleKeywordSliced_eq]
  by_cases hblank : line = "" ∨ startsWith line "#" = true
  · rw [if_pos hblank,if_pos hblank]
  rw [if_neg hblank,if_neg hblank]
  cases stripRuleKeyword line "IP-CIDR" with
  | some rest => rfl
  | none =>
    cases stripRuleKeyword line "IP-CIDR6" with
    | some rest => rfl
    | none =>
      dsimp only [bind_eq_bind,bind_some,pure]
      split_ifs
      · rfl
      all_goals
        cases parseIpLine env line with
        | some net => rfl
        | none => rfl

theorem parseIpLinesSliced_eq (env : Env) (raws : List String) : ∀ idx : Nat,
    parseIpLinesSliced env idx raws=some (parseIpLines env idx raws) := by
  induction raws with
  | nil =>
    intro idx
    rfl
  | cons raw raws ih =>
    intro idx
    rw [parseIpLinesSliced,parseIpLines,parseIpListLineSliced_eq,ih (idx+1)]
    cases parseIpListLine env (idx+1) (trim raw) with
    | error e => rfl
    | ok entry =>
      cases parseIpLines env (idx+1) raws with
      | error e => rfl
      | ok nets => rfl

theorem parseRuleDomainSliced_eq (line : String) (keywords : List (String×DomainPatternType)) :
    parseRuleDomainSliced line keywords=some (parseRuleDomainWith line keywords) := by
  induction keywords with
  | nil => rfl
  | cons p keywords ih =>
    obtain ⟨keyword,ty⟩ := p
    rw [parseRuleDomainSliced,parseRuleDomainWith,stripRuleKeywordSliced_eq,ih]
    cases stripRuleKeyword line keyword with
    | none => rfl
    | some rest => rfl

theorem parseDomainListLineSliced_eq (number : Nat) (line : String) :
    parseDomainListLineSliced number line=parseDomainListLine number line := by
  unfold parseDomainListLineSliced parseDomainListLine parseRuleDomain
  rw [parseRuleDomainSliced_eq]
  by_cases hblank : line = "" ∨ startsWith line "#" = true
  · rw [if_pos hblank,if_pos hblank]
  rw [if_neg hblank,if_neg hblank]
  cases parseRuleDomainWith line ruleKeywords with
  | some pat => rfl
  | none => rfl

theorem parseDomainLinesSliced_eq (raws : List String) : ∀ idx : Nat,
    parseDomainLinesSliced idx raws=parseDomainLines idx raws := by
  induction raws with
  | nil =>
    intro idx
    rfl
  | cons raw raws ih =>
    intro idx
    rw [parseDomainLinesSliced,parseDomainListLineSliced_eq,ih (idx+1)]
    rfl

/-- Byte `n` of a text is past its end or at the end of a character. -/
def BoundaryAt (line : String) (n : Nat) : Prop := line.utf8ByteSize<n ∨
    ∃ head rest,line.toList=head++rest ∧ (ofList head).utf8ByteSize=n

def HasNativePrefix (line pre : String) : Prop := ∃ head rest,line.toList=head++rest ∧
    (ofList head).utf8ByteSize=pre.utf8ByteSize ∧
    eqIgnoreAsciiCase (ofList head) pre=true

/-- The prefixes that a line is compared with, up to the first one it has, all end at a character
of the line or past its end. -/
def PrefixesFit (line : String) : List (String×DomainPatternType) → Prop
  | [] => True
  | p::ps => BoundaryAt line p.1.utf8ByteSize ∧ (HasNativePrefix line p.1 ∨ PrefixesFit line ps)

theorem nativeRest_isSome_iff (line pre : String) :
    (nativeRest line pre).isSome ↔ BoundaryAt line pre.utf8ByteSize := by
  unfold nativeRest
  split_ifs with hshort
  · exact ⟨fun _ => Or.inl hshort,fun _ => rfl⟩
  · rw [isSome_map,isSome_iff_exists]
    constructor
    · intro h
      obtain ⟨p,hp⟩ := h
      exact Or.inr ⟨p.1,p.2,sliceAt_eq_some_iff.1 hp⟩
    · intro h
      rcases h with hlt | ⟨head,rest,hsplit⟩
      · exact absurd hlt hshort
      · exact ⟨(head,rest),sliceAt_eq_some_iff.2 hsplit⟩

theorem nativeRest_some_iff (line pre : String) :
    (∃ rest,nativeRest line pre=some (some rest)) ↔ HasNativePrefix line pre := by
  unfold nativeRest HasNativePrefix
  constructor
  · intro h
    obtain ⟨rest,hrest⟩ := h
    split_ifs at hrest with hshort
    · nomatch hrest
    · obtain ⟨p,hp,heq⟩ := map_eq_some_iff.1 hrest
      split_ifs at heq with hcase
      obtain ⟨hline,hsize⟩ := sliceAt_eq_some_iff.1 hp
      exact ⟨p.1,p.2,hline,hsize,hcase⟩
  · intro h
    obtain ⟨head,rest,hline,hsize,hcase⟩ := h
    have hlong : ¬line.utf8ByteSize<pre.utf8ByteSize := by
      have hline' : line=ofList head++ofList rest := by
        rw [← String.ofList_append,← hline,ofList_toList]
      rw [hline',utf8ByteSize_append,hsize]
      omega
    refine ⟨ofList rest,?_⟩
    rw [if_neg hlong,sliceAt_eq_some_iff.2 ⟨hline,hsize⟩,map_some,if_pos hcase]

theorem parseDomainLineWith_isSome_iff (line : String) (ps : List (String×DomainPatternType)) :
    (parseDomainLineWith line ps).isSome ↔ PrefixesFit line ps := by
  induction ps with
  | nil => exact ⟨fun _ => trivial,fun _ => rfl⟩
  | cons p ps ih =>
    obtain ⟨pre,ty⟩ := p
    rw [parseDomainLineWith,PrefixesFit,← nativeRest_isSome_iff,← nativeRest_some_iff,← ih]
    cases nativeRest line pre with
    | none => simp
    | some r =>
      cases r with
      | none => simp
      | some rest => simp

theorem isNativeDomainPrefix_isSome (h : PrefixesFit line nativePrefixes) :
    (isNativeDomainPrefix line).isSome := by
  unfold isNativeDomainPrefix
  generalize nativePrefixes=ps at h ⊢
  induction ps with
  | nil => rfl
  | cons p ps ih =>
    rw [PrefixesFit,← nativeRest_isSome_iff,← nativeRest_some_iff] at h
    rw [foldr_cons]
    cases hrest : nativeRest line p.1 with
    | none =>
      rw [hrest] at h
      nomatch h.1
    | some r =>
      cases r with
      | none =>
        rw [hrest] at h
        have hps : PrefixesFit line ps := by
          rcases h.2 with ⟨rest,hsome⟩ | hps
          · nomatch hsome
          · exact hps
        exact ih hps
      | some rest => rfl

/-- A line is read without a panic: it is left out or a rule, or the native prefixes fit. -/
def LineFits (line : String) : Prop :=
  line = "" ∨ startsWith line "#" = true ∨ (parseRuleDomain line).isSome ∨
    lineIsRuleKeyword line nonDomainRulePrefixes=true ∨ PrefixesFit line nativePrefixes

theorem parseDomainListLine_isSome_iff (number : Nat) (line : String) :
    (parseDomainListLine number line).isSome ↔ LineFits line := by
  unfold parseDomainListLine LineFits
  by_cases hblank : line = "" ∨ startsWith line "#" = true
  · rw [if_pos hblank]
    exact ⟨fun _ => hblank.elim Or.inl fun h => Or.inr (Or.inl h),fun _ => rfl⟩
  rw [if_neg hblank]
  have hempty : ¬line = "" := fun h => hblank (Or.inl h)
  have hcomment : ¬startsWith line "#" = true := fun h => hblank (Or.inr h)
  cases parseRuleDomain line with
  | some pat =>
    exact ⟨fun _ => Or.inr (Or.inr (Or.inl rfl)),fun _ => rfl⟩
  | none =>
    by_cases hkeyword : lineIsRuleKeyword line nonDomainRulePrefixes=true
    · exact ⟨fun _ => Or.inr (Or.inr (Or.inr (Or.inl hkeyword))),fun _ => by simp [hkeyword]⟩
    simp only [hempty,hcomment,hkeyword,isSome_none,Bool.false_eq_true,false_or,if_false]
    rw [← parseDomainLineWith_isSome_iff]
    change _ ↔ (parseDomainLine line).isSome=true
    have hnative (h : (parseDomainLine line).isSome=true) : (isNativeDomainPrefix line).isSome :=
      isNativeDomainPrefix_isSome ((parseDomainLineWith_isSome_iff line nativePrefixes).1 h)
    cases hdomain : parseDomainLine line with
    | none => simp
    | some r =>
      cases r with
      | some pat => simp
      | none =>
        obtain ⟨b,hb⟩ := isSome_iff_exists.1 (hnative (by rw [hdomain]; rfl))
        cases b <;> simp [hb]

/-- A line is in error: it has a native prefix and nothing after it. -/
def LineRefused (line : String) : Prop :=
  ¬(line = "" ∨ startsWith line "#" = true) ∧ parseRuleDomain line=none ∧
    lineIsRuleKeyword line nonDomainRulePrefixes=false ∧ parseDomainLine line=some none

theorem parseDomainListLine_error {number : Nat} {e : ListError}
    (h : parseDomainListLine number line=some (.error e)) : LineRefused line := by
  unfold parseDomainListLine at h
  split at h
  · nomatch h
  · next hblank =>
    split at h
    · nomatch h
    · next hrule =>
      split at h
      · nomatch h
      · next hkeyword =>
        refine ⟨hblank,hrule,Bool.eq_false_iff.2 hkeyword,?_⟩
        cases hdomain : parseDomainLine line with
        | none =>
          rw [hdomain] at h
          nomatch h
        | some r =>
          cases r with
          | none => rfl
          | some pat =>
            rw [hdomain] at h
            nomatch h

theorem parseDomainListLine_ok {number : Nat} {entry : Option DomainPattern}
    (h : parseDomainListLine number line=some (.ok entry)) : ¬LineRefused line := by
  intro hrefused
  obtain ⟨hblank,hrule,hkeyword,hdomain⟩ := hrefused
  unfold parseDomainListLine at h
  rw [if_neg hblank,hrule,hkeyword,hdomain] at h
  cases hnative : isNativeDomainPrefix line with
  | none =>
    rw [hnative] at h
    nomatch h
  | some b =>
    rw [hnative] at h
    cases b with
    | false => nomatch h
    | true => nomatch h

def LinesFit (raws : List String) : Prop :=
  ∀ before raw after,raws=before++raw::after → (∀ r∈before,¬LineRefused (trim r)) →
    LineFits (trim raw)

theorem linesFit_cons_iff {raw : String} {raws : List String} : LinesFit (raw::raws) ↔
      LineFits (trim raw) ∧ (LineRefused (trim raw) ∨ LinesFit raws) := by
  constructor
  · intro h
    refine ⟨h [] raw raws rfl (fun r hr => nomatch hr),?_⟩
    by_cases hrefused : LineRefused (trim raw)
    · exact Or.inl hrefused
    · refine Or.inr fun before r after heq hbefore => ?_
      refine h (raw::before) r after (by rw [heq,cons_append]) fun r' hr' => ?_
      cases hr' with
      | head => exact hrefused
      | tail _ hr' => exact hbefore r' hr'
  · intro h before r after heq hbefore
    cases before with
    | nil =>
      obtain ⟨hr,-⟩ := List.cons.inj heq
      rw [← hr]
      exact h.1
    | cons r' before =>
      obtain ⟨hr',htail⟩ := List.cons.inj heq
      rcases h.2 with hrefused | hfit
      · exact absurd (hr' ▸ hrefused) (hbefore r' mem_cons_self)
      · exact hfit before r after htail fun x hx => hbefore x (mem_cons_of_mem r' hx)

theorem parseDomainLines_isSome_iff (raws : List String) : ∀ idx : Nat,
    (parseDomainLines idx raws).isSome ↔ LinesFit raws := by
  induction raws with
  | nil =>
    intro idx
    exact ⟨fun _ before raw after heq => by simp at heq,fun _ => rfl⟩
  | cons raw raws ih =>
    intro idx
    rw [linesFit_cons_iff,← ih (idx+1),← parseDomainListLine_isSome_iff (idx+1),parseDomainLines]
    cases hline : parseDomainListLine (idx+1) (trim raw) with
    | none => simp
    | some r =>
      cases r with
      | error e =>
        have hrefused := parseDomainListLine_error hline
        exact ⟨fun _ => ⟨rfl,Or.inl hrefused⟩,fun _ => rfl⟩
      | ok entry =>
        have hrefused := parseDomainListLine_ok hline
        cases parseDomainLines (idx+1) raws with
        | none => simp [hrefused]
        | some pats => simp

/-- An address list is read without a panic, and a domain list exactly if its lines fit. -/
theorem lists_return_iff (env : Env) (text : String) : (parseIpListSliced env text).isSome ∧
      ((parseDomainListSliced text).isSome ↔ LinesFit (lines text)) := by
  constructor
  · rw [parseIpListSliced,parseIpLinesSliced_eq]
    rfl
  · rw [parseDomainListSliced,parseDomainLinesSliced_eq,parseDomainLines_isSome_iff]

/-- The first prefix ends inside the third letter of a name, and the second one inside a letter
after a prefix that is still to come. -/
theorem parseDomainList_panics :
    parseDomainListSliced "кафе.рф\n" = none ∧ parseDomainListSliced "regex:é+\n" = none := by
  decide +kernel

def domainPatternToString (p : DomainPattern) : String :=
  match p.patternType with
  | .suffix => "suffix:" ++ p.value
  | .full => "full:" ++ p.value
  | .regex => "regex:" ++ p.value
  | .domain => "domain:" ++ p.value
  | .keyword => "keyword:" ++ p.value

/-- A value that a line can hold: ASCII without white space, commas and comments. -/
def PlainValue (value : String) : Prop :=
  value ≠ "" ∧ ∀ c∈value.toList,c.toNat<128 ∧ isWhitespace c=false ∧ c ≠ ',' ∧ c ≠ '#'

theorem domainPatternToString_eq (p : DomainPattern) :
    ∃ pre,(pre,p.patternType)∈nativePrefixes ∧ domainPatternToString p=pre++p.value := by
  obtain ⟨ty,value⟩ := p
  cases ty with
  | suffix => exact ⟨"suffix:",show ("suffix:",DomainPatternType.suffix)∈nativePrefixes by decide,rfl⟩
  | keyword => exact ⟨"keyword:",show ("keyword:",DomainPatternType.keyword)∈nativePrefixes by decide,rfl⟩
  | full => exact ⟨"full:",show ("full:",DomainPatternType.full)∈nativePrefixes by decide,rfl⟩
  | regex => exact ⟨"regex:",show ("regex:",DomainPatternType.regex)∈nativePrefixes by decide,rfl⟩
  | domain => exact ⟨"domain:",show ("domain:",DomainPatternType.domain)∈nativePrefixes by decide,rfl⟩

def isPlainChar (c : Char) : Bool := Nat.blt c.toNat 128 && !isWhitespace c && c != ',' && c != '#'

theorem isPlainChar_iff {c : Char} : isPlainChar c=true ↔
    c.toNat<128 ∧ isWhitespace c=false ∧ c ≠ ',' ∧ c ≠ '#' := by
  unfold isPlainChar
  simp [and_assoc]

theorem nativePrefixes_plain : ∀ p∈nativePrefixes, ':' ∈ p.1.toList ∧ p.1.toList≠[] ∧
    ∀ c∈p.1.toList,c.toNat<128 ∧ isWhitespace c=false ∧ c ≠ ',' ∧ c ≠ '#' := by
  have hall : (nativePrefixes.all fun p =>
      p.1.toList.contains ':' && p.1.toList.all isPlainChar)=true := rfl
  intro p hp
  obtain ⟨hcolon,hchars⟩ := Bool.and_eq_true_iff.1 (all_eq_true.1 hall p hp)
  have hmem : ':' ∈ p.1.toList := contains_iff_mem.1 hcolon
  exact ⟨hmem,ne_nil_of_mem hmem,fun c hc => isPlainChar_iff.1 (all_eq_true.1 hchars c hc)⟩

theorem nativePrefixes_heads : nativePrefixes.Pairwise fun p q =>
    p.1.toList.head?.map Char.toLower≠q.1.toList.head?.map Char.toLower := by
  decide +kernel

theorem boundaryAt_ascii (h : ∀ c∈line.toList,c.toNat<128) (n : Nat) : BoundaryAt line n := by
  by_cases hn : n≤line.toList.length
  · obtain ⟨hline,hsize⟩ := sliceAt_eq_some_iff.1 (sliceAt_ascii h hn)
    exact Or.inr ⟨_,_,hline,hsize⟩
  · have hsize := utf8ByteSize_ascii h
    rw [ofList_toList] at hsize
    exact Or.inl (by omega)

theorem nativeRest_of_head_ne {pre : String} (hascii : ∀ c∈line.toList,c.toNat<128)
    (hne : line.toList.head?.map Char.toLower≠pre.toList.head?.map Char.toLower)
    (hpre : pre.toList≠[]) : nativeRest line pre=some none := by
  have hnot : ¬HasNativePrefix line pre := by
    intro h
    obtain ⟨head,rest,hline,hsize,hcase⟩ := h
    have hlower : head.map Char.toLower=pre.toList.map Char.toLower := by
      have heq := eq_of_beq hcase
      rw [toAsciiLowercase,toAsciiLowercase,String.toList_ofList] at heq
      exact String.ofList_injective heq
    obtain ⟨d,ds,hds⟩ := exists_cons_of_ne_nil hpre
    rw [hds,map_cons] at hlower
    cases head with
    | nil => nomatch hlower
    | cons c cs =>
      rw [hline,hds] at hne
      rw [map_cons] at hlower
      exact hne (congrArg some (List.cons.inj hlower).1)
  obtain ⟨r,hr⟩ := isSome_iff_exists.1
    ((nativeRest_isSome_iff line pre).2 (boundaryAt_ascii hascii pre.utf8ByteSize))
  cases r with
  | none => exact hr
  | some rest => exact absurd ((nativeRest_some_iff line pre).1 ⟨rest,hr⟩) hnot

theorem nativeRest_append (pre value : String) : nativeRest (pre++value) pre=some (some value) := by
  have hline : (pre++value).toList=pre.toList++value.toList := toList_append
  have hsize : (ofList pre.toList).utf8ByteSize=pre.utf8ByteSize := by
    rw [ofList_toList]
  have hlong : ¬(pre++value).utf8ByteSize<pre.utf8ByteSize := by
    rw [utf8ByteSize_append]
    omega
  have hcase : eqIgnoreAsciiCase pre pre=true := beq_self_eq_true (toAsciiLowercase pre)
  rw [nativeRest,if_neg hlong,sliceAt_eq_some_iff.2 ⟨hline,hsize⟩,map_some,
    ofList_toList,if_pos hcase,ofList_toList]

theorem parseDomainLineWith_append {ps : List (String×DomainPatternType)} {pre value : String}
    {ty : DomainPatternType} (hheads : ps.Pairwise fun p q =>
      p.1.toList.head?.map Char.toLower≠q.1.toList.head?.map Char.toLower)
    (hps : ∀ p∈ps,p.1.toList≠[]) (hmem : (pre,ty)∈ps)
    (hascii : ∀ c∈(pre++value).toList,c.toNat<128) (hvalue : value ≠ "")
    (htrim : trim value=value) :
    parseDomainLineWith (pre++value) ps=some (some ⟨ty,value⟩) := by
  induction ps with
  | nil => nomatch hmem
  | cons p ps ih =>
    obtain ⟨pre',ty'⟩ := p
    obtain ⟨hhead,htail⟩ := pairwise_cons.1 hheads
    rw [parseDomainLineWith]
    rcases mem_cons.1 hmem with heq | hmem
    · cases heq
      rw [nativeRest_append]
      show some (if trim value = "" then none else some (DomainPattern.mk ty (trim value)))=_
      rw [htrim,if_neg hvalue]
    · have hpre := hps (pre,ty) (mem_cons_of_mem _ hmem)
      have hother : nativeRest (pre++value) pre'=some none := by
        refine nativeRest_of_head_ne hascii ?_ (hps (pre',ty') mem_cons_self)
        obtain ⟨c,cs,hc⟩ := exists_cons_of_ne_nil hpre
        have hne := hhead (pre,ty) hmem
        rw [hc] at hne
        rw [toList_append,hc]
        exact hne.symm
      rw [hother]
      exact ih htail (fun p hp => hps p (mem_cons_of_mem _ hp)) hmem

theorem domainPatternToString_plain {p : DomainPattern} (h : PlainValue p.value) :
    ':' ∈ (domainPatternToString p).toList ∧ ∀ c∈(domainPatternToString p).toList,
      c.toNat<128 ∧ isWhitespace c=false ∧ c ≠ ',' ∧ c ≠ '#' := by
  obtain ⟨pre,hmem,heq⟩ := domainPatternToString_eq p
  obtain ⟨hcolon,-,hpre⟩ := nativePrefixes_plain _ hmem
  rw [heq,toList_append]
  refine ⟨mem_append_left _ hcolon,fun c hc => ?_⟩
  rcases mem_append.1 hc with hc | hc
  · exact hpre c hc
  · exact h.2 c hc

theorem parseRuleDomain_of_no_comma (h : ',' ∉ line.toList) : parseRuleDomain line=none := by
  have hnone (keyword : String) : stripRuleKeyword line keyword=none := by
    refine stripRuleKeyword_of_no_comma fun hcomma => ?_
    obtain ⟨head,rest,hslice⟩ := hcomma
    obtain ⟨hline,-⟩ := sliceAt_eq_some_iff.1 hslice
    exact h (by rw [hline]; exact mem_append_right _ mem_cons_self)
  unfold parseRuleDomain
  induction ruleKeywords with
  | nil => rfl
  | cons p ps ih =>
    obtain ⟨keyword,ty⟩ := p
    rw [parseRuleDomainWith,hnone keyword]
    exact ih

theorem lineIsRuleKeyword_of_colon (hcolon : ':' ∈ line.toList)
    (hcomma : ',' ∉ line.toList) : lineIsRuleKeyword line nonDomainRulePrefixes=false := by
  have hkeywords : ∀ kw∈nonDomainRulePrefixes, ':' ∉ kw.toList := by decide +kernel
  have hlower : (toAsciiLowercase line).toList=line.toList.map Char.toLower := String.toList_ofList
  refine any_eq_false.2 fun kw hkw h => ?_
  rcases Bool.or_eq_true_iff.1 h with heq | hstarts
  · apply hkeywords kw hkw
    rw [← eq_of_beq heq,hlower]
    exact mem_map.2 ⟨':',hcolon,rfl⟩
  · have hmem : ',' ∈ (toAsciiLowercase line).toList := by
      refine (of_decide_eq_true hstarts).subset ?_
      rw [toList_append]
      exact mem_append_right _ mem_cons_self
    rw [hlower] at hmem
    obtain ⟨c,hc,hcode⟩ := mem_map.1 hmem
    rw [eq_of_toLower_eq hcode (by decide)] at hc
    exact hcomma hc

theorem parseDomainListLine_domainPatternToString (number : Nat) {p : DomainPattern}
    (h : PlainValue p.value) :
    parseDomainListLine number (domainPatternToString p)=some (.ok (some p)) := by
  obtain ⟨hcolon,hplain⟩ := domainPatternToString_plain h
  obtain ⟨pre,hmem,heq⟩ := domainPatternToString_eq p
  have hcomma : ',' ∉ (domainPatternToString p).toList := fun hc => (hplain ',' hc).2.2.1 rfl
  have hblank : ¬(domainPatternToString p = "" ∨
      startsWith (domainPatternToString p) "#" = true) := by
    intro hblank
    rcases hblank with hempty | hcomment
    · rw [hempty] at hcolon
      nomatch hcolon
    · exact (hplain '#' ((of_decide_eq_true hcomment).subset mem_cons_self)).2.2.2 rfl
  have hvalue : trim p.value=p.value := trim_of_no_space fun c hc => (h.2 c hc).2.1
  have hdomain : parseDomainLine (domainPatternToString p)=some (some p) := by
    rw [parseDomainLine,heq]
    exact parseDomainLineWith_append nativePrefixes_heads
      (fun p hp => (nativePrefixes_plain p hp).2.1) hmem
      (fun c hc => (hplain c (by rw [heq]; exact hc)).1) h.1 hvalue
  unfold parseDomainListLine
  rw [if_neg hblank,parseRuleDomain_of_no_comma hcomma,lineIsRuleKeyword_of_colon hcolon hcomma,
    hdomain]
  rfl

theorem parseDomainLines_domainPatternToString {pats : List DomainPattern}
    (h : ∀ p∈pats,PlainValue p.value) : ∀ idx : Nat,
    parseDomainLines idx (pats.map domainPatternToString)=some (.ok pats) := by
  induction pats with
  | nil =>
    intro idx
    rfl
  | cons p pats ih =>
    intro idx
    have hp := h p mem_cons_self
    have htrim : trim (domainPatternToString p)=domainPatternToString p :=
      trim_of_no_space fun c hc => ((domainPatternToString_plain hp).2 c hc).2.1
    rw [map_cons,parseDomainLines,htrim,parseDomainListLine_domainPatternToString _ hp,
      ih (fun q hq => h q (mem_cons_of_mem p hq))]
    rfl

/-- Patterns that are written one on a line, each with a line feed after it or between them, are
read back. -/
theorem parseDomainList_domainPatternToString {pats : List DomainPattern}
    (h : ∀ p∈pats,PlainValue p.value) :
    parseDomainList (String.join (pats.map fun p => domainPatternToString p ++ "\n")) =
        some (.ok pats) ∧
      parseDomainList ("\n".intercalate (pats.map domainPatternToString))=some (.ok pats) := by
  have hplain : ∀ l∈pats.map domainPatternToString,l ≠ "" ∧ ∀ c∈l.toList,c ≠ '\n' ∧ c ≠ '\r' := by
    intro l hl
    obtain ⟨p,hp,rfl⟩ := List.mem_map.1 hl
    obtain ⟨hcolon,hchars⟩ := domainPatternToString_plain (h p hp)
    refine ⟨?_,fun c hc => ?_⟩
    · intro hempty
      rw [hempty] at hcolon
      nomatch hcolon
    · have hspace := (hchars c hc).2.1
      constructor
      all_goals
        intro heq
        rw [heq] at hspace
        nomatch hspace
  have hjoin := lines_join fun l hl => (hplain l hl).2
  rw [List.map_map] at hjoin
  constructor
  · have hlines : lines (String.join (pats.map fun p => domainPatternToString p ++ "\n")) =
        pats.map domainPatternToString := hjoin
    rw [parseDomainList,hlines]
    exact parseDomainLines_domainPatternToString h 0
  · rw [parseDomainList,lines_intercalate hplain]
    exact parseDomainLines_domainPatternToString h 0

theorem parseDomainList_domainPatternToString_three :
    parseDomainList "full:a.example\nregex:full:.*\nkeyword:ip-cidr\n" =
      some (.ok [⟨.full, "a.example"⟩,⟨.regex, "full:.*"⟩,⟨.keyword, "ip-cidr"⟩]) := by
  have hplain : ∀ p∈[⟨.full, "a.example"⟩,⟨.regex, "full:.*"⟩,
      (⟨.keyword, "ip-cidr"⟩ : DomainPattern)],PlainValue p.value := by
    have hall : ([⟨.full, "a.example"⟩,⟨.regex, "full:.*"⟩,
        (⟨.keyword, "ip-cidr"⟩ : DomainPattern)].all fun p =>
        p.value != "" && p.value.toList.all isPlainChar)=true := rfl
    intro p hp
    obtain ⟨hne,hchars⟩ := Bool.and_eq_true_iff.1 (List.all_eq_true.1 hall p hp)
    exact ⟨bne_iff_ne.1 hne,fun c hc => isPlainChar_iff.1 (List.all_eq_true.1 hchars c hc)⟩
  exact (parseDomainList_domainPatternToString hplain).1

end DaeRs.RuleSet
