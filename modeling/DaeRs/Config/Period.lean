import DaeRs.Config.Validator

/-! The periods that `parse_period` accepts. -/

namespace DaeRs.Config

open RustStr List

/-- The last letter of a period. -/
inductive PeriodUnit where
  | d
  | h
  | m
  deriving DecidableEq

namespace PeriodUnit

def char : PeriodUnit → Char
  | d => 'd'
  | h => 'h'
  | m => 'm'

def secs : PeriodUnit → Nat
  | d => 86400
  | h => 3600
  | m => 60

theorem secs_pos (u : PeriodUnit) : 0<u.secs := by
  cases u <;> decide

theorem char_not_decimal (u : PeriodUnit) : ¬('0' ≤ u.char ∧ u.char ≤ '9') := by
  cases u <;> decide

theorem unitSecs_char (u : PeriodUnit) : unitSecs u.char=some u.secs := by
  cases u <;> rfl

theorem exists_of_unitSecs {c : Char} {s : Nat} (h : unitSecs c=some s) :
    ∃ u : PeriodUnit,u.char=c ∧ u.secs=s := by
  unfold unitSecs at h
  split at h
  · exact ⟨d,rfl,Option.some.inj h⟩
  · exact ⟨PeriodUnit.h,rfl,Option.some.inj h⟩
  · exact ⟨m,rfl,Option.some.inj h⟩
  · nomatch h

end PeriodUnit

/-- A number in decimal digits, as many as one likes, and its unit. -/
structure PeriodGroup where
  digits : List Char
  unit : PeriodUnit
  digits_ne_nil : digits≠[]
  decimal : ∀ c∈digits, '0' ≤ c ∧ c ≤ '9'

namespace PeriodGroup

def text (g : PeriodGroup) : List Char := g.digits++[g.unit.char]

def secs (g : PeriodGroup) : Nat := Nat.ofDigitChars 10 g.digits 0*g.unit.secs

def totalSecs (groups : List PeriodGroup) : Nat := (groups.map secs).sum

theorem digits_le_secs (g : PeriodGroup) : Nat.ofDigitChars 10 g.digits 0≤g.secs :=
  Nat.le_mul_of_pos_right _ g.unit.secs_pos

theorem unit_not_mem {ds : List Char} (hds : ∀ c∈ds, '0' ≤ c ∧ c ≤ '9') (g : PeriodGroup) :
    g.unit.char∉ds :=
  fun hmem => g.unit.char_not_decimal (hds _ hmem)

theorem text_ne_digits {ds : List Char} (hne : ds≠[]) (hds : ∀ c∈ds, '0' ≤ c ∧ c ≤ '9')
    (groups : List PeriodGroup) : ds≠groups.flatMap text := by
  intro h
  cases groups with
  | nil => exact hne h
  | cons g groups =>
    have hmem : g.unit.char∈ds := by
      rw [h,flatMap_cons]
      exact mem_append_left _ (mem_append_right _ mem_cons_self)
    exact unit_not_mem hds g hmem

theorem text_ne_cons {c : Char} (hc : ¬('0' ≤ c ∧ c ≤ '9')) (cs : List Char)
    (groups : List PeriodGroup) : c::cs≠groups.flatMap text := by
  intro h
  cases groups with
  | nil => nomatch h
  | cons g groups =>
    obtain ⟨x,xs,hdigits⟩ := exists_cons_of_ne_nil g.digits_ne_nil
    rw [flatMap_cons,text,hdigits,cons_append,cons_append] at h
    have hx : c=x := (List.cons.inj h).1
    exact hc (hx ▸ g.decimal x (hdigits ▸ mem_cons_self))

theorem text_split {ds cs : List Char} {c : Char} (hds : ∀ c∈ds, '0' ≤ c ∧ c ≤ '9')
    (hc : ¬('0' ≤ c ∧ c ≤ '9')) {groups : List PeriodGroup}
    (h : ds++c::cs=groups.flatMap text) :
    ∃ g rest,groups=g::rest ∧ ds=g.digits ∧ c=g.unit.char ∧ cs=rest.flatMap text := by
  cases groups with
  | nil => exact absurd h (by simp)
  | cons g rest =>
    rw [flatMap_cons,text,append_assoc,singleton_append] at h
    obtain ⟨hdigits,hunit,hrest⟩ :=
      append_cons_inj_of_all hc g.unit.char_not_decimal hds g.decimal h
    exact ⟨g,rest,rfl,hdigits,hunit,hrest⟩

end PeriodGroup

open PeriodGroup

theorem flatMap_text_eq_nil {groups : List PeriodGroup} (h : []=groups.flatMap text) :
    groups=[] := by
  cases groups with
  | nil => rfl
  | cons g groups =>
    rw [flatMap_cons,text] at h
    exact absurd h (by simp)

variable (spec : String)

theorem periodLoop_done_iff (n i total : Nat) :
    periodLoop spec [] [] i total=.ok n ↔ n=total ∧ 0<n := by
  rw [periodLoop]
  split_ifs with hzero
  · constructor
    · intro h
      nomatch h
    · intro h
      omega
  · constructor
    · intro h
      cases h
      exact ⟨rfl,by omega⟩
    · intro h
      obtain ⟨rfl,-⟩ := h
      rfl

theorem periodLoop_unit_missing (n i total : Nat) {digits : List Char}
    (hne : digits≠[]) : periodLoop spec [] digits i total≠.ok n := by
  intro h
  unfold periodLoop at h
  split at h
  · exact hne rfl
  · split at h <;> nomatch h
  · next heq => nomatch heq

theorem periodLoop_unit_iff (n i total : Nat) {digits cs : List Char} {c : Char}
    (hne : digits≠[]) (hdigits : ∀ c∈digits, '0' ≤ c ∧ c ≤ '9')
    (hc : ¬('0' ≤ c ∧ c ≤ '9')) :
    periodLoop spec (c::cs) digits i total=.ok n ↔
      ∃ g : PeriodGroup,g.digits=digits.reverse ∧ g.unit.char=c ∧
        total+g.secs<2^64 ∧ periodLoop spec cs [] (i+1) (total+g.secs)=.ok n := by
  have hrev : ∀ c∈digits.reverse, '0' ≤ c ∧ c ≤ '9' := fun c hc => hdigits c (mem_reverse.1 hc)
  rw [periodLoop,if_neg hc,if_neg hne]
  constructor
  · intro h
    split at h
    · nomatch h
    · next num hnum =>
      split at h
      · nomatch h
      · next secs hsecs =>
        obtain ⟨u,rfl,rfl⟩ := PeriodUnit.exists_of_unitSecs hsecs
        obtain ⟨rfl,-⟩ := (parseDigits_ok_iff digits.reverse 0 hrev (by omega)).1 hnum
        split_ifs at h with hfits
        exact ⟨⟨digits.reverse,u,by simpa using hne,hrev⟩,rfl,rfl,hfits.2,h⟩
  · intro h
    obtain ⟨g,hg,rfl,hfits,hrest⟩ := h
    have hle := g.digits_le_secs
    have hnum : parseDigits 10 (2^64-1) digits.reverse 0 =.ok (Nat.ofDigitChars 10 g.digits 0) := by
      rw [parseDigits_ok_iff digits.reverse 0 hrev (by omega),hg]
      refine ⟨rfl,?_⟩
      rw [hg] at hle
      omega
    rw [hnum,g.unit.unitSecs_char]
    show (if g.secs<2^64 ∧ total+g.secs<2^64 then
      periodLoop spec cs [] (i+1) (total+g.secs) else _)=_
    rw [if_pos ⟨by omega,hfits⟩]
    exact hrest

theorem periodLoop_nil_iff (n i : Nat) {total : Nat} {digits : List Char}
    (hdigits : ∀ c∈digits, '0' ≤ c ∧ c ≤ '9') (htotal : total<2^64) :
    periodLoop spec [] digits i total=.ok n ↔ ∃ groups : List PeriodGroup,
      digits.reverse=groups.flatMap text ∧ n=total+totalSecs groups ∧ 0<n ∧ n<2^64 := by
  by_cases hne : digits=[]
  · subst hne
    rw [periodLoop_done_iff]
    constructor
    · intro h
      obtain ⟨rfl,hpos⟩ := h
      exact ⟨[],rfl,rfl,hpos,htotal⟩
    · intro h
      obtain ⟨groups,htext,htotal,hpos,-⟩ := h
      rw [flatMap_text_eq_nil htext] at htotal
      exact ⟨htotal,hpos⟩
  · have hrev : ∀ c∈digits.reverse, '0' ≤ c ∧ c ≤ '9' := fun c hc => hdigits c (mem_reverse.1 hc)
    refine iff_of_false (periodLoop_unit_missing spec n i total hne) fun h => ?_
    obtain ⟨groups,htext,-⟩ := h
    exact text_ne_digits (by simpa using hne) hrev groups htext

theorem exists_groups_iff {n total : Nat} {digits cs : List Char} {c : Char}
    (hdigits : ∀ c∈digits, '0' ≤ c ∧ c ≤ '9') (hc : ¬('0' ≤ c ∧ c ≤ '9')) :
    (∃ groups : List PeriodGroup,digits++c::cs=groups.flatMap text ∧
        n=total+totalSecs groups ∧ 0<n ∧ n<2^64) ↔
      ∃ g : PeriodGroup,g.digits=digits ∧ g.unit.char=c ∧ total+g.secs<2^64 ∧
        ∃ groups : List PeriodGroup,cs=groups.flatMap text ∧
          n=total+g.secs+totalSecs groups ∧ 0<n ∧ n<2^64 := by
  constructor
  · intro h
    obtain ⟨groups,htext,hn,hpos,hlt⟩ := h
    obtain ⟨g,rest,rfl,hg,rfl,rfl⟩ := text_split hdigits hc htext
    rw [totalSecs,map_cons,sum_cons,← Nat.add_assoc] at hn
    exact ⟨g,hg.symm,rfl,by omega,rest,rfl,hn,hpos,hlt⟩
  · intro h
    obtain ⟨g,rfl,rfl,-,rest,rfl,hn,hpos,hlt⟩ := h
    refine ⟨g::rest,?_,?_,hpos,hlt⟩
    · rw [flatMap_cons,text,append_assoc]
      rfl
    · rw [hn,totalSecs,totalSecs,map_cons,sum_cons,Nat.add_assoc]

theorem periodLoop_ok_iff (n : Nat) (cs : List Char) : ∀ (digits : List Char)
    (i total : Nat),(∀ c∈digits, '0' ≤ c ∧ c ≤ '9') → total<2^64 →
    (periodLoop spec cs digits i total=.ok n ↔ ∃ groups : List PeriodGroup,
      digits.reverse++cs=groups.flatMap text ∧ n=total+totalSecs groups ∧ 0<n ∧
        n<2^64) := by
  induction cs with
  | nil =>
    intro digits i total hdigits htotal
    rw [append_nil]
    exact periodLoop_nil_iff spec n i hdigits htotal
  | cons c cs ih =>
    intro digits i total hdigits htotal
    by_cases hc : '0' ≤ c ∧ c ≤ '9'
    · -- another digit of the number
      have hmore : ∀ x∈c::digits, '0' ≤ x ∧ x ≤ '9' := by
        intro x hx
        cases hx with
        | head => exact hc
        | tail _ hx => exact hdigits x hx
      rw [periodLoop,if_pos hc,ih (c::digits) (i+1) total hmore htotal,reverse_cons,
        append_assoc,singleton_append]
    by_cases hne : digits=[]
    · subst hne
      rw [periodLoop,if_neg hc,if_pos rfl]
      refine iff_of_false nofun fun h => ?_
      obtain ⟨groups,htext,-⟩ := h
      exact text_ne_cons hc cs groups htext
    · -- a group ends here, and the loop starts over behind it
      have hrev : ∀ c∈digits.reverse, '0' ≤ c ∧ c ≤ '9' := fun c hc => hdigits c (mem_reverse.1 hc)
      rw [periodLoop_unit_iff spec n i total hne hdigits hc,exists_groups_iff hrev hc]
      refine exists_congr fun g => and_congr_right fun _ => and_congr_right fun _ => ?_
      exact and_congr_right fun hfits => ih [] (i+1) _ (forall_mem_nil _) hfits

theorem parsePeriod_pos_lt {spec : String} {n : Nat} (h : parsePeriod spec=.ok n) :
    0<n ∧ n<2^64 := by
  have hnone : ∀ c∈([] : List Char), '0' ≤ c ∧ c ≤ '9' := fun c hc => nomatch hc
  rw [parsePeriod] at h
  split_ifs at h
  obtain ⟨-,-,-,hfits⟩ := (periodLoop_ok_iff spec n _ [] 0 0 hnone (by omega)).1 h
  exact hfits

/-- A period is accepted if its text without the blanks around it is a sequence of groups, and it
is then as long as they are together. -/
theorem parsePeriod_ok_iff (spec : String) (n : Nat) :
    parsePeriod spec=.ok n ↔ ∃ groups : List PeriodGroup,groups≠[] ∧
      (trim spec).toList=groups.flatMap text ∧ n=totalSecs groups ∧ 0<n ∧ n<2^64 := by
  have hnone : ∀ c∈([] : List Char), '0' ≤ c ∧ c ≤ '9' := fun c hc => nomatch hc
  rw [parsePeriod]
  split_ifs with hempty
  · constructor
    · intro h
      nomatch h
    · intro h
      obtain ⟨groups,hne,htext,-⟩ := h
      rw [hempty] at htext
      exact absurd (flatMap_text_eq_nil htext) hne
  · rw [periodLoop_ok_iff spec n _ [] 0 0 hnone (by omega),List.reverse_nil,List.nil_append]
    constructor
    · intro h
      obtain ⟨groups,htext,hn,hpos,hlt⟩ := h
      refine ⟨groups,?_,htext,?_,hpos,hlt⟩
      · intro hnil
        subst hnil
        exact hempty (String.toList_eq_nil_iff.1 htext)
      · rw [hn,Nat.zero_add]
    · intro h
      obtain ⟨groups,-,htext,hn,hpos,hlt⟩ := h
      exact ⟨groups,htext,by rw [hn,Nat.zero_add],hpos,hlt⟩

end DaeRs.Config
