import DaeRs.Lib.RustStr

/-! Byte offsets of Rust's `str`: where a pattern is found, and the slices that are taken there. A
slice is `none` where Rust panics. -/

namespace RustStr

open List Option
open String (ofList toList_append toList_inj toList_ofList ofList_toList)

variable (s : String)

def trimEnd : String := ofList (dropEndWhile isWhitespace s.toList)

def splitWhitespaceLoop : List Char → List Char → List (List Char)
  | [],[] => []
  | [],word => [word.reverse]
  | c::rest,word =>
    if isWhitespace c then
      if word=[] then splitWhitespaceLoop rest [] else word.reverse::splitWhitespaceLoop rest []
    else splitWhitespaceLoop rest (c::word)

def splitWhitespace : List String := (splitWhitespaceLoop s.toList []).map ofList

def trimStartLoop (pat : List Char) : Nat → List Char → List Char
  | 0,l => l
  | n+1,l =>
    match stripChars pat l with
    | some rest => trimStartLoop pat n rest
    | none => l

variable (pat : String)

def trimStartStr : String := ofList (trimStartLoop pat.toList s.toList.length s.toList)

/-- The text before and after the first occurrence of a pattern that is not empty. -/
def splitPatChars (pat : List Char) : List Char → Option (List Char×List Char)
  | [] => none
  | c::cs =>
    match stripChars pat (c::cs) with
    | some rest => some ([],rest)
    | none => (splitPatChars pat cs).map fun p => (c::p.1,p.2)

def splitPat : Option (String×String) :=
  (splitPatChars pat.toList s.toList).map fun p => (ofList p.1,ofList p.2)

def find : Option Nat := (splitPat s pat).map fun p => p.1.utf8ByteSize

def rfind (c : Char) : Option Nat := (rsplitOnce s c).map fun p => p.1.utf8ByteSize

def sliceTo (n : Nat) : Option String := (sliceAt s.toList n).map fun p => ofList p.1

def sliceFrom (n : Nat) : Option String := (sliceAt s.toList n).map fun p => ofList p.2

def slice (m n : Nat) : Option String :=
  if m≤n then (sliceFrom s m).bind fun rest => sliceTo rest (n-m) else none

def sliceFound : Option (Option (String×String)) :=
  match find s pat with
  | none => some none
  | some n =>
    (sliceTo s n).bind fun before =>
      (sliceFrom s (n+pat.utf8ByteSize)).map fun after => some (before,after)

def rsliceFound (c : Char) : Option (Option (String×String)) :=
  match rfind s c with
  | none => some none
  | some n =>
    (sliceTo s n).bind fun before =>
      (sliceFrom s (n+c.utf8Size)).map fun after => some (before,after)

theorem sliceAt_eq {s a b : String} (h : s=a++b) :
    sliceAt s.toList a.utf8ByteSize=some (a.toList,b.toList) := by
  refine sliceAt_eq_some_iff.2 ⟨?_,?_⟩
  · rw [h,toList_append]
  · rw [ofList_toList]

theorem sliceTo_eq {s a : String} (b : String) (h : s=a++b) : sliceTo s a.utf8ByteSize=some a := by
  rw [sliceTo,sliceAt_eq h,map_some,ofList_toList]

theorem sliceFrom_eq {s : String} (a : String) {b : String} (h : s=a++b) :
    sliceFrom s a.utf8ByteSize=some b := by
  rw [sliceFrom,sliceAt_eq h,map_some,ofList_toList]

theorem eq_append_of_stripChars : ∀ {p l rest : List Char},stripChars p l=some rest → l=p++rest
  | [],_,_,h => Option.some.inj h
  | _::_,[],_,h => nomatch h
  | p::ps,c::cs,rest,h => by
    rw [stripChars] at h
    split_ifs at h with hpc
    rw [hpc,cons_append,← eq_append_of_stripChars h]

theorem eq_append_of_splitPatChars {pat l a b : List Char} (h : splitPatChars pat l=some (a,b)) :
    l=a++(pat++b) := by
  induction l generalizing a b with
  | nil => nomatch h
  | cons c cs ih =>
    rw [splitPatChars] at h
    split at h
    · next rest hrest =>
      cases h
      rw [nil_append]
      exact eq_append_of_stripChars hrest
    · obtain ⟨p,hp,heq⟩ := map_eq_some_iff.1 h
      cases heq
      rw [cons_append,← ih hp]

theorem eq_append_of_splitPat {s pat a b : String} (h : splitPat s pat=some (a,b)) :
    s=a++(pat++b) := by
  obtain ⟨p,hp,heq⟩ := map_eq_some_iff.1 h
  cases heq
  rw [← toList_inj,toList_append,toList_append,toList_ofList,
    toList_ofList]
  exact eq_append_of_splitPatChars hp

theorem eq_append_of_splitOnceChars {c : Char} {l a b : List Char}
    (h : splitOnceChars c l=some (a,b)) : l=a++c::b := by
  induction l generalizing a b with
  | nil => nomatch h
  | cons x xs ih =>
    rw [splitOnceChars] at h
    split_ifs at h with hx
    · cases h
      rw [hx,nil_append]
    · obtain ⟨p,hp,heq⟩ := map_eq_some_iff.1 h
      cases heq
      rw [cons_append,← ih hp]

theorem eq_append_of_rsplitOnce {s a b : String} {c : Char} (h : rsplitOnce s c=some (a,b)) :
    s=a++(String.singleton c++b) := by
  obtain ⟨p,hp,heq⟩ := map_eq_some_iff.1 h
  cases heq
  have hs : s.toList=p.2.reverse++c::p.1.reverse := by
    rw [← reverse_reverse s.toList,eq_append_of_splitOnceChars hp,reverse_append,
      reverse_cons,append_assoc,singleton_append]
  rw [← toList_inj,toList_append,toList_append,toList_ofList,
    toList_ofList,String.toList_singleton,singleton_append]
  exact hs

theorem sliceFound_eq : sliceFound s pat=some (splitPat s pat) := by
  unfold sliceFound find
  cases h : splitPat s pat with
  | none => rfl
  | some p =>
    have hs := eq_append_of_splitPat h
    have hs' : s=(p.1++pat)++p.2 := by
      rw [String.append_assoc]
      exact hs
    have hafter := sliceFrom_eq (p.1++pat) hs'
    rw [String.utf8ByteSize_append] at hafter
    rw [map_some]
    dsimp only
    rw [sliceTo_eq _ hs,bind_some,hafter,map_some]

theorem rsliceFound_eq (c : Char) : rsliceFound s c=some (rsplitOnce s c) := by
  unfold rsliceFound rfind
  cases h : rsplitOnce s c with
  | none => rfl
  | some p =>
    have hs := eq_append_of_rsplitOnce h
    have hs' : s=(p.1++String.singleton c)++p.2 := by
      rw [String.append_assoc]
      exact hs
    have hafter := sliceFrom_eq (p.1++String.singleton c) hs'
    rw [String.utf8ByteSize_append,String.utf8ByteSize_singleton] at hafter
    rw [map_some]
    dsimp only
    rw [sliceTo_eq _ hs,bind_some,hafter,map_some]

end RustStr
