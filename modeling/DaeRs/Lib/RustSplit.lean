import DaeRs.Lib.RustSlice

/-! Where a text is split, from what its parts contain. -/

namespace RustStr

open List
open String (ofList toList_append toList_ofList ofList_toList)

section

variable {s a b : String} {c : Char}

theorem splitOnce_of_toList (hs : s.toList=a.toList++c::b.toList) (h : c∉a.toList) :
    splitOnce s c=some (a,b) := by
  rw [splitOnce,hs,splitOnceChars_append h,Option.map_some,ofList_toList,
    ofList_toList]

theorem splitOnceChars_of_not_mem {l : List Char} (h : c∉l) : splitOnceChars c l=none := by
  induction l with
  | nil => rfl
  | cons x xs ih =>
    have hx : x≠c := fun heq => h (heq ▸ mem_cons_self)
    rw [splitOnceChars,if_neg hx,ih fun hmem => h (mem_cons_of_mem x hmem),Option.map_none]

theorem splitOnce_of_not_mem (h : c∉s.toList) : splitOnce s c=none := by
  rw [splitOnce,splitOnceChars_of_not_mem h,Option.map_none]

theorem rsplitOnce_of_toList (hs : s.toList=a.toList++c::b.toList) (h : c∉b.toList) :
    rsplitOnce s c=some (a,b) := by
  have hreverse : s.toList.reverse=b.toList.reverse++c::a.toList.reverse := by
    rw [hs,reverse_append,reverse_cons,append_assoc,singleton_append]
  rw [rsplitOnce,hreverse,splitOnceChars_append (fun hmem => h (mem_reverse.1 hmem)),
    Option.map_some,reverse_reverse,reverse_reverse,ofList_toList,
    ofList_toList]

theorem rsplitOnce_cases (hs : s.toList=a.toList++c::b.toList) : rsplitOnce s c=some (a,b) ∨
      ∃ x y,rsplitOnce s c=some (a++(String.singleton c++x),y) := by
  by_cases h : c∈b.toList
  · right
    obtain ⟨front,back,hb,hfront⟩ := eq_append_cons_of_mem (mem_reverse.2 h)
    have hb : b.toList=back.reverse++c::front.reverse := by
      rw [← reverse_reverse b.toList,hb,reverse_append,reverse_cons,append_assoc,singleton_append]
    refine ⟨ofList back.reverse,ofList front.reverse,rsplitOnce_of_toList ?_ ?_⟩
    · rw [hs,hb,toList_append,toList_append,String.toList_singleton,
        toList_ofList,toList_ofList,append_assoc,singleton_append,
        cons_append]
    · rw [toList_ofList]
      exact fun hmem => hfront (mem_reverse.1 hmem)
  · exact .inl (rsplitOnce_of_toList hs h)

end

theorem head?_splitChars (c : Char) (l : List Char) :
    (splitChars c l).head?=some (l.takeWhile (·≠c)) := by
  induction l with
  | nil => rfl
  | cons x xs ih =>
    by_cases hx : x=c
    · rw [hx,splitChars_cons_eq,head?_cons,takeWhile_cons_of_neg (by simp)]
    · obtain ⟨part,parts,hparts,hcons⟩ := splitChars_cons_ne hx xs
      rw [hparts,head?_cons,Option.some.injEq] at ih
      rw [hcons,head?_cons,ih,takeWhile_cons_of_pos (by simpa using hx)]

theorem headD_split_of_not_mem {s : String} {c : Char} (h : c∉s.toList) (d : String) :
    (split s c).headD d=s := by
  have hwhole : s.toList.takeWhile (·≠c)=s.toList :=
    takeWhile_eq_self_iff.2 fun x hx => decide_eq_true fun heq => h (heq ▸ hx)
  rw [headD_eq_head?_getD,split,head?_map,head?_splitChars,hwhole,Option.map_some,
    Option.getD_some,ofList_toList]

theorem headD_split_of_toList {s a b : String} {c : Char}
    (hs : s.toList=a.toList++c::b.toList) (h : c∉a.toList) (d : String) :
    (split s c).headD d=a := by
  have hkeep : ∀ x∈a.toList,decide (x≠c)=true := fun x hx => decide_eq_true fun heq => h (heq ▸ hx)
  have hbefore : s.toList.takeWhile (·≠c)=a.toList := by
    rw [hs,takeWhile_append_of_pos hkeep,takeWhile_cons_of_neg (by simp),append_nil]
  rw [headD_eq_head?_getD,split,head?_map,head?_splitChars,hbefore,Option.map_some,
    Option.getD_some,ofList_toList]

theorem splitPatChars_append {p : Char} {ps l : List Char} (h : p∉l) (s : List Char) :
    splitPatChars (p::ps) (l++s) =(splitPatChars (p::ps) s).map fun r => (l++r.1,r.2) := by
  induction l with
  | nil =>
    rw [nil_append]
    cases splitPatChars (p::ps) s <;> rfl
  | cons c cs ih =>
    have hc : p≠c := fun heq => h (heq ▸ mem_cons_self)
    have hstrip : stripChars (p::ps) (c::(cs++s))=none := by
      rw [stripChars,if_neg hc]
    rw [cons_append,splitPatChars,hstrip]
    dsimp only
    rw [ih fun hmem => h (mem_cons_of_mem c hmem),Option.map_map]
    rfl

theorem splitPat_append {a : String} (h : ':' ∉ a.toList) (s : String) :
    splitPat (a++s) ":" = (splitPat s ":").map fun r => (a++r.1,r.2) := by
  have hchars : splitPatChars [':'] (a.toList++s.toList)=_ := splitPatChars_append h s.toList
  have hcolon : ":".toList=[':'] := rfl
  rw [splitPat,splitPat,toList_append,hcolon,hchars]
  cases splitPatChars [':'] s.toList with
  | none => rfl
  | some r =>
    simp only [Option.map_some,String.ofList_append,ofList_toList]

theorem splitPat_colon (s : String) : splitPat (":" ++ s) ":" = some ("",s) := by
  have hchars : splitPatChars [':'] (':' :: s.toList)=some ([],s.toList) := by
    rw [splitPatChars,stripChars,if_pos rfl,stripChars]
  have hcolon : ":".toList=[':'] := rfl
  rw [splitPat,toList_append,hcolon,singleton_append,hchars,Option.map_some,
    ofList_toList]

theorem splitPat_pair {a : String} (h : ':' ∉ a.toList) (b : String) :
    splitPat (a++(":" ++ b)) ":" = some (a,b) := by
  rw [splitPat_append h,splitPat_colon,Option.map_some,String.append_empty]

theorem splitPat_of_not_mem {s : String} (h : ':' ∉ s.toList) : splitPat s ":" = none := by
  have happend := splitPat_append h ""
  rwa [String.append_empty] at happend

theorem mem_trim {s : String} {c : Char} (hc : c∈s.toList) (hspace : isWhitespace c=false) :
    c∈(trim s).toList := by
  have hkeep {l : List Char} (hc : c∈l) : c∈l.dropWhile isWhitespace := by
    rw [← takeWhile_append_dropWhile (p := isWhitespace) (l := l)] at hc
    refine (mem_append.1 hc).resolve_left fun hmem => ?_
    have htrue := mem_takeWhile_imp hmem
    rw [hspace] at htrue
    exact nomatch htrue
  rw [trim,toList_ofList,dropEndWhile,mem_reverse]
  exact hkeep (mem_reverse.2 (hkeep hc))

end RustStr
