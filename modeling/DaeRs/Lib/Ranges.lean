import Mathlib.Data.List.Sort
import Mathlib.Order.MinMax

namespace Ranges

open List

/-- Bisection of `[lo, hi)` for the end of the initial segment where `p` holds. -/
def bisect (p : Nat → Bool) : Nat → Nat → Nat → Nat
  | 0,lo,_ => lo
  | fuel+1,lo,hi =>
    if lo<hi then
      let mid := (lo+hi)/2
      if p mid then bisect p fuel (mid+1) hi else bisect p fuel lo mid
    else lo

theorem bisect_spec (p : Nat → Bool) (hp : ∀ i j,i≤j → p j=true → p i=true)
    (fuel lo hi : Nat) (hfuel : hi-lo≤fuel) (hle : lo≤hi)
    (hlow : ∀ j,j<lo → p j=true) (hhigh : ∀ j,hi≤j → p j=false) :
    (∀ j,j<bisect p fuel lo hi → p j=true) ∧ ∀ j,bisect p fuel lo hi≤j → p j=false := by
  induction fuel generalizing lo hi with
  | zero =>
    have heq : lo=hi := by omega
    subst heq
    exact ⟨hlow,hhigh⟩
  | succ fuel ih =>
    rw [bisect]
    by_cases hlt : lo<hi
    · rw [if_pos hlt]
      have hmid : lo≤(lo+hi)/2 ∧ (lo+hi)/2<hi := by omega
      cases hm : p ((lo+hi)/2) with
      | true =>
        simp only [hm,if_true]
        apply ih ((lo+hi)/2+1) hi (by omega) (by omega) _ hhigh
        intro j hj
        exact hp j _ (by omega) hm
      | false =>
        simp only [hm,Bool.false_eq_true,if_false]
        apply ih lo ((lo+hi)/2) (by omega) (by omega) hlow
        intro j hj
        by_contra hne
        have := hp _ j hj (eq_true_of_ne_false hne)
        rw [hm] at this
        cases this
    · rw [if_neg hlt]
      have heq : lo=hi := by omega
      subst heq
      exact ⟨hlow,hhigh⟩

variable {T : Type} [LinearOrder T]

def inRange (x : T) (r : T×T) : Bool := decide (r.1≤x) && decide (x ≤ r.2)

def mergeStep (out : List (T×T)) (r : T×T) : List (T×T) :=
  match out with
  | [] => [r]
  | last::rest =>
    if r.1≤last.2 then
      (if r.2 > last.2 then (last.1,r.2) else last)::rest
    else r::last::rest

def mergeRanges (ranges : List (T×T)) : List (T×T) :=
  ((ranges.insertionSort fun a b => a.1≤b.1).foldl mergeStep []).reverse

def containsInRanges (ranges : List (T×T)) (x : T) : Bool :=
  let lo := bisect (fun i => ranges[i]?.any fun r => decide (r.1≤x)) ranges.length 0 ranges.length
  decide (0<lo) && ranges[lo-1]?.any fun r => decide (x ≤ r.2)

/-- Sorted, non-empty and pairwise disjoint ranges. -/
structure Separated (l : List (T×T)) : Prop where
  nonempty : ∀ r∈l,r.1 ≤ r.2
  sorted : l.Pairwise fun a b => a.2<b.1

variable {l : List (T×T)}

theorem Separated.starts (h : Separated l) : l.Pairwise fun a b => a.1<b.1 := by
  have hs := h.sorted
  rw [pairwise_iff_getElem] at hs ⊢
  intro i j hi hj hij
  exact lt_of_le_of_lt (h.nonempty _ (getElem_mem hi)) (hs i j hi hj hij)

theorem containsInRanges_eq_any (h : Separated l) (x : T) :
    containsInRanges l x=l.any (inRange x) := by
  have hstart := pairwise_iff_getElem.mp h.starts
  have hsep := pairwise_iff_getElem.mp h.sorted
  let p : Nat → Bool := fun i => l[i]?.any fun r => decide (r.1≤x)
  have hp : ∀ i (hi : i<l.length),p i=decide (l[i].1≤x) := by
    intro i hi
    simp [p,getElem?_eq_getElem hi]
  have hmono : ∀ i j,i≤j → p j=true → p i=true := by
    intro i j hij hj
    have hjl : j<l.length := by
      by_contra hge
      have hnone : l[j]?=none := getElem?_eq_none (by omega)
      simp [p,hnone] at hj
    rcases Nat.eq_or_lt_of_le hij with rfl | hlt
    · exact hj
    · rw [hp j hjl,decide_eq_true_iff] at hj
      rw [hp i (by omega),decide_eq_true_iff]
      exact (hstart i j (by omega) hjl hlt).le.trans hj
  have hend : ∀ j,l.length≤j → p j=false := by
    intro j hj
    simp [p,getElem?_eq_none hj]
  obtain ⟨hlow,hhigh⟩ := bisect_spec p hmono l.length 0 l.length (by omega) (by omega)
    (fun j hj => absurd hj (by omega)) hend
  have hunfold : containsInRanges l x=(decide (0<bisect p l.length 0 l.length) &&
      l[bisect p l.length 0 l.length-1]?.any fun r => decide (x ≤ r.2)) := rfl
  rw [hunfold]
  generalize bisect p l.length 0 l.length=k at hlow hhigh
  have hk : k≤l.length := by
    by_contra hgt
    have := hlow l.length (by omega)
    rw [hend l.length (by omega)] at this
    cases this
  apply Bool.eq_iff_iff.mpr
  constructor
  · intro hx
    rw [Bool.and_eq_true,decide_eq_true_iff] at hx
    obtain ⟨hpos,hx⟩ := hx
    have hkl : k-1<l.length := by omega
    rw [getElem?_eq_getElem hkl,Option.any_some,decide_eq_true_iff] at hx
    have hle := hlow (k-1) (by omega)
    rw [hp _ hkl,decide_eq_true_iff] at hle
    exact any_eq_true.mpr ⟨l[k-1],getElem_mem hkl,by simp [inRange,hle,hx]⟩
  · intro hx
    obtain ⟨r,hr,hin⟩ := any_eq_true.mp hx
    obtain ⟨i,hi,rfl⟩ := getElem_of_mem hr
    simp only [inRange,Bool.and_eq_true,decide_eq_true_iff] at hin
    have hpi : p i=true := by
      rw [hp i hi,decide_eq_true_iff]
      exact hin.1
    have hik : i<k := by
      by_contra hge
      rw [hhigh i (by omega)] at hpi
      cases hpi
    have hlast : i=k-1 := by
      by_contra hne
      have hkl : k-1<l.length := by omega
      have hle := hlow (k-1) (by omega)
      rw [hp _ hkl,decide_eq_true_iff] at hle
      exact absurd (hin.2.trans_lt (hsep i (k-1) hi hkl (by omega))) (not_lt.mpr hle)
    subst hlast
    simp [getElem?_eq_getElem hi,hin.2]
    omega

/-- What the merge has produced, last range first, from the ranges `done`. -/
structure Merged (out done : List (T×T)) : Prop where
  nonempty : ∀ r∈out,r.1 ≤ r.2
  sorted : out.Pairwise fun a b => b.2<a.1
  covers : ∀ x,(∃ r∈out,r.1≤x ∧ x ≤ r.2) ↔ ∃ r∈done,r.1≤x ∧ x ≤ r.2

theorem mergeStep_starts {out : List (T×T)} {r q : T×T} (hq : q∈mergeStep out r) :
    q.1=r.1 ∨ ∃ p∈out,q.1=p.1 := by
  cases out with
  | nil =>
    simp only [mergeStep,mem_singleton] at hq
    exact .inl (by rw [hq])
  | cons last rest =>
    simp only [mergeStep] at hq
    split_ifs at hq
    · rcases mem_cons.mp hq with rfl | hq
      · exact .inr ⟨last,by simp,rfl⟩
      · exact .inr ⟨q,by simp [hq],rfl⟩
    · exact .inr ⟨q,by simpa using hq,rfl⟩
    · rcases mem_cons.mp hq with rfl | hq
      · exact .inl rfl
      · exact .inr ⟨q,hq,rfl⟩

theorem mergeStep_merged {out done : List (T×T)} {r : T×T} (h : Merged out done)
    (hr : r.1 ≤ r.2) (hlast : ∀ q∈out,q.1 ≤ r.1) :
    Merged (mergeStep out r) (done++[r]) := by
  have hdone : ∀ x,(∃ q∈done++[r],q.1≤x ∧ x≤q.2) ↔ (∃ q∈out,q.1≤x ∧ x≤q.2) ∨ (r.1≤x ∧ x ≤ r.2) := by
    intro x
    rw [h.covers x]
    simp only [mem_append,mem_singleton,or_and_right,exists_or,exists_eq_left]
  cases out with
  | nil =>
    refine ⟨by simpa [mergeStep] using hr,by simp [mergeStep],fun x => ?_⟩
    rw [hdone x]
    simp [mergeStep]
  | cons last rest =>
    have hl : last.1 ≤ r.1 := hlast last (by simp)
    have hne := h.nonempty last (by simp)
    obtain ⟨hhead,htail⟩ := pairwise_cons.mp h.sorted
    by_cases hjoin : r.1≤last.2
    · -- the range starts inside the last one, which grows to the larger end
      have hstep : mergeStep (last::rest) r=(last.1,max last.2 r.2)::rest := by
        rcases lt_or_ge last.2 r.2 with hgt | hge
        · simp [mergeStep,hjoin,hgt,max_eq_right hgt.le]
        · simp [mergeStep,hjoin,not_lt.mpr hge,max_eq_left hge]
      rw [hstep]
      refine ⟨?_,pairwise_cons.mpr ⟨hhead,htail⟩,fun x => ?_⟩
      · intro q hq
        rcases mem_cons.mp hq with rfl | hq
        · exact hne.trans (le_max_left _ _)
        · exact h.nonempty q (by simp [hq])
      · rw [hdone x]
        simp only [mem_cons,exists_eq_or_imp,le_max_iff]
        constructor
        · rintro (⟨h1,h2 | h2⟩ | hrest)
          · exact .inl (.inl ⟨h1,h2⟩)
          · rcases le_total x last.2 with hx | hx
            · exact .inl (.inl ⟨h1,hx⟩)
            · exact .inr ⟨hjoin.trans hx,h2⟩
          · exact .inl (.inr hrest)
        · rintro ((⟨h1,h2⟩ | hrest) | ⟨h1,h2⟩)
          · exact .inl ⟨h1,.inl h2⟩
          · exact .inr hrest
          · exact .inl ⟨hl.trans h1,.inr h2⟩
    · have hstep : mergeStep (last::rest) r=r::last::rest := by
        simp [mergeStep,hjoin]
      rw [hstep]
      refine ⟨?_,pairwise_cons.mpr ⟨?_,h.sorted⟩,fun x => ?_⟩
      · intro q hq
        rcases mem_cons.mp hq with rfl | hq
        · exact hr
        · exact h.nonempty q hq
      · intro q hq
        rcases mem_cons.mp hq with rfl | hq
        · exact not_le.mp hjoin
        · exact (hhead q hq).trans_le (hne.trans (not_le.mp hjoin).le)
      · rw [hdone x,or_comm]
        simp only [mem_cons,exists_eq_or_imp]

theorem foldl_merged {l out done : List (T×T)} (h : Merged out done)
    (hl : ∀ r∈l,r.1 ≤ r.2) (hsorted : l.Pairwise fun a b => a.1≤b.1)
    (hout : ∀ q∈out,∀ r∈l,q.1 ≤ r.1) : Merged (l.foldl mergeStep out) (done++l) := by
  induction l generalizing out done with
  | nil => simpa using h
  | cons r rest ih =>
    obtain ⟨hr,hrest⟩ := pairwise_cons.mp hsorted
    have hstep := mergeStep_merged h (hl r (by simp)) fun q hq => hout q hq r (by simp)
    have hnext := ih hstep (fun q hq => hl q (by simp [hq])) hrest (by
      intro q hq s hs
      rcases mergeStep_starts hq with heq | ⟨p,hp,heq⟩
      · rw [heq]
        exact hr s hs
      · rw [heq]
        exact hout p hp s (by simp [hs]))
    simpa using hnext

theorem sweep_spec {l s : List (T×T)} (hl : ∀ r∈l,r.1 ≤ r.2) (hperm : s.Perm l)
    (hs : s.Pairwise fun a b => a.1≤b.1) :
    Separated (s.foldl mergeStep []).reverse ∧ ∀ x,
      (∃ r∈(s.foldl mergeStep []).reverse,r.1≤x ∧ x ≤ r.2) ↔ ∃ r∈l,r.1≤x ∧ x ≤ r.2 := by
  have hstart : Merged ([] : List (T×T)) [] := ⟨by simp,by simp,by simp⟩
  have hm := foldl_merged hstart (fun r hr => hl r (hperm.mem_iff.mp hr)) hs (by simp)
  refine ⟨⟨fun r hr => hm.nonempty r (by simpa using hr),?_⟩,fun x => ?_⟩
  · rw [pairwise_reverse]
    exact hm.sorted
  · have hc := hm.covers x
    simp only [mem_reverse]
    rw [hc]
    simp only [nil_append,hperm.mem_iff]

theorem mergeRanges_spec (hl : ∀ r∈l,r.1 ≤ r.2) : Separated (mergeRanges l) ∧
      ∀ x,(∃ r∈mergeRanges l,r.1≤x ∧ x ≤ r.2) ↔ ∃ r∈l,r.1≤x ∧ x ≤ r.2 :=
  sweep_spec hl (perm_insertionSort _ l) (pairwise_insertionSort _ l)

theorem containsInRanges_mergeRanges (hl : ∀ r∈l,r.1 ≤ r.2) (x : T) :
    containsInRanges (mergeRanges l) x=true ↔ ∃ r∈l,r.1≤x ∧ x ≤ r.2 := by
  obtain ⟨hsep,hcov⟩ := mergeRanges_spec hl
  rw [containsInRanges_eq_any hsep,any_eq_true,← hcov x]
  simp [inRange]

end Ranges
