import Mathlib.Order.Defs.LinearOrder

/-! Rust's `binary_search` of a slice: it finds what a sorted slice holds. -/

namespace RustVec

open List

variable {α : Type} [LE α]

section Halves

variable [Std.IsLinearOrder α] {x m : α} {l r : List α} (h : (l++m::r).Pairwise (· ≤ ·))
include h

theorem mem_upper_half (hm : m≤x) : x∈l++m::r ↔ x∈m::r := by
  refine ⟨fun hx => (mem_append.1 hx).elim (fun hl => ?_) id,mem_append_right l⟩
  have hle : x ≤ m := (pairwise_append.1 h).2.2 x hl m mem_cons_self
  rw [Std.le_antisymm hle hm]
  exact mem_cons_self

theorem mem_lower_half (hm : ¬m≤x) : x∈l++m::r ↔ x∈l := by
  refine ⟨fun hx => (mem_append.1 hx).resolve_right fun hr => hm ?_,mem_append_left _⟩
  rcases mem_cons.1 hr with rfl | hr
  · exact Std.le_refl x
  · exact rel_of_pairwise_cons (pairwise_append.1 h).2.1 hr

end Halves

variable [DecidableLE α]

/-- The elements that are still in question are halved until one is left. -/
def binarySearchLoop (x : α) : Nat → List α → Option α
  | 0,window => window.head?
  | fuel+1,window =>
    let half := window.length/2
    if window.length≤1 then window.head?
    else if window[half]?.any (· ≤ x) then binarySearchLoop x fuel (window.drop half)
    else binarySearchLoop x fuel (window.take (window.length-half))

/-- Whether `binary_search` is `Ok`. -/
def binarySearch [DecidableEq α] (l : List α) (x : α) : Bool :=
  binarySearchLoop x l.length l==some x

variable [Std.IsLinearOrder α] {x : α} {l : List α} (h : l.Pairwise (· ≤ ·))
include h

theorem binarySearchLoop_eq_some_iff {fuel : Nat} (hfuel : l.length≤fuel+1) :
    binarySearchLoop x fuel l=some x ↔ x∈l := by
  have hone {l : List α} (hl : l.length≤1) : l.head?=some x ↔ x∈l := by
    match l,hl with
    | [],_ => simp
    | [a],_ => simp [eq_comm]
  induction fuel generalizing l with
  | zero => exact hone hfuel
  | succ fuel ih =>
    rw [binarySearchLoop]
    by_cases hl : l.length≤1
    · rw [if_pos hl]
      exact hone hl
    have hhalf : l.length/2 < l.length := by omega
    have hsplit : l=l.take (l.length/2)++l[l.length/2]::l.drop (l.length/2+1) := by
      rw [getElem_cons_drop,take_append_drop]
    have hsorted := h
    rw [hsplit] at hsorted
    simp only [hl,if_false,getElem?_eq_getElem hhalf,Option.any_some,decide_eq_true_eq]
    split_ifs with hm
    · have hlen : (l.drop (l.length/2)).length≤fuel+1 := by rw [length_drop]; omega
      have hupper := mem_upper_half hsorted hm
      rw [← hsplit,getElem_cons_drop] at hupper
      exact (ih (h.sublist (drop_sublist _ _)) hlen).trans hupper.symm
    · have hlen : (l.take (l.length-l.length/2)).length≤fuel+1 := by rw [length_take]; omega
      have hlower := mem_lower_half hsorted hm
      rw [← hsplit] at hlower
      refine (ih (h.sublist (take_sublist _ _)) hlen).trans ⟨fun hx => take_subset _ _ hx,?_⟩
      -- what is left is at least the lower half
      have hle : l.length/2≤l.length-l.length/2 := by omega
      exact fun hx => take_subset_take_left l hle (hlower.1 hx)

theorem binarySearch_iff [DecidableEq α] : binarySearch l x=true ↔ x∈l := by
  rw [binarySearch,beq_iff_eq,binarySearchLoop_eq_some_iff h (Nat.le_succ _)]

end RustVec
