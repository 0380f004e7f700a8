import Mathlib.Data.List.Basic

namespace Intern

variable {α κ : Type} [DecidableEq α] [DecidableEq κ]

/-- A list of distinct positions with a hash index into it. -/
structure Table (α κ : Type) where
  items : List α
  index : κ → Option Nat

def Table.empty : Table α κ := ⟨[],fun _ => none⟩

variable (hash : α → κ)

def Table.push (x : α) (t : Table α κ) : Nat×Table α κ := (t.items.length,
    ⟨t.items++[x],fun k => if k=hash x then some t.items.length else t.index k⟩)

def Table.findOrCreate (x : α) (t : Table α κ) : Nat×Table α κ :=
  match t.index (hash x) with
  | some i => if t.items[i]?=some x then (i,t) else t.push hash x
  | none => t.push hash x

theorem findOrCreate_cases (x : α) (t : Table α κ) :
    ((t.findOrCreate hash x).2=t ∧ t.items[(t.findOrCreate hash x).1]?=some x) ∨
      ((t.findOrCreate hash x).2.items=t.items++[x] ∧
        (t.findOrCreate hash x).1=t.items.length) := by
  unfold Table.findOrCreate
  split
  · split_ifs with h
    · exact .inl ⟨rfl,h⟩
    · exact .inr ⟨rfl,rfl⟩
  · exact .inr ⟨rfl,rfl⟩

theorem findOrCreate_get (x : α) (t : Table α κ) :
    (t.findOrCreate hash x).2.items[(t.findOrCreate hash x).1]?=some x := by
  rcases findOrCreate_cases hash x t with ⟨h,hget⟩ | ⟨h,hi⟩
  · rw [h,hget]
  · rw [h,hi,List.getElem?_concat_length]

theorem findOrCreate_extends (x : α) (t : Table α κ) :
    ∃ new,(t.findOrCreate hash x).2.items=t.items++new ∧ new.length≤1 := by
  rcases findOrCreate_cases hash x t with ⟨h,-⟩ | ⟨h,-⟩
  · exact ⟨[],by simp [h],by simp⟩
  · exact ⟨[x],h,by simp⟩

end Intern
