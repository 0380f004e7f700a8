import Mathlib.Data.List.Basic

/-! A one-way channel with a first-in-first-out store between a source and a destination. -/

/-- What the source has given (`produced`), the part that nobody has taken, what was taken and not
delivered, and what was delivered; nothing is lost, doubled or moved. -/
structure Conduit (α : Type) where
  produced : List α
  ended : Bool
  rest : List α
  inside : List α
  delivered : List α
  shut : Bool
  in_order : delivered++inside++rest=produced

namespace Conduit

variable {α : Type}

def empty : Conduit α := ⟨[],false,[],[],[],false,rfl⟩

variable (as : List α) (c : Conduit α)

def produce : Conduit α :=
  if c.ended then c
  else { c with
    produced := c.produced++as
    rest := c.rest++as
    in_order := by rw [← List.append_assoc,c.in_order] }

def close : Conduit α := { c with ended := true }

def take (n : Nat) (c : Conduit α) : Conduit α := { c with
    rest := c.rest.drop n
    inside := c.inside++c.rest.take n
    in_order := by
      rw [List.append_assoc,List.append_assoc,List.take_append_drop,← List.append_assoc,
        c.in_order] }

def give (n : Nat) (c : Conduit α) : Conduit α := { c with
    inside := c.inside.drop n
    delivered := c.delivered++c.inside.take n
    in_order := by rw [List.append_assoc c.delivered,List.take_append_drop,c.in_order] }

def shutdown : Conduit α := { c with shut := true }

/-- All that the source gave before its end was delivered. -/
structure Complete (c : Conduit α) : Prop where
  ended : c.ended=true
  delivered : c.delivered=c.produced

theorem complete_of_empty {c : Conduit α} (hended : c.ended=true) (hinside : c.inside=[])
    (hrest : c.rest=[]) : c.Complete := by
  refine ⟨hended,?_⟩
  rw [← c.in_order,hinside,hrest,List.append_nil,List.append_nil]

theorem Complete.produce {c : Conduit α} (h : c.Complete) (as : List α) : c.produce as=c :=
  if_pos h.ended

theorem Complete.close {c : Conduit α} (h : c.Complete) : c.close.Complete := ⟨rfl,h.delivered⟩

@[simp] theorem produce_inside : (c.produce as).inside=c.inside := by
  unfold Conduit.produce
  split_ifs <;> rfl

@[simp] theorem produce_delivered : (c.produce as).delivered=c.delivered := by
  unfold Conduit.produce
  split_ifs <;> rfl

@[simp] theorem produce_shut : (c.produce as).shut=c.shut := by
  unfold Conduit.produce
  split_ifs <;> rfl

end Conduit
