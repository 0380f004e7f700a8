import Mathlib.Data.List.Basic

/-! First match over a list, and when two tests, or two readings, come to the same action. -/

namespace FirstMatch

variable {α β : Type} (act : α → β)

def firstOf (p : α → Bool) : List α → β → β
  | [],d => d
  | a::as,d => if p a then act a else firstOf p as d

theorem firstOf_cons (p : α → Bool) (a : α) (as : List α) (d : β) :
    firstOf act p (a::as) d=if p a then act a else firstOf act p as d := rfl

theorem forall_split_head {p q : α → Bool} {b : α} {bs : List α}
    (hb : ¬(p b=false ∧ q b=false)) (C : α → List α → Prop) :
    (∀ pre a post,b::bs=pre++a::post → (∀ x∈pre,p x=false ∧ q x=false) →
      C a post) ↔ C b bs := by
  constructor
  · intro h
    exact h [] b bs rfl (by simp)
  · intro h pre a post hsplit hpre
    cases pre with
    | nil =>
      obtain ⟨rfl,rfl⟩ := List.cons.inj hsplit
      exact h
    | cons x pre =>
      obtain ⟨rfl,-⟩ := List.cons.inj hsplit
      exact absurd (hpre b List.mem_cons_self) hb

/-- Two tests pick the same action exactly when the first item they disagree on, if none passes
before it, has the action that the other test picks after it. -/
theorem firstOf_eq_iff (p q : α → Bool) (l : List α) (d : β) : firstOf act p l d=firstOf act q l d ↔
      ∀ pre a post,l=pre++a::post → (∀ x∈pre,p x=false ∧ q x=false) → p a≠q a →
        act a=firstOf act (if q a then p else q) post d := by
  induction l with
  | nil => simp [firstOf]
  | cons b bs ih =>
    rw [firstOf_cons,firstOf_cons]
    cases hp : p b <;> cases hq : q b
    · -- neither test passes here: the split lies in the tail
      simp only [Bool.false_eq_true,if_false]
      rw [ih]
      constructor
      · intro h pre a post hsplit hpre hne
        cases pre with
        | nil =>
          obtain ⟨rfl,rfl⟩ := List.cons.inj hsplit
          exact absurd (hp.trans hq.symm) hne
        | cons x pre =>
          obtain ⟨rfl,rfl⟩ := List.cons.inj hsplit
          exact h pre a post rfl (fun y hy => hpre y (List.mem_cons_of_mem _ hy)) hne
      · intro h pre a post hsplit hpre hne
        refine h (b::pre) a post (by rw [hsplit,List.cons_append]) ?_ hne
        intro y hy
        rcases List.mem_cons.mp hy with rfl | hy
        · exact ⟨hp,hq⟩
        · exact hpre y hy
    · rw [forall_split_head (by simp [hq]) fun a post =>
        p a≠q a → act a=firstOf act (if q a then p else q) post d]
      simp [hp,hq,eq_comm]
    all_goals
      rw [forall_split_head (by simp [hp]) fun a post =>
        p a≠q a → act a=firstOf act (if q a then p else q) post d]
      simp [hp,hq]

section Readings

variable {σ τ γ δ : Type}

/-- The list is read item by item; an item changes the state or ends the reading. -/
def read (step : σ → α → σ ⊕ β) : σ → List α → σ ⊕ β
  | s,[] => .inl s
  | s,a::as =>
    match step s a with
    | .inl s' => read step s' as
    | .inr b => .inr b

variable {f : σ → α → σ ⊕ β} {g : τ → α → τ ⊕ γ} {s s' : σ} {t t' : τ} {a : α} {as : List α}

variable (f g) (F : σ ⊕ β → δ) (G : τ ⊕ γ → δ)

variable {f g F G}

end Readings

end FirstMatch
