import Mathlib.Data.List.Forall2

namespace Fallible

variable {ε α β : Type}

theorem bind_ok_iff {x : Except ε α} {f : α → Except ε β} {b : β} :
    x >>= f=.ok b ↔ ∃ a,x=.ok a ∧ f a=.ok b := by
  cases x with
  | error e => simp [bind,Except.bind]
  | ok a => simp [bind,Except.bind]

theorem map_ok_iff {x : Except ε α} {f : α → β} {b : β} : f <$> x=.ok b ↔ ∃ a,x=.ok a ∧ f a=b := by
  cases x with
  | error e => simp [Functor.map,Except.map]
  | ok a => simp [Functor.map,Except.map]

@[simp] theorem ok_bind (a : α) (f : α → Except ε β) : (Except.ok a >>= f)=f a := rfl

@[simp] theorem error_bind (e : ε) (f : α → Except ε β) :
    (Except.error e >>= f)=Except.error e := rfl

theorem exists_ok_of_map {x : Except ε α} {f : α → β} {b : β}
    (h : x.toOption.map f=some b) : ∃ a,x=.ok a ∧ f a=b := by
  cases x with
  | error e => cases h
  | ok a => exact ⟨a,rfl,by simpa [Except.toOption] using h⟩

section Decide

variable (P : α → Prop) [DecidablePred P]

theorem exists_ok_iff (x : Except ε α) :
    x.toOption.any (fun a => decide (P a))=true ↔ ∃ a,x=.ok a ∧ P a := by
  cases x with
  | error e => simp [Except.toOption]
  | ok a => simp [Except.toOption]

/-- What is asked of the value of a computation is decided by running it. -/
instance decidableExistsOk (x : Except ε α) : Decidable (∃ a,x=.ok a ∧ P a) :=
  decidable_of_iff _ (exists_ok_iff P x)

instance decidableExistsSome (x : Option α) : Decidable (∃ a,x=some a ∧ P a) :=
  decidable_of_iff (x.any (fun a => decide (P a))=true) (by cases x <;> simp)

end Decide

theorem seq_ok_iff {x : Except ε Unit} {f : Unit → Except ε β} {b : β} :
    x >>= f=.ok b ↔ x=.ok () ∧ f ()=.ok b := by
  rw [bind_ok_iff]
  constructor
  · rintro ⟨_,hx,hf⟩
    exact ⟨hx,hf⟩
  · rintro ⟨hx,hf⟩
    exact ⟨(),hx,hf⟩

def ensure (b : Bool) (e : ε) : Except ε Unit :=
  if b then .ok () else .error e

theorem ensure_ok_iff {b : Bool} {e : ε} : ensure b e=.ok () ↔ b=true := by
  cases b <;> simp [ensure]

def forEach (f : α → Except ε Unit) : List α → Except ε Unit
  | [] => .ok ()
  | a::as => do
    f a
    forEach f as

theorem forEach_ok_iff {f : α → Except ε Unit} {as : List α} :
    forEach f as=.ok () ↔ ∀ a∈as,f a=.ok () := by
  induction as with
  | nil => exact iff_of_true rfl (List.forall_mem_nil _)
  | cons a as ih => rw [forEach,seq_ok_iff,ih,List.forall_mem_cons]

end Fallible
