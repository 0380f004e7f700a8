import Mathlib.Logic.Basic

/-! Computations that return a value or an error, or panic. -/

namespace Panicking

/-- `none` is a panic. -/
abbrev Outcome (ε α : Type) := ExceptT ε Option α

variable {ε α β : Type} (o : Option α)

def orPanic : Outcome ε α := ExceptT.mk (o.map Except.ok)

def fromExcept (x : Except ε α) : Outcome ε α := ExceptT.mk (some x)

/-- The computation ends with a value or an error. -/
def Returns (x : Outcome ε α) : Prop := x.run≠none

instance decidableReturns (x : Outcome ε α) : Decidable (Returns x) :=
  decidable_of_iff (x.run.isSome=true) Option.isSome_iff_ne_none

@[simp] theorem returns_pure (a : α) : Returns (pure a : Outcome ε α) := nofun

@[simp] theorem returns_throw (e : ε) : Returns (throw e : Outcome ε α) := nofun

@[simp] theorem returns_fromExcept (x : Except ε α) : Returns (fromExcept x) := nofun

@[simp] theorem orPanic_some (a : α) : (orPanic (some a) : Outcome ε α)=pure a := rfl

theorem orPanic_bind (a : α) (f : α → Outcome ε β) : orPanic (some a) >>= f=f a := rfl

@[simp] theorem returns_orPanic_iff : Returns (orPanic o : Outcome ε α) ↔ o≠none := by
  cases o with
  | none => exact iff_of_false (fun h => h rfl) (fun h => h rfl)
  | some a => exact iff_of_true nofun nofun

variable {x : Outcome ε α} {f : α → Outcome ε β}

theorem returns_bind_iff : Returns (x >>= f) ↔ Returns x ∧ ∀ a,x=pure a → Returns (f a) := by
  match x with
  | none => exact iff_of_false (fun h => h rfl) (fun h => h.1 rfl)
  | some (.error e) => exact iff_of_true nofun ⟨nofun,nofun⟩
  | some (.ok a) =>
    constructor
    · intro h
      refine ⟨nofun,fun b hb => ?_⟩
      cases hb
      exact h
    · intro h
      exact h.2 a rfl

theorem returns_bind_iff_left (hf : ∀ a,Returns (f a)) : Returns (x >>= f) ↔ Returns x := by
  rw [returns_bind_iff]
  exact ⟨fun h => h.1,fun h => ⟨h,fun a _ => hf a⟩⟩

theorem returns_orPanic_bind_iff {o : Option α} (hf : ∀ a,Returns (f a)) :
    Returns (orPanic o >>= f) ↔ o≠none := by
  rw [returns_bind_iff_left hf,returns_orPanic_iff]

def value? (x : Outcome ε α) : Option α := x.run.bind Except.toOption

def error? (x : Outcome ε α) : Option ε := x.run.bind fun
    | .error e => some e
    | .ok _ => none

theorem eq_throw_iff {e : ε} : x=throw e ↔ error? x=some e := by
  match x with
  | none => exact iff_of_false nofun nofun
  | some (.error d) =>
    constructor
    all_goals
      rintro ⟨⟩
      rfl
  | some (.ok a) => exact iff_of_false nofun nofun

@[simp] theorem value?_pure (a : α) : value? (pure a : Outcome ε α)=some a := rfl

@[simp] theorem value?_throw (e : ε) : value? (throw e : Outcome ε α)=none := rfl

@[simp] theorem value?_orPanic : value? (orPanic o : Outcome ε α)=o := by
  cases o <;> rfl

@[simp] theorem value?_bind (x : Outcome ε α) (f : α → Outcome ε β) :
    value? (x >>= f)=(value? x).bind fun a => value? (f a) := by
  match x with
  | none => rfl
  | some (.error e) => rfl
  | some (.ok a) => rfl

theorem value?_eq_some_iff {a : α} : value? x=some a ↔ x=pure a := by
  match x with
  | none => exact iff_of_false nofun nofun
  | some (.error e) => exact iff_of_false nofun nofun
  | some (.ok b) =>
    constructor
    all_goals
      intro h
      cases h
      rfl

/-- The computation ends, and with a value of `P` if it ends with a value. -/
def Ends (P : α → Prop) (x : Outcome ε α) : Prop := Returns x ∧ ∀ a,x=pure a → P a

theorem ends_pure {P : α → Prop} {a : α} (h : P a) : Ends P (pure a : Outcome ε α) := by
  refine ⟨returns_pure a,fun b hb => ?_⟩
  cases hb
  exact h

theorem ends_throw {P : α → Prop} (e : ε) : Ends P (throw e : Outcome ε α) :=
  ⟨returns_throw e,nofun⟩

theorem ends_bind {Q : α → Prop} {P : β → Prop}
    (hx : Ends Q x) (hf : ∀ a,Q a → Ends P (f a)) : Ends P (x >>= f) := by
  match x with
  | none => exact absurd rfl hx.1
  | some (.error e) => exact ends_throw e
  | some (.ok a) => exact hf a (hx.2 a rfl)

theorem ends_ite {P : α → Prop} {c : Prop} [Decidable c] {y : Outcome ε α}
    (hx : c → Ends P x) (hy : ¬c → Ends P y) : Ends P (if c then x else y) := by
  by_cases h : c
  · rw [if_pos h]
    exact hx h
  · rw [if_neg h]
    exact hy h

theorem ends_orPanic {P : α → Prop} {o : Option α} (hne : o≠none) (h : ∀ a,o=some a → P a) :
    Ends P (orPanic o : Outcome ε α) := by
  cases o with
  | none => exact absurd rfl hne
  | some a => exact ends_pure (h a rfl)

/-- Every error that the computation can end with is in `P`. -/
def ErrorsIn (P : ε → Prop) (x : Outcome ε α) : Prop := ∀ e,x=throw e → P e

variable {P : ε → Prop}

theorem errorsIn_pure (a : α) : ErrorsIn P (pure a : Outcome ε α) := nofun

theorem errorsIn_throw {e : ε} (h : P e) : ErrorsIn P (throw e : Outcome ε α) := by
  intro e' heq
  cases heq
  exact h

theorem errorsIn_orPanic : ErrorsIn P (orPanic o : Outcome ε α) := by
  cases o with
  | none => exact nofun
  | some a => exact errorsIn_pure a

theorem errorsIn_fromExcept {x : Except ε α} (h : ∀ e,x=.error e → P e) :
    ErrorsIn P (fromExcept x) := by
  intro e heq
  cases heq
  exact h e rfl

theorem errorsIn_bind (hx : ErrorsIn P x)
    (hf : ∀ a,x=pure a → ErrorsIn P (f a)) : ErrorsIn P (x >>= f) := by
  match x with
  | none => exact nofun
  | some (.error e) =>
    intro e' heq
    cases heq
    exact hx e rfl
  | some (.ok a) => exact hf a rfl

end Panicking
