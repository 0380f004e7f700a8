import DaeRs.Lib.Octets

/-! Parsers over a buffer whose reads are checked. A parser can give up, and it can fail for good by
a read outside the buffer or by running out of fuel; `Sound` says that the latter never happens. -/

namespace Checked

open Octets

inductive Fault where
  | outOfBounds
  | endless
  deriving DecidableEq

abbrev Parse := OptionT (Except Fault)

def fault {α : Type} (e : Fault) : Parse α := OptionT.mk (.error e)

def bytesAt (buf : List UInt8) (i k : Nat) : Parse (List UInt8) :=
  match load buf i k with
  | some bs => pure bs
  | none => fault .outOfBounds

def numAt (buf : List UInt8) (i k : Nat) : Parse Nat := ofBE <$> bytesAt buf i k

/-- The parser ends without a fault, and what it returns, if anything, satisfies `P`. -/
def Sound {α : Type} (p : Parse α) (P : α → Prop) : Prop :=
  ∃ o : Option α,p.run=.ok o ∧ ∀ a,o=some a → P a

def Returns {α : Type} (p : Parse α) (a : α) : Prop := p.run=.ok (some a)

section Rules

variable {α β : Type} {p : Parse α} {P : α → Prop} {Q : β → Prop} {buf : List UInt8} {i k : Nat}

theorem sound_pure {a : α} (h : P a) : Sound (pure a) P :=
  ⟨some a,rfl,fun _ ha => Option.some.inj ha ▸ h⟩

theorem Sound.mono {P' : α → Prop} (hp : Sound p P) (h : ∀ a,P a → P' a) : Sound p P' := by
  obtain ⟨o,ho,hP⟩ := hp
  exact ⟨o,ho,fun a ha => h a (hP a ha)⟩

theorem sound_failure : Sound (failure : Parse α) P := ⟨none,rfl,fun _ ha => by cases ha⟩

variable {f : α → Parse β}

theorem sound_bind (hp : Sound p P) (hf : ∀ a,P a → Sound (f a) Q) : Sound (p >>= f) Q := by
  obtain ⟨o,ho,hP⟩ := hp
  cases o with
  | none =>
    refine ⟨none,?_,fun _ ha => by cases ha⟩
    rw [OptionT.run_bind,ho]
    rfl
  | some a =>
    obtain ⟨o',ho',hQ⟩ := hf a (hP a rfl)
    refine ⟨o',?_,hQ⟩
    rw [OptionT.run_bind,ho]
    exact ho'

theorem returns_pure {a b : α} : Returns (pure a) b ↔ a=b := by
  constructor
  · intro h
    exact Option.some.inj (Except.ok.inj h)
  · rintro rfl
    rfl

theorem not_returns_failure {a : α} : ¬Returns (failure : Parse α) a := by
  intro h
  cases Except.ok.inj h

theorem returns_bind {b : β} : Returns (p >>= f) b ↔ ∃ a,Returns p a ∧ Returns (f a) b := by
  unfold Returns
  rw [OptionT.run_bind]
  constructor
  · intro h
    cases hp : p.run with
    | error e =>
      rw [hp] at h
      cases h
    | ok o =>
      cases o with
      | none =>
        rw [hp] at h
        cases h
      | some a =>
        rw [hp] at h
        exact ⟨a,rfl,h⟩
  · rintro ⟨a,ha,hb⟩
    rw [ha]
    exact hb

theorem returns_ite_failure {c : Prop} [Decidable c] {a : α} :
    Returns (if c then failure else p) a ↔ ¬c ∧ Returns p a := by
  by_cases hc : c
  · rw [if_pos hc]
    exact ⟨fun h => absurd h not_returns_failure,fun h => absurd hc h.1⟩
  · rw [if_neg hc]
    exact ⟨fun h => ⟨hc,h⟩,fun h => h.2⟩

theorem Returns.bind_eq {a : α} (h : Returns p a) : p >>= f=f a := by
  apply OptionT.ext
  rw [OptionT.run_bind,h]
  rfl

theorem Returns.unique {a b : α} (ha : Returns p a) (hb : Returns p b) : a=b :=
  Option.some.inj (Except.ok.inj (ha.symm.trans hb))

theorem Sound.returns {a : α} (hp : Sound p P) (ha : Returns p a) : P a := by
  obtain ⟨o,ho,hP⟩ := hp
  exact hP a (Except.ok.inj (ho.symm.trans ha))

theorem sound_ite {c : Prop} [Decidable c] {q : Parse α} (hp : c → Sound p P)
    (hq : ¬c → Sound q P) : Sound (if c then p else q) P := by
  by_cases hc : c
  · rw [if_pos hc]
    exact hp hc
  · rw [if_neg hc]
    exact hq hc

theorem returns_bytesAt {bs : List UInt8} :
    Returns (bytesAt buf i k) bs ↔ i+k≤buf.length ∧ slice buf i k=bs := by
  rw [← load_eq_some_iff,bytesAt]
  cases load buf i k with
  | none =>
    constructor
    all_goals
      intro h
      cases h
  | some bs' => rw [returns_pure,Option.some_inj]

theorem sound_bytesAt (h : i+k≤buf.length) : Sound (bytesAt buf i k) fun _ => True := by
  rw [bytesAt,load,if_pos h]
  exact sound_pure trivial

theorem sound_numAt (h : i+k≤buf.length) : Sound (numAt buf i k) fun _ => True := by
  rw [numAt,map_eq_pure_bind]
  exact sound_bind (sound_bytesAt h) fun _ _ => sound_pure trivial

theorem returns_numAt (buf : List UInt8) (i k : Nat) (h : i+k≤buf.length) :
    ∃ n,Returns (numAt buf i k) n := by
  refine ⟨ofBE (slice buf i k),?_⟩
  rw [numAt,map_eq_pure_bind,(returns_bytesAt.2 ⟨h,rfl⟩).bind_eq]
  rfl

end Rules

end Checked
