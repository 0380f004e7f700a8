import Mathlib.Logic.Basic

/-! Runs of a machine that takes one event after the other, and what holds at every step of them. -/

namespace Runs

variable {σ ε : Type} (step : σ → ε → σ)

def run (s : σ) (es : List ε) : σ := es.foldl step s

/-- `P` holds of every event of a run and the state that it meets. -/
def Along (P : σ → ε → Prop) : σ → List ε → Prop
  | _,[] => True
  | s,e::es => P s e ∧ Along P (step s e) es

instance Along.decidable (P : σ → ε → Prop) [∀ s e,Decidable (P s e)] :
    ∀ s es,Decidable (Along step P s es)
  | _,[] => isTrue trivial
  | s,e::es =>
    have := Along.decidable P (step s e) es
    inferInstanceAs (Decidable (P s e ∧ Along step P (step s e) es))

variable {step} {P Q : σ → ε → Prop} {Inv : σ → Prop}

theorem run_append (s : σ) (es fs : List ε) :
    run step s (es++fs)=run step (run step s es) fs :=
  List.foldl_append

theorem along_true (s : σ) (es : List ε) : Along step (fun _ _ => True) s es := by
  induction es generalizing s with
  | nil => trivial
  | cons e es ih => exact ⟨trivial,ih (step s e)⟩

variable {s : σ}

theorem run_invariant (hstep : ∀ s e,Inv s → Inv (step s e)) (hs : Inv s) (es : List ε) :
    Inv (run step s es) := by
  induction es generalizing s with
  | nil => exact hs
  | cons e es ih => exact ih (hstep s e hs)

variable {es : List ε}

theorem Along.invariant (hstep : ∀ s e,Inv s → P s e → Inv (step s e))
    (hs : Inv s) (hP : Along step P s es) : Inv (run step s es) := by
  induction es generalizing s with
  | nil => exact hs
  | cons e es ih => exact ih (hstep s e hs hP.1) hP.2

/-- Two conditions that agree where the invariant holds agree along a run, if a step under one of
them keeps the invariant. -/
theorem along_iff_along (Inv : σ → Prop) (hiff : ∀ e∈es,∀ s,Inv s → (P s e ↔ Q s e))
    (hstep : ∀ e∈es,∀ s,Inv s → Q s e → Inv (step s e)) (hs : Inv s) :
    Along step P s es ↔ Along step Q s es := by
  induction es generalizing s with
  | nil => exact Iff.rfl
  | cons e es ih =>
    have hhead := hiff e List.mem_cons_self s hs
    have hkept := hstep e List.mem_cons_self s hs
    have htail (hQ : Q s e) := ih (fun e' he' => hiff e' (List.mem_cons_of_mem _ he'))
      (fun e' he' => hstep e' (List.mem_cons_of_mem _ he')) (hkept hQ)
    constructor
    · intro h
      have hQ := hhead.mp h.1
      exact ⟨hQ,(htail hQ).mp h.2⟩
    · intro h
      exact ⟨hhead.mpr h.1,(htail h.1).mpr h.2⟩

theorem along_concat {e : ε} :
    Along step P s (es++[e]) ↔ Along step P s es ∧ P (run step s es) e := by
  induction es generalizing s with
  | nil => exact and_comm
  | cons d es ih =>
    rw [List.cons_append,Along,Along,ih,and_assoc]
    rfl

theorem Along.last {e : ε} (h : Along step P s (es++[e])) :
    P (run step s es) e := (along_concat.mp h).2

theorem Along.imp (Inv : σ → Prop) (hstep : ∀ s e,Inv s → P s e → Q s e ∧ Inv (step s e))
    (hs : Inv s) (hP : Along step P s es) : Along step Q s es := by
  induction es generalizing s with
  | nil => trivial
  | cons e es ih =>
    obtain ⟨hQ,hnext⟩ := hstep s e hs hP.1
    exact ⟨hQ,ih hnext hP.2⟩

end Runs
