import Mathlib.Logic.Function.Basic

/-! Programs that act on a shared state one call at a time. What a call does and returns also
depends on a choice that is not the program's: whether it fails, or what a peer answers. -/

namespace Program

open List Function

/-- A program of operations with results. -/
inductive Prog (Op : Type) (Res : Op → Type) (α : Type) where
  | done (a : α)
  | call (op : Op) (next : Res op → Prog Op Res α)

namespace Prog

variable {Op : Type} {Res : Op → Type} {α β : Type}

def bind : Prog Op Res α → (α → Prog Op Res β) → Prog Op Res β
  | .done a,f => f a
  | .call op next,f => .call op fun r => (next r).bind f

instance : Monad (Prog Op Res) where
  pure := .done
  bind := bind

def perform (op : Op) : Prog Op Res (Res op) := .call op .done

section Run

variable {σ Choice : Type} (apply : σ → (op : Op) → Choice → Res op×σ)

def step : Prog Op Res α×σ → Choice → Prog Op Res α×σ
  | (.done a,s),_ => (.done a,s)
  | (.call op next,s),c => (next (apply s op c).1,(apply s op c).2)

def run (x : Prog Op Res α×σ) (cs : List Choice) : Prog Op Res α×σ := cs.foldl (step apply) x

end Run

section Threads

variable {T σ Choice : Type} [DecidableEq T] (apply : T → σ → (op : Op) → Choice → Res op×σ)

end Threads

section Rules

variable {σ Choice : Type} {apply : σ → (op : Op) → Choice → Res op×σ} {A : Choice → Prop}
  {R G : σ → σ → Prop} {Q : α → σ → Prop} {s s' : σ}

/-- While others do what `R` allows, the program does what `G` allows, and ends with a result and in
a state of `Q`, for all choices in `A`. -/
def Meets (apply : σ → (op : Op) → Choice → Res op×σ) (A : Choice → Prop) (R G : σ → σ → Prop)
    (Q : α → σ → Prop) : Prog Op Res α → σ → Prop
  | .done a,s => Q a s
  | .call op next,s => ∀ s',R s s' → ∀ c,A c →
      G s' (apply s' op c).2 ∧ Meets apply A R G Q (next (apply s' op c).1) (apply s' op c).2

variable {p : Prog Op Res α}

theorem Meets.mono {Q' : α → σ → Prop} (hp : Meets apply A R G Q p s)
    (hQ : ∀ a s',Q a s' → Q' a s') : Meets apply A R G Q' p s := by
  induction p generalizing s with
  | done a => exact hQ a s hp
  | call op next ih =>
    intro s' hs c hc
    obtain ⟨hG,hnext⟩ := hp s' hs c hc
    exact ⟨hG,ih _ hnext⟩

theorem meets_bind {Q : β → σ → Prop} {f : α → Prog Op Res β}
    (hp : Meets apply A R G (fun a => Meets apply A R G Q (f a)) p s) :
    Meets apply A R G Q (p >>= f) s := by
  induction p generalizing s with
  | done a => exact hp
  | call op next ih =>
    intro s' hs c hc
    obtain ⟨hG,hnext⟩ := hp s' hs c hc
    exact ⟨hG,ih _ hnext⟩

theorem meets_bindE {ε : Type} {Q : Except ε β → σ → Prop} {p : ExceptT ε (Prog Op Res) α}
    {f : α → ExceptT ε (Prog Op Res) β}
    (hp : Meets apply A R G (fun r s => match r with
      | .ok a => Meets apply A R G Q (f a).run s
      | .error e => Q (.error e) s) p.run s) :
    Meets apply A R G Q (p >>= f).run s := by
  refine meets_bind (hp.mono ?_)
  intro r s' hr
  cases r with
  | ok a => exact hr
  | error e => exact hr

theorem Meets.step (hp : Meets apply A R G Q p s) (hrefl : R s s) {c : Choice} (hc : A c) :
    Meets apply A R G Q (step apply (p,s) c).1 (step apply (p,s) c).2 ∧
      ((step apply (p,s) c).2=s ∨ G s (step apply (p,s) c).2) := by
  cases p with
  | done a => exact ⟨hp,.inl rfl⟩
  | call op next =>
    obtain ⟨hG,hnext⟩ := hp s hrefl c hc
    exact ⟨hnext,.inr hG⟩

/-- A program that runs alone keeps what its calls keep, wherever it is left, and has the right
result if it has ended. -/
theorem Meets.run {I : σ → Prop} (hp : Meets apply A R G Q p s)
    (hrefl : ∀ s,I s → R s s) (hI : I s) (hG : ∀ s s',G s s' → I s → I s') {cs : List Choice}
    (hcs : ∀ c∈cs,A c) :
    I (run apply (p,s) cs).2 ∧ ∀ a,(run apply (p,s) cs).1=.done a → Q a (run apply (p,s) cs).2 := by
  induction cs generalizing p s with
  | nil =>
    refine ⟨hI,?_⟩
    rintro a rfl
    exact hp
  | cons c cs ih =>
    obtain ⟨hnext,hstep⟩ := hp.step (hrefl s hI) (hcs c mem_cons_self)
    have hI' : I (Prog.step apply (p,s) c).2 := by
      rcases hstep with hsame | hstep
      · rw [hsame]
        exact hI
      · exact hG _ _ hstep hI
    exact ih hnext hI' fun c' hc' => hcs c' (mem_cons_of_mem c hc')

/-- Some choices in `A` bring the program, alone, to an end in `Q`. -/
def Can (apply : σ → (op : Op) → Choice → Res op×σ) (A : Choice → Prop) (Q : α → σ → Prop) :
    Prog Op Res α → σ → Prop
  | .done a,s => Q a s
  | .call op next,s => ∃ c,A c ∧ Can apply A Q (next (apply s op c).1) (apply s op c).2

theorem Can.mono {Q' : α → σ → Prop} (hp : Can apply A Q p s)
    (hQ : ∀ a s',Q a s' → Q' a s') : Can apply A Q' p s := by
  induction p generalizing s with
  | done a => exact hQ a s hp
  | call op next ih =>
    obtain ⟨c,hc,hnext⟩ := hp
    exact ⟨c,hc,ih _ hnext⟩

theorem can_bind {Q : β → σ → Prop} {f : α → Prog Op Res β}
    (hp : Can apply A (fun a => Can apply A Q (f a)) p s) : Can apply A Q (p >>= f) s := by
  induction p generalizing s with
  | done a => exact hp
  | call op next ih =>
    obtain ⟨c,hc,hnext⟩ := hp
    exact ⟨c,hc,ih _ hnext⟩

theorem can_bindE {ε : Type} {Q : Except ε β → σ → Prop} {p : ExceptT ε (Prog Op Res) α}
    {f : α → ExceptT ε (Prog Op Res) β}
    (hp : Can apply A (fun r s => ∃ a,r=.ok a ∧ Can apply A Q (f a).run s) p.run s) :
    Can apply A Q (p >>= f).run s := by
  refine can_bind (hp.mono ?_)
  rintro r s' ⟨a,rfl,hf⟩
  exact hf

theorem Can.run (hp : Can apply A Q p s) : ∃ cs,(∀ c∈cs,A c) ∧
    ∃ a,(run apply (p,s) cs).1=.done a ∧ Q a (run apply (p,s) cs).2 := by
  induction p generalizing s with
  | done a => exact ⟨[],fun c hc => absurd hc not_mem_nil,a,rfl,hp⟩
  | call op next ih =>
    obtain ⟨c,hc,hnext⟩ := hp
    obtain ⟨cs,hcs,hend⟩ := ih _ hnext
    refine ⟨c::cs,?_,hend⟩
    intro c' hc'
    rcases mem_cons.mp hc' with rfl | hc'
    · exact hc
    · exact hcs c' hc'

end Rules

end Prog

end Program
