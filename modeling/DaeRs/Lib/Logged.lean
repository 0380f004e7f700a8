import Mathlib.Data.List.Basic

/-! Computations that may fail and keep a log of what they did up to then. -/

/-- A result together with the effects that were carried out on the way to it. -/
structure Logged (ω ε α : Type) where
  log : List ω
  result : Except ε α

namespace Logged

open List

variable {ω ε α β : Type}

instance : Monad (Logged ω ε) where
  pure a := ⟨[],.ok a⟩
  bind x f :=
    match x.result with
    | .ok a => ⟨x.log++(f a).log,(f a).result⟩
    | .error e => ⟨x.log,.error e⟩

def ofExcept (r : Except ε α) : Logged ω ε α := ⟨[],r⟩

def perform (ok : Bool) (w : ω) (e : ε) : Logged ω ε Unit :=
  if ok then ⟨[w],.ok ()⟩ else ⟨[],.error e⟩

/-- Go on after a failure; what was done stays done. -/
def ignore (x : Logged ω ε α) : Logged ω ε Unit := ⟨x.log,.ok ()⟩

def forEach (f : α → Logged ω ε Unit) : List α → Logged ω ε Unit
  | [] => pure ()
  | a::as => do
    f a
    forEach f as

@[simp] theorem pure_result (a : α) : (pure a : Logged ω ε α).result=.ok a := rfl

theorem perform_result {ok : Bool} {w : ω} {e : ε} : (perform ok w e).result=.ok () ↔ ok=true := by
  cases ok <;> simp [perform]

variable {x : Logged ω ε α}

theorem bind_log_ok {f : α → Logged ω ε β} {a : α} (h : x.result=.ok a) :
    (x >>= f).log=x.log++(f a).log := by
  show (match x.result with
    | .ok a => (⟨x.log++(f a).log,(f a).result⟩ : Logged ω ε β)
    | .error e => ⟨x.log,.error e⟩).log=_
  rw [h]

theorem bind_log_error {f : α → Logged ω ε β} {e : ε}
    (h : x.result=.error e) : (x >>= f).log=x.log := by
  show (match x.result with
    | .ok a => (⟨x.log++(f a).log,(f a).result⟩ : Logged ω ε β)
    | .error e => ⟨x.log,.error e⟩).log=_
  rw [h]

theorem bind_result (x : Logged ω ε α) (f : α → Logged ω ε β) :
    (x >>= f).result=(x.result >>= fun a => (f a).result) := by
  show (match x.result with
    | .ok a => (⟨x.log++(f a).log,(f a).result⟩ : Logged ω ε β)
    | .error e => ⟨x.log,.error e⟩).result=_
  cases x.result <;> rfl

theorem mem_log_bind {f : α → Logged ω ε β} {w : ω}
    (h : w∈(x >>= f).log) : w∈x.log ∨ ∃ a,x.result=.ok a ∧ w∈(f a).log := by
  cases hx : x.result with
  | ok a =>
    rw [bind_log_ok hx,mem_append] at h
    exact h.imp_right fun hw => ⟨a,rfl,hw⟩
  | error e =>
    rw [bind_log_error hx] at h
    exact .inl h

variable {f : α → Logged ω ε Unit}

theorem mem_log_forEach {l : List α} {w : ω} (h : w∈(forEach f l).log) : ∃ a∈l,w∈(f a).log := by
  induction l with
  | nil => cases h
  | cons a as ih =>
    rcases mem_log_bind h with hw | ⟨-,-,hw⟩
    · exact ⟨a,mem_cons_self,hw⟩
    · obtain ⟨b,hb,hw⟩ := ih hw
      exact ⟨b,mem_cons_of_mem a hb,hw⟩

theorem forEach_result_iff {l : List α} :
    (forEach f l).result=.ok () ↔ ∀ a∈l,(f a).result=.ok () := by
  induction l with
  | nil => simp [forEach]
  | cons a as ih =>
    rw [forEach,bind_result,forall_mem_cons,← ih]
    cases (f a).result with
    | ok u => simp [Bind.bind,Except.bind]
    | error e => simp [Bind.bind,Except.bind]

theorem forEach_single {w : α → ω} {l : List α}
    (h : ∀ a∈l,f a=⟨[w a],.ok ()⟩) : forEach f l=⟨l.map w,.ok ()⟩ := by
  induction l with
  | nil => rfl
  | cons a as ih =>
    rw [forEach,h a mem_cons_self,ih fun b hb => h b (mem_cons_of_mem a hb)]
    rfl

end Logged
