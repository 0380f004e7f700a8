import Mathlib.Computability.Language

/-! `glob_match`: the interface names that a pattern stands for. -/

namespace DaeRs.Control

/-- The inner function `rec`. -/
def globMatchRec : List Char → List Char → Bool
  | [],nam => nam.isEmpty
  | p::pat,[] => p == '*' && globMatchRec pat []
  | p::pat,n::nam =>
    if p = '*' then globMatchRec pat (n::nam) || globMatchRec (p::pat) nam
    else (p == '?' || p==n) && globMatchRec pat nam
termination_by pat nam => pat.length+nam.length

def globMatch (pattern name : String) : Bool := globMatchRec pattern.toList name.toList

/-- `*` stands for any characters, `?` for one, and every other character for itself. -/
def wildcard (p : Char) : Language Char := {w | p = '*' ∨ ∃ n,w=[n] ∧ (p = '?' ∨ p=n)}

def globLanguage (pat : List Char) : Language Char := (pat.map wildcard).prod

section Language

variable {p : Char} {pat nam : List Char}

theorem mem_globLanguage_cons : nam∈globLanguage (p::pat) ↔
    ∃ a,(p = '*' ∨ ∃ n,a=[n] ∧ (p = '?' ∨ p=n)) ∧ ∃ b∈globLanguage pat,a++b=nam := by
  rw [globLanguage,List.map_cons,List.prod_cons,Language.mem_mul]
  rfl

theorem mem_globLanguage_star : nam∈globLanguage ('*' :: pat) ↔
    nam∈globLanguage pat ∨ ∃ n nam',nam=n::nam' ∧ nam'∈globLanguage ('*' :: pat) := by
  simp only [mem_globLanguage_cons,true_or,true_and]
  constructor
  · rintro ⟨a,b,hb,rfl⟩
    cases a with
    | nil => exact .inl hb
    | cons n a => exact .inr ⟨n,a++b,rfl,a,b,hb,rfl⟩
  · rintro (h | ⟨n,_,rfl,a,b,hb,rfl⟩)
    · exact ⟨[],nam,h,rfl⟩
    · exact ⟨n::a,b,hb,rfl⟩

theorem mem_globLanguage_char (hp : p ≠ '*') : nam∈globLanguage (p::pat) ↔
    ∃ n nam',nam=n::nam' ∧ (p = '?' ∨ p=n) ∧ nam'∈globLanguage pat := by
  rw [mem_globLanguage_cons]
  constructor
  · rintro ⟨_,hstar | ⟨n,rfl,hn⟩,b,hb,rfl⟩
    · exact absurd hstar hp
    · exact ⟨n,b,rfl,hn,hb⟩
  · rintro ⟨n,b,rfl,hn,hb⟩
    exact ⟨[n],.inr ⟨n,rfl,hn⟩,b,hb,rfl⟩

end Language

theorem globMatchRec_iff (pat nam : List Char) :
    globMatchRec pat nam=true ↔ nam∈globLanguage pat := by
  fun_induction globMatchRec pat nam with
  | case1 nam => simp [globLanguage,Language.mem_one]
  | case2 p pat ih =>
    by_cases hp : p = '*'
    · rw [hp,mem_globLanguage_star]
      simp [ih]
    · rw [mem_globLanguage_char hp]
      simp [hp]
  | case3 pat n nam ih ih' =>
    rw [mem_globLanguage_star]
    simp [ih,ih']
  | case4 p pat n nam hp ih =>
    rw [mem_globLanguage_char hp]
    simp [ih]

/-- The backtracking match is the language of the pattern. -/
theorem globMatch_iff (pattern name : String) :
    globMatch pattern name=true ↔ name.toList∈globLanguage pattern.toList :=
  globMatchRec_iff _ _

end DaeRs.Control
