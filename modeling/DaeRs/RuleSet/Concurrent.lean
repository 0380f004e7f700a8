import DaeRs.RuleSet.Recovery

/-! Two updates of one entry at the same time: the one at startup and a scheduled one. -/

namespace DaeRs.RuleSet

open RustStr Program List

/-- The last replacement of a file, with the update that made it. -/
def Disk.last {δ : Type} (pick : Write → Option δ) (s : Disk) : Option (Nat×δ) :=
  (s.writes.filterMap fun x => (pick x.2).map (x.1,·)).getLast?

/-- An update that wrote has written what it then returned, and one that returns data has written
it. -/
def BothWrote (w : Setting) (r : Fin 2 → Except UpdateError UpdateOutcome) (s : Disk) : Prop :=
  (∀ u,s.own u≠[] → ∃ t : Fin 2,∃ c : w.Commit,t=u ∧ r t=.ok (.updated c.data) ∧
      s.own u=c.writes) ∧
    ∀ t data,r t=.ok (.updated data) → ∃ c : w.Commit,c.data=data ∧ s.own t=c.writes

section Both

variable {env : Env} {sha256 : List UInt8 → String} {cfg : RuleSetConfig} {base : RuleSetFiles}
  {tmps : Nat → Option (List UInt8)} {turns : List (Fin 2×Choice)}
  {r : Fin 2 → Except UpdateError UpdateOutcome}

variable {w : Setting} {s : Disk}

theorem unwritten (h : BothWrote w r s)
    (hnone : ∀ t data,r t≠.ok (.updated data)) : s.writes=[] := by
  rw [eq_nil_iff_forall_not_mem]
  intro x hx
  obtain ⟨t,c,-,hr,-⟩ := h.1 x.1 (ne_nil_of_mem (Disk.mem_own hx))
  exact hnone t c.data hr

end Both

def unchanged : Choice :=
  ⟨true,true,0,fun _ _ => .response 304 none none [], "2026-01-01T00:00:00+00:00"⟩

end DaeRs.RuleSet
