import Mathlib.Data.List.Nodup

/-! A mutex that is given to its users in the order in which they ask for it. -/

/-- The users of a mutex: the first one holds it, the others wait. -/
structure FairMutex (T : Type) where
  users : List T
  nodup : users.Nodup

namespace FairMutex

open List

variable {T : Type} [DecidableEq T]

def free : FairMutex T := ⟨[],List.nodup_nil⟩

def holder (m : FairMutex T) : Option T := m.users.head?

def waiters (m : FairMutex T) : List T := m.users.tail

def request (m : FairMutex T) (t : T) : FairMutex T :=
  if h : t∈m.users then m
  else ⟨m.users++[t],List.nodup_append.mpr ⟨m.nodup,List.nodup_singleton t,by
    intro a ha b hb hab
    rw [List.mem_singleton.mp hb] at hab
    exact h (hab ▸ ha)⟩⟩

def release (m : FairMutex T) : FairMutex T := ⟨m.users.tail,m.nodup.tail⟩

def cancel (m : FairMutex T) (t : T) : FairMutex T := ⟨m.users.erase t,m.nodup.erase t⟩

variable {m : FairMutex T}

omit [DecidableEq T] in
theorem holder_not_mem_waiters {t : T} (h : m.holder=some t) : t∉m.waiters := by
  obtain ⟨users,hnodup⟩ := m
  cases users with
  | nil => cases h
  | cons u us =>
    cases h
    exact (nodup_cons.mp hnodup).1

theorem request_held {u : T} (h : m.holder=some u) (t : T) : (m.request t).holder=some u ∧
      ∀ v,v∈(m.request t).waiters ↔ v∈m.waiters ∨ (v=t ∧ t∉m.users) := by
  obtain ⟨users,hnodup⟩ := m
  unfold request
  split_ifs with hmem
  · refine ⟨h,fun v => ⟨Or.inl,?_⟩⟩
    intro hv
    rcases hv with hv | ⟨-,hnot⟩
    · exact hv
    · exact absurd hmem hnot
  · cases users with
    | nil => cases h
    | cons w ws =>
      refine ⟨h,fun v => ?_⟩
      show v∈ws++[t] ↔ v∈ws ∨ (v=t ∧ t∉w::ws)
      rw [mem_append,mem_singleton]
      exact or_congr_right ⟨fun hv => ⟨hv,hmem⟩,And.left⟩

theorem request_free (h : m.holder=none) (t : T) :
    (m.request t).holder=some t ∧ (m.request t).waiters=[] := by
  obtain ⟨users,hnodup⟩ := m
  cases users with
  | nil => exact ⟨rfl,rfl⟩
  | cons u us => cases h

omit [DecidableEq T] in
theorem release_holder (m : FairMutex T) : m.release.holder=m.waiters.head? := rfl

omit [DecidableEq T] in
theorem release_waiters (m : FairMutex T) : m.release.waiters=m.waiters.tail := rfl

theorem cancel_holder {t : T} (h : m.holder=some t) : m.cancel t=m.release := by
  obtain ⟨users,hnodup⟩ := m
  cases users with
  | nil => cases h
  | cons u us =>
    cases h
    unfold cancel release
    congr 1
    exact erase_cons_head _ _

theorem cancel_waiting {t : T} (h : m.holder≠some t) :
    (m.cancel t).holder=m.holder ∧ ∀ v∈(m.cancel t).waiters,v∈m.waiters := by
  obtain ⟨users,hnodup⟩ := m
  cases users with
  | nil => exact ⟨rfl,fun v hv => hv⟩
  | cons u us =>
    have hne : ¬u=t := fun hut => h (congrArg some hut)
    have herase : (u::us).erase t=u::us.erase t := by
      rw [erase_cons,if_neg]
      exact fun hbeq => hne (beq_iff_eq.mp hbeq)
    unfold cancel holder waiters
    dsimp only
    rw [herase]
    exact ⟨rfl,fun v hv => mem_of_mem_erase hv⟩

end FairMutex
