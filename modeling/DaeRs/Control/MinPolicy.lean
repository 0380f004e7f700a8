import DaeRs.Control.Dialing
import DaeRs.Lib.Runs

/-! The policy `min` over the dials of a group: its next candidates against the latencies that the
successful dials measured. -/

namespace DaeRs.Control

open Config Routing Runs List Option Function

namespace GroupState

variable {n : Nat}

def success (g : GroupState n) (d : Dial n) : Option (Fin n×UInt64) :=
  match (g.dial d).result with
  | .error _ => none
  | .ok w =>
    match d.outcome w with
    | .connected latencyMs => some (w,latencyMs)
    | .failed _ _ => none

theorem success_spec (g : GroupState n) (d : Dial n) :
    (∀ i∈(g.dial d).dialled,(∀ latencyMs,g.success d≠some (i,latencyMs)) → d.Fails i) ∧
      ∀ i latencyMs,g.success d=some (i,latencyMs) →
        i∈(g.dial d).dialled ∧ d.outcome i=.connected latencyMs := by
  cases h : g.inGroupCooldown d.now with
  | true =>
    unfold success
    rw [dial_of_cooldown h]
    exact ⟨fun i hi => absurd hi not_mem_nil,fun i latencyMs hi => nomatch hi⟩
  | false =>
    unfold success
    rw [dial_of_not_cooldown h]
    rcases g.walk_cases (d := d) (g.orderedCandidates d) none with hcase | hcase
    · obtain ⟨failed,w,rest,latencyMs,-,hfails,hw,hdialled,hresult,-⟩ := hcase
      simp only [hdialled,hresult,hw]
      constructor
      · intro i hi hne
        rcases mem_append.mp hi with hi | hi
        · exact hfails i hi
        · rw [mem_singleton.mp hi] at hne
          exact absurd rfl (hne latencyMs)
      · intro i l hi
        cases hi
        exact ⟨by simp,hw⟩
    · obtain ⟨hfails,hdialled,⟨error,hresult⟩,-⟩ := hcase
      simp only [hdialled,hresult]
      exact ⟨fun i hi _ => hfails i hi,fun i latencyMs hi => nomatch hi⟩

end GroupState

/-- A group with what it measured: the latency of the last successful dial of each node. -/
structure Tracked (n : Nat) where
  group : GroupState n
  lastSuccess : Fin n → Option UInt64

namespace Tracked

variable {n : Nat}

def new (name : String) (nodes : Fin n → OutboundNodeConfig) (policy : PolicyType) : Tracked n :=
  ⟨GroupState.new name nodes policy,fun _ => none⟩

def record (lastSuccess : Fin n → Option UInt64) : Option (Fin n×UInt64) → Fin n → Option UInt64
  | none => lastSuccess
  | some (w,latencyMs) => update lastSuccess w (some latencyMs)

def dial (t : Tracked n) (d : Dial n) : Tracked n :=
  ⟨(t.group.dial d).group,record t.lastSuccess (t.group.success d)⟩

/-- The next dial begins with an alive node whose last successful dial was the fastest of the alive
ones, and tries those that never succeeded last. -/
structure FastestFirst (t : Tracked n) (d : Dial n) : Prop where
  begins : t.group.inGroupCooldown d.now=false →
    (t.group.dial d).dialled.head?=(t.group.orderedCandidates d).head?
  fastest : ∀ i latencyMs,t.group.isAlive d.now i=true → t.lastSuccess i=some latencyMs →
    ∃ first firstMs,(t.group.orderedCandidates d).head?=some first ∧
      t.group.isAlive d.now first=true ∧ t.lastSuccess first=some firstMs ∧ firstMs≤latencyMs
  measuredFirst : (t.group.orderedCandidates d).Pairwise fun i j =>
    (t.lastSuccess j).isSome=true → (t.lastSuccess i).isSome=true

def Known (latencyMs : UInt64) : Prop := 0<latencyMs.toNat ∧ latencyMs.toNat<2^64-1

def MeasuresKnown (t : Tracked n) (d : Dial n) : Prop :=
  ∀ i latencyMs,t.group.success d=some (i,latencyMs) → Known latencyMs

/-- The nodes hold the latencies that were measured. -/
structure Recorded (t : Tracked n) : Prop where
  policy : t.group.policy=.min
  latency : ∀ i,(t.group.nodes i).lastLatencyMs=(t.lastSuccess i).elim 0 UInt64.toNat
  known : ∀ i latencyMs,t.lastSuccess i=some latencyMs → Known latencyMs

theorem recorded_new (name : String) (nodes : Fin n → OutboundNodeConfig) :
    (new name nodes .min).Recorded where
  policy := rfl
  latency := fun _ => rfl
  known := fun _ _ h => nomatch h

theorem dial_latency (g : GroupState n) (d : Dial n) (i : Fin n) :
    ((g.dial d).group.nodes i).lastLatencyMs=(g.nodes i).lastLatencyMs ∧
        (∀ latencyMs,g.success d≠some (i,latencyMs)) ∨
      ∃ latencyMs,g.success d=some (i,latencyMs) ∧
        ((g.dial d).group.nodes i).lastLatencyMs=latencyMs.toNat := by
  obtain ⟨hfails,hconnects⟩ := g.success_spec d
  rw [g.dial_nodes d]
  by_cases hsome : ∃ latencyMs,g.success d=some (i,latencyMs)
  · obtain ⟨latencyMs,hsuccess⟩ := hsome
    obtain ⟨hdialled,houtcome⟩ := hconnects i latencyMs hsuccess
    rw [if_pos hdialled,houtcome]
    exact Or.inr ⟨latencyMs,hsuccess,rfl⟩
  · rw [not_exists] at hsome
    refine Or.inl ⟨?_,hsome⟩
    split_ifs with hdialled
    · obtain ⟨endedAt,error,houtcome⟩ := hfails i hdialled hsome
      rw [houtcome]
      rfl
    · rfl

theorem record_of_ne {lastSuccess : Fin n → Option UInt64} {o : Option (Fin n×UInt64)} {i : Fin n}
    (h : ∀ latencyMs,o≠some (i,latencyMs)) : record lastSuccess o i=lastSuccess i := by
  cases o with
  | none => rfl
  | some p =>
    obtain ⟨w,latencyMs⟩ := p
    refine update_of_ne ?_ _ _
    intro hi
    exact h latencyMs (by rw [hi])

theorem record_self (lastSuccess : Fin n → Option UInt64) (i : Fin n) (latencyMs : UInt64) :
    record lastSuccess (some (i,latencyMs)) i=some latencyMs :=
  update_self _ _ _

variable {t : Tracked n}

theorem Recorded.dial (h : t.Recorded) {d : Dial n} (hd : t.MeasuresKnown d) :
    (t.dial d).Recorded where
  policy := (t.group.dial_name d).2.trans h.policy
  latency := by
    intro i
    rcases dial_latency t.group d i with hother | hself
    · obtain ⟨hsame,hne⟩ := hother
      simp only [Tracked.dial,hsame,record_of_ne hne,h.latency i]
    · obtain ⟨latencyMs,hsuccess,hstored⟩ := hself
      simp only [Tracked.dial,hstored,hsuccess,record_self]
      rfl
  known := by
    intro i latencyMs hi
    rcases dial_latency t.group d i with hother | hself
    · simp only [Tracked.dial,record_of_ne hother.2] at hi
      exact h.known i latencyMs hi
    · obtain ⟨l,hsuccess,-⟩ := hself
      simp only [Tracked.dial,hsuccess,record_self,Option.some.injEq] at hi
      exact hd i latencyMs (hi ▸ hsuccess)

theorem Recorded.latencyKey (h : t.Recorded) (i : Fin n) :
    t.group.latencyKey i=(t.lastSuccess i).elim (2^64-1) UInt64.toNat := by
  have hlatency := h.latency i
  simp only [GroupState.latencyKey,GroupNode.latencyKey]
  cases hi : t.lastSuccess i with
  | none =>
    simp only [hi,elim_none] at hlatency
    rw [if_pos hlatency,elim_none]
  | some latencyMs =>
    have hknown := h.known i latencyMs hi
    simp only [hi,elim_some] at hlatency
    rw [hlatency,if_neg (Nat.ne_of_gt hknown.1),elim_some]

theorem Recorded.isSome_iff (h : t.Recorded) (i : Fin n) :
    (t.lastSuccess i).isSome=true ↔ t.group.latencyKey i<2^64-1 := by
  rw [h.latencyKey i]
  cases hi : t.lastSuccess i with
  | none => simp
  | some latencyMs => simpa using (h.known i latencyMs hi).2

theorem Recorded.pairwise_latencyKey (h : t.Recorded) (d : Dial n) :
    (t.group.orderedCandidates d).Pairwise fun i j =>
      t.group.latencyKey i≤t.group.latencyKey j := by
  refine (t.group.orderedCandidates_pairwise d).imp fun {i j} hij => ?_
  rw [GroupState.Precedes,h.policy] at hij
  dsimp only at hij
  omega

theorem Recorded.fastestFirst (h : t.Recorded) (d : Dial n) : t.FastestFirst d where
  begins := by
    intro hcooldown
    rw [GroupState.dial_of_not_cooldown hcooldown]
    rcases t.group.walk_cases (d := d) (t.group.orderedCandidates d) none with hcase | hcase
    · obtain ⟨failed,w,rest,-,horder,-,-,hdialled,-,-⟩ := hcase
      rw [hdialled,horder]
      cases failed <;> rfl
    · rw [hcase.2.1]
  fastest := by
    intro i latencyMs halive hi
    have hmem : i∈t.group.orderedCandidates d :=
      GroupState.mem_orderedCandidates.mpr (Or.inl halive)
    cases horder : t.group.orderedCandidates d with
    | nil =>
      rw [horder] at hmem
      exact absurd hmem not_mem_nil
    | cons first rest =>
      have hsorted := h.pairwise_latencyKey d
      rw [horder] at hmem hsorted
      have hkey : t.group.latencyKey first≤t.group.latencyKey i := by
        rcases mem_cons.mp hmem with rfl | hrest
        · exact le_rfl
        · exact (pairwise_cons.mp hsorted).1 i hrest
      have hcandidate : t.group.IsCandidate d.now first :=
        GroupState.mem_orderedCandidates.mp (by rw [horder]; exact mem_cons_self)
      have hfirst : t.group.isAlive d.now first=true := by
        rcases hcandidate with halive_first | hdead
        · exact halive_first
        · rw [hdead i] at halive
          nomatch halive
      have hmeasured : (t.lastSuccess first).isSome=true := by
        have hi_key := (h.isSome_iff i).mp (by rw [hi]; rfl)
        exact (h.isSome_iff first).mpr (lt_of_le_of_lt hkey hi_key)
      obtain ⟨firstMs,hfirstMs⟩ := isSome_iff_exists.mp hmeasured
      refine ⟨first,firstMs,rfl,hfirst,hfirstMs,?_⟩
      rw [h.latencyKey first,h.latencyKey i,hfirstMs,hi] at hkey
      exact hkey
  measuredFirst := by
    refine (h.pairwise_latencyKey d).imp fun {i j} hij hj => ?_
    rw [h.isSome_iff] at hj ⊢
    exact lt_of_le_of_lt hij hj

/-- After any dials whose successes measure no latency that is taken for an unknown one, the next
dial of a `min` group tries the fastest node first. -/
theorem fastestFirst_of_measuresKnown (name : String) (nodes : Fin n → OutboundNodeConfig)
    (ds : List (Dial n)) (h : Along dial MeasuresKnown (new name nodes .min) ds) (d : Dial n) :
    (run dial (new name nodes .min) ds).FastestFirst d :=
  (h.invariant (fun _ _ ht hd => ht.dial hd) (recorded_new name nodes)).fastestFirst d

def pairDial (now : Nat) (first second : DialOutcome) : Dial 2 where
  now := now
  shuffle := id
  shuffle_perm := List.Perm.refl
  outcome := fun i => if i.val=0 then first else second
  finished := now

def pairNodes (i : Fin 2) : OutboundNodeConfig :=
  if i.val=0 then ⟨"near", "socks5", "192.0.2.1:1080"⟩ else ⟨"far", "socks5", "192.0.2.2:1080"⟩

/-- The first node refuses once, so that the second is measured, and connects when that refuses. -/
def pairDials (latencyMs : UInt64) : List (Dial 2) :=
  [pairDial 0 (.failed 0 "refused") (.connected 50),
    pairDial 100000 (.connected latencyMs) (.failed 100000 "refused")]

theorem fastestFirst_of_one_ms :
    Along dial MeasuresKnown (new "auto" pairNodes .min) (pairDials 1) ∧
      (run dial (new "auto" pairNodes .min) (pairDials 1)).FastestFirst
        (pairDial 200000 (.connected 1) (.connected 50)) := by
  have hfirst : (new "auto" pairNodes .min).group.success
      (pairDial 0 (.failed 0 "refused") (.connected 50))=some (1,50) := by decide +kernel
  have hsecond : ((new "auto" pairNodes .min).dial
      (pairDial 0 (.failed 0 "refused") (.connected 50))).group.success
        (pairDial 100000 (.connected 1) (.failed 100000 "refused"))=some (0,1) := by
    decide +kernel
  have h : Along dial MeasuresKnown (new "auto" pairNodes .min) (pairDials 1) := by
    refine ⟨fun i latencyMs hi => ?_,fun i latencyMs hi => ?_,trivial⟩
    · rw [hfirst] at hi
      cases hi
      exact ⟨by decide,by decide⟩
    · rw [hsecond] at hi
      cases hi
      exact ⟨by decide,by decide⟩
  exact ⟨h,fastestFirst_of_measuresKnown "auto" pairNodes (pairDials 1) h _⟩

/-- A node that connected within the millisecond counts as unknown, and comes after a slower one. -/
theorem zero_ms_not_fastestFirst :
    ¬(run dial (new "auto" pairNodes .min) (pairDials 0)).FastestFirst
      (pairDial 200000 (.connected 0) (.connected 50)) := by
  intro h
  obtain ⟨first,firstMs,hhead,-,hfirstMs,hle⟩ :=
    h.fastest 0 0 (by decide +kernel) (by decide +kernel)
  have hsecond : ((run dial (new "auto" pairNodes .min) (pairDials 0)).group.orderedCandidates
      (pairDial 200000 (.connected 0) (.connected 50))).head?=some 1 := by decide +kernel
  have hfifty : (run dial (new "auto" pairNodes .min) (pairDials 0)).lastSuccess 1=some 50 := by
    decide +kernel
  rw [hsecond,Option.some.injEq] at hhead
  subst hhead
  rw [hfifty,Option.some.injEq] at hfirstMs
  subst hfirstMs
  exact absurd hle (by decide)

end Tracked

end DaeRs.Control
