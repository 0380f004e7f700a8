import DaeRs.Routing.Params

/-! What grouping a function's parameters by key keeps of them. -/

namespace DaeRs.Routing

open List Option

/-- The groups are those of the parameters. -/
structure KeyGroups.Reads (g : KeyGroups) (raws : List String) : Prop where
  values : ∀ k v,v∈(g.keyToValues k).getD [] ↔ ∃ raw∈raws,splitParam raw=(k,v)
  nonempty : ∀ k vs,g.keyToValues k=some vs → vs≠[]
  keys : ∀ k,k∈g.keyOrder ↔ k ≠ "" ∧ (g.keyToValues k).isSome=true

theorem KeyGroups.reads_empty : KeyGroups.empty.Reads [] :=
  ⟨by simp [empty],by simp [empty],by simp [empty]⟩

theorem KeyGroups.Reads.insert {g : KeyGroups} {raws : List String} (h : g.Reads raws)
    (raw : String) : (g.insert raw).Reads (raws++[raw]) := by
  obtain ⟨key,val,hsplit⟩ : ∃ key val,splitParam raw=(key,val) := ⟨_,_,rfl⟩
  refine ⟨fun k v => ?_,fun k vs hvs => ?_,fun k => ?_⟩
  · simp only [KeyGroups.insert,hsplit,mem_append,mem_singleton]
    have hold := h.values k v
    by_cases hk : k=key
    · subst hk
      simp only [if_true,getD_some,mem_append,mem_singleton]
      rw [hold]
      constructor
      · rintro (⟨r,hr,hs⟩ | rfl)
        · exact ⟨r,.inl hr,hs⟩
        · exact ⟨raw,.inr rfl,hsplit⟩
      · rintro ⟨r,hr | rfl,hs⟩
        · exact .inl ⟨r,hr,hs⟩
        · rw [hsplit] at hs
          exact .inr (Prod.mk.inj hs).2.symm
    · simp only [if_neg hk]
      rw [hold]
      constructor
      · rintro ⟨r,hr,hs⟩
        exact ⟨r,.inl hr,hs⟩
      · rintro ⟨r,hr | rfl,hs⟩
        · exact ⟨r,hr,hs⟩
        · rw [hsplit] at hs
          exact absurd (Prod.mk.inj hs).1.symm hk
  · simp only [KeyGroups.insert,hsplit] at hvs
    split_ifs at hvs
    · cases hvs
      simp
    · exact h.nonempty k vs hvs
  · simp only [KeyGroups.insert,hsplit]
    have hkeys := h.keys k
    by_cases hk : k=key
    · subst hk
      cases hg : g.keyToValues k with
      | none =>
        by_cases hempty : k = ""
        · simpa [hempty] using hkeys
        · simp [hempty]
      | some vs => simp [hkeys,hg]
    · simp only [if_neg hk]
      split_ifs
      · simp [hk,hkeys]
      · exact hkeys

theorem KeyGroups.Reads.foldl {g : KeyGroups} {seen : List String} (h : g.Reads seen)
    (raws : List String) : (raws.foldl KeyGroups.insert g).Reads (seen++raws) := by
  induction raws generalizing g seen with
  | nil => simpa using h
  | cons raw rest ih => simpa using ih (h.insert raw)

section Groups

variable (f : Function)

theorem Function.reads :
    (f.rawParams.foldl KeyGroups.insert KeyGroups.empty).Reads f.rawParams := by
  simpa using KeyGroups.reads_empty.foldl f.rawParams

theorem close_keyToValues (g : KeyGroups) : g.close.keyToValues=g.keyToValues := by
  unfold KeyGroups.close
  split
  · split_ifs <;> rfl
  · rfl

theorem mem_close_keyOrder {g : KeyGroups} {raws : List String} (h : g.Reads raws) (k : String) :
    k∈g.close.keyOrder ↔ (g.keyToValues k).isSome=true ∧
      (k = "" → ((g.keyToValues "").getD []).any (· ≠ "")=true) := by
  have hkeys := h.keys k
  unfold KeyGroups.close
  cases hg : g.keyToValues "" with
  | none =>
    by_cases hk : k = ""
    · subst hk
      simpa [hg] using hkeys
    · simp [hkeys,hk]
  | some vs =>
    cases hany : vs.any fun v => decide (v ≠ "") with
    | true =>
      simp only [if_true,mem_append,mem_singleton,hkeys,getD_some,hany]
      by_cases hk : k = "" <;> simp [hk,hg]
    | false =>
      simp only [Bool.false_eq_true,if_false,hkeys,getD_some,hany]
      by_cases hk : k = "" <;> simp [hk]

theorem Function.exists_group (P : List String → Prop) :
    (∃ vs∈f.groups,P vs) ↔ ∃ k∈(groupParamsByKey f.rawParams).keyOrder,
      P (((f.rawParams.foldl KeyGroups.insert KeyGroups.empty).keyToValues k).getD []) := by
  rw [Function.groups,groupParamsByKey,close_keyToValues]
  simp

theorem Function.groups_nonempty {vs : List String} (h : vs∈f.groups) : vs≠[] := by
  have hr := f.reads
  obtain ⟨k,hk,hvs⟩ := (f.exists_group (·=vs)).mp ⟨vs,h,rfl⟩
  rw [groupParamsByKey,mem_close_keyOrder hr] at hk
  obtain ⟨us,hus⟩ := isSome_iff_exists.mp hk.1
  rw [hus,getD_some] at hvs
  exact hvs ▸ hr.nonempty k us hus

end Groups

end DaeRs.Routing
