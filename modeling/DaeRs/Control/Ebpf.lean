import DaeRs.Routing.Compile
import DaeRs.RuleSet.IpSet
import DaeRs.Bpf.RouteEval
import Mathlib.Data.List.Dedup

/-! How compiled routing is written to the kernel's maps, for system calls that succeed. -/

namespace DaeRs.Control

open Net RuleSet Bpf Routing List Function

def routingEpochSlotBase (slot : Nat) : Except Error Nat :=
  if slot≥routingEpochSlotNum then
    fail s!"invalid routing epoch slot {slot} (max {routingEpochSlotNum})"
  else .ok (slot*maxMatchSetLen)

variable {slot : Nat}

theorem routingEpochSlotBase_of_lt (h : slot < routingEpochSlotNum) :
    routingEpochSlotBase slot=.ok (slot*maxMatchSetLen) := if_neg (Nat.not_le_of_lt h)

theorem routingEpochSlotBase_ok {slot base : Nat} (h : routingEpochSlotBase slot=.ok base) :
    slot < routingEpochSlotNum ∧ base=slot*maxMatchSetLen := by
  unfold routingEpochSlotBase at h
  split_ifs at h with hslot
  · cases h
  · cases h
    exact ⟨by omega,rfl⟩

def updateBatch {α : Type} (f : Nat → α) (base : Nat) (values : List α) : Nat → α :=
  fun k => if base≤k then values.getD (k-base) (f k) else f k

def writeRoutingRules (matchSets : List MatchSet) (epochSlot : Nat) (m : Maps) :
    Except Error Maps := do
  let slotBase ← routingEpochSlotBase epochSlot
  -- `resize` cuts the array or fills it up with zeroed entries
  let values := (matchSets ++
    List.replicate (maxMatchSetLen-matchSets.length) MatchSet.zeroed).take maxMatchSetLen
  pure { m with
    routingMap := updateBatch m.routingMap slotBase values
    routingMetaMap := update m.routingMetaMap epochSlot matchSets.length }

def keysAt (entries : List (Nat×CidrEntry)) (idx : Nat) : LpmTrie :=
  (entries.filter fun e => e.1=idx).map fun e => ⟨e.2.prefixLen,e.2.ip⟩

/-- A new inner trie for each index that has an entry; an update past the outer map is skipped. -/
def writeCidrTable (entries : List (Nat×CidrEntry)) (epochSlot : Nat) (m : Maps) :
    Except Error Maps := do
  let slotBase ← routingEpochSlotBase epochSlot
  if entries.isEmpty then pure m
  else
    let byIndex := (entries.map Prod.fst).dedup
    let insert := fun (lpm : Nat → Option LpmTrie) arrayIdx =>
      if slotBase+arrayIdx < maxLpmNum then
        update lpm (slotBase+arrayIdx) (some (keysAt entries arrayIdx))
      else lpm
    pure { m with lpmArrayMap := byIndex.foldl insert m.lpmArrayMap }

def updateActiveRoutingEpoch (slot : Nat) (m : Maps) : Maps :=
  { m with activeRoutingEpochMap := slot }

def allCidrEntries (lpmTries : List (List IpNet)) : List (Nat×CidrEntry) :=
  lpmTries.zipIdx.flatMap fun t => (cidrsToCidrEntries t.1).map fun e => (t.2,e.2)

def writeCompiled (c : CompiledRouting) (slot : Nat) (m : Maps) : Except Error Maps := do
  let m ← (if c.matchSets.isEmpty then .ok m else writeRoutingRules c.matchSets slot m)
  let entries := allCidrEntries c.lpmTries
  let m ← (if entries.isEmpty then .ok m else writeCidrTable entries slot m)
  pure (updateActiveRoutingEpoch slot m)

theorem foldl_insert_trie (base : Nat) (g : Nat → LpmTrie) (keys : List Nat)
    (lpm : Nat → Option LpmTrie) (i : Nat) :
    (keys.foldl (fun lpm j => if base+j < maxLpmNum then
        update lpm (base+j) (some (g j)) else lpm) lpm) (base+i) =
      if i∈keys ∧ base+i < maxLpmNum then some (g i) else lpm (base+i) := by
  induction keys generalizing lpm with
  | nil => simp
  | cons j js ih =>
    rw [foldl_cons,ih]
    by_cases hmem : i∈js
    · by_cases hlt : base+i < maxLpmNum
      · simp [hmem,hlt]
      · by_cases hij : i=j
        · simp [← hij,hlt]
        · by_cases hj : base+j < maxLpmNum <;> simp [hlt,hj,hij]
    · by_cases hij : i=j
      · subst hij
        by_cases hlt : base+i < maxLpmNum <;> simp [hmem,hlt]
      · by_cases hj : base+j < maxLpmNum <;> simp [hmem,hj,hij]

variable (tries : List (List IpNet))

theorem filter_allCidrEntries (k i : Nat) : ((tries.zipIdx k).flatMap fun t =>
        (cidrsToCidrEntries t.1).map fun e => (t.2,e.2)).filter (fun e => e.1=i) =
      if k ≤ i then (cidrsToCidrEntries (tries.getD (i-k) [])).map fun e => (i,e.2) else [] := by
  induction tries generalizing k with
  | nil => simp [cidrsToCidrEntries]
  | cons c cs ih =>
    rw [zipIdx_cons,flatMap_cons,filter_append,ih]
    by_cases hik : k=i
    · subst hik
      simp [filter_map,comp_def]
    · have hhead : ((cidrsToCidrEntries c).map fun e => (k,e.2)).filter
          (fun e => decide (e.1=i))=[] := by
        simp [filter_map,comp_def,hik]
      rw [hhead,nil_append]
      by_cases hle : k ≤ i
      · have hsub : i-k=i-(k+1)+1 := by omega
        rw [if_pos (by omega),if_pos hle,hsub,getD_cons_succ]
      · rw [if_neg (by omega),if_neg hle]

theorem keysAt_allCidrEntries (i : Nat) :
    keysAt (allCidrEntries tries) i=lpmTrie (tries.getD i []) := by
  rw [keysAt,allCidrEntries,filter_allCidrEntries,if_pos (Nat.zero_le _),map_map]
  rfl

theorem mem_allCidrEntries (i : Nat) :
    i∈(allCidrEntries tries).map Prod.fst ↔ tries.getD i []≠[] := by
  have hfilter := filter_allCidrEntries tries 0 i
  rw [if_pos (Nat.zero_le _),Nat.sub_zero] at hfilter
  constructor
  · intro h hnil
    obtain ⟨e,he,rfl⟩ := mem_map.mp h
    have hmem : e∈(allCidrEntries tries).filter fun x => x.1=e.1 := by simp [he]
    rw [allCidrEntries,hfilter,hnil] at hmem
    cases hmem
  · intro h
    obtain ⟨c,cs,hc⟩ := exists_cons_of_ne_nil h
    have hmem : (i,c.cidrEntry)∈(allCidrEntries tries).filter fun e => e.1=i := by
      rw [allCidrEntries,hfilter,hc]
      simp [cidrsToCidrEntries]
    exact mem_map.mpr ⟨_,(mem_filter.mp hmem).1,rfl⟩

/-- The slot is active with the rules, and with a trie for every list that is not empty. -/
structure Written (m : Maps) (c : CompiledRouting) (slot : Nat) (m' : Maps) : Prop where
  holds : Holds m' slot c.matchSets
  lpm : ∀ i < maxMatchSetLen,m'.lpmArrayMap (slot*maxMatchSetLen+i) =
    if c.lpmTries.getD i []=[] then m.lpmArrayMap (slot*maxMatchSetLen+i)
    else some (lpmTrie (c.lpmTries.getD i []))
  domain : m'.domainRoutingMap=m.domainRoutingMap

theorem writeRoutingRules_spec {sets : List MatchSet} {m m' : Maps}
    (h : writeRoutingRules sets slot m=.ok m') (hlen : sets.length ≤ maxMatchSetLen) :
    slot < routingEpochSlotNum ∧ m'.routingMetaMap slot=sets.length ∧
      (∀ j (hj : j < sets.length),m'.routingMap (slot*maxMatchSetLen+j)=sets[j]) ∧
      m'.lpmArrayMap=m.lpmArrayMap ∧ m'.domainRoutingMap=m.domainRoutingMap := by
  obtain ⟨base,hbase,h⟩ := Fallible.bind_ok_iff.mp h
  obtain ⟨hslot,rfl⟩ := routingEpochSlotBase_ok hbase
  cases h
  refine ⟨hslot,by simp,fun j hj => ?_,rfl,rfl⟩
  have hj' : j < maxMatchSetLen := by omega
  simp [updateBatch,getElem?_append_left hj,hj,hj']

theorem writeCidrTable_spec {tries : List (List IpNet)} {m m' : Maps}
    (h : writeCidrTable (allCidrEntries tries) slot m=.ok m') :
    m'={ m with lpmArrayMap := m'.lpmArrayMap } ∧
      ∀ i < maxMatchSetLen,m'.lpmArrayMap (slot*maxMatchSetLen+i) =
        if tries.getD i []=[] then m.lpmArrayMap (slot*maxMatchSetLen+i)
        else some (lpmTrie (tries.getD i [])) := by
  obtain ⟨base,hbase,h⟩ := Fallible.bind_ok_iff.mp h
  obtain ⟨hslot,rfl⟩ := routingEpochSlotBase_ok hbase
  split_ifs at h with hempty
  · cases h
    refine ⟨rfl,fun i _ => ?_⟩
    have hnot : ¬tries.getD i []≠[] := by
      rw [← mem_allCidrEntries,List.isEmpty_iff.mp hempty]
      simp
    rw [if_pos (not_not.mp hnot)]
  · cases h
    refine ⟨rfl,fun i hi => ?_⟩
    have hbound : slot*maxMatchSetLen+i < maxLpmNum := by
      have hbase : slot*maxMatchSetLen=slot*1024 := rfl
      have hmax : maxMatchSetLen=1024 := rfl
      have hnum : maxLpmNum=2056 := rfl
      have hslots : routingEpochSlotNum=2 := rfl
      omega
    refine (foldl_insert_trie _ (keysAt (allCidrEntries tries)) _ _ i).trans ?_
    simp only [mem_dedup,mem_allCidrEntries,hbound,and_true,keysAt_allCidrEntries]
    by_cases hnil : tries.getD i []=[]
    · rw [if_neg (not_not.mpr hnil),if_pos hnil]
    · rw [if_pos hnil,if_neg hnil]

theorem writeCompiled_spec {c : CompiledRouting} {m m' : Maps}
    (h : writeCompiled c slot m=.ok m') (hne : c.matchSets≠[])
    (hlen : c.matchSets.length ≤ maxMatchSetLen) : Written m c slot m' := by
  obtain ⟨m₁,h₁,h⟩ := Fallible.bind_ok_iff.mp h
  rw [if_neg (by simpa using hne)] at h₁
  obtain ⟨m₂,h₂,h⟩ := Fallible.bind_ok_iff.mp h
  obtain ⟨hslot,hmeta,hentry,hlpm,hdom⟩ := writeRoutingRules_spec h₁ hlen
  have hcidr : writeCidrTable (allCidrEntries c.lpmTries) slot m₁=.ok m₂ := by
    split_ifs at h₂ with hempty
    · rw [writeCidrTable,routingEpochSlotBase,if_neg (by omega),Fallible.ok_bind,if_pos hempty]
      exact h₂
    · exact h₂
  obtain ⟨hsame,htries⟩ := writeCidrTable_spec hcidr
  cases h
  rw [hlpm] at htries
  refine ⟨⟨rfl,hslot,?_,hlen,?_⟩,htries,?_⟩
  · rw [updateActiveRoutingEpoch,hsame]
    exact hmeta
  · rw [updateActiveRoutingEpoch,hsame]
    exact hentry
  · rw [updateActiveRoutingEpoch,hsame]
    exact hdom

/-- In a slot that exists, no program fails to be written. -/
theorem writeCompiled_ok (c : CompiledRouting) (h : slot < routingEpochSlotNum)
    (m : Maps) : ∃ m',writeCompiled c slot m=.ok m' := by
  have hbase := routingEpochSlotBase_of_lt h
  obtain ⟨m₁,h₁⟩ : ∃ m₁,(if c.matchSets.isEmpty then .ok m
      else writeRoutingRules c.matchSets slot m)=.ok m₁ := by
    split_ifs
    · exact ⟨m,rfl⟩
    · rw [writeRoutingRules,hbase]
      exact ⟨_,rfl⟩
  obtain ⟨m₂,h₂⟩ : ∃ m₂,(if (allCidrEntries c.lpmTries).isEmpty then .ok m₁
      else writeCidrTable (allCidrEntries c.lpmTries) slot m₁)=.ok m₂ := by
    split_ifs with hempty
    · exact ⟨m₁,rfl⟩
    · rw [writeCidrTable,hbase,Fallible.ok_bind,if_neg hempty]
      exact ⟨_,rfl⟩
  refine ⟨updateActiveRoutingEpoch slot m₂,?_⟩
  simp only [writeCompiled,h₁,Fallible.ok_bind,h₂]
  rfl

def loadedMaps : Maps := ⟨fun _ => .zeroed,fun _ => 0,0,fun _ => none,fun _ => none⟩

end DaeRs.Control
