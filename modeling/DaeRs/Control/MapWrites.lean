import DaeRs.Control.Ebpf
import DaeRs.Bpf.RouteReads
import DaeRs.Lib.Logged
import Mathlib.Data.List.Perm.Basic

/-! The map updates of `ebpf.rs` one system call at a time, any of which may fail. -/

namespace DaeRs.Control

open Net RuleSet Bpf Routing List Function

/-- A change of one map, as user space makes it. -/
inductive MapWrite where
  | rule (key : Nat) (ms : MatchSet)
  | ruleCount (slot count : Nat)
  | trie (key : Nat) (t : LpmTrie)
  | epoch (slot : Nat)
  | forget (slot : Nat) (ip : Bytes16)

namespace MapWrite

def apply (m : Maps) : MapWrite → Maps
  | rule key ms => { m with routingMap := update m.routingMap key ms }
  | ruleCount slot n => { m with routingMetaMap := update m.routingMetaMap slot n }
  | trie key t => { m with lpmArrayMap := update m.lpmArrayMap key (some t) }
  | epoch slot => { m with activeRoutingEpochMap := slot }
  | forget slot ip =>
    { m with domainRoutingMap := update m.domainRoutingMap (slot,ip) none }

def loc : MapWrite → MapLoc
  | rule key _ => .rule key
  | ruleCount slot _ => .ruleCount slot
  | trie key _ => .trie key
  | epoch _ => .activeEpoch
  | forget slot ip => .domain slot ip

theorem get_apply_of_ne (m : Maps) {w : MapWrite} {l : MapLoc} (h : l≠w.loc) :
    (apply m w).get l=m.get l := by
  cases w with
  | rule key ms =>
    cases l with
    | rule k =>
      have hk : k≠key := by
        intro hk
        exact h (congrArg MapLoc.rule hk)
      exact update_of_ne hk _ _
    | _ => rfl
  | ruleCount slot n =>
    cases l with
    | ruleCount k =>
      have hk : k≠slot := by
        intro hk
        exact h (congrArg MapLoc.ruleCount hk)
      exact update_of_ne hk _ _
    | _ => rfl
  | trie key t =>
    cases l with
    | trie k =>
      have hk : k≠key := by
        intro hk
        exact h (congrArg MapLoc.trie hk)
      exact update_of_ne hk _ _
    | _ => rfl
  | epoch slot =>
    cases l with
    | activeEpoch => exact absurd rfl h
    | _ => rfl
  | forget slot ip =>
    cases l with
    | domain k a =>
      have hk : (k,a)≠(slot,ip) := by
        intro hk
        cases hk
        exact h rfl
      exact update_of_ne hk _ _
    | _ => rfl

end MapWrite

/-- `bpf_map_update_batch`: whether it returned 0, and how many elements it wrote if not all. -/
structure BatchOutcome where
  ok : Bool
  short : Option Nat

def BatchOutcome.written {α : Type} (o : BatchOutcome) (l : List α) : List α :=
  match o.short with
  | none => l
  | some n => l.take n

/-- Which of the writes of the rules succeed. -/
structure RulesOutcome where
  mapFound : Bool
  batch : BatchOutcome
  updated : Nat → Bool
  metaFound : Bool
  metaUpdated : Bool

structure TrieOutcome where
  created : Bool
  batch : BatchOutcome
  updated : Nat → Bool
  inserted : Bool

structure CidrOutcome where
  mapFound : Bool
  trie : Nat → TrieOutcome

structure RulesOutcome.Succeeds (o : RulesOutcome) : Prop where
  mapFound : o.mapFound=true
  updated : o.batch.ok=false → ∀ i < maxMatchSetLen,o.updated i=true
  metaFound : o.metaFound=true
  metaUpdated : o.metaUpdated=true

def BatchOutcome.Complete (o : BatchOutcome) : Prop := o.ok=true → o.short=none

theorem BatchOutcome.mem_written {α : Type} {o : BatchOutcome} {l : List α} {a : α}
    (h : a∈o.written l) : a∈l := by
  unfold BatchOutcome.written at h
  cases hshort : o.short with
  | none => simpa [hshort] using h
  | some n =>
    rw [hshort] at h
    exact mem_of_mem_take h

theorem BatchOutcome.Complete.written {α : Type} {o : BatchOutcome} (h : o.Complete)
    (hok : o.ok=true) (l : List α) : o.written l=l := by
  rw [BatchOutcome.written,h hok]

structure CidrOutcome.Succeeds (o : CidrOutcome) : Prop where
  mapFound : o.mapFound=true
  created : ∀ idx,(o.trie idx).created=true
  batch : ∀ idx,(o.trie idx).batch.Complete
  updated : ∀ idx,(o.trie idx).batch.ok=false → ∀ i,(o.trie idx).updated i=true
  inserted : ∀ idx,(o.trie idx).inserted=true

abbrev Calls := Logged MapWrite Error

namespace Calls

def getMapMut (found : Bool) (name : String) : Calls Unit :=
  .ofExcept (if found then .ok () else fail s!"Map '{name}' not found")

def updateAll (o : BatchOutcome) (updated : Nat → Bool) (msg : Nat → String)
    (writes : List MapWrite) : Calls Unit := do
  let ok ← (⟨o.written writes,.ok o.ok⟩ : Calls Bool)
  if ok then pure ()
  else Logged.forEach (fun w => Logged.perform (updated w.2) w.1 [msg w.2]) writes.zipIdx

def ruleWrites (matchSets : List MatchSet) (slotBase : Nat) : List MapWrite :=
  let values := (matchSets ++
    List.replicate (maxMatchSetLen-matchSets.length) MatchSet.zeroed).take maxMatchSetLen
  (values.zipIdx slotBase).map fun v => .rule v.2 v.1

def writeRoutingRules (matchSets : List MatchSet) (epochSlot : Nat) (o : RulesOutcome) :
    Calls Unit := do
  let slotBase ← Logged.ofExcept (routingEpochSlotBase epochSlot)
  getMapMut o.mapFound "routing_map"
  updateAll o.batch o.updated (fun i => s!"Failed to write match_set at index {i}")
    (ruleWrites matchSets slotBase)
  getMapMut o.metaFound "routing_meta_map"
  Logged.perform o.metaUpdated (.ruleCount epochSlot matchSets.length)
    ["Failed to update routing_meta_map"]

def innerTrie (arrayIdx : Nat) (keys : LpmTrie) (o : TrieOutcome) : Except Error LpmTrie :=
  if !o.created then fail s!"Failed to create inner LPM trie for index {arrayIdx}"
  else if o.batch.ok then .ok (o.batch.written keys)
  else if (List.range keys.length).all o.updated then .ok keys
  else fail s!"Failed to write LPM key at inner map index {arrayIdx}"

variable (entries : List (Nat×CidrEntry))

def insertTrie (slotBase : Nat) (o : CidrOutcome) (arrayIdx : Nat) : Calls Unit := do
  let t ← Logged.ofExcept (innerTrie arrayIdx (keysAt entries arrayIdx) (o.trie arrayIdx))
  Logged.ignore (Logged.perform
    ((o.trie arrayIdx).inserted && decide (slotBase+arrayIdx < maxLpmNum))
    (.trie (slotBase+arrayIdx) t) ([] : Error))

def byIndex : List Nat := (entries.map Prod.fst).dedup.insertionSort (· ≤ ·)

def writeCidrTable (epochSlot : Nat) (o : CidrOutcome) :
    Calls Unit := do
  let slotBase ← Logged.ofExcept (routingEpochSlotBase epochSlot)
  if entries.isEmpty then pure ()
  else do
    getMapMut o.mapFound "lpm_array_map"
    Logged.forEach (insertTrie entries slotBase o) (byIndex entries)

def updateActiveRoutingEpoch (slot : Nat) (updated : Bool) : Calls Unit :=
  Logged.perform updated (.epoch slot) ["Failed to update active_routing_epoch_map"]

def clearDomainRoutingSlot (slot : Nat) (deleted : List Bytes16) : Calls Unit :=
  ⟨deleted.map (.forget slot),.ok ()⟩

theorem getMapMut_result {found : Bool} {name : String} :
    (getMapMut found name).result=.ok () ↔ found=true := by
  cases found <;> simp [getMapMut,Logged.ofExcept,fail]

theorem getMapMut_log (found : Bool) (name : String) : (getMapMut found name).log=[] := rfl

section Locations

variable {slot : Nat} {w : MapWrite}

theorem mem_updateAll {o : BatchOutcome} {updated : Nat → Bool} {msg : Nat → String}
    {writes : List MapWrite} (h : w∈(updateAll o updated msg writes).log) : w∈writes := by
  rcases Logged.mem_log_bind h with hw | ⟨ok,-,hw⟩
  · exact BatchOutcome.mem_written hw
  · cases ok with
    | true => cases hw
    | false =>
      obtain ⟨⟨v,i⟩,hv,hw⟩ := Logged.mem_log_forEach hw
      unfold Logged.perform at hw
      split_ifs at hw
      · rw [mem_singleton.mp hw]
        exact fst_mem_of_mem_zipIdx hv
      · cases hw

theorem length_ruleValues (matchSets : List MatchSet) :
    ((matchSets++replicate (maxMatchSetLen-matchSets.length) MatchSet.zeroed).take
      maxMatchSetLen).length=maxMatchSetLen := by
  simp
  omega

theorem mem_ruleWrites {matchSets : List MatchSet}
    (h : w∈ruleWrites matchSets (slot*maxMatchSetLen)) : InSlot slot w.loc := by
  obtain ⟨⟨ms,k⟩,hv,rfl⟩ := mem_map.mp h
  have hlt := snd_lt_add_of_mem_zipIdx hv
  have hle := le_snd_of_mem_zipIdx hv
  rw [length_ruleValues] at hlt
  have hk : k=slot*maxMatchSetLen+(k-slot*maxMatchSetLen) := by omega
  show k/maxMatchSetLen=slot
  rw [hk]
  exact Walk.slotKey_div (by omega)

theorem mem_writeRoutingRules {matchSets : List MatchSet} {o : RulesOutcome}
    (h : w∈(writeRoutingRules matchSets slot o).log) : InSlot slot w.loc := by
  rcases Logged.mem_log_bind h with hw | ⟨base,hbase,h⟩
  · cases hw
  obtain ⟨-,rfl⟩ := routingEpochSlotBase_ok hbase
  rcases Logged.mem_log_bind h with hw | ⟨-,-,h⟩
  · cases hw
  rcases Logged.mem_log_bind h with hw | ⟨-,-,h⟩
  · exact mem_ruleWrites (mem_updateAll hw)
  rcases Logged.mem_log_bind h with hw | ⟨-,-,hw⟩
  · cases hw
  unfold Logged.perform at hw
  split_ifs at hw
  · rw [mem_singleton.mp hw]
    rfl
  · cases hw

theorem mem_byIndex {entries : List (Nat×CidrEntry)} {idx : Nat} :
    idx∈byIndex entries ↔ idx∈entries.map Prod.fst := by
  rw [byIndex,mem_insertionSort,mem_dedup]

theorem mem_writeCidrTable {entries : List (Nat×CidrEntry)} {o : CidrOutcome}
    (hidx : ∀ idx∈entries.map Prod.fst,idx < maxMatchSetLen)
    (h : w∈(writeCidrTable entries slot o).log) : InSlot slot w.loc := by
  rcases Logged.mem_log_bind h with hw | ⟨base,hbase,h⟩
  · cases hw
  obtain ⟨-,rfl⟩ := routingEpochSlotBase_ok hbase
  split_ifs at h
  · cases h
  rcases Logged.mem_log_bind h with hw | ⟨-,-,h⟩
  · cases hw
  obtain ⟨idx,hmem,h⟩ := Logged.mem_log_forEach h
  have hlt := hidx idx (mem_byIndex.mp hmem)
  rcases Logged.mem_log_bind h with hw | ⟨t,-,hw⟩
  · cases hw
  unfold Logged.perform Logged.ignore at hw
  split_ifs at hw
  · rw [mem_singleton.mp hw]
    exact Walk.slotKey_div hlt
  · cases hw

end Locations

section Success

theorem take_ruleWrites (values : List MatchSet) (base n : Nat) :
    ((values.zipIdx base).map fun v => MapWrite.rule v.2 v.1).take n =
      ((values.take n).zipIdx base).map fun v => MapWrite.rule v.2 v.1 := by
  induction values generalizing base n with
  | nil => simp
  | cons v vs ih =>
    cases n with
    | zero => simp
    | succ n => simp [ih]

theorem BatchOutcome.written_ruleWrites (o : BatchOutcome) (values : List MatchSet) (base : Nat) :
    ∃ n,o.written ((values.zipIdx base).map fun v => MapWrite.rule v.2 v.1) =
      ((values.take n).zipIdx base).map fun v => MapWrite.rule v.2 v.1 := by
  unfold BatchOutcome.written
  cases o.short with
  | none => exact ⟨values.length,by rw [take_length]⟩
  | some n => exact ⟨n,take_ruleWrites values base n⟩

theorem foldl_ruleWrites (values : List MatchSet) (base : Nat) (m : Maps) :
    ((values.zipIdx base).map fun v => MapWrite.rule v.2 v.1).foldl MapWrite.apply m =
      { m with routingMap := updateBatch m.routingMap base values } := by
  induction values generalizing base m with
  | nil =>
    have hnil : updateBatch m.routingMap base []=m.routingMap := by
      funext k
      simp [updateBatch]
    rw [hnil]
    rfl
  | cons v vs ih =>
    rw [zipIdx_cons,map_cons,foldl_cons,ih]
    simp only [MapWrite.apply,Maps.mk.injEq,and_true]
    funext k
    unfold updateBatch
    by_cases hk : k=base
    · subst hk
      simp
    · by_cases hle : base≤k
      · have hsub : k-base=k-(base+1)+1 := by omega
        rw [if_pos (by omega),if_pos hle,hsub,getD_cons_succ,update_of_ne hk]
      · rw [if_neg (by omega),if_neg hle,update_of_ne hk]

theorem updateBatch_twice {α : Type} (f : Nat → α) (base n : Nat) (values : List α) :
    updateBatch (updateBatch f base (values.take n)) base values=updateBatch f base values := by
  funext k
  unfold updateBatch
  by_cases hle : base≤k
  · simp only [if_pos hle]
    by_cases hlt : k-base<values.length
    · simp [getD_eq_getElem?_getD,hlt]
    · have hnone : values[k-base]?=none := getElem?_eq_none (by omega)
      simp [getD_eq_getElem?_getD,getElem?_take,hnone]
  · simp [hle]

theorem updateAll_result {o : BatchOutcome} {updated : Nat → Bool} {msg : Nat → String}
    {writes : List MapWrite} : (updateAll o updated msg writes).result=.ok () ↔
      (o.ok=false → ∀ i<writes.length,updated i=true) := by
  unfold updateAll
  rw [Logged.bind_result,Fallible.ok_bind]
  cases o.ok with
  | true => simp
  | false =>
    simp only [Bool.false_eq_true,if_false,forall_const,Logged.forEach_result_iff]
    constructor
    · intro h i hi
      have hmem : (writes[i],i)∈writes.zipIdx := mk_mem_zipIdx_iff_getElem?.mpr (by simp [hi])
      have hi' := h _ hmem
      unfold Logged.perform at hi'
      by_contra hup
      rw [if_neg hup] at hi'
      cases hi'
    · intro h w hw
      have hlt := snd_lt_of_mem_zipIdx hw
      rw [Logged.perform,if_pos (h w.2 (by simpa using hlt))]

theorem foldl_updateAll {o : BatchOutcome} {updated : Nat → Bool} {msg : Nat → String}
    {values : List MatchSet} {base : Nat}
    (h : (updateAll o updated msg
      ((values.zipIdx base).map fun v => MapWrite.rule v.2 v.1)).result=.ok ())
    (hfull : o.Complete) (m : Maps) :
    (updateAll o updated msg ((values.zipIdx base).map fun v => MapWrite.rule v.2 v.1)).log.foldl
        MapWrite.apply m={ m with routingMap := updateBatch m.routingMap base values } := by
  rw [updateAll_result] at h
  unfold updateAll
  rw [Logged.bind_log_ok rfl,foldl_append]
  cases hok : o.ok with
  | true =>
    rw [hfull.written hok,foldl_ruleWrites]
    rfl
  | false =>
    have heach : ∀ w∈((values.zipIdx base).map fun v => MapWrite.rule v.2 v.1).zipIdx,
        (Logged.perform (updated w.2) w.1 [msg w.2] : Calls Unit)=⟨[w.1],.ok ()⟩ := by
      intro w hw
      rw [Logged.perform,if_pos (h hok w.2 (by simpa using snd_lt_of_mem_zipIdx hw))]
    obtain ⟨n,hn⟩ := BatchOutcome.written_ruleWrites o values base
    rw [hn,foldl_ruleWrites,if_neg (by decide),Logged.forEach_single heach,
      zipIdx_map_fst,foldl_ruleWrites]
    simp only [updateBatch_twice]

variable {slot : Nat}

theorem writeRoutingRules_result (hslot : slot < routingEpochSlotNum) (matchSets : List MatchSet)
    (o : RulesOutcome) : (writeRoutingRules matchSets slot o).result=.ok () ↔ o.Succeeds := by
  have hbase := routingEpochSlotBase_of_lt hslot
  have hlen : (ruleWrites matchSets (slot*maxMatchSetLen)).length=maxMatchSetLen := by
    rw [ruleWrites,length_map,length_zipIdx,length_ruleValues]
  unfold writeRoutingRules
  simp only [Logged.bind_result,Logged.ofExcept,hbase,Fallible.ok_bind,Fallible.seq_ok_iff,
    updateAll_result,hlen]
  rw [getMapMut_result,getMapMut_result,Logged.perform_result]
  constructor
  · rintro ⟨hmap,hup,hmeta,hcount⟩
    exact ⟨hmap,hup,hmeta,hcount⟩
  · intro h
    exact ⟨h.mapFound,h.updated,h.metaFound,h.metaUpdated⟩

theorem foldl_writeRoutingRules (hslot : slot < routingEpochSlotNum) (matchSets : List MatchSet)
    {o : RulesOutcome} (h : o.Succeeds) (hfull : o.batch.Complete) (m : Maps) :
    Control.writeRoutingRules matchSets slot m =
      .ok ((writeRoutingRules matchSets slot o).log.foldl MapWrite.apply m) := by
  have hbase := routingEpochSlotBase_of_lt hslot
  have hall : (updateAll o.batch o.updated (fun i => s!"Failed to write match_set at index {i}")
      (ruleWrites matchSets (slot*maxMatchSetLen))).result=.ok () := by
    rw [updateAll_result,ruleWrites,length_map,length_zipIdx,length_ruleValues]
    exact h.updated
  have hlast : (Logged.perform o.metaUpdated (.ruleCount slot matchSets.length)
      ["Failed to update routing_meta_map"] : Calls Unit).log =
      [.ruleCount slot matchSets.length] := by
    rw [Logged.perform,if_pos h.metaUpdated]
  rw [writeRoutingRules,Logged.bind_log_ok hbase,Logged.bind_log_ok
    (getMapMut_result.mpr h.mapFound),Logged.bind_log_ok hall,Logged.bind_log_ok
    (getMapMut_result.mpr h.metaFound),hlast,getMapMut_log,getMapMut_log]
  simp only [Logged.ofExcept,nil_append,foldl_append]
  rw [ruleWrites,foldl_updateAll hall hfull]
  rw [Control.writeRoutingRules,hbase]
  rfl

theorem innerTrie_succeeds {o : CidrOutcome} (h : o.Succeeds) (idx : Nat) (keys : LpmTrie) :
    innerTrie idx keys (o.trie idx)=.ok keys := by
  rw [innerTrie,if_neg (by simp [h.created idx])]
  cases hok : (o.trie idx).batch.ok with
  | true => rw [if_pos rfl,(h.batch idx).written hok]
  | false =>
    rw [if_neg (by decide),if_pos]
    rw [all_eq_true]
    exact fun i _ => h.updated idx hok i

theorem insertTrie_succeeds (entries : List (Nat×CidrEntry)) {o : CidrOutcome}
    (h : o.Succeeds) {base idx : Nat} (hidx : base+idx < maxLpmNum) :
    insertTrie entries base o idx=⟨[.trie (base+idx) (keysAt entries idx)],.ok ()⟩ := by
  rw [insertTrie,innerTrie_succeeds h,h.inserted idx,Bool.true_and,decide_eq_true hidx]
  rfl

theorem foldl_trieWrites (base : Nat) (g : Nat → LpmTrie) (l : List Nat) (m : Maps) :
    (l.map fun i => MapWrite.trie (base+i) (g i)).foldl MapWrite.apply m =
      { m with lpmArrayMap := (l.foldl (fun lpm i =>
          update lpm (base+i) (some (g i))) m.lpmArrayMap) } := by
  induction l generalizing m with
  | nil => rfl
  | cons i l ih =>
    rw [map_cons,foldl_cons,ih]
    rfl

theorem foldl_writeCidrTable (hslot : slot < routingEpochSlotNum) {entries : List (Nat×CidrEntry)}
    (hidx : ∀ idx∈entries.map Prod.fst,idx < maxMatchSetLen) {o : CidrOutcome}
    (h : o.Succeeds) (m : Maps) :
    Control.writeCidrTable entries slot m =
      .ok ((writeCidrTable entries slot o).log.foldl MapWrite.apply m) := by
  have hbase := routingEpochSlotBase_of_lt hslot
  have hbound : ∀ idx∈entries.map Prod.fst,slot*maxMatchSetLen+idx < maxLpmNum := by
    intro idx hmem
    have hlt := hidx idx hmem
    have hmul : slot*maxMatchSetLen=slot*1024 := rfl
    have hmax : maxMatchSetLen=1024 := rfl
    have hnum : maxLpmNum=2056 := rfl
    have hslots : routingEpochSlotNum=2 := rfl
    omega
  rw [writeCidrTable,Logged.bind_log_ok hbase,Control.writeCidrTable,hbase,Fallible.ok_bind]
  by_cases hempty : entries.isEmpty
  · rw [if_pos hempty,if_pos hempty]
    rfl
  rw [if_neg hempty,if_neg hempty,Logged.bind_log_ok (getMapMut_result.mpr h.mapFound),
    getMapMut_log,Logged.forEach_single fun idx hmem => insertTrie_succeeds entries h
      (hbound idx (mem_byIndex.mp hmem)),Logged.ofExcept,nil_append,nil_append,
    foldl_trieWrites]
  have hcomm : RightCommutative fun (lpm : Nat → Option LpmTrie) i =>
      if slot*maxMatchSetLen+i < maxLpmNum then
        update lpm (slot*maxMatchSetLen+i) (some (keysAt entries i)) else lpm := by
    refine ⟨fun lpm i j => ?_⟩
    by_cases hij : i=j
    · rw [hij]
    · have hne : slot*maxMatchSetLen+i≠slot*maxMatchSetLen+j := by omega
      split_ifs <;> first | rfl | exact update_comm hne _ _ _
  have hperm : (entries.map Prod.fst).dedup.Perm (byIndex entries) := (perm_insertionSort _ _).symm
  show Except.ok _=_
  congr 2
  rw [hperm.foldl_eq]
  apply foldl_ext
  intro lpm idx hmem
  rw [if_pos (hbound idx (mem_byIndex.mp hmem))]

end Success

end Calls

end DaeRs.Control
