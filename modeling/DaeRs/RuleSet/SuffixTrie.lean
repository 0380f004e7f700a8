import DaeRs.RuleSet.DomainSet

/-! The suffix trie holds the label lists inserted into it: every node stands for one word of
labels, and the words of the nodes are closed under taking prefixes. -/

namespace DaeRs.RuleSet.SuffixTrie

open List Function

def edge (t : SuffixTrie) (i : Nat) (label : String) : Option Nat :=
  (t.node i).children.lookup label

/-- Every node has its own word, the children of a node extend its word by one label, and the
parent of every word is there. -/
structure Named (t : SuffixTrie) (name : Nat → List String) : Prop where
  pos : 0<t.nodes.length
  root : name 0=[]
  inj : ∀ i<t.nodes.length,∀ j<t.nodes.length,name i=name j → i=j
  edge_iff : ∀ i<t.nodes.length,∀ label j,
    t.edge i label=some j ↔ j<t.nodes.length ∧ name j=name i++[label]
  closed : ∀ j<t.nodes.length,∀ word label,name j=word++[label] → ∃ i<t.nodes.length,name i=word

/-- A later trie keeps the nodes of an earlier one and their words. -/
structure Extends (t t' : SuffixTrie) (name name' : Nat → List String) : Prop where
  length_le : t.nodes.length≤t'.nodes.length
  same : ∀ i<t.nodes.length,name' i=name i

theorem new_named : new.Named fun _ => [] where
  pos := by decide
  root := rfl
  inj := by
    intro i hi j hj _
    simp only [new,length_singleton] at hi hj
    omega
  edge_iff := by
    intro i hi label j
    simp only [new,length_singleton,Nat.lt_one_iff] at hi
    subst hi
    simp [edge,node,new]
  closed := by simp

variable {t : SuffixTrie}

theorem node_of_le {i : Nat} (h : t.nodes.length ≤ i) : t.node i=⟨[],false⟩ := by
  rw [node,getD_eq_getElem?_getD,getElem?_eq_none h]
  rfl

theorem node_set (nodes : List SuffixTrieNode) (i : Nat) (n : SuffixTrieNode)
    (h : i<nodes.length) (k : Nat) :
    (SuffixTrie.mk (nodes.set i n)).node k=if k=i then n else (SuffixTrie.mk nodes).node k := by
  simp only [node,getD_eq_getElem?_getD,getElem?_set]
  by_cases hk : k=i
  · subst hk
    simp [h]
  · simp [hk,Ne.symm hk]

theorem node_grow (t : SuffixTrie) (k : Nat) :
    (SuffixTrie.mk (t.nodes++[⟨[],false⟩])).node k=t.node k := by
  simp only [node,getD_eq_getElem?_getD]
  rcases Nat.lt_trichotomy k t.nodes.length with h | h | h
  · rw [getElem?_append_left h]
  · subst h
    rw [getElem?_concat_length,getElem?_eq_none (Nat.le_refl _)]
    rfl
  · rw [getElem?_eq_none (by simp; omega),getElem?_eq_none (by omega)]

theorem descend_missing {i : Nat} {label : String} (hi : i<t.nodes.length)
    (h : t.edge i label=none) :
    (t.descend i label).2=t.nodes.length ∧ (t.descend i label).1.nodes.length=t.nodes.length+1 ∧
      (∀ k,((t.descend i label).1.node k).terminal=(t.node k).terminal) ∧
      ∀ k l,(t.descend i label).1.edge k l =
        if k=i ∧ l=label then some t.nodes.length else t.edge k l := by
  have hd : t.descend i label =
      (⟨(t.nodes++[(⟨[],false⟩ : SuffixTrieNode)]).set i
        { t.node i with children := (label,t.nodes.length)::(t.node i).children }⟩,
        t.nodes.length) := by
    simp only [edge] at h
    simp [descend,h]
  have hlen : i<(t.nodes++[(⟨[],false⟩ : SuffixTrieNode)]).length := by
    simp only [length_append,length_singleton]
    omega
  have hnode : ∀ k,(t.descend i label).1.node k =
      if k=i then { t.node i with children := (label,t.nodes.length)::(t.node i).children }
      else t.node k := by
    intro k
    rw [hd]
    show SuffixTrie.node _ k=_
    rw [node_set _ i _ hlen k,node_grow]
  refine ⟨by rw [hd],by rw [hd]; simp,?_,?_⟩
  · intro k
    rw [hnode k]
    by_cases hk : k=i
    · rw [if_pos hk,hk]
    · rw [if_neg hk]
  · intro k l
    rw [edge,hnode k]
    by_cases hk : k=i
    · subst hk
      by_cases hl : l=label
      · simp [hl]
      · have hne : (l==label)=false := by simpa using hl
        simp [hl,edge,List.lookup_cons,hne]
    · simp [hk,edge]

section Naming

variable {t : SuffixTrie} {name : Nat → List String}

theorem Named.missing_word (h : t.Named name) {i : Nat} {label : String}
    (hi : i<t.nodes.length) (hnone : t.edge i label=none) {j : Nat}
    (hj : j<t.nodes.length) : name j≠name i++[label] := by
  intro hword
  have hsome := (h.edge_iff i hi label j).mpr ⟨hj,hword⟩
  rw [hnone] at hsome
  cases hsome

section Grow

variable {i : Nat} {label : String}

theorem update_old (name : Nat → List String) (word : List String) {n k : Nat} (hk : k<n) :
    update name n word k=name k :=
  update_of_ne (Nat.ne_of_lt hk) _ _

theorem Named.grow_old (h : t.Named name) (hi : i<t.nodes.length)
    (hnone : t.edge i label=none) {k : Nat} (hk : k<t.nodes.length) (l : String) (j : Nat) :
    (if k=i ∧ l=label then some t.nodes.length else t.edge k l)=some j ↔ j<t.nodes.length+1 ∧
        update name t.nodes.length (name i++[label]) j=name k++[l] := by
  by_cases hkl : k=i ∧ l=label
  · obtain ⟨rfl,rfl⟩ := hkl
    rw [if_pos ⟨rfl,rfl⟩,Option.some.injEq]
    constructor
    · rintro rfl
      exact ⟨by omega,update_self _ _ _⟩
    · rintro ⟨hj,hword⟩
      rcases Nat.lt_succ_iff_lt_or_eq.mp hj with hj | rfl
      · rw [update_old name _ hj] at hword
        exact absurd hword (h.missing_word hi hnone hj)
      · rfl
  · rw [if_neg hkl,h.edge_iff k hk l j]
    constructor
    · rintro ⟨hj,hword⟩
      exact ⟨by omega,by rw [update_old name _ hj,hword]⟩
    · rintro ⟨hj,hword⟩
      rcases Nat.lt_succ_iff_lt_or_eq.mp hj with hj | rfl
      · rw [update_old name _ hj] at hword
        exact ⟨hj,hword⟩
      · -- the fresh word determines its parent and its label
        rw [update_self] at hword
        obtain ⟨hname,hlabel⟩ := append_inj' hword rfl
        exact absurd ⟨(h.inj i hi k hk hname).symm,(singleton_inj.mp hlabel).symm⟩ hkl

theorem Named.grow_fresh (h : t.Named name) (hi : i<t.nodes.length)
    (hnone : t.edge i label=none) {j : Nat} (hj : j<t.nodes.length+1) (l : String) :
    update name t.nodes.length (name i++[label]) j≠name i++[label]++[l] := by
  intro hword
  rcases Nat.lt_succ_iff_lt_or_eq.mp hj with hj | rfl
  · rw [update_old name _ hj] at hword
    obtain ⟨m,hm,hmw⟩ := h.closed j hj _ _ hword
    exact absurd hmw (h.missing_word hi hnone hm)
  · rw [update_self] at hword
    have hl := congrArg List.length hword
    simp at hl

theorem Named.grow (h : t.Named name) (hi : i<t.nodes.length)
    (hnone : t.edge i label=none) {t' : SuffixTrie}
    (hlen : t'.nodes.length=t.nodes.length+1)
    (hedge : ∀ k l,t'.edge k l =
      if k=i ∧ l=label then some t.nodes.length else t.edge k l) :
    t'.Named (update name t.nodes.length (name i++[label])) := by
  have hnew : update name t.nodes.length (name i++[label]) t.nodes.length =
      name i++[label] := update_self _ _ _
  have hsplit : ∀ k,k<t'.nodes.length → k<t.nodes.length ∨ k=t.nodes.length := by
    intro k hk
    omega
  refine ⟨by omega,?_,?_,?_,?_⟩
  · rw [update_old name _ h.pos,h.root]
  · intro a ha b hb hab
    rcases hsplit a ha with ha | rfl <;> rcases hsplit b hb with hb | rfl
    · rw [update_old name _ ha,update_old name _ hb] at hab
      exact h.inj a ha b hb hab
    · rw [update_old name _ ha,hnew] at hab
      exact absurd hab (h.missing_word hi hnone ha)
    · rw [update_old name _ hb,hnew] at hab
      exact absurd hab.symm (h.missing_word hi hnone hb)
    · rfl
  · intro k hk l j
    rw [hedge k l,hlen]
    rcases hsplit k hk with hk | rfl
    · rw [update_old name _ hk]
      exact h.grow_old hi hnone hk l j
    · have hne : ¬(t.nodes.length=i ∧ l=label) := by omega
      rw [if_neg hne,edge,node_of_le (Nat.le_refl _),hnew]
      constructor
      · intro hcon
        cases hcon
      · rintro ⟨hj,hword⟩
        exact absurd hword (h.grow_fresh hi hnone hj l)
  · intro j hj word l hword
    rcases hsplit j hj with hj | rfl
    · rw [update_old name _ hj] at hword
      obtain ⟨m,hm,hmw⟩ := h.closed j hj word l hword
      exact ⟨m,by omega,by rw [update_old name _ hm,hmw]⟩
    · rw [hnew] at hword
      obtain ⟨hname,-⟩ := append_inj' hword rfl
      exact ⟨i,by omega,by rw [update_old name _ hi,hname]⟩

end Grow

theorem Named.descend (h : t.Named name) {i : Nat} (hi : i<t.nodes.length) (label : String) :
    ∃ name',(t.descend i label).1.Named name' ∧ Extends t (t.descend i label).1 name name' ∧
      (t.descend i label).2<(t.descend i label).1.nodes.length ∧
      name' (t.descend i label).2=name i++[label] ∧
      ∀ k,((t.descend i label).1.node k).terminal=(t.node k).terminal := by
  cases hedge : t.edge i label with
  | some next =>
    have hd : t.descend i label=(t,next) := by
      simp only [edge] at hedge
      simp [SuffixTrie.descend,hedge]
    obtain ⟨hlt,hword⟩ := (h.edge_iff i hi label next).mp hedge
    rw [hd]
    exact ⟨name,h,⟨Nat.le_refl _,fun _ _ => rfl⟩,hlt,hword,fun _ => rfl⟩
  | none =>
    obtain ⟨hidx,hlen,hterm,hedges⟩ := descend_missing hi hedge
    refine ⟨_,h.grow hi hedge hlen hedges,⟨by omega,?_⟩,by omega,?_,hterm⟩
    · intro k hk
      exact update_of_ne (by omega) _ _
    · rw [hidx,update_self]

theorem Named.insertLabels (h : t.Named name) {i : Nat} (hi : i<t.nodes.length)
    (labels : List String) :
    ∃ name' j,(t.insertLabels i labels).Named name' ∧
      Extends t (t.insertLabels i labels) name name' ∧
      j<(t.insertLabels i labels).nodes.length ∧ name' j=name i++labels ∧
      ∀ k,((t.insertLabels i labels).node k).terminal=((t.node k).terminal || decide (k=j)) := by
  induction labels generalizing t name i with
  | nil =>
    have hnode : ∀ k,(t.insertLabels i []).node k =
        if k=i then { t.node i with terminal := true } else t.node k := by
      intro k
      rw [SuffixTrie.insertLabels,node_set t.nodes i _ hi k]
    have hlen : (t.insertLabels i []).nodes.length=t.nodes.length := by
      simp [SuffixTrie.insertLabels]
    have hedge : ∀ k l,(t.insertLabels i []).edge k l=t.edge k l := by
      intro k l
      rw [edge,hnode k,edge]
      by_cases hk : k=i
      · rw [if_pos hk,hk]
      · rw [if_neg hk]
    refine ⟨name,i,⟨?_,h.root,?_,?_,?_⟩,⟨by omega,fun _ _ => rfl⟩,by omega,(append_nil _).symm,?_⟩
    · rw [hlen]
      exact h.pos
    · rw [hlen]
      exact h.inj
    · intro k hk l j
      rw [hlen] at hk ⊢
      rw [hedge,h.edge_iff k hk l j]
    · rw [hlen]
      exact h.closed
    · intro k
      rw [hnode k]
      by_cases hk : k=i <;> simp [hk]
  | cons label labels ih =>
    obtain ⟨name₁,hnamed₁,hext₁,hlt,hword,hterm₁⟩ := h.descend hi label
    obtain ⟨name₂,j,hnamed₂,hext₂,hj,hwordj,hterm₂⟩ := ih hnamed₁ hlt
    refine ⟨name₂,j,hnamed₂,⟨?_,?_⟩,hj,?_,?_⟩
    · exact Nat.le_trans hext₁.length_le hext₂.length_le
    · intro k hk
      rw [← hext₁.same k hk]
      exact hext₂.same k (Nat.lt_of_lt_of_le hk hext₁.length_le)
    · rw [hwordj,hword,append_assoc,singleton_append]
    · intro k
      rw [← hterm₁ k]
      exact hterm₂ k

theorem Named.prefix_node (h : t.Named name) {j : Nat} (hj : j<t.nodes.length)
    {base : List String} {label : String} {word : List String}
    (hname : name j=base++label::word) : ∃ m<t.nodes.length,name m=base++[label] := by
  induction word using reverseRecOn generalizing j with
  | nil => exact ⟨j,hj,hname⟩
  | append_singleton word last ih =>
    have hsnoc : name j=(base++label::word)++[last] := by
      rw [hname]
      simp
    obtain ⟨m,hm,hmw⟩ := h.closed j hj _ _ hsnoc
    exact ih hm hmw

theorem Named.containsLabels (h : t.Named name) {i : Nat} (hi : i<t.nodes.length)
    (labels : List String) :
    t.containsLabels i labels=true ↔ ∃ j<t.nodes.length,∃ word,word≠[] ∧
      word <+: labels ∧ name j=name i++word ∧ (t.node j).terminal=true := by
  induction labels generalizing i with
  | nil =>
    simp only [SuffixTrie.containsLabels,Bool.false_eq_true,false_iff]
    rintro ⟨j,-,word,hne,hpre,-⟩
    exact hne (prefix_nil.mp hpre)
  | cons label labels ih =>
    have hlookup : (t.node i).children.lookup label=t.edge i label := rfl
    rw [SuffixTrie.containsLabels,hlookup]
    cases hedge : t.edge i label with
    | none =>
      simp only [Bool.false_eq_true,false_iff]
      rintro ⟨j,hj,word,hne,hpre,hname,-⟩
      cases word with
      | nil => exact hne rfl
      | cons l word =>
        obtain ⟨rfl,-⟩ := cons_prefix_cons.mp hpre
        obtain ⟨m,hm,hmw⟩ := h.prefix_node hj hname
        exact h.missing_word hi hedge hm hmw
    | some next =>
      obtain ⟨hnext,hword⟩ := (h.edge_iff i hi label next).mp hedge
      simp only [Bool.or_eq_true]
      rw [ih hnext]
      constructor
      · rintro (hterm | ⟨j,hj,word,-,hpre,hname,hterm⟩)
        · exact ⟨next,hnext,[label],by simp,by simp,hword,hterm⟩
        · refine ⟨j,hj,label::word,by simp,by simpa using hpre,?_,hterm⟩
          rw [hname,hword,append_assoc,singleton_append]
      · rintro ⟨j,hj,word,hne,hpre,hname,hterm⟩
        cases word with
        | nil => exact absurd rfl hne
        | cons l word =>
          obtain ⟨rfl,hrest⟩ := cons_prefix_cons.mp hpre
          have hname' : name j=name next++word := by
            rw [hname,hword,append_assoc,singleton_append]
          by_cases hnil : word=[]
          · subst hnil
            rw [append_nil] at hname'
            have := h.inj j hj next hnext hname'
            exact .inl (this ▸ hterm)
          · exact .inr ⟨j,hj,word,hnil,hrest,hname',hterm⟩

end Naming

def labels (value : String) : List String := (RustStr.split value '.').reverse

/-- The terminal nodes stand for the given words. -/
def Stores (t : SuffixTrie) (words : Set (List String)) : Prop :=
  ∃ name,t.Named name ∧ ∀ word,word∈words ↔
    ∃ j<t.nodes.length,name j=word ∧ (t.node j).terminal=true

theorem new_stores : new.Stores ∅ := by
  refine ⟨_,new_named,fun word => ?_⟩
  simp only [Set.mem_empty_iff_false,false_iff]
  rintro ⟨j,hj,-,hterm⟩
  simp only [new,length_singleton,Nat.lt_one_iff] at hj
  subst hj
  cases hterm

variable {words : Set (List String)}

theorem Stores.insert (h : t.Stores words)
    (value : String) : (t.insert value).Stores (Set.insert (labels value) words) := by
  obtain ⟨name,hnamed,hwords⟩ := h
  obtain ⟨name',j,hnamed',hext,hj,hword,hterm⟩ := hnamed.insertLabels hnamed.pos (labels value)
  rw [hnamed.root,nil_append] at hword
  have hinsert : t.insert value=t.insertLabels 0 (labels value) := rfl
  rw [hinsert]
  refine ⟨name',hnamed',fun word => ?_⟩
  have hset : word∈Set.insert (labels value) words ↔ word=labels value ∨ word∈words := Iff.rfl
  rw [hset,hwords word]
  constructor
  · rintro (rfl | ⟨k,hk,hkw,hkt⟩)
    · exact ⟨j,hj,hword,by simp [hterm]⟩
    · refine ⟨k,Nat.lt_of_lt_of_le hk hext.length_le,by rw [hext.same k hk,hkw],?_⟩
      rw [hterm,hkt,Bool.true_or]
  · rintro ⟨k,hk,hkw,hkt⟩
    rw [hterm k,Bool.or_eq_true,decide_eq_true_eq] at hkt
    rcases hkt with hold | rfl
    · -- a terminal of the old trie is one of its nodes
      have hlt : k<t.nodes.length := by
        by_contra hge
        rw [node_of_le (by omega)] at hold
        cases hold
      exact .inr ⟨k,hlt,by rw [← hext.same k hlt,hkw],hold⟩
    · exact .inl (by rw [← hkw,hword])

theorem Stores.foldl_insert (h : t.Stores words) (values : List String) :
    (values.foldl SuffixTrie.insert t).Stores {word | word∈words ∨ ∃ v∈values,word=labels v} := by
  induction values generalizing t words with
  | nil => simpa using h
  | cons v values ih =>
    have hstep := ih (h.insert v)
    have heq : {word | word∈Set.insert (labels v) words ∨ ∃ u∈values,word=labels u} =
        {word | word∈words ∨ ∃ u∈v::values,word=labels u} := by
      ext word
      have hset : word∈Set.insert (labels v) words ↔ word=labels v ∨ word∈words := Iff.rfl
      simp only [Set.mem_ofPred_eq,hset,exists_mem_cons_iff]
      tauto
    rw [← heq]
    exact hstep

theorem Stores.contains (h : t.Stores words) (qname : String) :
    t.contains qname=true ↔ ∃ word∈words,word≠[] ∧ word <+: labels qname := by
  obtain ⟨name,hnamed,hwords⟩ := h
  rw [SuffixTrie.contains,← labels,hnamed.containsLabels hnamed.pos,hnamed.root]
  constructor
  · rintro ⟨j,hj,word,hne,hpre,hname,hterm⟩
    exact ⟨word,(hwords word).mpr ⟨j,hj,hname,hterm⟩,hne,hpre⟩
  · rintro ⟨word,hword,hne,hpre⟩
    obtain ⟨j,hj,hname,hterm⟩ := (hwords word).mp hword
    exact ⟨j,hj,word,hne,hpre,hname,hterm⟩

end DaeRs.RuleSet.SuffixTrie
