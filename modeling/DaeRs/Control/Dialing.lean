import DaeRs.Control.Group
import Mathlib.Data.List.FinRange

/-! One dial through a group, node by node. The nodes are told apart by their place in the group, as
the references to them are, so that nothing here depends on their names. -/

namespace DaeRs.Control

open Config Routing List Function

theorem pairwise_orderedInsert {α : Type} {key : α → Nat} {lt : α → α → Prop} {a : α} {l : List α}
    (hl : l.Pairwise fun b c => key b<key c ∨ key b=key c ∧ lt b c) (ha : ∀ b∈l,lt a b) :
    (l.orderedInsert (fun b c => key b≤key c) a).Pairwise
      fun b c => key b<key c ∨ key b=key c ∧ lt b c := by
  induction l with
  | nil => exact pairwise_singleton _ _
  | cons b l ih =>
    obtain ⟨hb,htail⟩ := pairwise_cons.mp hl
    rw [orderedInsert_cons]
    split_ifs with hle
    · refine pairwise_cons.mpr ⟨fun c hc => ?_,hl⟩
      have hlt := ha c hc
      have hkey : key b≤key c := by
        rcases mem_cons.mp hc with rfl | hc
        · exact le_rfl
        · have := hb c hc
          omega
      rcases Nat.lt_or_eq_of_le (hle.trans hkey) with h | h
      · exact Or.inl h
      · exact Or.inr ⟨h,hlt⟩
    · refine pairwise_cons.mpr
        ⟨fun c hc => ?_,ih htail fun c hc => ha c (mem_cons_of_mem _ hc)⟩
      rcases (mem_orderedInsert _).mp hc with rfl | hc
      · exact Or.inl (Nat.lt_of_not_le hle)
      · exact hb c hc

theorem pairwise_insertionSort_key {α : Type} {key : α → Nat} {lt : α → α → Prop} {l : List α}
    (hl : l.Pairwise lt) :
    (l.insertionSort fun b c => key b≤key c).Pairwise
      fun b c => key b<key c ∨ key b=key c ∧ lt b c := by
  induction l with
  | nil => exact List.Pairwise.nil
  | cons a l ih =>
    obtain ⟨ha,htail⟩ := pairwise_cons.mp hl
    rw [insertionSort_cons]
    exact pairwise_orderedInsert (ih htail) fun b hb => ha b ((mem_insertionSort _).mp hb)

/-- What becomes of an attempt at a node: the time of a failure and its error, or the latency of a
success. -/
inductive DialOutcome where
  | failed (endedAt : Nat) (error : String)
  | connected (latencyMs : UInt64)
  deriving DecidableEq

def GroupNode.after (n : GroupNode) : DialOutcome → GroupNode
  | .failed endedAt _ => n.markDead endedAt
  | .connected latencyMs => n.markAlive latencyMs.toNat

/-- A node that failed is dead, and not alive before the cooldown after the failure is over; one
that connected is alive. -/
def GroupNode.Marked (before after : GroupNode) : DialOutcome → Prop
  | .failed endedAt _ => after.alive=false ∧ after.deadUntil=some (endedAt+nodeDeadCooldown) ∧
      after.lastLatencyMs=before.lastLatencyMs ∧ after.node=before.node ∧
      ∀ now,after.isAlive now=true ↔ endedAt+nodeDeadCooldown≤now
  | .connected latencyMs => after.alive=true ∧ after.deadUntil=none ∧
      after.lastLatencyMs=latencyMs.toNat ∧ after.node=before.node ∧ ∀ now,after.isAlive now=true

theorem GroupNode.after_marked (n : GroupNode) (outcome : DialOutcome) :
    n.Marked (n.after outcome) outcome := by
  cases outcome with
  | failed endedAt error => exact ⟨rfl,rfl,rfl,rfl,fun now => decide_eq_true_iff⟩
  | connected latencyMs => exact ⟨rfl,rfl,rfl,rfl,fun _ => rfl⟩

/-- One dial as its surroundings determine it: the clock, the random numbers and the servers. -/
structure Dial (n : Nat) where
  now : Nat
  shuffle : List (Fin n) → List (Fin n)
  shuffle_perm : ∀ order,(shuffle order).Perm order
  outcome : Fin n → DialOutcome
  finished : Nat

def Dial.Fails {n : Nat} (d : Dial n) (i : Fin n) : Prop :=
  ∃ endedAt error,d.outcome i=.failed endedAt error

/-- `GroupDialer` with its nodes by place. -/
structure GroupState (n : Nat) where
  name : String
  nodes : Fin n → GroupNode
  policy : PolicyType
  allDeadUntil : Option Nat

/-- The group after a dial, the nodes that were dialled, one after the other, and the node that the
connection goes through. -/
structure DialResult (n : Nat) where
  group : GroupState n
  dialled : List (Fin n)
  result : Except String (Fin n)

namespace GroupState

variable {n : Nat}

def new (name : String) (nodes : Fin n → OutboundNodeConfig) (policy : PolicyType) :
    GroupState n :=
  ⟨name,fun i => GroupNode.new (nodes i),policy,none⟩

variable (g : GroupState n)

def isAlive (now : Nat) (i : Fin n) : Bool := (g.nodes i).isAlive now

def latencyKey (i : Fin n) : Nat := (g.nodes i).latencyKey

def inGroupCooldown (now : Nat) : Bool := g.allDeadUntil.any fun deadline => decide (now<deadline)

def pool (now : Nat) : List (Fin n) :=
  let alive := (List.finRange n).filter (g.isAlive now)
  if alive.isEmpty then List.finRange n else alive

def orderedCandidates (d : Dial n) : List (Fin n) :=
  match g.policy with
  | .fixed => g.pool d.now
  | .random => d.shuffle (g.pool d.now)
  | .min | .minAvg10 | .minMovingAvg =>
    (g.pool d.now).insertionSort fun i j => g.latencyKey i≤g.latencyKey j

def mark (i : Fin n) (outcome : DialOutcome) : GroupState n :=
  { g with nodes := update g.nodes i ((g.nodes i).after outcome) }

def walk (d : Dial n) : GroupState n → List (Fin n) → Option String → DialResult n
  | g,[],lastErr =>
    ⟨{ g with allDeadUntil := some (d.finished+groupAllDeadCooldown) },[],
      .error (lastErr.getD ("group '" ++ g.name ++ "' has no candidate nodes"))⟩
  | g,i::rest,_ =>
    match d.outcome i with
    | .connected latencyMs =>
      ⟨{ g.mark i (.connected latencyMs) with allDeadUntil := none },[i],.ok i⟩
    | .failed endedAt error =>
      let r := walk d (g.mark i (.failed endedAt error)) rest (some error)
      { r with dialled := i::r.dialled }

def dial (d : Dial n) : DialResult n :=
  if g.inGroupCooldown d.now then
    ⟨g,[],.error ("group '" ++ g.name ++ "' all nodes dead (cooling down)")⟩
  else g.walk d (g.orderedCandidates d) none

section Order

variable (g : GroupState n)

def IsCandidate (now : Nat) (i : Fin n) : Prop := g.isAlive now i=true ∨ ∀ j,g.isAlive now j=false

/-- Which of two candidates the policy puts first: the latency policies keep the order of the group
between equal latencies. -/
def Precedes (i j : Fin n) : Prop :=
  match g.policy with
  | .fixed => i<j
  | .random => True
  | .min | .minAvg10 | .minMovingAvg =>
    g.latencyKey i<g.latencyKey j ∨ g.latencyKey i=g.latencyKey j ∧ i<j

theorem mem_pool {g : GroupState n} {now : Nat} {i : Fin n} :
    i∈g.pool now ↔ g.IsCandidate now i := by
  unfold pool IsCandidate
  dsimp only
  split_ifs with hempty
  · rw [List.isEmpty_iff,filter_eq_nil_iff] at hempty
    have hdead : ∀ j,g.isAlive now j=false := fun j => by
      simpa using hempty j (mem_finRange j)
    simp only [mem_finRange,true_iff]
    exact Or.inr hdead
  · have hsome : ¬∀ j,g.isAlive now j=false := by
      intro hdead
      apply hempty
      simp [filter_eq_nil_iff,hdead]
    simp only [mem_filter,mem_finRange,true_and,hsome,or_false]

theorem pool_sublist (now : Nat) : (g.pool now).Sublist (finRange n) := by
  unfold pool
  dsimp only
  split_ifs
  · exact List.Sublist.refl _
  · exact filter_sublist

theorem pool_pairwise_lt (now : Nat) : (g.pool now).Pairwise (·<·) :=
  (pairwise_lt_finRange n).sublist (g.pool_sublist now)

theorem orderedCandidates_perm (d : Dial n) : (g.orderedCandidates d).Perm (g.pool d.now) := by
  unfold orderedCandidates
  split
  · exact List.Perm.refl _
  · exact d.shuffle_perm _
  all_goals exact perm_insertionSort _ _

theorem mem_orderedCandidates {g : GroupState n} {d : Dial n} {i : Fin n} :
    i∈g.orderedCandidates d ↔ g.IsCandidate d.now i := by
  rw [(g.orderedCandidates_perm d).mem_iff,mem_pool]

theorem orderedCandidates_nodup (d : Dial n) : (g.orderedCandidates d).Nodup := by
  rw [(g.orderedCandidates_perm d).nodup_iff]
  exact (nodup_finRange n).sublist (g.pool_sublist d.now)

theorem orderedCandidates_pairwise (d : Dial n) : (g.orderedCandidates d).Pairwise g.Precedes := by
  have hpool := g.pool_pairwise_lt d.now
  unfold orderedCandidates Precedes
  split
  · exact hpool
  · exact pairwise_of_forall fun _ _ => trivial
  all_goals exact pairwise_insertionSort_key hpool

end Order

section Walk

variable {d : Dial n} (g : GroupState n)

theorem mark_nodes_self (i : Fin n) (outcome : DialOutcome) :
    (g.mark i outcome).nodes i=(g.nodes i).after outcome :=
  update_self _ _ _

theorem mark_nodes_of_ne {i j : Fin n} (h : j≠i) (outcome : DialOutcome) :
    (g.mark i outcome).nodes j=g.nodes j :=
  update_of_ne h _ _

theorem walk_connected {g : GroupState n} {i : Fin n} {rest : List (Fin n)}
    {lastErr : Option String}
    {latencyMs : UInt64} (h : d.outcome i=.connected latencyMs) :
    g.walk d (i::rest) lastErr =
      ⟨{ g.mark i (.connected latencyMs) with allDeadUntil := none },[i],.ok i⟩ := by
  simp only [walk,h]

theorem walk_failed {g : GroupState n} {i : Fin n} {rest : List (Fin n)} {lastErr : Option String}
    {endedAt : Nat} {error : String} (h : d.outcome i=.failed endedAt error) :
    g.walk d (i::rest) lastErr =
      { (g.mark i (.failed endedAt error)).walk d rest (some error) with
        dialled := i::((g.mark i (.failed endedAt error)).walk d rest (some error)).dialled } := by
  simp only [walk,h]

variable (order : List (Fin n)) (lastErr : Option String)

theorem walk_name : (g.walk d order lastErr).group.name=g.name ∧
      (g.walk d order lastErr).group.policy=g.policy := by
  induction order generalizing g lastErr with
  | nil => exact ⟨rfl,rfl⟩
  | cons i rest ih =>
    cases h : d.outcome i with
    | connected latencyMs =>
      rw [walk_connected h]
      exact ⟨rfl,rfl⟩
    | failed endedAt error =>
      rw [walk_failed h]
      exact ih (g.mark i (.failed endedAt error)) (some error)

/-- Either some candidate connects: those before it failed, and were dialled, and those after it are
not. Or all of them were dialled and failed. -/
theorem walk_cases : (∃ failed w rest latencyMs,order=failed++w::rest ∧ (∀ i∈failed,d.Fails i) ∧
        d.outcome w=.connected latencyMs ∧ (g.walk d order lastErr).dialled=failed++[w] ∧
        (g.walk d order lastErr).result=.ok w ∧
        (g.walk d order lastErr).group.allDeadUntil=none) ∨
      ((∀ i∈order,d.Fails i) ∧ (g.walk d order lastErr).dialled=order ∧
        (∃ error,(g.walk d order lastErr).result=.error error) ∧
        (g.walk d order lastErr).group.allDeadUntil =
          some (d.finished+groupAllDeadCooldown)) := by
  induction order generalizing g lastErr with
  | nil =>
    exact Or.inr ⟨fun i hi => absurd hi not_mem_nil,rfl,⟨_,rfl⟩,rfl⟩
  | cons i rest ih =>
    cases h : d.outcome i with
    | connected latencyMs =>
      rw [walk_connected h]
      exact Or.inl ⟨[],i,rest,latencyMs,rfl,fun i hi => absurd hi not_mem_nil,h,rfl,rfl,rfl⟩
    | failed endedAt error =>
      rw [walk_failed h]
      have hi : d.Fails i := ⟨endedAt,error,h⟩
      rcases ih (g.mark i (.failed endedAt error)) (some error) with hconnected | hfailed
      · obtain ⟨failed,w,after,latencyMs,hrest,hfails,hw,hdialled,hresult,hdead⟩ := hconnected
        refine Or.inl ⟨i::failed,w,after,latencyMs,by rw [hrest,cons_append],?_,hw,?_,hresult,hdead⟩
        · exact forall_mem_cons.mpr ⟨hi,hfails⟩
        · rw [hdialled,cons_append]
      · obtain ⟨hfails,hdialled,hresult,hdead⟩ := hfailed
        exact Or.inr ⟨forall_mem_cons.mpr ⟨hi,hfails⟩,by rw [hdialled],hresult,hdead⟩

theorem walk_dialled_isPrefix : (g.walk d order lastErr).dialled.IsPrefix order := by
  rcases g.walk_cases (d := d) order lastErr with h | h
  · obtain ⟨failed,w,rest,-,horder,-,-,hdialled,-,-⟩ := h
    rw [hdialled,horder]
    exact ⟨rest,by simp⟩
  · exact ⟨[],by simp [h.2.1]⟩

theorem walk_nodes {order : List (Fin n)} (horder : order.Nodup) (j : Fin n) :
    (g.walk d order lastErr).group.nodes j =
      if j∈(g.walk d order lastErr).dialled then (g.nodes j).after (d.outcome j)
      else g.nodes j := by
  induction order generalizing g lastErr with
  | nil => rfl
  | cons i rest ih =>
    obtain ⟨hi,hrest⟩ := nodup_cons.mp horder
    cases h : d.outcome i with
    | connected latencyMs =>
      rw [walk_connected h]
      by_cases hj : j=i
      · subst hj
        simpa only [mem_singleton,if_true,h] using g.mark_nodes_self j _
      · simpa only [mem_singleton,hj,if_false] using g.mark_nodes_of_ne hj _
    | failed endedAt error =>
      rw [walk_failed h]
      have hmark := ih (g.mark i (.failed endedAt error)) (some error) hrest
      simp only [mem_cons]
      rw [hmark]
      by_cases hj : j=i
      · subst hj
        -- the rest of the loop does not meet the node again
        have hlater : j∉((g.mark j (.failed endedAt error)).walk d rest (some error)).dialled :=
          fun hmem => hi ((walk_dialled_isPrefix _ _ _).subset hmem)
        rw [if_neg hlater,if_pos (Or.inl rfl),mark_nodes_self,h]
      · simp only [hj,false_or,g.mark_nodes_of_ne hj]

theorem dial_of_cooldown {g : GroupState n} (h : g.inGroupCooldown d.now=true) :
    g.dial d=⟨g,[],.error ("group '" ++ g.name ++ "' all nodes dead (cooling down)")⟩ := by
  rw [dial,if_pos h]

theorem dial_of_not_cooldown {g : GroupState n} (h : g.inGroupCooldown d.now=false) :
    g.dial d=g.walk d (g.orderedCandidates d) none := by
  rw [dial,if_neg (by simp [h])]

theorem dial_nodes (d : Dial n) (j : Fin n) : (g.dial d).group.nodes j =
      if j∈(g.dial d).dialled then (g.nodes j).after (d.outcome j) else g.nodes j := by
  cases h : g.inGroupCooldown d.now with
  | true =>
    rw [dial_of_cooldown h]
    rfl
  | false =>
    rw [dial_of_not_cooldown h]
    exact g.walk_nodes none (g.orderedCandidates_nodup d) j

theorem dial_name (d : Dial n) :
    (g.dial d).group.name=g.name ∧ (g.dial d).group.policy=g.policy := by
  cases h : g.inGroupCooldown d.now with
  | true =>
    rw [dial_of_cooldown h]
    exact ⟨rfl,rfl⟩
  | false =>
    rw [dial_of_not_cooldown h]
    exact g.walk_name _ none

end Walk

/-- The candidates of a dial are tried in the order of the policy, each at most once, until one
connects. Those that failed are dead, the one that connected is alive, no other has changed, and the
group cools down just if all failed. A group that cools down dials nothing and stays as it is. -/
theorem dial_spec (g : GroupState n) (d : Dial n) : (g.inGroupCooldown d.now=true →
      (g.dial d).dialled=[] ∧ (g.dial d).group=g ∧ ∃ error,(g.dial d).result=.error error) ∧
    (g.inGroupCooldown d.now=false →
      ∃ order : List (Fin n),order.Nodup ∧ (∀ i,i∈order ↔ g.IsCandidate d.now i) ∧
        order.Pairwise g.Precedes ∧
        ((∃ failed w rest latencyMs,order=failed++w::rest ∧ (∀ i∈failed,d.Fails i) ∧
            d.outcome w=.connected latencyMs ∧ (g.dial d).dialled=failed++[w] ∧
            (g.dial d).result=.ok w ∧ (g.dial d).group.allDeadUntil=none) ∨
          ((∀ i∈order,d.Fails i) ∧ (g.dial d).dialled=order ∧
            (∃ error,(g.dial d).result=.error error) ∧
            (g.dial d).group.allDeadUntil=some (d.finished+groupAllDeadCooldown))) ∧
        (∀ i∈(g.dial d).dialled,(g.nodes i).Marked ((g.dial d).group.nodes i) (d.outcome i)) ∧
        (∀ i∉(g.dial d).dialled,(g.dial d).group.nodes i=g.nodes i) ∧
        (g.dial d).group.name=g.name ∧ (g.dial d).group.policy=g.policy) := by
  constructor
  · intro hcooldown
    rw [dial_of_cooldown hcooldown]
    exact ⟨rfl,rfl,_,rfl⟩
  · intro hcooldown
    have hcases := g.walk_cases (d := d) (g.orderedCandidates d) none
    rw [← dial_of_not_cooldown hcooldown] at hcases
    refine ⟨g.orderedCandidates d,g.orderedCandidates_nodup d,fun i => mem_orderedCandidates,
      g.orderedCandidates_pairwise d,hcases,fun i hi => ?_,fun i hi => ?_,g.dial_name d⟩
    · rw [dial_nodes,if_pos hi]
      exact GroupNode.after_marked _ _
    · rw [dial_nodes,if_neg hi]

theorem dial_spec_falls_back :
    let nodes : Fin 2 → OutboundNodeConfig := fun _ => ⟨"node", "socks5", "192.0.2.1:1080"⟩
    let g := new "auto" nodes .fixed
    let d : Dial 2 := ⟨0,id,List.Perm.refl,
      fun i => if i=0 then .failed 7 "refused" else .connected 30,9⟩
    g.inGroupCooldown d.now=false ∧ (g.dial d).dialled=[0,1] ∧
      ((g.dial d).group.nodes 0).alive=false ∧ (g.dial d).group.isAlive 60006 0=false ∧
      (g.dial d).group.isAlive 60007 0=true ∧ (g.dial d).group.isAlive 60006 1=true := by
  intro nodes g d
  have hcooldown : g.inGroupCooldown d.now=false := rfl
  have hdialled : (g.dial d).dialled=[0,1] := by decide +kernel
  obtain ⟨-,-,-,-,-,hnodes,-⟩ := (dial_spec g d).2 hcooldown
  rw [hdialled] at hnodes
  obtain ⟨hdead,-,-,-,hagain⟩ := hnodes 0 (by decide)
  obtain ⟨-,-,-,-,halive⟩ := hnodes 1 (by decide)
  exact ⟨hcooldown,hdialled,hdead,Bool.eq_false_iff.mpr fun h => absurd ((hagain 60006).mp h) (by decide),
    (hagain 60007).mpr (by decide),halive 60006⟩

/-- The group after dials through it, one after the other. -/
def dials (g : GroupState n) (ds : List (Dial n)) : GroupState n :=
  ds.foldl (fun g d => (g.dial d).group) g

/-- Whatever was dialled, a node is out of use only for the cooldown after an attempt at it that
failed. -/
theorem alive_or_failed (name : String) (nodes : Fin n → OutboundNodeConfig) (policy : PolicyType)
    (ds : List (Dial n)) (now : Nat) (i : Fin n) :
    let g := new name nodes policy
    (g.dials ds).isAlive now i=true ∨ ∃ before d after endedAt error,ds=before++d::after ∧
      i∈((g.dials before).dial d).dialled ∧ d.outcome i=.failed endedAt error ∧
      now<endedAt+nodeDeadCooldown := by
  intro g
  induction ds using reverseRecOn with
  | nil => exact Or.inl rfl
  | append_singleton ds d ih =>
    have hdials : g.dials (ds++[d])=((g.dials ds).dial d).group := foldl_append
    rw [hdials,isAlive,dial_nodes]
    split_ifs with hi
    · cases hout : d.outcome i with
      | connected latencyMs => exact Or.inl rfl
      | failed endedAt error =>
        by_cases hnow : now<endedAt+nodeDeadCooldown
        · exact Or.inr ⟨ds,d,[],endedAt,error,rfl,hi,hout,hnow⟩
        · exact Or.inl (decide_eq_true (Nat.le_of_not_lt hnow))
    · refine ih.imp_right fun h => ?_
      obtain ⟨before,e,after,endedAt,error,rfl,h⟩ := h
      exact ⟨before,e,after++[d],endedAt,error,by simp,h⟩

section Names

def toDialer (g : GroupState n) : GroupDialer := ⟨g.name,List.ofFn g.nodes,g.policy,g.allDeadUntil⟩

/-- The attempts end as the dial says of its nodes. -/
structure Agrees (nodes : Fin n → OutboundNodeConfig) (d : Dial n) (a : Attempts) : Prop where
  now : a.now=d.now
  finished : a.finished=d.finished
  failed : ∀ i endedAt error,d.outcome i=.failed endedAt error →
    a.latency (nodes i).name=none ∧ a.ended (nodes i).name=endedAt
  connected : ∀ i latencyMs,d.outcome i=.connected latencyMs →
    a.latency (nodes i).name=some latencyMs.toNat

variable {nodes : Fin n → OutboundNodeConfig} {d : Dial n} {a : Attempts} {g : GroupState n}

theorem mark_node (hg : ∀ i,(g.nodes i).node=nodes i) (i : Fin n) (outcome : DialOutcome)
    (j : Fin n) : ((g.mark i outcome).nodes j).node=nodes j := by
  by_cases hj : j=i
  · subst hj
    rw [mark_nodes_self,← hg]
    cases outcome <;> rfl
  · rw [mark_nodes_of_ne g hj,hg]

theorem toDialer_setNode (hg : ∀ i,(g.nodes i).node=nodes i)
    (hnames : Injective fun i => (nodes i).name) (i : Fin n) (outcome : DialOutcome) :
    g.toDialer.setNode (nodes i).name (·.after outcome)=(g.mark i outcome).toDialer := by
  have hnodes : ∀ j,(if (g.nodes j).node.name=(nodes i).name
      then (g.nodes j).after outcome else g.nodes j)=(g.mark i outcome).nodes j := by
    intro j
    rw [hg,if_congr hnames.eq_iff rfl rfl]
    split_ifs with hj
    · rw [hj,mark_nodes_self]
    · rw [mark_nodes_of_ne g hj]
  simp only [GroupDialer.setNode,toDialer,map_ofFn,comp_def,hnodes]
  rfl

theorem toDialer_orderedCandidates (hnow : a.now=d.now)
    (hshuffle : ∀ order,a.shuffle.apply (order.map g.nodes)=(d.shuffle order).map g.nodes) :
    g.toDialer.orderedCandidates a.now a.shuffle=(g.orderedCandidates d).map g.nodes := by
  have hpool : (if ((ofFn g.nodes).filter (·.isAlive d.now)).isEmpty then ofFn g.nodes
      else (ofFn g.nodes).filter (·.isAlive d.now))=(g.pool d.now).map g.nodes := by
    rw [ofFn_eq_map,filter_map,isEmpty_map]
    exact (apply_ite _ _ _ _).symm
  unfold GroupDialer.orderedCandidates orderedCandidates
  simp only [toDialer,hnow,hpool]
  cases g.policy
  case random => exact hshuffle _
  case fixed => rfl
  all_goals exact (map_insertionSort _ _ g.nodes _ fun _ _ _ _ => Iff.rfl).symm

theorem toDialer_walk (h : Agrees nodes d a) (hnames : Injective fun i => (nodes i).name)
    (hg : ∀ i,(g.nodes i).node=nodes i) {order : List (Fin n)} (lastErr : Option String)
    {candidates : List GroupNode} (hcandidates : candidates.map (·.node)=order.map nodes) :
    g.toDialer.walk a candidates =
      ((g.walk d order lastErr).group.toDialer,
        (g.walk d order lastErr).result.toOption.map nodes) := by
  induction order generalizing g lastErr candidates with
  | nil =>
    rw [map_nil,map_eq_nil_iff] at hcandidates
    subst hcandidates
    simp only [GroupDialer.walk,walk,h.finished]
    rfl
  | cons i rest ih =>
    obtain ⟨c,cs,rfl,hc,hcs⟩ := map_eq_cons_iff.mp hcandidates
    have hset := toDialer_setNode hg hnames i (d.outcome i)
    cases ho : d.outcome i with
    | connected latencyMs =>
      simp only [ho,GroupNode.after] at hset
      rw [walk_connected ho,GroupDialer.walk]
      simp only [hc,h.connected i latencyMs ho,hset]
      rfl
    | failed endedAt error =>
      simp only [ho,GroupNode.after] at hset
      obtain ⟨hlatency,hended⟩ := h.failed i endedAt error ho
      rw [walk_failed ho,GroupDialer.walk]
      simp only [hc,hlatency,hended,hset]
      exact ih (mark_node hg i _) (some error) hcs

/-- Where the names of the nodes differ, as they do in every group that is built, finding the nodes
by name comes to the same. -/
theorem toDialer_tryNodes (h : Agrees nodes d a)
    (hnames : Injective fun i => (nodes i).name) (hg : ∀ i,(g.nodes i).node=nodes i)
    (hshuffle : ∀ order,a.shuffle.apply (order.map g.nodes)=(d.shuffle order).map g.nodes) :
    g.toDialer.tryNodes a=((g.dial d).group.toDialer,(g.dial d).result.toOption.map nodes) := by
  have hcooldown : g.toDialer.inGroupCooldown a.now=g.inGroupCooldown d.now := by
    rw [h.now]
    rfl
  unfold GroupDialer.tryNodes dial
  rw [hcooldown]
  split_ifs
  · rfl
  · rw [toDialer_orderedCandidates h.now hshuffle]
    apply toDialer_walk h hnames hg none
    rw [map_map]
    exact map_congr_left fun i _ => hg i

end Names

end GroupState

end DaeRs.Control
