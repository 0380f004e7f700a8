import DaeRs.Routing.Params

/-! Outbound groups: the nodes that their selectors resolve to, and the dialer that tries them. -/

namespace DaeRs.Control

open Config RuleSet Routing List Function

/-- `GroupNode`: a node with its dialer. Times are milliseconds of a monotonic clock. -/
structure GroupNode where
  node : OutboundNodeConfig
  alive : Bool
  deadUntil : Option Nat
  lastLatencyMs : Nat
  deriving DecidableEq

def nodeDeadCooldown : Nat := 60000

def groupAllDeadCooldown : Nat := 10000

namespace GroupNode

def new (node : OutboundNodeConfig) : GroupNode := ⟨node,true,none,0⟩

def isAlive (n : GroupNode) (now : Nat) : Bool :=
  n.alive || n.deadUntil.all fun deadline => decide (now≥deadline)

def markAlive (n : GroupNode) (latencyMs : Nat) : GroupNode :=
  { n with alive := true,lastLatencyMs := latencyMs,deadUntil := none }

def markDead (n : GroupNode) (now : Nat) : GroupNode :=
  { n with alive := false,deadUntil := some (now+nodeDeadCooldown) }

def latencyKey (n : GroupNode) : Nat :=
  if n.lastLatencyMs=0 then 2^64-1 else n.lastLatencyMs

end GroupNode

/-- The order that a random generator gives. -/
structure Shuffle where
  apply : List GroupNode → List GroupNode
  perm : ∀ l,(apply l).Perm l

/-- What happens while a connection is dialled: when the attempt at each node ends, and its latency
if it succeeds. -/
structure Attempts where
  now : Nat
  shuffle : Shuffle
  ended : String → Nat
  latency : String → Option Nat
  finished : Nat

structure GroupDialer where
  name : String
  nodes : List GroupNode
  policy : PolicyType
  allDeadUntil : Option Nat

namespace GroupDialer

variable (g : GroupDialer)

def inGroupCooldown (now : Nat) : Bool := g.allDeadUntil.any fun deadline => decide (now<deadline)

def orderedCandidates (now : Nat) (shuffle : Shuffle) : List GroupNode :=
  let alive := g.nodes.filter fun n => n.isAlive now
  let pool := if alive.isEmpty then g.nodes else alive
  match g.policy with
  | .fixed => pool
  | .random => shuffle.apply pool
  | .min | .minAvg10 | .minMovingAvg =>
    pool.insertionSort fun a b => a.latencyKey≤b.latencyKey

def setNode (name : String) (f : GroupNode → GroupNode) : GroupDialer :=
  { g with nodes := g.nodes.map fun n => if n.node.name=name then f n else n }

def walk (a : Attempts) : GroupDialer → List GroupNode → GroupDialer×Option OutboundNodeConfig
  | g,[] => ({ g with allDeadUntil := some (a.finished+groupAllDeadCooldown) },none)
  | g,n::rest =>
    match a.latency n.node.name with
    | some latencyMs =>
      ({ g.setNode n.node.name (·.markAlive latencyMs) with allDeadUntil := none },some n.node)
    | none => walk a (g.setNode n.node.name (·.markDead (a.ended n.node.name))) rest

def tryNodes (a : Attempts) : GroupDialer×Option OutboundNodeConfig :=
  if g.inGroupCooldown a.now then (g,none)
  else g.walk a (g.orderedCandidates a.now a.shuffle)

def tryDial (a : Attempts) : GroupDialer×Option OutboundNodeConfig := g.tryNodes a

def tryUdpDial (a : Attempts) : GroupDialer×Option OutboundNodeConfig := g.tryNodes a

def members : List OutboundNodeConfig := g.nodes.map GroupNode.node

theorem mem_orderedCandidates {g : GroupDialer} {now : Nat} {shuffle : Shuffle} {n : GroupNode}
    (h : n∈g.orderedCandidates now shuffle) : n∈g.nodes := by
  have hpool : ∀ b∈(if (g.nodes.filter fun n => n.isAlive now).isEmpty then g.nodes
      else g.nodes.filter fun n => n.isAlive now),b∈g.nodes := by
    intro b hb
    split_ifs at hb
    · exact hb
    · exact mem_of_mem_filter hb
  apply hpool
  unfold orderedCandidates at h
  cases hp : g.policy <;> simp only [hp] at h
  case fixed => exact h
  case random => exact (shuffle.perm _).mem_iff.mp h
  all_goals exact (perm_insertionSort _ _).mem_iff.mp h

theorem setNode_members (name : String) {f : GroupNode → GroupNode}
    (hf : ∀ n,(f n).node=n.node) : (g.setNode name f).members=g.members := by
  simp only [members,setNode,map_map]
  apply map_congr_left
  intro n _
  simp only [comp_apply]
  split_ifs
  · exact hf n
  · rfl

theorem walk_spec (a : Attempts) (g : GroupDialer) (candidates : List GroupNode) :
    (g.walk a candidates).1.members=g.members ∧
      ∀ node,(g.walk a candidates).2=some node → ∃ n∈candidates,n.node=node := by
  induction candidates generalizing g with
  | nil => exact ⟨rfl,fun _ h => by cases h⟩
  | cons n rest ih =>
    rw [walk]
    split
    · next latencyMs _ =>
      refine ⟨setNode_members g _ fun _ => rfl,fun node h => ?_⟩
      exact ⟨n,by simp,Option.some.inj h⟩
    · obtain ⟨hmembers,hnode⟩ := ih (g.setNode n.node.name (·.markDead (a.ended n.node.name)))
      refine ⟨hmembers.trans (setNode_members g _ fun _ => rfl),fun node h => ?_⟩
      obtain ⟨c,hc,hcn⟩ := hnode node h
      exact ⟨c,by simp [hc],hcn⟩

theorem tryNodes_spec (a : Attempts) : (g.tryNodes a).1.members=g.members ∧
      ∀ node,(g.tryNodes a).2=some node → node∈g.members := by
  unfold tryNodes
  split_ifs
  · exact ⟨rfl,fun _ h => by cases h⟩
  · obtain ⟨hmembers,hnode⟩ := walk_spec a g (g.orderedCandidates a.now a.shuffle)
    refine ⟨hmembers,fun node h => ?_⟩
    obtain ⟨c,hc,rfl⟩ := hnode node h
    exact mem_map_of_mem (mem_orderedCandidates hc)

end GroupDialer

/-- Whether `dialer::build_dialer` builds a node's dialer, and whether the address of the legacy
proxy parses. -/
structure Builders where
  buildDialer : OutboundNodeConfig → Except Error Unit
  legacyDialer : Except Error Unit

def Builders.builds (b : Builders) (node : OutboundNodeConfig) : Bool :=
  (b.buildDialer node).toOption.isSome

section Groups

variable (env : Env) (b : Builders)

def selectNodes (nodes : List OutboundNodeConfig) : NodeSelector → List OutboundNodeConfig
  | .list names => names.filterMap fun name => nodes.find? fun n => n.name=name
  | .regex pattern =>
    match env.regexNew pattern with
    | some re => nodes.filter fun n => re n.name
    | none => []

def pushNode (result : List OutboundNodeConfig) (node : OutboundNodeConfig) :
    List OutboundNodeConfig :=
  if result.any fun n => n.name=node.name then result else result++[node]

def resolveGroupNodes (group : OutboundGroupConfig) (nodes : List OutboundNodeConfig) :
    List OutboundNodeConfig :=
  (group.selectors.flatMap (selectNodes env nodes)).foldl pushNode []

def anchor (selected : String) (nodes : List GroupNode) : List GroupNode :=
  match nodes.find? fun n => n.node.name=selected with
  | some n => n::nodes.eraseP fun n => n.node.name=selected
  | none => nodes

def groupDialer (nodes : List OutboundNodeConfig) (group : OutboundGroupConfig) :
    Option GroupDialer :=
  let built := ((resolveGroupNodes env group nodes).filter b.builds).map GroupNode.new
  if built.isEmpty then none
  else match group.groupType,group.selected with
    | .select,some selected => some ⟨group.name,anchor selected built,.fixed,none⟩
    | _,_ => some ⟨group.name,built,group.policy.getD .fixed,none⟩

def buildOutboundGroupDialers (outbounds : OutboundsConfig) : String → Option GroupDialer :=
  outbounds.groups.foldl (fun map group =>
    match groupDialer env b outbounds.nodes group with
    | none => map
    | some d => update map group.name (some d)) fun _ => none

end Groups

section Candidates

variable {env : Env} {b : Builders}

theorem pushNode_names_nodup {result : List OutboundNodeConfig}
    (h : (result.map (·.name)).Nodup) (node : OutboundNodeConfig) :
    ((pushNode result node).map (·.name)).Nodup := by
  unfold pushNode
  split_ifs with hseen
  · exact h
  · rw [map_append,map_singleton,nodup_append]
    refine ⟨h,nodup_singleton _,?_⟩
    intro x hx y hy hxy
    obtain ⟨n,hn,rfl⟩ := mem_map.mp hx
    rw [mem_singleton.mp hy] at hxy
    exact hseen (any_eq_true.mpr ⟨n,hn,by simpa using hxy⟩)

theorem resolveGroupNodes_names_nodup (env : Env) (group : OutboundGroupConfig)
    (nodes : List OutboundNodeConfig) :
    ((resolveGroupNodes env group nodes).map (·.name)).Nodup := by
  have hfold : ∀ (picked result : List OutboundNodeConfig),(result.map (·.name)).Nodup →
      ((picked.foldl pushNode result).map (·.name)).Nodup := by
    intro picked
    induction picked with
    | nil => exact fun _ h => h
    | cons node rest ih => exact fun result h => ih _ (pushNode_names_nodup h node)
  exact hfold _ [] nodup_nil

theorem mem_anchor {selected : String} {nodes : List GroupNode} {n : GroupNode}
    (h : n∈anchor selected nodes) : n∈nodes := by
  unfold anchor at h
  split at h
  · next m hm =>
    rcases mem_cons.mp h with rfl | h
    · exact mem_of_find?_eq_some hm
    · exact mem_of_mem_eraseP h
  · exact h

theorem groupDialer_members {nodes : List OutboundNodeConfig} {group : OutboundGroupConfig}
    {d : GroupDialer} (h : groupDialer env b nodes group=some d) {node : OutboundNodeConfig}
    (hnode : node∈d.members) :
    node∈resolveGroupNodes env group nodes ∧ b.builds node=true := by
  have hbuilt : ∀ n∈((resolveGroupNodes env group nodes).filter b.builds).map GroupNode.new,
      n.node∈resolveGroupNodes env group nodes ∧ b.builds n.node=true := by
    intro n hn
    obtain ⟨m,hm,rfl⟩ := mem_map.mp hn
    exact mem_filter.mp hm
  obtain ⟨n,hn,rfl⟩ := mem_map.mp hnode
  apply hbuilt
  unfold groupDialer at h
  dsimp only at h
  split_ifs at h
  split at h
  · cases h
    exact mem_anchor hn
  · cases h
    exact hn

theorem groupDialer_eq_none {nodes : List OutboundNodeConfig} {group : OutboundGroupConfig} :
    groupDialer env b nodes group=none ↔
      ∀ node∈resolveGroupNodes env group nodes,b.builds node=false := by
  have hempty : (((resolveGroupNodes env group nodes).filter b.builds).map
      GroupNode.new).isEmpty=true ↔
        ∀ node∈resolveGroupNodes env group nodes,b.builds node=false := by
    simp [filter_eq_nil_iff]
  rw [← hempty,groupDialer]
  split_ifs with hnil
  · simp [hnil]
  · split <;> simp [hnil]

variable (env b) in
def Registered (nodes : List OutboundNodeConfig) (groups : List OutboundGroupConfig)
    (name : String) : Option GroupDialer → Prop
  | some d => ∃ g∈groups,g.name=name ∧ groupDialer env b nodes g=some d
  | none => ∀ g∈groups,g.name=name → groupDialer env b nodes g=none

theorem Registered.append {nodes : List OutboundNodeConfig} {groups : List OutboundGroupConfig}
    {name : String} {o : Option GroupDialer} (h : Registered env b nodes groups name o)
    {last : OutboundGroupConfig} (hlast : last.name=name → groupDialer env b nodes last=none) :
    Registered env b nodes (groups++[last]) name o := by
  cases o with
  | none =>
    intro g hg hname
    rcases mem_append.mp hg with hg | hg
    · exact h g hg hname
    · rw [mem_singleton.mp hg] at hname ⊢
      exact hlast hname
  | some d =>
    obtain ⟨g,hg,hrest⟩ := h
    exact ⟨g,by simp [hg],hrest⟩

theorem buildOutboundGroupDialers_spec (env : Env) (b : Builders) (outbounds : OutboundsConfig)
    (name : String) :
    Registered env b outbounds.nodes outbounds.groups name
      (buildOutboundGroupDialers env b outbounds name) := by
  unfold buildOutboundGroupDialers
  -- the groups are added one by one: the last of a name that has a dialer stays
  induction outbounds.groups using reverseRecOn with
  | nil => exact fun _ h => by cases h
  | append_singleton groups last ih =>
    rw [foldl_append,foldl_cons,foldl_nil]
    cases hlast : groupDialer env b outbounds.nodes last with
    | none => exact ih.append fun _ => hlast
    | some d =>
      by_cases hname : name=last.name
      · rw [hname]
        dsimp only
        rw [update_self]
        exact ⟨last,by simp,rfl,hlast⟩
      · dsimp only
        rw [update_of_ne hname]
        exact ih.append fun h => absurd h.symm hname

end Candidates

end DaeRs.Control
