import DaeRs.Control.Group
import DaeRs.Lib.Runs

/-! The requests that change an outbound group. They change the stored configuration; the dialers
were built from it when the control plane started. -/

namespace DaeRs.Control

open Config RuleSet Routing RustStr Runs List Fallible Function

inductive ApiError where
  | unauthorized
  | notFound (message : String)
  | unprocessable (message : String)
  | internal (message : String)
  deriving DecidableEq

def verifyAuth (token : String) (authorization : Option String) : Except ApiError Unit :=
  match authorization.bind fun header => stripStart header "Bearer " with
  | some given => if given=token then .ok () else .error .unauthorized
  | none => .error .unauthorized

def updateGroup (name : String) (f : OutboundGroupConfig → Except ApiError OutboundGroupConfig) :
    List OutboundGroupConfig → Except ApiError (List OutboundGroupConfig)
  | [] => .error (.notFound s!"outbound group '{name}' not found")
  | group::rest =>
    if group.name=name then (f group).map (·::rest)
    else (updateGroup name f rest).map (group::·)

def parsePolicy : String → Option PolicyType
  | "fixed" => some .fixed
  | "random" => some .random
  | "min" => some .min
  | "min_avg10" => some .minAvg10
  | "min_moving_avg" => some .minMovingAvg
  | _ => none

def pushName (result : List String) (name : String) : List String :=
  if name∈result then result else result++[name]

def selectNames (env : Env) (nodes : List OutboundNodeConfig) : NodeSelector → List String
  | .list names => names
  | .regex pattern =>
    match env.regexNew (if pattern = "*" then ".*" else pattern) with
    | some re => (nodes.map (·.name)).filter re
    | none => []

def collectGroupNodeNames (env : Env) (group : OutboundGroupConfig)
    (nodes : List OutboundNodeConfig) : List String :=
  (group.selectors.flatMap (selectNames env nodes)).foldl pushName []

/-- The body of a request for a group. -/
inductive GroupUpdate where
  | policy (policy : String)
  | selected (selected : String)
  deriving DecidableEq

def updatePolicy (name policy : String) (group : OutboundGroupConfig) :
    Except ApiError OutboundGroupConfig :=
  match group.groupType with
  | .select => .error (.unprocessable
      s!"group '{name}' is of type select, policy modification is not supported")
  | .auto =>
    match parsePolicy policy with
    | some p => .ok { group with policy := some p }
    | none => .error (.unprocessable
        s!"unknown policy '{policy}', expected fixed/random/min/min_avg10/min_moving_avg")

def updateSelected (env : Env) (nodes : List OutboundNodeConfig) (name selected : String)
    (group : OutboundGroupConfig) : Except ApiError OutboundGroupConfig :=
  match group.groupType with
  | .auto => .error (.unprocessable
      s!"group '{name}' is of type auto, selected modification is not supported")
  | .select =>
    if selected∈collectGroupNodeNames env group nodes then
      .ok { group with selected := some selected }
    else .error (.unprocessable
      s!"node '{selected}' is not in the reachable set of group '{name}'")

def groupHandler (token : String) (config : Option OutboundsConfig) (authorization : Option String)
    (name : String)
    (f : List OutboundNodeConfig → OutboundGroupConfig → Except ApiError OutboundGroupConfig) :
    Except ApiError OutboundsConfig := do
  verifyAuth token authorization
  match config with
  | none => .error (.internal "configuration not loaded")
  | some outbounds =>
    (updateGroup name (f outbounds.nodes) outbounds.groups).map fun groups => { outbounds with groups }

def groupPolicyHandler (token : String) (config : Option OutboundsConfig)
    (authorization : Option String) (name policy : String) : Except ApiError OutboundsConfig :=
  groupHandler token config authorization name fun _ => updatePolicy name policy

def groupSelectedHandler (env : Env) (token : String) (config : Option OutboundsConfig)
    (authorization : Option String) (name selected : String) : Except ApiError OutboundsConfig :=
  groupHandler token config authorization name fun nodes => updateSelected env nodes name selected

def findGroup (name : String) (groups : List OutboundGroupConfig) : Option OutboundGroupConfig :=
  groups.find? fun g => g.name=name

theorem findGroup_cons_self {name : String} {group : OutboundGroupConfig} (h : group.name=name)
    (rest : List OutboundGroupConfig) : findGroup name (group::rest)=some group :=
  find?_cons_of_pos (by simpa using h)

theorem findGroup_cons_of_ne {name : String} {group : OutboundGroupConfig} (h : group.name≠name)
    (rest : List OutboundGroupConfig) : findGroup name (group::rest)=findGroup name rest :=
  find?_cons_of_neg (by simpa using h)

theorem updateGroup_eq_ok {name : String}
    {f : OutboundGroupConfig → Except ApiError OutboundGroupConfig}
    (hf : ∀ g g',f g=.ok g' → g'.name=g.name) {groups groups' : List OutboundGroupConfig}
    (h : updateGroup name f groups=.ok groups') :
    ∃ group group',f group=.ok group' ∧ findGroup name groups=some group ∧
      findGroup name groups'=some group' ∧
      ∀ other≠name,findGroup other groups'=findGroup other groups := by
  induction groups generalizing groups' with
  | nil => nomatch h
  | cons g rest ih =>
    rw [updateGroup] at h
    split_ifs at h with hname
    · obtain ⟨g',hg,rfl⟩ := map_ok_iff.1 h
      have hname' : g'.name=name := (hf g g' hg).trans hname
      refine ⟨g,g',hg,findGroup_cons_self hname _,findGroup_cons_self hname' _,fun other hne => ?_⟩
      rw [findGroup_cons_of_ne fun h => hne (h.symm.trans hname'),
        findGroup_cons_of_ne fun h => hne (h.symm.trans hname)]
    · obtain ⟨rest',hrest,rfl⟩ := map_ok_iff.1 h
      obtain ⟨group,group',hg,hold,hnew,hother⟩ := ih hrest
      refine ⟨group,group',hg,?_,?_,fun other hne => ?_⟩
      · rw [findGroup_cons_of_ne hname,hold]
      · rw [findGroup_cons_of_ne hname,hnew]
      · simp only [findGroup,find?_cons] at hother ⊢
        rw [hother other hne]

namespace GroupDialer

def tried (g : GroupDialer) (now : Nat) (shuffle : Shuffle) : List GroupNode :=
  if g.inGroupCooldown now then [] else g.orderedCandidates now shuffle

theorem walk_policy (a : Attempts) (g : GroupDialer) (candidates : List GroupNode) :
    (g.walk a candidates).1.policy=g.policy := by
  induction candidates generalizing g with
  | nil => rfl
  | cons n rest ih =>
    rw [walk]
    split
    · rfl
    · exact ih _

theorem tryNodes_policy (g : GroupDialer) (a : Attempts) : (g.tryNodes a).1.policy=g.policy := by
  unfold tryNodes
  split_ifs
  · rfl
  · exact walk_policy a g _

theorem orderedCandidates_fixed {g : GroupDialer} (hpolicy : g.policy=.fixed) {n : GroupNode}
    {rest : List GroupNode} (hnodes : g.nodes=n::rest) {now : Nat} (halive : n.isAlive now=true)
    (shuffle : Shuffle) :
    g.orderedCandidates now shuffle=n::rest.filter fun m => m.isAlive now := by
  have hfilter : (g.nodes.filter fun m => m.isAlive now)=n::rest.filter fun m => m.isAlive now := by
    rw [hnodes,filter_cons,if_pos halive]
  unfold orderedCandidates
  simp only [hpolicy,hfilter]
  rfl

end GroupDialer

inductive Choice where
  | policy (policy : PolicyType)
  | selected (node : String)
  deriving DecidableEq

def GroupUpdate.choice : GroupUpdate → Option Choice
  | .policy text => (parsePolicy text).map .policy
  | .selected node => some (.selected node)

/-- The configuration that the API changes, and the dialers that traffic uses. `accepted` records
the changes since the last reload. -/
structure GroupPlane where
  config : Option OutboundsConfig
  dialers : String → Option GroupDialer
  accepted : String → Option Choice

/-- A request to the API, a dial, or a reload. -/
inductive GroupEvent where
  | request (authorization : Option String) (name : String) (update : GroupUpdate)
  | dial (group : String) (attempts : Attempts)
  | reload (outbounds : OutboundsConfig)

namespace GroupPlane

variable (env : Env) (token : String)

def start (b : Builders) (outbounds : OutboundsConfig) : GroupPlane :=
  ⟨some outbounds,buildOutboundGroupDialers env b outbounds,fun _ => none⟩

def respond (s : GroupPlane) (authorization : Option String) (name : String) :
    GroupUpdate → Except ApiError OutboundsConfig
  | .policy text => groupPolicyHandler token s.config authorization name text
  | .selected node => groupSelectedHandler env token s.config authorization name node

def step (s : GroupPlane) : GroupEvent → GroupPlane
  | .request authorization name update =>
    match s.respond env token authorization name update with
    | .error _ => s
    | .ok outbounds => { s with
        config := some outbounds
        accepted := Function.update s.accepted name update.choice }
  | .dial group attempts =>
    match s.dialers group with
    | none => s
    | some d => { s with
        dialers := update s.dialers group (some (d.tryDial attempts).1) }
  | .reload outbounds => { s with config := some outbounds,accepted := fun _ => none }

end GroupPlane

namespace GroupDialer

def Follows (g : GroupDialer) (now : Nat) (shuffle : Shuffle) : Choice → Prop
  | .policy p => g.tried now shuffle={ g with policy := p }.tried now shuffle
  | .selected node => ∀ n∈g.nodes,n.node.name=node → n.isAlive now=true →
      (g.tried now shuffle).head?=some n

def measuresLatency : PolicyType → Bool
  | .fixed | .random => false
  | .min | .minAvg10 | .minMovingAvg => true

def BuiltFor (g : GroupDialer) : Choice → Prop
  | .policy p => g.policy=p ∨ (measuresLatency g.policy=true ∧ measuresLatency p=true)
  | .selected node => g.policy=.fixed ∧ (g.members.map (·.name)).head?=some node

theorem orderedCandidates_measuresLatency {g : GroupDialer} {p : PolicyType}
    (hg : measuresLatency g.policy=true) (hp : measuresLatency p=true) (now : Nat)
    (shuffle : Shuffle) :
    g.orderedCandidates now shuffle={ g with policy := p }.orderedCandidates now shuffle := by
  unfold orderedCandidates
  cases hpolicy : g.policy <;> rw [hpolicy] at hg <;> cases hg <;> cases p <;> cases hp <;> rfl

theorem BuiltFor.follows {g : GroupDialer} (hnames : (g.members.map (·.name)).Nodup) {c : Choice}
    (h : g.BuiltFor c) {now : Nat}
    (hcooldown : ∀ node,c=.selected node → g.inGroupCooldown now=false)
    (shuffle : Shuffle) : g.Follows now shuffle c := by
  cases c with
  | policy p =>
    show g.tried now shuffle={ g with policy := p }.tried now shuffle
    rcases h with h | ⟨hg,hp⟩
    · rw [← h]
    · unfold tried
      rw [orderedCandidates_measuresLatency hg hp]
      rfl
  | selected node =>
    intro n hn hname halive
    obtain ⟨hpolicy,hhead⟩ := h
    cases hnodes : g.nodes with
    | nil => rw [hnodes] at hn; nomatch hn
    | cons first rest =>
      have hfirst : first.node.name=node := by
        rw [members,hnodes] at hhead
        exact Option.some.inj hhead
      have hmap : (g.nodes.map fun m => m.node.name).Nodup := by
        rw [members,map_map] at hnames
        exact hnames
      have heq : n=first := by
        refine inj_on_of_nodup_map hmap hn ?_ (hname.trans hfirst.symm)
        rw [hnodes]
        exact mem_cons_self
      rw [heq] at halive ⊢
      rw [tried,hcooldown node rfl,orderedCandidates_fixed hpolicy hnodes halive shuffle]
      rfl

theorem BuiltFor.tryDial {g : GroupDialer} {c : Choice} (h : g.BuiltFor c) (a : Attempts) :
    (g.tryDial a).1.BuiltFor c := by
  have hpolicy : (g.tryDial a).1.policy=g.policy := tryNodes_policy g a
  have hmembers : (g.tryDial a).1.members=g.members := (tryNodes_spec g a).1
  cases c with
  | policy p =>
    show _=p ∨ _
    rw [hpolicy]
    exact h
  | selected node =>
    show _=_ ∧ _
    rw [hpolicy,hmembers]
    exact h

end GroupDialer

namespace GroupPlane

section Law

variable (env : Env) (token : String)

def Lawful (s : GroupPlane) : GroupEvent → Prop
  | .dial group a => ∀ c d,s.accepted group=some c → s.dialers group=some d →
      d.Follows a.now a.shuffle c
  | _ => True

/-- An accepted request asks for what the dialer was built with, and a selected node is not dialled
while its group cools down. -/
def Agrees (s : GroupPlane) : GroupEvent → Prop
  | .request authorization name update =>
    (s.respond env token authorization name update).toOption.isSome=true →
      ∀ c d,update.choice=some c → s.dialers name=some d → d.BuiltFor c
  | .dial group a => ∀ node d,s.accepted group=some (.selected node) → s.dialers group=some d →
      d.inGroupCooldown a.now=false
  | .reload _ => True

/-- The dialers keep what they were built with. -/
structure Settled (s : GroupPlane) : Prop where
  names : ∀ group d,s.dialers group=some d → (d.members.map (·.name)).Nodup
  built : ∀ group c d,s.accepted group=some c → s.dialers group=some d → d.BuiltFor c

end Law

variable {env : Env} {token : String}

theorem anchor_perm (selected : String) (nodes : List GroupNode) :
    (anchor selected nodes).Perm nodes := by
  unfold anchor
  split
  · next n hn =>
    obtain ⟨hname,before,after,heq,hbefore⟩ := find?_eq_some_iff_append.mp hn
    rw [heq,eraseP_append_right _ (fun m hm => by simpa using hbefore m hm),
      eraseP_cons_of_pos (p := fun m : GroupNode => decide (m.node.name=selected)) hname]
    exact perm_middle.symm
  · exact List.Perm.refl nodes

theorem groupDialer_names_nodup {b : Builders} {nodes : List OutboundNodeConfig}
    {group : OutboundGroupConfig} {d : GroupDialer} (h : groupDialer env b nodes group=some d) :
    (d.members.map (·.name)).Nodup := by
  have hbuilt : ((((resolveGroupNodes env group nodes).filter b.builds).map GroupNode.new).map
      fun n => n.node.name).Nodup := by
    rw [map_map]
    exact (resolveGroupNodes_names_nodup env group nodes).sublist (filter_sublist.map _)
  rw [GroupDialer.members,map_map]
  unfold groupDialer at h
  dsimp only at h
  split_ifs at h
  split at h
  · cases h
    exact ((anchor_perm _ _).map _).nodup_iff.mpr hbuilt
  · cases h
    exact hbuilt

theorem Settled.start (b : Builders) (outbounds : OutboundsConfig) :
    (start env b outbounds).Settled := by
  refine ⟨fun group d hd => ?_,fun group c d hc => nomatch hc⟩
  have hspec := buildOutboundGroupDialers_spec env b outbounds group
  change buildOutboundGroupDialers env b outbounds group=some d at hd
  rw [hd] at hspec
  obtain ⟨g,-,-,hg⟩ := hspec
  exact groupDialer_names_nodup hg

variable {s : GroupPlane}

theorem Settled.step (h : s.Settled) {e : GroupEvent}
    (hagrees : s.Agrees env token e) : (s.step env token e).Settled := by
  cases e with
  | request authorization name update =>
    rw [GroupPlane.step]
    cases hrespond : s.respond env token authorization name update with
    | error _ => exact h
    | ok outbounds =>
      refine ⟨h.names,fun group c d hc hd => ?_⟩
      change Function.update s.accepted name update.choice group=some c at hc
      by_cases hname : group=name
      · rw [hname,update_self] at hc
        rw [hname] at hd
        exact hagrees (by rw [hrespond]; rfl) c d hc hd
      · rw [update_of_ne hname] at hc
        exact h.built group c d hc hd
  | dial group a =>
    rw [GroupPlane.step]
    cases hdialer : s.dialers group with
    | none => exact h
    | some d =>
      -- the dialer that was used has the same nodes and the same policy as before
      have hdial : ∀ other d',update s.dialers group (some (d.tryDial a).1) other=some d' →
          s.dialers other=some d' ∨ (other=group ∧ (d.tryDial a).1=d') := by
        intro other d' hd'
        by_cases hother : other=group
        · rw [hother,update_self] at hd'
          exact Or.inr ⟨hother,Option.some.inj hd'⟩
        · rw [update_of_ne hother] at hd'
          exact Or.inl hd'
      refine ⟨fun other d' hd' => ?_,fun other c d' hc hd' => ?_⟩
      · rcases hdial other d' hd' with hd' | ⟨-,heq⟩
        · exact h.names other d' hd'
        · have hmembers : (d.tryDial a).1.members=d.members := (GroupDialer.tryNodes_spec d a).1
          rw [← heq,hmembers]
          exact h.names group d hdialer
      · rcases hdial other d' hd' with hd' | ⟨hother,heq⟩
        · exact h.built other c d' hc hd'
        · rw [hother] at hc
          rw [← heq]
          exact (h.built group c d hc hdialer).tryDial a
  | reload outbounds => exact ⟨h.names,fun group c d hc => nomatch hc⟩

theorem Settled.lawful (h : s.Settled) {e : GroupEvent}
    (hagrees : s.Agrees env token e) : s.Lawful e := by
  cases e with
  | request authorization name update => trivial
  | dial group a =>
    intro c d hc hd
    refine (h.built group c d hc hd).follows (h.names group d hd) (fun node hnode => ?_) a.shuffle
    rw [hnode] at hc
    exact hagrees node d hc hd
  | reload outbounds => trivial

/-- The group has the type that the choice is for, and shows the choice. -/
def Shows (group : OutboundGroupConfig) : Choice → Prop
  | .policy p => group.groupType=.auto ∧ group.policy=some p
  | .selected node => group.groupType=.select ∧ group.selected=some node

def chosen : Option Choice → OutboundGroupConfig → OutboundGroupConfig
  | none,group => group
  | some (.policy p),group => { group with policy := some p }
  | some (.selected node),group => { group with selected := some node }

/-- A group takes choices of one kind only, so the last one replaces those before it. -/
theorem chosen_chosen {c : Choice} {before : Option Choice} {group : OutboundGroupConfig}
    (hc : Shows (chosen (some c) (chosen before group)) c)
    (hbefore : ∀ c'∈before,Shows (chosen before group) c') :
    chosen (some c) (chosen before group)=chosen (some c) group := by
  rcases before with _ | c'
  · rfl
  · have htype := hbefore c' rfl
    cases c <;> cases c'
    · rfl
    · nomatch htype.1.symm.trans hc.1
    · nomatch htype.1.symm.trans hc.1
    · rfl

/-- The second configuration is the first one with the choice in the first group of the name. -/
structure Puts (name : String) (c : Choice) (before after : OutboundsConfig) : Prop where
  nodes : after.nodes=before.nodes
  group : ∃ group,findGroup name before.groups=some group ∧
    findGroup name after.groups=some (chosen (some c) group) ∧ Shows (chosen (some c) group) c
  others : ∀ other≠name,findGroup other after.groups=findGroup other before.groups

variable {authorization : Option String} {name : String} {outbounds : OutboundsConfig}

theorem groupHandler_eq_ok {config : Option OutboundsConfig} {choice : Option Choice}
    {f : List OutboundNodeConfig → OutboundGroupConfig → Except ApiError OutboundGroupConfig}
    (hf : ∀ nodes g g',f nodes g=.ok g' → ∃ c,choice=some c ∧ g'=chosen (some c) g ∧ Shows g' c)
    (h : groupHandler token config authorization name f=.ok outbounds) :
    ∃ c before,choice=some c ∧ config=some before ∧ Puts name c before outbounds := by
  obtain ⟨-,h⟩ := seq_ok_iff.1 h
  cases config with
  | none => nomatch h
  | some before =>
    obtain ⟨groups,hgroups,rfl⟩ := map_ok_iff.1 h
    have hname (g g' : OutboundGroupConfig) (hg : f before.nodes g=.ok g') : g'.name=g.name := by
      obtain ⟨c,-,rfl,-⟩ := hf _ g g' hg
      cases c <;> rfl
    obtain ⟨group,group',hg,hold,hnew,hother⟩ := updateGroup_eq_ok hname hgroups
    obtain ⟨c,hc,rfl,hshows⟩ := hf _ group group' hg
    exact ⟨c,before,hc,rfl,rfl,⟨group,hold,hnew,hshows⟩,hother⟩

theorem respond_eq_ok {update : GroupUpdate}
    (h : s.respond env token authorization name update=.ok outbounds) :
    ∃ c before,update.choice=some c ∧ s.config=some before ∧ Puts name c before outbounds := by
  cases update with
  | policy text =>
    rw [respond,groupPolicyHandler] at h
    refine groupHandler_eq_ok (fun nodes g g' hg => ?_) h
    unfold updatePolicy at hg
    split at hg
    · cases hg
    · next htype =>
      split at hg
      · next p hp =>
        cases hg
        exact ⟨.policy p,by rw [GroupUpdate.choice,hp]; rfl,rfl,htype,rfl⟩
      · cases hg
  | selected node =>
    rw [respond,groupSelectedHandler] at h
    refine groupHandler_eq_ok (fun nodes g g' hg => ?_) h
    unfold updateSelected at hg
    split at hg
    · cases hg
    · next htype =>
      split_ifs at hg
      cases hg
      exact ⟨.selected node,rfl,rfl,htype,rfl⟩

/-- The stored configuration is the loaded one with the choice accepted last in each group. -/
def Stored (base : OutboundsConfig) (s : GroupPlane) : Prop :=
  ∃ stored,s.config=some stored ∧ stored.nodes=base.nodes ∧ ∀ name,
    findGroup name stored.groups=(findGroup name base.groups).map (chosen (s.accepted name)) ∧
      ∀ c,s.accepted name=some c → ∃ group,findGroup name stored.groups=some group ∧ Shows group c

theorem stored_loaded (hconfig : s.config=some outbounds)
    (haccepted : s.accepted=fun _ => none) : s.Stored outbounds := by
  refine ⟨outbounds,hconfig,rfl,fun name => ?_⟩
  rw [haccepted]
  exact ⟨Option.map_id'.symm,nofun⟩

theorem Stored.put {base before : OutboundsConfig} {c : Choice} (h : s.Stored base)
    (hconfig : s.config=some before) (hputs : Puts name c before outbounds) :
    ({ s with config := some outbounds,accepted := update s.accepted name (some c) } :
      GroupPlane).Stored base := by
  obtain ⟨stored,hstored,hnodes,hgroups⟩ := h
  cases hconfig.symm.trans hstored
  obtain ⟨hnodes',⟨group,hold,hnew,hshows⟩,hothers⟩ := hputs
  refine ⟨outbounds,rfl,hnodes'.trans hnodes,fun other => ?_⟩
  dsimp only
  by_cases hother : other=name
  · obtain ⟨heq,hlast⟩ := hgroups name
    obtain ⟨g,hg,rfl⟩ := Option.map_eq_some_iff.1 (heq.symm.trans hold)
    have hchosen := chosen_chosen hshows fun c' hc' => by
      obtain ⟨group,hgroup,hshown⟩ := hlast c' hc'
      cases hold.symm.trans hgroup
      exact hshown
    rw [hother,update_self,hg]
    refine ⟨hnew.trans (congrArg some hchosen),fun c' hc' => ?_⟩
    cases hc'
    exact ⟨_,hnew,hshows⟩
  · rw [update_of_ne hother,hothers other hother]
    exact hgroups other

def loaded (base : OutboundsConfig) : GroupEvent → OutboundsConfig
  | .reload outbounds => outbounds
  | _ => base

theorem Stored.step {base : OutboundsConfig} (h : s.Stored base) (e : GroupEvent) :
    (s.step env token e).Stored (loaded base e) := by
  cases e with
  | request authorization name update =>
    rw [GroupPlane.step]
    cases hrespond : s.respond env token authorization name update with
    | error _ => exact h
    | ok outbounds =>
      obtain ⟨c,before,hc,hconfig,hputs⟩ := respond_eq_ok hrespond
      dsimp only
      rw [hc]
      exact h.put hconfig hputs
  | dial group a =>
    rw [GroupPlane.step]
    cases s.dialers group with
    | none => exact h
    | some d => exact h
  | reload outbounds => exact stored_loaded rfl rfl

/-- After every run, the stored configuration has the nodes and groups of the one loaded last, each
group with the choice accepted last since then. -/
theorem run_stored (env : Env) (b : Builders) (token : String) (outbounds : OutboundsConfig)
    (events : List GroupEvent) :
    (run (step env token) (start env b outbounds) events).Stored (events.foldl loaded outbounds) := by
  have hrun (s : GroupPlane) (base : OutboundsConfig) (hs : s.Stored base) :
      (run (step env token) s events).Stored (events.foldl loaded base) := by
    induction events generalizing s base with
    | nil => exact hs
    | cons e events ih => exact ih _ _ (hs.step e)
  exact hrun _ outbounds (stored_loaded rfl rfl)

/-- Along every run of requests, dials and reloads, a dial does what the API accepted last if what
was accepted is what the dialer had been built with. -/
theorem lawful_of_agrees (env : Env) (b : Builders) (token : String) (outbounds : OutboundsConfig)
    (events : List GroupEvent)
    (h : Along (step env token) (Agrees env token) (start env b outbounds) events) :
    Along (step env token) Lawful (start env b outbounds) events := by
  refine h.imp Settled (fun s e hs hagrees => ?_) (Settled.start b outbounds)
  exact ⟨hs.lawful hagrees,hs.step hagrees⟩

def twoGroups : OutboundsConfig where
  nodes := [⟨"a", "socks5", "10.0.0.1:1080"⟩,⟨"b", "socks5", "10.0.0.2:1080"⟩]
  groups := [⟨"manual",.select,none,some "a",[.list ["a", "b"]]⟩,
    ⟨"primary",.auto,some .fixed,none,[.list ["a", "b"]]⟩]

def answers (now : Nat) (name : String) (latencyMs : Nat) : Attempts :=
  ⟨now,⟨id,List.Perm.refl⟩,fun _ => now,fun n => if n=name then some latencyMs else none,now⟩

def builders : Builders := ⟨fun _ => .ok (),.ok ()⟩

theorem lawful_of_agrees_same_node :
    Along (step Env.empty "t") Lawful (start Env.empty builders twoGroups)
      [.request (some "Bearer t") "manual" (.selected "a"),.dial "manual" (answers 1 "a" 5)] := by
  refine lawful_of_agrees Env.empty builders "t" twoGroups _ ⟨fun _ c d hc hd => ?_,
    fun node d _ hd => ?_,trivial⟩
  · cases hc
    cases hd
    exact ⟨rfl,rfl⟩
  · cases hd
    rfl

/-- The dials go on as at the start: the node selected last is alive and comes second, and `min`
does not prefer the only node with a known latency. -/
theorem accepted_changes_ignored :
    (¬Along (step Env.empty "t") Lawful (start Env.empty builders twoGroups)
      [.request (some "Bearer t") "manual" (.selected "b"),.dial "manual" (answers 1 "a" 5)]) ∧
    ¬Along (step Env.empty "t") Lawful (start Env.empty builders twoGroups)
      [.dial "primary" (answers 1 "b" 5),.request (some "Bearer t") "primary" (.policy "min"),
        .dial "primary" (answers 70000 "a" 5)] := by
  constructor
  · intro h
    obtain ⟨-,hdial,-⟩ := h
    have hfirst := hdial (.selected "b") _ rfl rfl (GroupNode.new ⟨"b", "socks5", "10.0.0.2:1080"⟩)
      (by decide +kernel) rfl rfl
    exact absurd hfirst (by decide +kernel)
  · intro h
    obtain ⟨-,-,hdial,-⟩ := h
    have horder := hdial (.policy .min) _ rfl rfl
    change GroupDialer.tried _ _ _=GroupDialer.tried _ _ _ at horder
    exact absurd horder (by decide +kernel)

end GroupPlane

end DaeRs.Control
