import DaeRs.Config.Validator
import DaeRs.Control.Group

/-! The selected node of a `select` group: what validation checks of it, and whether it is among the
nodes of the group. -/

namespace DaeRs.Control

open Config RuleSet Fallible List

def Picks (env : Env) (name : String) : NodeSelector → Prop
  | .list names => name∈names
  | .regex pattern => ∃ re,env.regexNew pattern=some re ∧ re name=true

theorem mem_names_foldl_pushNode {name : String} (picked : List OutboundNodeConfig) :
    ∀ result : List OutboundNodeConfig,
      name∈(picked.foldl pushNode result).map (·.name) ↔
        name∈result.map (·.name) ∨ name∈picked.map (·.name) := by
  induction picked with
  | nil => intro result; simp
  | cons node rest ih =>
    intro result
    have hpush : name∈(pushNode result node).map (·.name) ↔
        name∈result.map (·.name) ∨ name=node.name := by
      unfold pushNode
      split_ifs with hseen
      · refine ⟨Or.inl,fun h => h.elim id fun heq => ?_⟩
        obtain ⟨n,hn,hname⟩ := any_eq_true.mp hseen
        rw [heq,← of_decide_eq_true hname]
        exact mem_map_of_mem hn
      · simp
    rw [foldl_cons,ih,hpush,map_cons,mem_cons,or_assoc]

theorem mem_names_selectNodes_iff {env : Env} {nodes : List OutboundNodeConfig} {name : String}
    (hname : name∈nodes.map (·.name)) (selector : NodeSelector) :
    name∈(selectNodes env nodes selector).map (·.name) ↔ Picks env name selector := by
  obtain ⟨node,hnode,hnode_name⟩ := mem_map.mp hname
  cases selector with
  | list names =>
    simp only [selectNodes,Picks,mem_map,mem_filterMap]
    constructor
    · intro h
      obtain ⟨n,⟨x,hx,hfind⟩,hn⟩ := h
      have hx_name : n.name=x := by simpa using find?_some hfind
      rw [← hn,hx_name]
      exact hx
    · intro h
      have hfound : (nodes.find? fun n => n.name=name).isSome := by
        rw [find?_isSome]
        exact ⟨node,hnode,by simpa using hnode_name⟩
      obtain ⟨n,hn⟩ := Option.isSome_iff_exists.mp hfound
      exact ⟨n,⟨name,h,hn⟩,by simpa using find?_some hn⟩
  | regex pattern =>
    cases hregex : env.regexNew pattern with
    | none => simp [selectNodes,Picks,hregex]
    | some re =>
      simp only [selectNodes,Picks,hregex,mem_map,mem_filter,Option.some.injEq,exists_eq_left']
      constructor
      · intro h
        obtain ⟨n,⟨-,hre⟩,hn⟩ := h
        exact hn ▸ hre
      · intro h
        exact ⟨node,⟨hnode,hnode_name ▸ h⟩,hnode_name⟩

theorem mem_names_resolveGroupNodes_iff {env : Env} {nodes : List OutboundNodeConfig}
    {name : String} (hname : name∈nodes.map (·.name)) (group : OutboundGroupConfig) :
    name∈(resolveGroupNodes env group nodes).map (·.name) ↔
      ∃ selector∈group.selectors,Picks env name selector := by
  have hflat : name∈(group.selectors.flatMap (selectNodes env nodes)).map (·.name) ↔
      ∃ selector∈group.selectors,name∈(selectNodes env nodes selector).map (·.name) := by
    simp only [mem_map,mem_flatMap]
    constructor
    · intro h
      obtain ⟨n,⟨selector,hselector,hn⟩,heq⟩ := h
      exact ⟨selector,hselector,n,hn,heq⟩
    · intro h
      obtain ⟨selector,hselector,n,hn,heq⟩ := h
      exact ⟨n,⟨selector,hselector,hn⟩,heq⟩
  rw [resolveGroupNodes,mem_names_foldl_pushNode,hflat,map_nil]
  simp only [not_mem_nil,false_or]
  refine exists_congr fun selector => and_congr_right fun _ => ?_
  exact mem_names_selectNodes_iff hname selector

theorem validateConfig_selected {env : Env} {c : DaefileConfig} (h : validateConfig env c=.ok ())
    {g : OutboundGroupConfig} (hg : g∈c.groups) (htype : g.groupType=.select) :
    ∃ selected,g.selected=some selected ∧ selected∈c.outbounds.nodes.map (·.name) := by
  unfold validateConfig at h
  simp only [seq_ok_iff] at h
  obtain ⟨-,-,-,-,-,hgroups,-⟩ := h
  have hgroup := forEach_ok_iff.mp hgroups g hg
  unfold validateGroup at hgroup
  cases hselected : g.selected with
  | none =>
    simp only [htype,hselected,seq_ok_iff,error_bind] at hgroup
    nomatch hgroup.2
  | some selected =>
    simp only [htype,hselected,seq_ok_iff,ensure_ok_iff] at hgroup
    have hnames : c.outbounds.nodes.map (·.name)=c.nodeNames := by
      simp [DaefileConfig.outbounds,DaefileConfig.nodeNames,map_map]
    rw [hnames]
    exact ⟨selected,rfl,by simpa using hgroup.2.1⟩

/-- In an accepted configuration selected nodes are nodes of their groups just if a selector picks
each; validation looks among all nodes. -/
theorem selected_resolved_iff {env : Env} {c : DaefileConfig} (h : validateConfig env c=.ok ()) :
    (∀ g∈c.groups,g.groupType=.select → ∃ n∈resolveGroupNodes env g c.outbounds.nodes,
        g.selected=some n.name) ↔
      ∀ g∈c.groups,g.groupType=.select → ∀ selected,g.selected=some selected →
        ∃ selector∈g.selectors,Picks env selected selector := by
  refine forall₂_congr fun g hg => imp_congr_right fun htype => ?_
  obtain ⟨selected,hselected,hname⟩ := validateConfig_selected h hg htype
  have hiff : selected∈(resolveGroupNodes env g c.outbounds.nodes).map (·.name) ↔
      ∃ selector∈g.selectors,Picks env selected selector :=
    mem_names_resolveGroupNodes_iff hname g
  constructor
  · intro hn other hother
    obtain ⟨n,hn,hn_name⟩ := hn
    rw [hselected] at hother hn_name
    cases hother
    rw [Option.some_inj] at hn_name
    exact hiff.mp (hn_name ▸ List.mem_map_of_mem hn)
  · intro hpicks
    obtain ⟨n,hn,hn_name⟩ := List.mem_map.mp (hiff.mpr (hpicks selected hselected))
    exact ⟨n,hn,by rw [hselected,hn_name]⟩

def selectConfig (selectors : List NodeSelector) : DaefileConfig where
  runtime := ⟨15080, "info"⟩
  processExclusion := none
  nodes := [⟨⟨"main", "socks5", "192.0.2.1:1080"⟩,none,none,none,none,5000⟩,
    ⟨⟨"backup", "socks5", "192.0.2.2:1080"⟩,none,none,none,none,5000⟩]
  groups := [⟨"manual",.select,none,some "main",selectors⟩]
  routing := ⟨[], "direct"⟩
  api := none
  dns := none
  ruleSet := []

theorem selected_resolved_listed :
    validateConfig Env.empty (selectConfig [.list ["backup", "main"]])=.ok () ∧
      ∀ g∈(selectConfig [.list ["backup", "main"]]).groups,g.groupType=.select →
        ∃ n∈resolveGroupNodes Env.empty g
            (selectConfig [.list ["backup", "main"]]).outbounds.nodes,
          g.selected=some n.name := by
  have hvalid : validateConfig Env.empty (selectConfig [.list ["backup", "main"]])=.ok () := by
    decide +kernel
  refine ⟨hvalid,(selected_resolved_iff hvalid).mpr fun g hg _ selected hselected => ?_⟩
  cases List.mem_singleton.mp hg
  cases hselected
  exact ⟨.list ["backup", "main"],by decide,List.mem_cons_of_mem _ List.mem_cons_self⟩

def starEnv : Env := ⟨fun p => if p = ".*" then some fun _ => true else none,fun _ => none⟩

/-- A group whose selectors leave its selected node out is accepted, and so is one with the
documented pattern for all nodes, which validation changes. -/
theorem selected_elsewhere_accepted :
    (validateConfig Env.empty (selectConfig [.list ["backup"]])=.ok () ∧
      (∀ g∈(selectConfig [.list ["backup"]]).groups,∀ n∈resolveGroupNodes Env.empty g
        (selectConfig [.list ["backup"]]).outbounds.nodes,g.selected≠some n.name)) ∧
    (validateConfig starEnv (selectConfig [.regex "*"])=.ok () ∧
      ∀ g∈(selectConfig [.regex "*"]).groups,resolveGroupNodes starEnv g
        (selectConfig [.regex "*"]).outbounds.nodes=[]) := by
  decide +kernel

end DaeRs.Control
