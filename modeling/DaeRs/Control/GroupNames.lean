import DaeRs.Control.GroupApi
import DaeRs.Control.Selected

/-! The names that the API shows for a group, and the nodes that the group resolves to. -/

namespace DaeRs.Control

open Config RuleSet Fallible List

theorem names_foldl_pushNode (picked result : List OutboundNodeConfig) :
    (picked.foldl pushNode result).map (·.name) =
      (picked.map (·.name)).foldl pushName (result.map (·.name)) := by
  induction picked generalizing result with
  | nil => rfl
  | cons node rest ih =>
    have hpush : (pushNode result node).map (·.name)=pushName (result.map (·.name)) node.name := by
      have hseen : (result.any fun n => n.name=node.name) = decide (node.name∈result.map (·.name)) := by
        rw [Bool.eq_iff_iff]
        simp
      simp only [pushNode,pushName,hseen,decide_eq_true_eq]
      split_ifs <;> simp
    rw [foldl_cons,ih,hpush,map_cons,foldl_cons]

/-- The names of the second list that the first does not have, each where it first occurs. -/
def fresh (seen : List String) : List String → List String
  | [] => []
  | name::names =>
    if name∈seen then fresh seen names else name::fresh (seen++[name]) names

theorem foldl_pushName (names seen : List String) :
    names.foldl pushName seen=seen++fresh seen names := by
  induction names generalizing seen with
  | nil => rw [foldl_nil,fresh,append_nil]
  | cons name names ih =>
    rw [foldl_cons,pushName,fresh]
    split_ifs
    · exact ih seen
    · rw [ih,append_assoc,singleton_append]

theorem fresh_append (seen names more : List String) :
    fresh seen (names++more)=fresh seen names++fresh (seen++fresh seen names) more := by
  apply (append_right_inj seen).mp
  rw [← foldl_pushName,foldl_append,foldl_pushName,foldl_pushName,append_assoc]

theorem fresh_of_subset {seen names : List String} (h : names⊆seen) : fresh seen names=[] := by
  induction names with
  | nil => rfl
  | cons name names ih =>
    obtain ⟨hname,hnames⟩ := cons_subset.mp h
    rw [fresh,if_pos hname,ih hnames]

theorem subset_fresh (seen names : List String) : names⊆seen++fresh seen names := by
  induction names generalizing seen with
  | nil => exact nil_subset _
  | cons name names ih =>
    rw [fresh]
    split_ifs with hseen
    · exact cons_subset.mpr ⟨mem_append_left _ hseen,ih seen⟩
    · have hrest := ih (seen++[name])
      rw [append_assoc,singleton_append] at hrest
      exact cons_subset.mpr ⟨by simp,hrest⟩

/-- Once the first of the new names are known, the others are still new. -/
theorem fresh_rest {seen names first rest : List String} (h : fresh seen names=first++rest) :
    fresh (seen++first) names=rest := by
  induction names generalizing seen first with
  | nil =>
    rw [fresh] at h
    rw [fresh,(append_eq_nil_iff.mp h.symm).2]
  | cons name names ih =>
    rw [fresh] at h
    by_cases hseen : name∈seen
    · rw [if_pos hseen] at h
      rw [fresh,if_pos (mem_append_left _ hseen),ih h]
    · rw [if_neg hseen] at h
      cases first with
      | nil => rw [append_nil,fresh,if_neg hseen,h,nil_append]
      | cons a first =>
        obtain ⟨rfl,hrest⟩ := cons.inj h
        have hlater := ih hrest
        rw [append_assoc,singleton_append] at hlater
        rw [fresh,if_pos (by simp),hlater]

variable {env : Env} {nodes : List OutboundNodeConfig}

theorem names_filterMap_find? {names : List String} (h : ∀ name∈names,name∈nodes.map (·.name)) :
    (names.filterMap fun name => nodes.find? fun n => n.name=name).map (·.name)=names := by
  induction names with
  | nil => rfl
  | cons name rest ih =>
    obtain ⟨hname,hrest⟩ := forall_mem_cons.mp h
    have hfound : (nodes.find? fun n => n.name=name).isSome := by simpa using hname
    obtain ⟨n,hn⟩ := Option.isSome_iff_exists.mp hfound
    have hn_name : n.name=name := by simpa using find?_some hn
    simp only [filterMap_cons,hn,map_cons,ih hrest,hn_name]

theorem selectNames_eq {selector : NodeSelector} {group : String}
    (h : validateSelector env (nodes.map (·.name)) group selector=.ok ())
    (hstar : selector≠.regex "*") :
    selectNames env nodes selector=(selectNodes env nodes selector).map (·.name) ∧
      (selectNodes env nodes selector=[] ↔ selector=.list []) := by
  cases selector with
  | list names =>
    simp only [validateSelector,forEach_ok_iff,ensure_ok_iff,contains_iff_mem] at h
    have hnames := names_filterMap_find? h
    refine ⟨hnames.symm,?_⟩
    rw [← map_eq_nil_iff,selectNodes,hnames]
    simp
  | regex pattern =>
    have hpattern : pattern ≠ "*" := fun h => hstar (by rw [h])
    simp only [validateSelector,selectorPattern,if_neg hpattern] at h
    cases hre : env.regexNew pattern with
    | none => simp [hre] at h
    | some re =>
      simp only [hre,ensure_ok_iff,any_eq_true,mem_map] at h
      obtain ⟨_,⟨n,hn,rfl⟩,hmatch⟩ := h
      have hsome : n∈nodes.filter fun n => re n.name := mem_filter.mpr ⟨hn,hmatch⟩
      simp only [selectNames,selectNodes,if_neg hpattern,hre,filter_map]
      exact ⟨rfl,by simpa using ne_nil_of_mem hsome⟩

section Star

variable {selectors : List NodeSelector} {group : String}

theorem fresh_selectors (hengine : env.regexNew "*"=none)
    (h : ∀ s∈selectors,validateSelector env (nodes.map (·.name)) group s=.ok ())
    {seen : List String} (hseen : selectNames env nodes (.regex "*")⊆seen) :
    fresh seen (selectors.flatMap (selectNames env nodes)) =
      fresh seen ((selectors.flatMap (selectNodes env nodes)).map (·.name)) := by
  induction selectors generalizing seen with
  | nil => rfl
  | cons selector selectors ih =>
    obtain ⟨hselector,hrest⟩ := forall_mem_cons.mp h
    rw [flatMap_cons,flatMap_cons,map_append,fresh_append,fresh_append]
    by_cases hstar : selector=.regex "*"
    · have hnone : (selectNodes env nodes selector).map (·.name)=[] := by
        rw [hstar,selectNodes,hengine,map_nil]
      rw [hnone,hstar,fresh_of_subset hseen,fresh,append_nil]
      exact congrArg ([]++·) (ih hrest hseen)
    · rw [← (selectNames_eq hselector hstar).1]
      exact congrArg (_++·) (ih hrest fun name hname => mem_append_left _ (hseen hname))

/-- At the first star: what it adds for the API is what the runtime finds next without it. -/
theorem names_agree_at_star (hengine : env.regexNew "*"=none) {pre post : List NodeSelector}
    (hpre : .regex "*"∉pre)
    (h : ∀ s∈pre++.regex "*"::post,validateSelector env (nodes.map (·.name)) group s=.ok ()) :
    let before := (pre.flatMap (selectNames env nodes)).foldl pushName []
    ((pre++.regex "*"::post).flatMap (selectNames env nodes)).foldl pushName [] =
        (((pre++.regex "*"::post).flatMap (selectNodes env nodes)).map (·.name)).foldl pushName [] ↔
      fresh before (selectNames env nodes (.regex "*")) <+:
        fresh before ((post.flatMap (selectNodes env nodes)).map (·.name)) := by
  intro before
  have hsame : (pre.flatMap (selectNodes env nodes)).map (·.name) =
      pre.flatMap (selectNames env nodes) := by
    rw [map_flatMap]
    refine flatMap_congr fun s hs => ?_
    exact (selectNames_eq (h s (by simp [hs])) fun heq => hpre (heq ▸ hs)).1.symm
  have hnone : selectNodes env nodes (.regex "*")=[] := by rw [selectNodes,hengine]
  have hpost : ∀ s∈post,validateSelector env (nodes.map (·.name)) group s=.ok () :=
    fun s hs => h s (by simp [hs])
  have hlater := fresh_selectors hengine hpost
    (subset_fresh before (selectNames env nodes (.regex "*")))
  have hbefore (names : List String) :
      (pre.flatMap (selectNames env nodes)++names).foldl pushName []=before++fresh before names := by
    rw [foldl_append,foldl_pushName names]
  rw [flatMap_append,flatMap_cons,flatMap_append,flatMap_cons,hnone,nil_append,map_append,hsame,
    hbefore,hbefore,fresh_append,hlater,append_cancel_left_eq]
  constructor
  · exact fun heq => ⟨_,heq⟩
  · rintro ⟨rest,hrest⟩
    rw [fresh_rest hrest.symm,hrest]

end Star

/-- The API shows the nodes of the group in their order exactly when the nodes that the first bare
star adds are the next ones that the selectors behind it give, so always without a star; only stars
and empty lists leave a group without nodes. -/
theorem group_names_agree (hengine : env.regexNew "*"=none) {c : DaefileConfig}
    (h : validateConfig env c=.ok ()) {g : OutboundGroupConfig} (hg : g∈c.groups) :
    (collectGroupNodeNames env g c.outbounds.nodes =
        (resolveGroupNodes env g c.outbounds.nodes).map (·.name) ↔
      ∀ pre post,g.selectors=pre++.regex "*"::post → .regex "*"∉pre →
        let before := (pre.flatMap (selectNames env c.outbounds.nodes)).foldl pushName []
        fresh before (selectNames env c.outbounds.nodes (.regex "*")) <+:
          fresh before ((post.flatMap (selectNodes env c.outbounds.nodes)).map (·.name))) ∧
      (resolveGroupNodes env g c.outbounds.nodes=[] ↔
        ∀ s∈g.selectors,s=.list [] ∨ s=.regex "*") := by
  have hnames : c.nodeNames=c.outbounds.nodes.map (·.name) := by
    simp [DaefileConfig.outbounds,DaefileConfig.nodeNames,map_map]
  unfold validateConfig at h
  simp only [seq_ok_iff] at h
  obtain ⟨-,-,-,hrefs,-⟩ := h
  unfold validateReferences at hrefs
  simp only [seq_ok_iff,forEach_ok_iff,hnames] at hrefs
  have hvalid := hrefs.1 g hg
  refine ⟨?_,?_⟩
  · rw [collectGroupNodeNames,resolveGroupNodes,names_foldl_pushNode,map_nil]
    constructor
    · intro heq pre post hsplit hpre
      rw [hsplit] at heq hvalid
      exact (names_agree_at_star hengine hpre hvalid).mp heq
    · intro hall
      by_cases hstar : .regex "*"∈g.selectors
      · obtain ⟨pre,post,hsplit,hpre⟩ := eq_append_cons_of_mem hstar
        have hfirst := hall pre post hsplit hpre
        rw [hsplit] at hvalid ⊢
        exact (names_agree_at_star hengine hpre hvalid).mpr hfirst
      · rw [map_flatMap]
        refine congrArg (foldl pushName []) (flatMap_congr fun s hs => ?_)
        exact (selectNames_eq (hvalid s hs) fun heq => hstar (heq ▸ hs)).1
  · have hempty (s) (hs : s∈g.selectors) :
        selectNodes env c.outbounds.nodes s=[] ↔ s=.list [] ∨ s=.regex "*" := by
      by_cases hstar : s=.regex "*"
      · rw [hstar,selectNodes,hengine]
        simp
      · rw [(selectNames_eq (hvalid s hs) hstar).2]
        simp [hstar]
    rw [← forall₂_congr hempty,← flatMap_eq_nil_iff]
    constructor
    · intro hnil
      by_contra hne
      obtain ⟨n,hn⟩ := exists_mem_of_ne_nil _ hne
      have hmem := (mem_names_foldl_pushNode _ []).mpr (.inr (mem_map_of_mem hn))
      rw [← resolveGroupNodes,hnil] at hmem
      cases hmem
    · intro hnil
      rw [resolveGroupNodes,hnil]
      rfl

/-- A star before and behind a list of both nodes, where it makes no difference. -/
theorem group_names_agree_listed :
    let c := selectConfig [.list ["main"],.regex "*",.list ["backup", "main"],.regex "*"]
    ∃ g∈c.groups,collectGroupNodeNames starEnv g c.outbounds.nodes =
      (resolveGroupNodes starEnv g c.outbounds.nodes).map (·.name) := by
  intro c
  refine ⟨_,mem_singleton_self _,(group_names_agree rfl (by decide +kernel)
    (mem_singleton_self _)).1.mpr ?_⟩
  intro pre post hsplit hpre
  rcases pre with _ | ⟨a,_ | ⟨b,pre⟩⟩
  · cases hsplit
  · cases hsplit
    decide +kernel
  · have hb : .regex "*"=b := (cons.inj (cons.inj hsplit).2).1
    exact absurd (by simp [hb]) hpre

/-- The API shows all nodes for a bare star, with which the group has none; an empty list is
accepted too. -/
theorem bare_star_names : ∃ g,
    validateConfig starEnv (selectConfig [.regex "*"])=.ok () ∧
      (selectConfig [.regex "*"]).groups=[g] ∧
      collectGroupNodeNames starEnv g (selectConfig [.regex "*"]).outbounds.nodes =
        ["main", "backup"] ∧
      resolveGroupNodes starEnv g (selectConfig [.regex "*"]).outbounds.nodes=[] ∧
      validateConfig starEnv (selectConfig [.list []])=.ok () := by
  refine ⟨_,by decide +kernel,rfl,by decide +kernel,by decide +kernel,by decide +kernel⟩

end DaeRs.Control
