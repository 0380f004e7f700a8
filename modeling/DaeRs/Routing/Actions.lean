import DaeRs.Config.Validator
import DaeRs.Routing.Compile

/-! Actions, as the validator accepts them and as the compiler resolves them. -/

namespace DaeRs.Routing

open RustStr Config RuleSet Bpf Fallible List

def proxyInner (action : String) : Option String :=
  (stripStart (trim action) "proxy(").bind (stripEnd · ")")

/-- What an action has to satisfy as a bare name, and what with a text inside `proxy(...)`. -/
structure ByForm (action : String) (bare : Prop) (proxy : String → Prop) : Prop where
  of_bare : proxyInner action=none → bare
  of_proxy : ∀ inner,proxyInner action=some inner → proxy inner

def builtinId : String → Option UInt8
  | "direct" => some Outbound.direct
  | "block" => some Outbound.block
  | "LOGICAL_OR" => some Outbound.logicalOr
  | "LOGICAL_AND" => some Outbound.logicalAnd
  | "must" => some Outbound.mustRules
  | "must_direct" => some Outbound.mustRules
  | "control_plane_routing" => some Outbound.controlPlaneRouting
  | _ => none

variable (outbounds : OutboundsConfig)

def Declared (name : String) : Prop :=
  name∈outbounds.groups.map (·.name) ∨ name∈outbounds.nodes.map (·.name)

/-- The documented parameters after the group: `mark=N`, then `must`, both optional. -/
def documentedTail : List String → Option (Option String×Bool)
  | [] => some (none,false)
  | [p] => if p = "must" then some (none,true) else (stripStart p "mark=").map (some ·,false)
  | [p,q] => if q = "must" then (stripStart p "mark=").map (some ·,true) else none
  | _ => none

def MarkIs (mark : UInt32) : Option String → Prop
  | none => mark=0
  | some n => parseMarkValue n=.ok mark

/-- The text inside `proxy(...)` is a declared group with documented parameters. -/
def DocumentedProxy (groups : List String) (inner : String) (ob : Outbound) : Prop :=
  ob.name∈groups ∧ ∃ tail mark,(parseCommaSeparated inner).map trim=ob.name::tail ∧
    documentedTail tail=some (mark,ob.must) ∧ MarkIs ob.mark mark

def DocumentedAction (groups : List String) (action : String) : Prop :=
  trim action = "direct" ∨ trim action = "block" ∨
    ∃ inner ob,proxyInner action=some inner ∧ DocumentedProxy groups inner ob

/-- The outbound that an action names, with its id: a built-in name, a declared name, or a
declared group with its parameters. -/
def NamesOutbound (action : String) (ob : Outbound) (id : UInt8) :
    Prop :=
  ByForm action
    (ob=Outbound.new (trim action) ∧
      (builtinId (trim action)=some id ∨
        builtinId (trim action)=none ∧ Declared outbounds (trim action) ∧
          id=Outbound.controlPlaneRouting))
    fun inner => DocumentedProxy (outbounds.groups.map (·.name)) inner ob ∧
      id=Outbound.controlPlaneRouting

def RuleActionResolves (action : String) : Prop := ∃ ob id,Outbound.parseAction action=.ok ob ∧
    resolveOutboundId ob (buildOutboundIdMap outbounds)=.ok id ∧
    NamesOutbound outbounds action ob id

def FallbackResolves (action : String) : Prop := ∃ ob id,Outbound.parseAction action=.ok ob ∧
    buildOutboundIdMap outbounds ob.name=some id ∧ NamesOutbound outbounds action ob id

def ParamName (name : String) : Prop := name ≠ "" ∧ name ≠ "must" ∧ stripStart name "mark=" = none

section IdMap

variable (outbounds : OutboundsConfig)

theorem foldl_insert_apply {α : Type} (name : α → String) (l : List α) (m : OutboundIdMap)
    (n : String) :
    (l.foldl (fun m a => OutboundIdMap.insert m (name a) Outbound.controlPlaneRouting) m) n =
      if n∈l.map name then some Outbound.controlPlaneRouting else m n := by
  induction l generalizing m with
  | nil => rfl
  | cons a l ih =>
    rw [foldl_cons,ih]
    simp only [map_cons,mem_cons,OutboundIdMap.insert]
    by_cases hl : n∈l.map name
    · simp [hl]
    · by_cases hn : n=name a <;> simp [hl,hn]

theorem builtinId_cases (name : String) : name = "direct" ∧ builtinId name=some Outbound.direct ∨
    name = "block" ∧ builtinId name=some Outbound.block ∨
    name = "LOGICAL_OR" ∧ builtinId name=some Outbound.logicalOr ∨
    name = "LOGICAL_AND" ∧ builtinId name=some Outbound.logicalAnd ∨
    name = "must" ∧ builtinId name=some Outbound.mustRules ∨
    name = "must_direct" ∧ builtinId name=some Outbound.mustRules ∨
    name = "control_plane_routing" ∧ builtinId name=some Outbound.controlPlaneRouting ∨
    (name∉["direct", "block", "LOGICAL_OR", "LOGICAL_AND", "must", "must_direct",
      "control_plane_routing"]) ∧ builtinId name=none := by
  unfold builtinId
  split <;> simp_all

theorem buildOutboundIdMap_declared {name : String} (h : Declared outbounds name) :
    buildOutboundIdMap outbounds name=some Outbound.controlPlaneRouting := by
  unfold buildOutboundIdMap
  rw [foldl_insert_apply (fun g : OutboundGroupConfig => g.name)]
  split_ifs with hg
  · rfl
  · rw [foldl_insert_apply (fun n : OutboundNodeConfig => n.name),if_pos (h.resolve_left hg)]

theorem buildOutboundIdMap_undeclared {name : String} (h : ¬Declared outbounds name) :
    buildOutboundIdMap outbounds name =
      if name = "LOGICAL_OR" ∨ name = "LOGICAL_AND" then none else builtinId name := by
  rw [Declared,not_or] at h
  unfold buildOutboundIdMap
  rw [foldl_insert_apply (fun g : OutboundGroupConfig => g.name),if_neg h.1,
    foldl_insert_apply (fun n : OutboundNodeConfig => n.name),if_neg h.2]
  simp only [OutboundIdMap.insert]
  rcases builtinId_cases name with
    ⟨rfl,-⟩ | ⟨rfl,-⟩ | ⟨rfl,-⟩ | ⟨rfl,-⟩ | ⟨rfl,-⟩ | ⟨rfl,-⟩ | ⟨rfl,-⟩ | ⟨hne,hnone⟩
  on_goal 8 => simp_all
  all_goals rfl

theorem resolveOutboundId_eq (ob : Outbound) (m : OutboundIdMap) : resolveOutboundId ob m =
      match builtinId ob.name with
      | some id => .ok id
      | none =>
        match m ob.name with
        | some id => .ok id
        | none => fail s!"outbound '{ob.name}' not found in outbound_id_map" := by
  unfold resolveOutboundId
  rcases builtinId_cases ob.name with
    ⟨h,hid⟩ | ⟨h,hid⟩ | ⟨h,hid⟩ | ⟨h,hid⟩ | ⟨h,hid⟩ | ⟨h,hid⟩ | ⟨h,hid⟩ | ⟨hne,hid⟩
  on_goal 8 =>
    rw [hid]
    split
    on_goal 8 => cases m ob.name <;> rfl
    all_goals simp_all
  all_goals
    rw [hid,h]
    rfl

end IdMap

section Proxy

theorem proxyParams_tail {tail : List String} {mark : Option String} {m : UInt32} {must : Bool}
    (htail : documentedTail (tail.map trim)=some (mark,must)) (hmark : MarkIs m mark)
    (ob : Outbound) :
    Outbound.proxyParams tail ob =
      if ob.name = "" then fail "missing group name in proxy outbound"
      else .ok ⟨ob.name,if mark.isSome then m else ob.mark,ob.must || must⟩ := by
  rcases tail with _ | ⟨p,_ | ⟨q,_ | ⟨r,rest⟩⟩⟩
  · cases htail
    simp [Outbound.proxyParams]
  · simp only [map_cons,map_nil,documentedTail] at htail
    rw [Outbound.proxyParams]
    split_ifs at htail with hmust
    · cases htail
      simp [hmust,Outbound.proxyParams]
    · obtain ⟨n,hn,heq⟩ := Option.map_eq_some_iff.mp htail
      cases heq
      have hval : parseMarkValue n=.ok m := hmark
      simp [hmust,hn,hval,withContext,Outbound.proxyParams]
  · simp only [map_cons,map_nil,documentedTail] at htail
    split_ifs at htail with hmust
    obtain ⟨n,hn,heq⟩ := Option.map_eq_some_iff.mp htail
    cases heq
    have hval : parseMarkValue n=.ok m := hmark
    have hne : trim p ≠ "must" := by
      intro hp
      rw [hp] at hn
      cases hn
    simp [Outbound.proxyParams,hne,hn,hval,withContext,hmust]
  · cases htail

theorem parseProxyParams_documented {groups : List String} {inner : String} {ob : Outbound}
    (h : DocumentedProxy groups inner ob) :
    Outbound.parseProxyParams inner=.ok ob ↔ ParamName ob.name := by
  obtain ⟨-,tail,mark,hparts,htail,hmark⟩ := h
  obtain ⟨p,rest,hsplit,hp,rfl⟩ := map_eq_cons_iff.mp hparts
  have hunfold : Outbound.parseProxyParams inner =Outbound.proxyParams (p::rest) ⟨"",0,false⟩ := by
    rw [Outbound.parseProxyParams,hsplit]
  have hstep := proxyParams_tail htail hmark
  rw [hunfold,Outbound.proxyParams,hp]
  by_cases hmust : ob.name = "must"
  · simp [hmust,hstep,ParamName,fail]
  · cases hstrip : stripStart ob.name "mark=" with
    | some val =>
      simp only [hmust,if_false]
      cases hval : parseMarkValue val <;> simp [hstep,ParamName,fail,withContext,hstrip]
    | none =>
      have hmk : (if mark.isSome then ob.mark else 0)=ob.mark := by
        cases mark with
        | none => exact hmark.symm
        | some n => rfl
      simp only [hmust,if_false,if_true,hstep,hmk,Bool.false_or]
      by_cases hname : ob.name = "" <;> simp [hname,hmust,hstrip,ParamName,fail]

end Proxy

section Resolve

variable {outbounds : OutboundsConfig} {action : String}

theorem byForm_bare (h : proxyInner action=none) {bare : Prop} {proxy : String → Prop} :
    ByForm action bare proxy ↔ bare := by
  constructor
  · intro hform
    exact hform.of_bare h
  · intro hbare
    refine ⟨fun _ => hbare,fun inner hinner => ?_⟩
    rw [h] at hinner
    cases hinner

theorem byForm_proxy {inner : String} (h : proxyInner action=some inner) {bare : Prop}
    {proxy : String → Prop} : ByForm action bare proxy ↔ proxy inner := by
  constructor
  · intro hform
    exact hform.of_proxy inner h
  · intro hproxy
    refine ⟨fun hnone => ?_,fun inner' hinner' => ?_⟩
    · rw [h] at hnone
      cases hnone
    · rw [h] at hinner'
      cases hinner'
      exact hproxy

theorem parseAction_inner {inner : String} (h : proxyInner action=some inner) :
    Outbound.parseAction action=Outbound.parseProxyParams inner := by
  have hne : ¬(trim action = "direct" ∨ trim action = "block") := by
    rintro (ht | ht) <;>
      rw [proxyInner,ht] at h <;>
      cases h
  rw [proxyInner] at h
  rw [Outbound.parseAction]
  simp only [hne,if_false,h]

theorem parseAction_bare (h : proxyInner action=none) :
    Outbound.parseAction action=.ok (Outbound.new (trim action)) := by
  rw [proxyInner] at h
  rw [Outbound.parseAction]
  simp only [h]
  split_ifs <;> rfl

/-- A known name, or a documented text whose group is neither read as a parameter nor shadowed by
a built-in name. -/
def RuleActionNamed (outbounds : OutboundsConfig) (action : String) : Prop :=
  ByForm action (builtinId (trim action)≠none ∨ Declared outbounds (trim action))
    fun inner => ∃ ob,DocumentedProxy (outbounds.groups.map (·.name)) inner ob ∧
      ParamName ob.name ∧ ∀ id,builtinId ob.name=some id → id=Outbound.controlPlaneRouting

theorem ruleActionResolves_iff :
    RuleActionResolves outbounds action ↔ RuleActionNamed outbounds action := by
  unfold RuleActionResolves NamesOutbound RuleActionNamed
  cases hinner : proxyInner action with
  | none =>
    simp only [byForm_bare hinner,parseAction_bare hinner,resolveOutboundId_eq,Except.ok.injEq]
    constructor
    · rintro ⟨ob,id,-,-,-,hid | ⟨-,hdecl,-⟩⟩
      · exact .inl (by rw [hid]; simp)
      · exact .inr hdecl
    · intro h
      refine ⟨Outbound.new (trim action),?_⟩
      cases hb : builtinId (trim action) with
      | some id => exact ⟨id,rfl,by simp [Outbound.new,hb],rfl,.inl rfl⟩
      | none =>
        have hdecl := h.resolve_left (by simp [hb])
        refine ⟨Outbound.controlPlaneRouting,rfl,?_,rfl,.inr ⟨rfl,hdecl,rfl⟩⟩
        simp [Outbound.new,hb,buildOutboundIdMap_declared outbounds hdecl]
  | some inner =>
    simp only [byForm_proxy hinner,parseAction_inner hinner,resolveOutboundId_eq]
    constructor
    · rintro ⟨ob,id,hparse,hres,hdoc,rfl⟩
      refine ⟨ob,hdoc,(parseProxyParams_documented hdoc).mp hparse,fun id hid => ?_⟩
      rw [hid] at hres
      exact Except.ok.inj hres
    · rintro ⟨ob,hdoc,hname,hbuiltin⟩
      refine ⟨ob,Outbound.controlPlaneRouting,(parseProxyParams_documented hdoc).mpr hname,?_,
        hdoc,rfl⟩
      cases hb : builtinId ob.name with
      | some id => rw [hbuiltin id hb]
      | none => rw [buildOutboundIdMap_declared outbounds (.inl hdoc.1)]

theorem fallbackResolves_iff : FallbackResolves outbounds action ↔ ByForm action
        (∃ id,buildOutboundIdMap outbounds (trim action)=some id ∧
          NamesOutbound outbounds action (Outbound.new (trim action)) id)
        fun inner => ∃ ob,DocumentedProxy (outbounds.groups.map (·.name)) inner ob ∧
          ParamName ob.name := by
  unfold FallbackResolves
  cases hinner : proxyInner action with
  | none =>
    simp only [byForm_bare hinner,parseAction_bare hinner,Except.ok.injEq]
    constructor
    · rintro ⟨ob,id,rfl,hmap,hnames⟩
      exact ⟨id,hmap,hnames⟩
    · rintro ⟨id,hmap,hnames⟩
      exact ⟨_,id,rfl,hmap,hnames⟩
  | some inner =>
    simp only [NamesOutbound,byForm_proxy hinner,parseAction_inner hinner]
    constructor
    · rintro ⟨ob,id,hparse,-,hdoc,-⟩
      exact ⟨ob,hdoc,(parseProxyParams_documented hdoc).mp hparse⟩
    · rintro ⟨ob,hdoc,hname⟩
      exact ⟨ob,_,(parseProxyParams_documented hdoc).mpr hname,
        buildOutboundIdMap_declared outbounds (.inl hdoc.1),hdoc,rfl⟩

theorem commaLoop_blank {l current : List Char} (hl : ∀ c∈l,isWhitespace c=true)
    (hcur : ∀ c∈current,isWhitespace c=true) (depth : Nat) :
    commaLoop l current depth=[] := by
  induction l generalizing current with
  | nil =>
    have hblank : trim (String.ofList current.reverse) = "" := by
      rw [trim_eq_empty_iff,String.toList_ofList]
      exact fun c hc => hcur c (mem_reverse.mp hc)
    simp [commaLoop,pushTrimmed,hblank]
  | cons c l ih =>
    have hc := hl c mem_cons_self
    have hplain : c ≠ '(' ∧ c ≠ ')' ∧ c ≠ ',' := by
      refine ⟨?_,?_,?_⟩ <;>
        rintro rfl <;>
        cases hc
    rw [commaLoop,if_neg hplain.1,if_neg hplain.2.1,if_neg fun h => hplain.2.2 h.1]
    exact ih (fun d hd => hl d (mem_cons_of_mem _ hd))
      (forall_mem_cons.mpr ⟨hc,hcur⟩)

theorem DocumentedProxy.trim_ne {groups : List String} {inner : String} {ob : Outbound}
    (h : DocumentedProxy groups inner ob) : trim inner ≠ "" := by
  intro hblank
  obtain ⟨-,tail,mark,hparts,-⟩ := h
  rw [trim_eq_empty_iff] at hblank
  rw [parseCommaSeparated,commaLoop_blank hblank (by simp)] at hparts
  cases hparts

end Resolve

section Agree

/-- The validator and the compiler agree on the actions of a configuration: documented actions
pass, and if the configuration is accepted, every action is resolved to the outbound it names. -/
structure ActionsAgree (env : Env) (c : DaefileConfig) : Prop where
  rules_pass : ∀ rule∈c.routing.rules,DocumentedAction c.groupNames rule.action →
    validateRuleAction c.groupNames rule.action=.ok ()
  fallback_passes : DocumentedAction c.groupNames c.routing.fallback → validateFallback c=.ok ()
  resolves : validateConfig env c=.ok () →
    (∀ rule∈c.routing.rules,RuleActionResolves c.outbounds rule.action) ∧
      FallbackResolves c.outbounds c.routing.fallback

/-- The whole text inside `proxy(...)` is the name of a group, wherever the text is a declared
group with documented parameters. -/
def WholeGroup (groups : List String) (action : String) : Prop :=
  ∀ inner ob,proxyInner action=some inner → DocumentedProxy groups inner ob → trim inner∈groups

/-- `direct` with nothing declared under that name, or a documented text whose group is not read as
a parameter. -/
def FallbackNamed (outbounds : OutboundsConfig) (action : String) : Prop :=
  ByForm action (¬Declared outbounds "direct")
    fun inner => ∃ ob,DocumentedProxy (outbounds.groups.map (·.name)) inner ob ∧ ParamName ob.name

/-- The two agree on these: no documented text is longer than its group's name, the fallback is not
`block`, and no name is unknown or empty, no group read as a parameter or shadowed by a built-in
name in a rule. -/
structure ActionsPlain (env : Env) (c : DaefileConfig) : Prop where
  rules_whole : ∀ rule∈c.routing.rules,WholeGroup c.groupNames rule.action
  fallback_whole : WholeGroup c.groupNames c.routing.fallback
  fallback_ne_block : trim c.routing.fallback ≠ "block"
  rules_named : validateConfig env c=.ok () → ∀ rule∈c.routing.rules,
    RuleActionNamed c.outbounds rule.action
  fallback_named : validateConfig env c=.ok () → FallbackNamed c.outbounds c.routing.fallback

variable {env : Env} {c : DaefileConfig} {groups : List String} {action : String}

theorem validateConfig_fallback (h : validateConfig env c=.ok ()) : validateFallback c=.ok () := by
  unfold validateConfig at h
  simp only [seq_ok_iff] at h
  obtain ⟨-,-,-,-,-,-,hf,-⟩ := h
  exact hf

theorem extractProxyGroup_eq (action : String) :
    extractProxyGroup action=match proxyInner action with
      | some inner => if trim inner = "" then none else some (trim inner)
      | none => none := by
  unfold extractProxyGroup proxyInner
  cases (stripStart (trim action) "proxy(").bind (stripEnd · ")") <;> rfl

theorem proxyInner_ne {inner : String} (h : proxyInner action=some inner) :
    trim action ≠ "direct" ∧ trim action ≠ "block" := by
  constructor <;>
    intro hw <;>
    rw [proxyInner,hw] at h <;>
    cases h

theorem validateRuleAction_ok_iff : validateRuleAction groups action=.ok () ↔
      ∀ inner,proxyInner action=some inner → trim inner ≠ "" → trim inner∈groups := by
  unfold validateRuleAction
  simp only [extractProxyGroup_eq]
  cases proxyInner action with
  | none => simp
  | some inner =>
    by_cases hblank : trim inner = ""
    · simp [hblank]
    · simp [hblank,ensure_ok_iff]

theorem validateFallback_ok_iff : validateFallback c=.ok () ↔ trim c.routing.fallback = "direct" ∨
      ∃ inner,proxyInner c.routing.fallback=some inner ∧ trim inner ≠ "" ∧
        trim inner∈c.groupNames := by
  have hextract : extractProxyGroup (trim c.routing.fallback) =
      extractProxyGroup c.routing.fallback := by
    rw [extractProxyGroup,extractProxyGroup,trim_trim]
  unfold validateFallback
  simp only [hextract,extractProxyGroup_eq]
  by_cases hdirect : trim c.routing.fallback = "direct"
  · simp [hdirect]
  · rw [if_neg hdirect]
    cases proxyInner c.routing.fallback with
    | none => simp [hdirect]
    | some inner =>
      by_cases hblank : trim inner = ""
      · simp [hblank,hdirect]
      · simp [hblank,hdirect,ensure_ok_iff]

theorem validateRuleAction_documented :
    (DocumentedAction groups action → validateRuleAction groups action=.ok ()) ↔
      WholeGroup groups action := by
  rw [validateRuleAction_ok_iff]
  constructor
  · intro h inner ob hinner hdoc
    exact h (.inr (.inr ⟨inner,ob,hinner,hdoc⟩)) inner hinner hdoc.trim_ne
  · intro h hdoc inner hinner _
    obtain ⟨hd,hb⟩ := proxyInner_ne hinner
    obtain ⟨inner',ob,hinner',hproxy⟩ := (hdoc.resolve_left hd).resolve_left hb
    rw [hinner] at hinner'
    cases hinner'
    exact h inner ob hinner hproxy

theorem validateFallback_documented :
    (DocumentedAction c.groupNames c.routing.fallback → validateFallback c=.ok ()) ↔
      WholeGroup c.groupNames c.routing.fallback ∧ trim c.routing.fallback ≠ "block" := by
  rw [validateFallback_ok_iff]
  constructor
  · intro h
    constructor
    · intro inner ob hinner hdoc
      rcases h (.inr (.inr ⟨inner,ob,hinner,hdoc⟩)) with hd | ⟨inner',hinner',-,hmem⟩
      · exact absurd hd (proxyInner_ne hinner).1
      · rw [hinner] at hinner'
        cases hinner'
        exact hmem
    · intro hblock
      rcases h (.inr (.inl hblock)) with hd | ⟨inner,hinner,-⟩
      · rw [hblock] at hd
        revert hd
        decide
      · exact (proxyInner_ne hinner).2 hblock
  · rintro ⟨hwhole,hblock⟩ (hd | hb | ⟨inner,ob,hinner,hproxy⟩)
    · exact .inl hd
    · exact absurd hb hblock
    · exact .inr ⟨inner,hinner,hproxy.trim_ne,hwhole inner ob hinner hproxy⟩

theorem direct_named_iff (hfb : trim action = "direct") (hinner : proxyInner action=none)
    (outbounds : OutboundsConfig) :
    (∃ id,buildOutboundIdMap outbounds (trim action)=some id ∧
      NamesOutbound outbounds action (Outbound.new (trim action)) id) ↔
      ¬Declared outbounds "direct" := by
  have hid : builtinId "direct" = some Outbound.direct := rfl
  simp only [NamesOutbound,byForm_bare hinner,hfb,hid,true_and,reduceCtorEq,false_and,or_false,
    Option.some.injEq]
  constructor
  · rintro ⟨id,hmap,rfl⟩ hdecl
    rw [buildOutboundIdMap_declared outbounds hdecl] at hmap
    revert hmap
    decide
  · intro hdecl
    refine ⟨Outbound.direct,?_,rfl⟩
    rw [buildOutboundIdMap_undeclared outbounds hdecl,hid]
    rfl

theorem fallbackResolves_accepted (hvalid : validateConfig env c=.ok ()) :
    FallbackResolves c.outbounds c.routing.fallback ↔
      FallbackNamed c.outbounds c.routing.fallback := by
  rw [fallbackResolves_iff,FallbackNamed]
  have hok := validateFallback_ok_iff.mp (validateConfig_fallback hvalid)
  cases hinner : proxyInner c.routing.fallback with
  | none =>
    rw [hinner] at hok
    have hdirect : trim c.routing.fallback = "direct" := by simpa using hok
    rw [byForm_bare hinner,byForm_bare hinner]
    exact direct_named_iff hdirect hinner c.outbounds
  | some inner => rw [byForm_proxy hinner,byForm_proxy hinner]

/-- The validator and the compiler agree on a configuration's actions exactly when the actions are
plain. -/
theorem actions_agree_iff (env : Env) (c : DaefileConfig) :
    ActionsAgree env c ↔ ActionsPlain env c := by
  constructor
  · intro h
    have hfb := validateFallback_documented.mp h.fallback_passes
    refine ⟨fun rule hr => validateRuleAction_documented.mp (h.rules_pass rule hr),hfb.1,hfb.2,
      fun hvalid rule hr => ?_,fun hvalid => ?_⟩
    · exact ruleActionResolves_iff.mp ((h.resolves hvalid).1 rule hr)
    · have hiff : FallbackResolves c.outbounds c.routing.fallback ↔
          FallbackNamed c.outbounds c.routing.fallback := fallbackResolves_accepted hvalid
      exact hiff.mp (h.resolves hvalid).2
  · intro h
    refine ⟨fun rule hr => validateRuleAction_documented.mpr (h.rules_whole rule hr),
      validateFallback_documented.mpr ⟨h.fallback_whole,h.fallback_ne_block⟩,
      fun hvalid => ⟨fun rule hr => ?_,?_⟩⟩
    · exact ruleActionResolves_iff.mpr (h.rules_named hvalid rule hr)
    · exact (fallbackResolves_accepted hvalid).mpr (h.fallback_named hvalid)

end Agree

def sampleConfig (routing : RoutingConfig) : DaefileConfig where
  runtime := ⟨15080, "info"⟩
  processExclusion := none
  nodes := [⟨⟨"n", "socks5", "192.0.2.1:1080"⟩,none,none,none,none,5000⟩]
  groups := [⟨"g",.auto,none,none,[.list ["n"]]⟩]
  routing := routing
  api := none
  dns := none
  ruleSet := []

/-- The documented `proxy(g, mark=0x10)` is rejected, and so is a fallback `block`; an unknown bare
name is accepted and does not compile. -/
theorem validator_compiler_disagree : (DocumentedProxy ["g"] "g, mark=0x10" ⟨"g",16,false⟩ ∧
      validateConfig Env.empty (sampleConfig ⟨[⟨"dport(80)", "proxy(g, mark=0x10)"⟩], "direct"⟩) =
        .error (.unknownGroup "g, mark=0x10")) ∧
    validateConfig Env.empty (sampleConfig ⟨[], "block"⟩)=.error (invalidFallback "block") ∧
    (validateConfig Env.empty (sampleConfig ⟨[⟨"dport(80)", "nosuch"⟩], "direct"⟩)=.ok () ∧
      (compileRules Env.empty none ⟨[⟨"dport(80)", "nosuch"⟩], "direct"⟩
        (sampleConfig ⟨[⟨"dport(80)", "nosuch"⟩], "direct"⟩).outbounds []).toOption=none) := by
  refine ⟨⟨⟨by decide,["mark=0x10"],some "0x10",by decide +kernel,by decide +kernel,?_⟩,?_⟩,
    ?_,?_,?_⟩
  · show parseMarkValue "0x10" = .ok 16
    decide +kernel
  all_goals decide +kernel

end DaeRs.Routing
