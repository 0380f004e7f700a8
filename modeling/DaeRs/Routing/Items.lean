import DaeRs.Routing.Compile

/-! The conditions that a configuration lays out, one for each compiled entry. -/

namespace DaeRs.Routing

open RustStr Net RuleSet Bpf Config

/-- What an entry tests, with the prefix list in place of the trie index. -/
inductive Cond where
  | domain (index : Nat)
  | dip (cidrs : List IpNet)
  | sip (cidrs : List IpNet)
  | mac (cidrs : List IpNet)
  | plain (value : MatchValue)

/-- An entry by what it means. -/
structure Item where
  cond : Cond
  not : Bool
  outbound : UInt8
  must : Bool
  mark : UInt32

def parsed {α : Type} (parse : String → Except Error α) (values : List String) : List α :=
  values.filterMap fun v => (parse v).toOption

def Function.cidrs (env : Env) (cache : Option RuleSetCache) (f : Function) : List IpNet :=
  (parseCidrValues env cache f.rawParams).toOption.getD []

def groupConds (env : Env) (cache : Option RuleSetCache) (f : Function) (values : List String)
    (idx : Nat) : FunctionKind → List Cond
  | .dip => [.dip (f.cidrs env cache)]
  | .sip => [.sip (f.cidrs env cache)]
  | .mac => if (macNets f).isEmpty then [] else [.mac (macNets f)]
  | .dport => (parsed parsePortRange values).map fun r => .plain (.port r)
  | .sport => (parsed parsePortRange values).map fun r => .plain (.sourcePort r)
  | .l4proto => [.plain (.l4Proto (l4protoMask values))]
  | .ipversion => [.plain (.ipVersion (ipversionMask values))]
  | .domain => [.domain idx]
  | .processName => values.map fun v => .plain (.processName (nameBytes v))
  | .dscp => (parsed parseDscp values).map fun d => .plain (.dscp d)
  | .qtype => [.plain (.qtype 0)]
  | .upstream => values.map fun v => .plain (.upstream (nameBytes v))

def overrideId (isLastInFunction isLastFunction : Bool) (id : UInt8) : UInt8 :=
  if !isLastInFunction then Outbound.logicalOr
  else if !isLastFunction then Outbound.logicalAnd
  else id

def Function.domainGroups (f : Function) : Nat :=
  if f.kind=some .domain then f.groups.length else 0

section Layout

variable (env : Env) (cache : Option RuleSetCache)

def groupsItems (f : Function) (kind : FunctionKind) (isLastFunction : Bool) (ob : Outbound)
    (id : UInt8) : List (List String) → Nat → List (List Item)
  | [],_ => []
  | values::rest,idx =>
    (groupConds env cache f values idx kind).map
        (fun c => ⟨c,f.not,overrideId rest.isEmpty isLastFunction id,ob.must,ob.mark⟩) ::
      groupsItems f kind isLastFunction ob id rest (if kind=.domain then idx+1 else idx)

def functionItems (f : Function) (isLastFunction : Bool) (ob : Outbound) (id : UInt8) (idx : Nat) :
    List (List Item) :=
  match f.kind with
  | none => []
  | some kind => groupsItems env cache f kind isLastFunction ob id f.groups idx

def functionsItems (ob : Outbound) (id : UInt8) : List Function → Nat → List (List (List Item))
  | [],_ => []
  | f::rest,idx =>
    functionItems env cache f rest.isEmpty ob id idx ::
      functionsItems ob id rest (idx+f.domainGroups)

end Layout

/-- An entry's value carries the condition; `tries` is the trie list of the compiled routing. -/
def CondValue (tries : List (List IpNet)) : Cond → MatchValue → Prop
  | .domain k,v => v=.domainSet (UInt32.ofNat k)
  | .dip cidrs,v => ∃ i,v=.ipSet (UInt32.ofNat i) ∧ tries[i]?=some cidrs
  | .sip cidrs,v => ∃ i,v=.sourceIpSet (UInt32.ofNat i) ∧ tries[i]?=some cidrs
  | .mac cidrs,v => ∃ i,v=.mac (UInt32.ofNat i) ∧ tries[i]?=some cidrs
  | .plain w,v => v=w

/-- The entry says what the item means. -/
structure Represents (tries : List (List IpNet)) (item : Item) (ms : MatchSet) : Prop where
  value : CondValue tries item.cond ms.value
  not : ms.not=item.not
  outbound : ms.outbound=item.outbound
  must : ms.must=item.must
  mark : ms.mark=item.mark

theorem CondValue.mono {tries new : List (List IpNet)} {c : Cond} {v : MatchValue}
    (h : CondValue tries c v) : CondValue (tries++new) c v := by
  have hget : ∀ {i : Nat} {cidrs : List IpNet},tries[i]?=some cidrs →
      (tries++new)[i]?=some cidrs := fun hi =>
    (List.getElem?_append_left (List.getElem?_eq_some_iff.mp hi).1).trans hi
  cases c with
  | dip cidrs | sip cidrs | mac cidrs =>
    obtain ⟨i,hv,hi⟩ := h
    exact ⟨i,hv,hget hi⟩
  | domain k => exact h
  | plain w => exact h

theorem Represents.mono {tries new : List (List IpNet)} {item : Item} {ms : MatchSet}
    (h : Represents tries item ms) : Represents (tries++new) item ms :=
  { h with value := h.value.mono }

/-- What a part of the lowering did to the state: at most `n` new tries, and `d` domain indices. -/
structure Grown (st st' : LowerState) (n d : Nat) : Prop where
  items : ∃ new,st'.lpm.items=st.lpm.items++new ∧ new.length≤n
  idx : st'.ruleDomainIdx=st.ruleDomainIdx+d

theorem Grown.refl (st : LowerState) : Grown st st 0 0 := ⟨⟨[],by simp,by simp⟩,by simp⟩

theorem Grown.trans {st st' st'' : LowerState} {n n' d d' : Nat} (h : Grown st st' n d)
    (h' : Grown st' st'' n' d') : Grown st st'' (n+n') (d+d') := by
  obtain ⟨new,hitems,hlen⟩ := h.items
  obtain ⟨new',hitems',hlen'⟩ := h'.items
  refine ⟨⟨new++new',by rw [hitems',hitems,List.append_assoc],?_⟩,?_⟩
  · rw [List.length_append]
    omega
  · rw [h'.idx,h.idx]
    omega

theorem parseEach_ok {α : Type} {parse : String → Except Error α} {values : List String}
    {as : List α} (h : parseEach parse values=.ok as) :
    as=parsed parse values ∧ as.length=values.length := by
  induction values generalizing as with
  | nil =>
    cases h
    exact ⟨rfl,rfl⟩
  | cons v vs ih =>
    rw [parseEach] at h
    obtain ⟨a,ha,h⟩ := Fallible.bind_ok_iff.mp h
    obtain ⟨rest,hrest,h⟩ := Fallible.bind_ok_iff.mp h
    cases h
    obtain ⟨hp,hlen⟩ := ih hrest
    exact ⟨by simp [parsed,ha,Except.toOption,hp],by simp [hlen]⟩

theorem intern_spec (st : LowerState) (cidrs : List IpNet) : Grown st (st.intern cidrs).2 1 0 ∧
      (st.intern cidrs).2.lpm.items[(st.intern cidrs).1]?=some cidrs := by
  refine ⟨⟨?_,rfl⟩,Intern.findOrCreate_get hashCidrs cidrs st.lpm⟩
  exact Intern.findOrCreate_extends hashCidrs cidrs st.lpm

/-- The parameters that a key group of a compiled function must have parsed. -/
def ValuesParse (env : Env) (cache : Option RuleSetCache) (f : Function) (values : List String) :
    FunctionKind → Prop
  | .dip | .sip => parseCidrValues env cache f.rawParams=.ok (f.cidrs env cache)
  | .dport | .sport => (parsed parsePortRange values).length=values.length
  | .dscp => (parsed parseDscp values).length=values.length
  | _ => True

theorem forall₂_plain {α : Type} (tries : List (List IpNet)) (g : α → MatchValue) (l : List α) :
    List.Forall₂ (CondValue tries) (l.map fun a => .plain (g a)) (l.map g) := by
  induction l with
  | nil => exact .nil
  | cons a as ih => exact .cons rfl ih

theorem cidrs_eq {env : Env} {cache : Option RuleSetCache} {f : Function} {cidrs : List IpNet}
    (h : parseCidrValues env cache f.rawParams=.ok cidrs) : f.cidrs env cache=cidrs := by
  simp [Function.cidrs,h,Except.toOption]

theorem lowerValues_spec {env : Env} {cache : Option RuleSetCache} {f : Function}
    {values : List String} {st st' : LowerState} {kind : FunctionKind} {vals : List MatchValue}
    (h : lowerValues env cache f values st kind=.ok (vals,st')) :
    Grown st st' vals.length (if kind=.domain then 1 else 0) ∧
      List.Forall₂ (CondValue st'.lpm.items)
        (groupConds env cache f values st.ruleDomainIdx kind) vals ∧
      ValuesParse env cache f values kind := by
  have hsame : ∀ n,Grown st st n 0 := fun n => ⟨⟨[],by simp,by simp⟩,by simp⟩
  cases kind with
  | dip | sip =>
    obtain ⟨cidrs,hc,h⟩ := Fallible.bind_ok_iff.mp h
    cases h
    obtain ⟨hg,hi⟩ := intern_spec st cidrs
    refine ⟨hg,?_,by rw [ValuesParse,hc,cidrs_eq hc]⟩
    exact .cons ⟨_,rfl,by rw [cidrs_eq hc]; exact hi⟩ .nil
  | mac =>
    simp only [lowerValues] at h
    split_ifs at h with hempty
    · cases h
      refine ⟨hsame 0,?_,trivial⟩
      rw [groupConds,if_pos hempty]
      exact .nil
    · cases h
      obtain ⟨hg,hi⟩ := intern_spec st (macNets f)
      refine ⟨hg,?_,trivial⟩
      rw [groupConds,if_neg hempty]
      exact .cons ⟨_,rfl,hi⟩ .nil
  | dport | sport | dscp =>
    obtain ⟨values,hv,h⟩ := Fallible.bind_ok_iff.mp h
    cases h
    obtain ⟨hp,hlen⟩ := parseEach_ok hv
    refine ⟨hsame _,?_,by rw [ValuesParse,← hp,hlen]⟩
    rw [groupConds,← hp]
    exact forall₂_plain _ _ _
  | l4proto | ipversion | qtype =>
    cases h
    exact ⟨hsame 1,.cons rfl .nil,trivial⟩
  | domain =>
    cases h
    exact ⟨⟨⟨[],by simp,by simp⟩,rfl⟩,.cons rfl .nil,trivial⟩
  | processName | upstream =>
    cases h
    exact ⟨hsame _,forall₂_plain _ _ _,trivial⟩

structure FunctionParses (env : Env) (cache : Option RuleSetCache) (f : Function) : Prop where
  known : f.kind=none → f.groups=[]
  values : ∀ kind,f.kind=some kind → ∀ vs∈f.groups,ValuesParse env cache f vs kind

section Lowered

variable (env : Env) (cache : Option RuleSetCache) (idMap : OutboundIdMap)
  (tries : List (List IpNet))

/-- The entries of a function stand for the conditions it lays out. -/
structure FunctionLowered (isLastFunction : Bool) (ob : Outbound) (id : UInt8) (idx : Nat)
    (lf : LoweredFunction) : Prop where
  groups : List.Forall₂ (List.Forall₂ (Represents tries))
    (functionItems env cache lf.func isLastFunction ob id idx) lf.groups
  parses : FunctionParses env cache lf.func

inductive FunctionsLowered (ob : Outbound) (id : UInt8) : Nat → List LoweredFunction → Prop
  | nil (idx : Nat) : FunctionsLowered ob id idx []
  | cons {idx : Nat} {lf : LoweredFunction} {rest : List LoweredFunction}
      (head : FunctionLowered env cache tries rest.isEmpty ob id idx lf)
      (tail : FunctionsLowered ob id (idx+lf.func.domainGroups) rest) :
      FunctionsLowered ob id idx (lf::rest)

def NormalizedRule.domainGroups (rule : NormalizedRule) : Nat :=
  (rule.andFunctions.map Function.domainGroups).sum

/-- The entries of a rule, from the domain index `idx` on. -/
structure RuleLowered (idx : Nat) (l : LoweredRule) (id : UInt8) : Prop where
  resolved : resolveOutboundId l.rule.outbound idMap=.ok id
  bare : l.bare=if l.rule.andFunctions.isEmpty then
    [buildFallbackMatchset id l.rule.outbound] else []
  funcs : l.functions.map LoweredFunction.func=l.rule.andFunctions
  functions : FunctionsLowered env cache tries l.rule.outbound id idx l.functions

inductive RulesLowered : Nat → List LoweredRule → Prop
  | nil (idx : Nat) : RulesLowered idx []
  | cons {idx : Nat} {l : LoweredRule} {ls : List LoweredRule} {id : UInt8}
      (head : RuleLowered env cache idMap tries idx l id)
      (tail : RulesLowered (idx+l.rule.domainGroups) ls) : RulesLowered idx (l::ls)

end Lowered

section Mono

variable {env : Env} {cache : Option RuleSetCache} {idMap : OutboundIdMap}
  {tries new : List (List IpNet)}

theorem FunctionLowered.mono {isLast : Bool} {ob : Outbound} {id : UInt8} {idx : Nat}
    {lf : LoweredFunction} (h : FunctionLowered env cache tries isLast ob id idx lf) :
    FunctionLowered env cache (tries++new) isLast ob id idx lf :=
  ⟨h.groups.imp fun _ _ hg => hg.imp fun _ _ hr => hr.mono,h.parses⟩

theorem FunctionsLowered.mono {ob : Outbound} {id : UInt8} {idx : Nat}
    {lfs : List LoweredFunction} (h : FunctionsLowered env cache tries ob id idx lfs) :
    FunctionsLowered env cache (tries++new) ob id idx lfs := by
  induction h with
  | nil idx => exact .nil idx
  | cons head _ ih => exact .cons head.mono ih

theorem RuleLowered.mono {idx : Nat} {l : LoweredRule} {id : UInt8}
    (h : RuleLowered env cache idMap tries idx l id) :
    RuleLowered env cache idMap (tries++new) idx l id :=
  { h with functions := h.functions.mono }

end Mono

end DaeRs.Routing
