import DaeRs.Lib.FirstMatch
import DaeRs.RuleSet.DomainMatch
import DaeRs.Routing.Documented

/-! The DNS forwarder's domain routes, derived from the routing rules. -/

namespace DaeRs.Routing

open RuleSet Config FirstMatch List

inductive DnsOutbound where
  | direct
  | block
  | group (name : String)
  deriving DecidableEq

/-- A rule as the forwarder keeps it. -/
structure DnsDomainRoute where
  matcher : CompiledDomainSet
  outbound : DnsOutbound
  deriving DecidableEq

def Outbound.dns (outbound : Outbound) : DnsOutbound :=
  match outbound.name with
  | "direct" => .direct
  | "block" => .block
  | name => .group name

section Build

variable (cache : Option RuleSetCache)

def dnsPatternsOf (raw : String) : Option (List DomainPattern) :=
  match parseRef raw with
  | .set name => cache.bind fun cache => cache.getSetDomains name
  | .plain v => some (domainStringsToPatterns [v])

def dnsPatterns : List String → Option (List DomainPattern)
  | [] => some []
  | raw::raws => do
    let pats ← dnsPatternsOf cache raw
    let rest ← dnsPatterns raws
    pure (pats++rest)

/-- The patterns of all domain functions of a rule, in one list; the other functions are passed
over. -/
def dnsRulePatterns : List Function → Option (List DomainPattern)
  | [] => some []
  | f::fs =>
    if f.isDomain then do
      let pats ← dnsPatterns cache f.rawParams
      let rest ← dnsRulePatterns fs
      pure (pats++rest)
    else dnsRulePatterns fs

/-- The route of a rule. A rule is skipped when a rule set is missing, when it has no domain
function, and when there is no pattern. -/
def dnsRoute (rule : NormalizedRule) : Option DnsDomainRoute :=
  match dnsRulePatterns cache rule.andFunctions with
  | none => none
  | some patterns =>
    if rule.andFunctions.any Function.isDomain=false ∨ patterns=[] then none
    else some ⟨CompiledDomainSet.compile patterns,rule.outbound.dns⟩

def buildDnsDomainRoutes (routing : RoutingConfig) : Except Error (List DnsDomainRoute) := do
  let program ← NormalizedProgram.fromConfig routing
  pure (program.rules.filterMap (dnsRoute cache))

end Build

def dnsOutboundFromAction (action : String) : Except Error DnsOutbound :=
  Outbound.dns <$> Outbound.parseAction action

def routeDomain (env : Env) (fallback : DnsOutbound) (qname : String) :
    List DnsDomainRoute → DnsOutbound
  | [] => fallback
  | route::routes =>
    if route.matcher.matchesQname env qname then route.outbound
    else routeDomain env fallback qname routes

def dnsOutbound (env : Env) (cache : Option RuleSetCache) (routing : RoutingConfig)
    (qname : String) : Except Error DnsOutbound := do
  let routes ← buildDnsDomainRoutes cache routing
  let fallback ← dnsOutboundFromAction routing.fallback
  pure (routeDomain env fallback qname routes)

section Readings

variable (env : Env) (cache : Option RuleSetCache) (qname : String) (rule : NormalizedRule)

def NormalizedRule.setsLoaded : Bool := (dnsRulePatterns cache rule.andFunctions).isSome

/-- The rule consists of domain functions, and all of them hold for the name. A rule with a
missing rule set does not hold. -/
def NormalizedRule.holdsForName : Bool :=
  decide (rule.andFunctions≠[]) && rule.andFunctions.all Function.isDomain &&
    rule.setsLoaded cache &&
    rule.andFunctions.all fun f => f.nameMatches env cache (some qname) != f.not

def NormalizedRule.someMatches : Bool := rule.setsLoaded cache &&
    rule.andFunctions.any fun f => f.isDomain && f.nameMatches env cache (some qname)

/-- The rule's sets are loaded, and a domain function matches although another function is of
another kind or fails, or all its functions are negated domain functions and none matches. -/
def NormalizedRule.Misread : Prop := rule.setsLoaded cache=true ∧
    ((∃ f∈rule.andFunctions,f.isDomain=true ∧ f.nameMatches env cache (some qname)=true) ∧
        (∃ f∈rule.andFunctions,f.isDomain=false ∨
          f.nameMatches env cache (some qname)=f.not) ∨
      rule.andFunctions≠[] ∧ ∀ f∈rule.andFunctions,f.isDomain=true ∧ f.not=true ∧
        f.nameMatches env cache (some qname)=false)

/-- The action of the first rule of domain functions that all hold, else the fallback. -/
def documentedDnsOutbound (routing : RoutingConfig) : Except Error DnsOutbound := do
  let program ← NormalizedProgram.fromConfig routing
  pure (firstOf (fun rule => rule.outbound.dns) (fun rule => rule.holdsForName env cache qname)
    program.rules program.fallback.dns)

end Readings

section Routes

variable {env : Env} {cache : Option RuleSetCache} {qname : String}

theorem dnsPatternsOf_eq (raw : String) :
    dnsPatternsOf cache raw=(domainPatternsOf cache raw).toOption := by
  unfold dnsPatternsOf domainPatternsOf
  cases parseRef raw with
  | plain v => rfl
  | set name =>
    cases cache with
    | none => rfl
    | some c =>
      simp only [Option.bind_some]
      cases c.getSetDomains name <;> rfl

theorem dnsPatterns_eq (raws : List String) :
    dnsPatterns cache raws=(domainPatterns cache raws).toOption := by
  induction raws with
  | nil => rfl
  | cons raw raws ih =>
    rw [dnsPatterns,domainPatterns,ih,dnsPatternsOf_eq]
    cases domainPatternsOf cache raw with
    | error e => rfl
    | ok pats => cases domainPatterns cache raws <;> rfl

theorem mem_dnsRulePatterns {fs : List Function} {patterns : List DomainPattern}
    (h : dnsRulePatterns cache fs=some patterns) (p : DomainPattern) :
    p∈patterns ↔ ∃ f∈fs,f.isDomain=true ∧
      p∈(domainPatterns cache f.rawParams).toOption.getD [] := by
  induction fs generalizing patterns with
  | nil =>
    cases h
    simp
  | cons f fs ih =>
    rw [dnsRulePatterns] at h
    cases hdom : f.isDomain with
    | false =>
      rw [hdom,if_neg (by decide)] at h
      rw [exists_mem_cons_iff,ih h,hdom]
      simp
    | true =>
      rw [hdom,if_pos rfl] at h
      simp only [Option.bind_eq_bind,Option.bind_eq_some_iff,Option.pure_def,Option.some.injEq] at h
      obtain ⟨pats,hpats,rest,hrest,rfl⟩ := h
      rw [mem_append,ih hrest,exists_mem_cons_iff,hdom,← dnsPatterns_eq,hpats]
      simp

variable (rule : NormalizedRule)

theorem dnsRoute_matches : (dnsRoute cache rule).any (fun r => r.matcher.matchesQname env qname) =
      rule.someMatches env cache qname := by
  unfold dnsRoute NormalizedRule.someMatches NormalizedRule.setsLoaded
  cases hpats : dnsRulePatterns cache rule.andFunctions with
  | none => rfl
  | some patterns =>
    have hset : (CompiledDomainSet.compile patterns).matchesQname env qname =
        rule.andFunctions.any fun f => f.isDomain && f.nameMatches env cache (some qname) := by
      rw [Bool.eq_iff_iff,compile_matches_iff,any_eq_true]
      constructor
      · rintro ⟨hq,p,hp,hne,hm⟩
        obtain ⟨f,hf,hdom,hmem⟩ := (mem_dnsRulePatterns hpats p).mp hp
        refine ⟨f,hf,?_⟩
        rw [Bool.and_eq_true,Function.nameMatches,Option.any_some,compile_matches_iff]
        exact ⟨hdom,hq,p,hmem,hne,hm⟩
      · rintro ⟨f,hf,hm⟩
        rw [Bool.and_eq_true,Function.nameMatches,Option.any_some,compile_matches_iff] at hm
        obtain ⟨hdom,hq,p,hmem,hne,hm⟩ := hm
        exact ⟨hq,p,(mem_dnsRulePatterns hpats p).mpr ⟨f,hf,hdom,hmem⟩,hne,hm⟩
    simp only [Option.isSome_some,Bool.true_and]
    split_ifs with hskip
    · -- a skipped rule has nothing that could match
      rw [Option.any_none,← hset]
      symm
      rw [Bool.eq_false_iff]
      intro hm
      rcases hskip with hnone | rfl
      · rw [hset,any_eq_true] at hm
        obtain ⟨f,hf,hm⟩ := hm
        rw [any_eq_false] at hnone
        rw [Bool.and_eq_true] at hm
        exact hnone f hf hm.1
      · obtain ⟨-,p,hp,-⟩ := (compile_matches_iff env [] qname).mp hm
        cases hp
    · rw [Option.any_some,← hset]

theorem dnsRoute_outbound {rule : NormalizedRule} {route : DnsDomainRoute}
    (h : dnsRoute cache rule=some route) : route.outbound=rule.outbound.dns := by
  unfold dnsRoute at h
  split at h
  · cases h
  · split_ifs at h
    cases h
    rfl

theorem routeDomain_build (rules : List NormalizedRule) (fallback : DnsOutbound) :
    routeDomain env fallback qname (rules.filterMap (dnsRoute cache)) =
      firstOf (fun rule => rule.outbound.dns) (fun rule => rule.someMatches env cache qname)
        rules fallback := by
  induction rules with
  | nil => rfl
  | cons rule rules ih =>
    have hmatch : (dnsRoute cache rule).any (fun r => r.matcher.matchesQname env qname) =
        rule.someMatches env cache qname := dnsRoute_matches rule
    rw [firstOf_cons,← hmatch]
    cases hroute : dnsRoute cache rule with
    | none =>
      rw [filterMap_cons_none hroute,Option.any_none,if_neg (by decide),ih]
    | some route =>
      rw [filterMap_cons_some hroute,routeDomain,Option.any_some,ih,dnsRoute_outbound hroute]

theorem NormalizedRule.holdsForName_iff :
    rule.holdsForName env cache qname=true ↔ rule.setsLoaded cache=true ∧
      rule.andFunctions≠[] ∧ ∀ f∈rule.andFunctions,f.isDomain=true ∧
        f.nameMatches env cache (some qname)≠f.not := by
  simp only [NormalizedRule.holdsForName,Bool.and_eq_true,decide_eq_true_eq,all_eq_true,bne_iff_ne]
  constructor
  · rintro ⟨⟨⟨hne,hdom⟩,hload⟩,hhold⟩
    exact ⟨hload,hne,fun f hf => ⟨hdom f hf,hhold f hf⟩⟩
  · rintro ⟨hload,hne,hall⟩
    exact ⟨⟨⟨hne,fun f hf => (hall f hf).1⟩,hload⟩,fun f hf => (hall f hf).2⟩

theorem NormalizedRule.someMatches_iff :
    rule.someMatches env cache qname=true ↔ rule.setsLoaded cache=true ∧
      ∃ f∈rule.andFunctions,f.isDomain=true ∧ f.nameMatches env cache (some qname)=true := by
  simp only [NormalizedRule.someMatches,Bool.and_eq_true,any_eq_true]

theorem NormalizedRule.misread_iff :
    rule.someMatches env cache qname≠rule.holdsForName env cache qname ↔
      rule.Misread env cache qname := by
  have hdiff : rule.someMatches env cache qname≠rule.holdsForName env cache qname ↔
      (rule.someMatches env cache qname=true ∧ ¬rule.holdsForName env cache qname=true) ∨
      (¬rule.someMatches env cache qname=true ∧ rule.holdsForName env cache qname=true) := by
    cases rule.someMatches env cache qname <;> cases rule.holdsForName env cache qname <;> simp
  rw [hdiff,holdsForName_iff,someMatches_iff,Misread]
  constructor
  · rintro (⟨⟨hload,f,hf,hm⟩,hnot⟩ | ⟨hnone,hload,hne,hall⟩)
    · refine ⟨hload,.inl ⟨⟨f,hf,hm⟩,?_⟩⟩
      by_contra hcon
      push Not at hcon
      refine hnot ⟨hload,ne_nil_of_mem hf,fun g hg => ?_⟩
      exact ⟨by simpa using (hcon g hg).1,(hcon g hg).2⟩
    · refine ⟨hload,.inr ⟨hne,fun f hf => ?_⟩⟩
      obtain ⟨hdom,hhold⟩ := hall f hf
      have hmiss : f.nameMatches env cache (some qname)=false := by
        rw [Bool.eq_false_iff]
        exact fun hm => hnone ⟨hload,f,hf,hdom,hm⟩
      rw [hmiss] at hhold
      exact ⟨hdom,by simpa using hhold.symm,hmiss⟩
  · rintro ⟨hload,⟨⟨f,hf,hm⟩,g,hg,hbad⟩ | ⟨hne,hall⟩⟩
    · refine .inl ⟨⟨hload,f,hf,hm⟩,?_⟩
      rintro ⟨-,-,hhold⟩
      obtain ⟨hdom,hmatch⟩ := hhold g hg
      rcases hbad with hdom' | heq
      · rw [hdom] at hdom'
        cases hdom'
      · exact hmatch heq
    · refine .inr ⟨?_,hload,hne,fun f hf => ?_⟩
      · rintro ⟨-,f,hf,-,hm⟩
        rw [(hall f hf).2.2] at hm
        cases hm
      · obtain ⟨hdom,hnot,hmiss⟩ := hall f hf
        refine ⟨hdom,?_⟩
        rw [hnot,hmiss]
        decide

end Routes

/-- The forwarder's outbound is the documented one exactly when the first rule misread for the name,
if no earlier rule applies in either reading, has the outbound that the other reading finds later.
-/
theorem dnsOutbound_documented_iff (env : Env) (cache : Option RuleSetCache)
    (routing : RoutingConfig) (qname : String) :
    dnsOutbound env cache routing qname=documentedDnsOutbound env cache qname routing ↔
      ∀ program,NormalizedProgram.fromConfig routing=.ok program →
        ∀ pre rule post,program.rules=pre++rule::post →
          (∀ r∈pre,r.someMatches env cache qname=false ∧
            r.holdsForName env cache qname=false) →
          rule.Misread env cache qname →
          rule.outbound.dns=firstOf (fun r => r.outbound.dns)
            (if rule.holdsForName env cache qname then fun r => r.someMatches env cache qname
              else fun r => r.holdsForName env cache qname) post program.fallback.dns := by
  unfold dnsOutbound documentedDnsOutbound buildDnsDomainRoutes
  cases hprog : NormalizedProgram.fromConfig routing with
  | error e => simp [Fallible.error_bind]
  | ok program =>
    have hfallback : dnsOutboundFromAction routing.fallback=.ok program.fallback.dns := by
      obtain ⟨rules,-,h⟩ := Fallible.bind_ok_iff.mp hprog
      obtain ⟨fallback,hfb,h⟩ := Fallible.bind_ok_iff.mp h
      cases h
      rw [withContext_ok] at hfb
      rw [dnsOutboundFromAction,hfb]
      rfl
    simp only [Fallible.ok_bind,hfallback,pure,Except.pure,Except.ok.injEq,forall_eq']
    rw [routeDomain_build,firstOf_eq_iff]
    simp only [NormalizedRule.misread_iff]

/-- A negated function, two functions, and a function of another kind: the forwarder takes the
rule's action where the fallback is documented. -/
theorem dnsOutbound_flattens_rule :
    (dnsOutbound Env.empty none ⟨[⟨"!domain(suffix:a.com)", "block"⟩], "direct"⟩ "www.a.com" =
        .ok .block ∧
      documentedDnsOutbound Env.empty none "www.a.com"
        ⟨[⟨"!domain(suffix:a.com)", "block"⟩], "direct"⟩=.ok .direct) ∧
    (dnsOutbound Env.empty none ⟨[⟨"domain(suffix:a.com) && domain(keyword:ads)", "block"⟩],
        "direct"⟩ "www.a.com" = .ok .block ∧
      documentedDnsOutbound Env.empty none "www.a.com"
        ⟨[⟨"domain(suffix:a.com) && domain(keyword:ads)", "block"⟩], "direct"⟩=.ok .direct) ∧
    (dnsOutbound Env.empty none ⟨[⟨"domain(suffix:a.com) && dport(443)", "block"⟩],
        "direct"⟩ "www.a.com" = .ok .block ∧
      documentedDnsOutbound Env.empty none "www.a.com"
        ⟨[⟨"domain(suffix:a.com) && dport(443)", "block"⟩], "direct"⟩=.ok .direct) := by
  decide +kernel

end DaeRs.Routing
