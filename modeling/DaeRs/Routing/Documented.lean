import DaeRs.Routing.Bracketing
import DaeRs.Routing.KeyGroups
import DaeRs.Routing.Layout

/-! The documented reading of a configuration: the values of a function are alternatives, the
functions of a rule are conjuncts, and the first rule that holds decides. -/

namespace DaeRs.Routing

open Chain RustStr Net RuleSet Bpf Config List

def valueMatches (args : RouteArgs) : FunctionKind → String → Bool
  | .dport,v => (parsePortRange v).toOption.any fun r =>
      decide (r.portStart≤args.hDport) && decide (args.hDport ≤ r.portEnd)
  | .sport,v => (parsePortRange v).toOption.any fun r =>
      decide (r.portStart≤args.hSport) && decide (args.hSport ≤ r.portEnd)
  | .l4proto,v =>
    match toAsciiLowercase v with
    | "tcp" => decide (args.l4protoType &&& l4ProtoTcp≠0)
    | "udp" => decide (args.l4protoType &&& l4ProtoUdp≠0)
    | _ => false
  | .ipversion,v =>
    match trim v with
    | "4" => decide (args.ipversionType &&& ipVersion4≠0)
    | "6" => decide (args.ipversionType &&& ipVersion6≠0)
    | _ => false
  | .processName,v => args.isWan && decide (nameBytes v=args.pname)
  | .dscp,v => (parseDscp v).toOption.any fun d => decide (args.dscp=d)
  | _,_ => false

section Meaning

variable (env : Env) (cache : Option RuleSetCache) (args : RouteArgs) (q : Option String)

def paramCovers (addr : Bytes16) (raw : String) : Bool :=
  ((parseCidrValue env cache raw).toOption.getD []).any (·.covers addr)

def Function.nameMatches (f : Function) : Bool := q.any fun name => (CompiledDomainSet.compile
    ((domainPatterns cache f.rawParams).toOption.getD [])).matchesQname env name

def Function.anyMatches (f : Function) : Bool :=
  match f.kind with
  | none => false
  | some .dip => f.rawParams.any (paramCovers env cache args.daddr)
  | some .sip => f.rawParams.any (paramCovers env cache args.saddr)
  | some .domain => f.nameMatches env cache q
  | some kind => f.rawParams.any fun raw => valueMatches args kind (splitParam raw).2

def Function.holds (f : Function) : Bool := f.anyMatches env cache args q != f.not

def NormalizedRule.holds (rule : NormalizedRule) : Bool :=
  rule.andFunctions.all fun f => f.holds env cache args q

def condTruth (c : Cond) : Bool := (condEval args c).toOption.getD false

variable (idMap : OutboundIdMap)

def NormalizedRule.action (rule : NormalizedRule) : RouteResult :=
  ⟨(resolveOutboundId rule.outbound idMap).toOption.getD 0,rule.outbound.mark,rule.outbound.must⟩

end Meaning

section Values

variable {env : Env} {cache : Option RuleSetCache} {args : RouteArgs}

end Values

def itemTruth (args : RouteArgs) (item : Item) : Bool := condTruth args item.cond

section Items

variable {env : Env} {cache : Option RuleSetCache} {args : RouteArgs} {f : Function}

end Items

section Rules

variable {env : Env} {cache : Option RuleSetCache} (args : RouteArgs) (ob : Outbound)

theorem link_stop {item : Item} {id : UInt8} (h : item.outbound=id)
    (hid : id≠Outbound.logicalOr ∧ id≠Outbound.logicalAnd) : item.link=.stop := by
  rw [Item.link,h,if_neg hid.1,if_neg hid.2]

/-- Items that are one rule, taken exactly when the verdict says so, with its action. -/
def Reads (items : List Item) (v : Bool×RouteResult) : Prop :=
  ∃ body a,items=body++[a] ∧ (∀ b∈body,b.link≠.stop) ∧ a.link=.stop ∧
    (a.outbound=v.2.outbound ∧ a.must=v.2.must ∧ a.mark=v.2.mark) ∧
    (itemReader args).allClauses (itemTruth args) items=v.1

end Rules

section Program

variable {env : Env} {cache : Option RuleSetCache} {routing : RoutingConfig}
  {outbounds : OutboundsConfig} {ips : List IpAddr} {t : Compilation}

end Program

end DaeRs.Routing
