import DaeRs.Routing.Compile
import DaeRs.RuleSet.IpSet
import DaeRs.Bpf.RouteEval

/-! `RoutingMatcher`: the userspace reading of the compiled entries. -/

namespace DaeRs.Routing

open Chain FirstMatch RustStr Net RuleSet Bpf List

structure RoutingParams where
  srcIp : Option IpAddr
  dstIp : Option IpAddr
  srcPort : Option UInt16
  dstPort : Option UInt16
  l4proto : Option UInt8
  domain : Option String
  processName : Option String
  dscp : Option UInt8
  deriving DecidableEq

structure RoutingMatcher where
  matchSets : List MatchSet
  compiledLpm : List CompiledIpSet
  compiledDomains : List CompiledDomainSet
  fallbackOutbound : UInt8
  fallbackMark : UInt32
  fallbackMust : Bool

def pnameBytes (pname : Bytes16) : ByteArray :=
  ⟨((List.range 16).map fun i => UInt8.ofNat (pname.toNat >>> (8*(15-i)))).toArray⟩

def pnameStr (pname : Bytes16) : String :=
  trimEndMatches ((String.fromUTF8? (pnameBytes pname)).getD "") '\x00'

namespace RoutingMatcher

/-- `from_compiled`; compiling a set may panic in a build with overflow checks. -/
def fromCompiled (checks : Bool) (c : CompiledRouting) : Option RoutingMatcher := do
  let compiledLpm ← c.lpmTries.mapM (CompiledIpSet.compile checks)
  pure {
    matchSets := c.matchSets
    compiledLpm
    compiledDomains := c.domainSets
    fallbackOutbound := c.fallbackOutbound
    fallbackMark := c.fallbackMark
    fallbackMust := c.fallbackMust }

def lpmContains (m : RoutingMatcher) (index : UInt32) (ip : IpAddr) : Bool :=
  m.compiledLpm[index.toNat]?.any fun s => s.contains ip

def evalMatch (env : Env) (m : RoutingMatcher) (params : RoutingParams) (ms : MatchSet) : Bool :=
  match ms.value with
  | .domainSet index =>
    match params.domain with
    | some domain => m.compiledDomains[index.toNat]?.any fun s => s.matchesQname env domain
    | none => false
  | .ipSet index => params.dstIp.any fun ip => m.lpmContains index ip
  | .sourceIpSet index => params.srcIp.any fun ip => m.lpmContains index ip
  | .mac _ => false
  | .port r => params.dstPort.any fun p => decide (p≥r.portStart) && decide (p ≤ r.portEnd)
  | .sourcePort r => params.srcPort.any fun p => decide (p≥r.portStart) && decide (p ≤ r.portEnd)
  | .l4Proto proto => params.l4proto.any fun p => decide (p &&& proto≠0)
  | .ipVersion version =>
    (params.dstIp.or params.srcIp).any fun ip =>
      match ip with
      | .v4 _ => decide (version &&& 0x01≠0)
      | .v6 _ => decide (version &&& 0x02≠0)
  | .processName pname => decide (params.processName=some (pnameStr pname))
  | .dscp dscp => decide (params.dscp=some dscp)
  | .fallback => true
  | .mustRules | .upstream _ | .qtype _ => false

def fallback (m : RoutingMatcher) : RouteResult :=
  ⟨m.fallbackOutbound,m.fallbackMark,m.fallbackMust⟩

/-- The two nested loops of `match_routing` from an entry on, with the flags `good_subrule`,
`bad_rule` and `must_flag`. -/
def matchWalk (eval : MatchSet → Bool) (fallback : RouteResult) :
    Bool → Bool → Bool → List MatchSet → RouteResult
  | _,_,_,[] => fallback
  | good,bad,must,ms::rest =>
    if good || bad then
      if ms.outbound &&& Outbound.logicalMask≠Outbound.logicalOr ∧
          ms.outbound≠Outbound.logicalAnd then
        -- `break`, then `i += 1` of the outer loop, which declares the flags anew
        matchWalk eval fallback false false false rest
      else matchWalk eval fallback good bad must rest
    else
      let matched := eval ms
      let bad := ms.not && matched
      let good := if ms.not then !matched else matched
      if ms.outbound &&& Outbound.logicalMask≠Outbound.logicalMask then
        if !bad && good then
          if ms.outbound=Outbound.mustRules then
            matchWalk eval fallback false false true rest
          else ⟨ms.outbound,ms.mark,must || ms.must⟩
        else matchWalk eval fallback false false false rest
      else matchWalk eval fallback good bad must rest

def matchRouting (env : Env) (m : RoutingMatcher) (params : RoutingParams) : RouteResult :=
  matchWalk (m.evalMatch env params) m.fallback false false false m.matchSets

end RoutingMatcher

def setReader (truth : MatchSet → Bool) : Reader MatchSet Int where
  link := MatchSet.link
  neg := MatchSet.not
  eval ms := .ok (truth ms)

section Walk

variable (truth : MatchSet → Bool)

end Walk

section Kernel

variable {m : Maps} {slot : Nat} {args : RouteArgs} {truth : MatchSet → Bool}
  {entries : List MatchSet}

end Kernel

/-- The entry types that both sides evaluate from the connection alone. -/
def comparable : MatchValue → Bool
  | .port _ | .sourcePort _ | .l4Proto _ | .ipVersion _ | .dscp _ | .ipSet _ | .sourceIpSet _
  | .fallback => true
  | _ => false

def isIpSet : MatchValue → Bool
  | .ipSet _ | .sourceIpSet _ => true
  | _ => false

def ipVersionOf : IpAddr → UInt8
  | .v4 _ => ipVersion4
  | .v6 _ => ipVersion6

/-- The parameters say of the connection what the kernel's arguments say. -/
structure Known (args : RouteArgs) (params : RoutingParams) : Prop where
  src : ∃ ip,params.srcIp=some ip ∧ args.saddr=ip.mapped
  dst : ∃ ip,params.dstIp=some ip ∧ args.daddr=ip.mapped ∧ args.ipversionType=ipVersionOf ip
  srcPort : params.srcPort=some args.hSport
  dstPort : params.dstPort=some args.hDport
  l4proto : params.l4proto=some args.l4protoType
  dscp : params.dscp=some args.dscp

theorem Known.plain {env : Env} {x : RoutingMatcher} {args : RouteArgs} {params : RoutingParams}
    (h : Known args params) (m : Maps) (slot i : Nat) {ms : MatchSet}
    (hc : comparable ms.value=true) (hip : isIpSet ms.value=false) :
    entryEval m slot args i ms=.ok (x.evalMatch env params ms) := by
  cases hv : ms.value with
  | port r =>
    rw [entryEval,RoutingMatcher.evalMatch,hv,h.dstPort]
    rfl
  | sourcePort r =>
    rw [entryEval,RoutingMatcher.evalMatch,hv,h.srcPort]
    rfl
  | l4Proto mask =>
    rw [entryEval,RoutingMatcher.evalMatch,hv,h.l4proto]
    rfl
  | ipVersion mask =>
    obtain ⟨ip,hdst,-,hver⟩ := h.dst
    have hplain : plainEval args (.ipVersion mask) =.ok (decide (mask &&& ipVersionOf ip≠0)) := by
      rw [← hver,UInt8.and_comm]
      rfl
    rw [entryEval,RoutingMatcher.evalMatch,hv,hdst]
    refine hplain.trans ?_
    cases ip <;> rfl
  | dscp d =>
    rw [entryEval,RoutingMatcher.evalMatch,hv,h.dscp]
    have hsome : decide (args.dscp=d)=decide (some args.dscp=some d) := by simp
    exact congrArg Except.ok hsome
  | fallback =>
    rw [entryEval,RoutingMatcher.evalMatch,hv]
    rfl
  | ipSet _ | sourceIpSet _ =>
    rw [hv] at hip
    cases hip
  | _ =>
    rw [hv] at hc
    cases hc

def httpsArgs : RouteArgs := ⟨l4ProtoTcp,ipVersion4,0,0,false,ntohs 40000,ntohs 443,
    (IpAddr.v4 0x0a000002).mapped,(IpAddr.v4 0x01020304).mapped,0⟩

end DaeRs.Routing
