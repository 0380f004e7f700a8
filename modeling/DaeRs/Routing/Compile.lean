import DaeRs.Routing.Params

/-! `compile_rules`: routing rules lowered to the entries of `routing_map`. -/

namespace DaeRs.Routing

open RustStr Net RuleSet Bpf Config

def maxLpmTries : Nat := maxMatchSetLen+8

/-- The functions that `build_match_set_for_function` knows. -/
inductive FunctionKind where
  | dip
  | sip
  | mac
  | dport
  | sport
  | l4proto
  | ipversion
  | domain
  | processName
  | dscp
  | qtype
  | upstream
  deriving DecidableEq

def FunctionKind.ofName : String → Option FunctionKind
  | "dip" | "ip" | "target_ip" => some .dip
  | "sip" | "source_ip" => some .sip
  | "mac" => some .mac
  | "dport" | "port" => some .dport
  | "sport" | "source_port" => some .sport
  | "l4proto" => some .l4proto
  | "ipversion" => some .ipversion
  | "domain" | "target_domain" => some .domain
  | "process_name" | "pname" => some .processName
  | "dscp" => some .dscp
  | "qtype" => some .qtype
  | "upstream" => some .upstream
  | _ => none

def Function.kind (f : Function) : Option FunctionKind := FunctionKind.ofName f.name

/-- `hash_cidrs`: FNV-1a over the prefix lengths and the address bytes. -/
def fnvByte (h : UInt64) (b : Nat) : UInt64 := (h ^^^ UInt64.ofNat b)*1099511628211

def bytesOf (w : Nat) (ip : BitVec w) : List Nat :=
  (List.range (w/8)).map fun i => ip.toNat/2^(w-8*(i+1))%256

def hashCidr (h : UInt64) : IpNet → UInt64
  | .v4 n => (bytesOf 32 n.addr).foldl fnvByte (fnvByte h n.prefixLen)
  | .v6 n => (bytesOf 128 n.addr).foldl fnvByte (fnvByte h n.prefixLen)

def hashCidrs (cidrs : List IpNet) : UInt64 := cidrs.foldl hashCidr 14695981039346656037

abbrev LpmTable := Intern.Table (List IpNet) UInt64

def findOrCreateLpmTrie (cidrs : List IpNet) (t : LpmTable) : Nat×LpmTable :=
  t.findOrCreate hashCidrs cidrs

/-- What lowering changes: the tries and `rule_domain_idx`. -/
structure LowerState where
  lpm : LpmTable
  ruleDomainIdx : Nat

def LowerState.intern (st : LowerState) (cidrs : List IpNet) : Nat×LowerState :=
  let (i,lpm) := findOrCreateLpmTrie cidrs st.lpm
  (i,{ st with lpm := lpm })

def parseEach {α : Type} (parse : String → Except Error α) :
    List String → Except Error (List α)
  | [] => .ok []
  | val::vals => do
    let a ← parse val
    let rest ← parseEach parse vals
    pure (a::rest)

def lowerValues (env : Env) (cache : Option RuleSetCache) (f : Function) (values : List String)
    (st : LowerState) : FunctionKind → Except Error (List MatchValue×LowerState)
  | .dip => do
    let cidrs ← parseCidrValues env cache f.rawParams
    let (i,st) := st.intern cidrs
    pure ([.ipSet (UInt32.ofNat i)],st)
  | .sip => do
    let cidrs ← parseCidrValues env cache f.rawParams
    let (i,st) := st.intern cidrs
    pure ([.sourceIpSet (UInt32.ofNat i)],st)
  | .mac =>
    if (macNets f).isEmpty then pure ([],st)
    else
      let (i,st) := st.intern (macNets f)
      pure ([.mac (UInt32.ofNat i)],st)
  | .dport => do
    let ranges ← parseEach parsePortRange values
    pure (ranges.map .port,st)
  | .sport => do
    let ranges ← parseEach parsePortRange values
    pure (ranges.map .sourcePort,st)
  | .l4proto => pure ([.l4Proto (l4protoMask values)],st)
  | .ipversion => pure ([.ipVersion (ipversionMask values)],st)
  | .domain =>
    pure ([.domainSet (UInt32.ofNat st.ruleDomainIdx)],
      { st with ruleDomainIdx := st.ruleDomainIdx+1 })
  | .processName => pure (values.map fun v => .processName (nameBytes v),st)
  | .dscp => do
    let ds ← parseEach parseDscp values
    pure (ds.map .dscp,st)
  | .qtype => pure ([.qtype 0],st)
  | .upstream => pure (values.map fun v => .upstream (nameBytes v),st)

def buildMatchSetForFunction (env : Env) (cache : Option RuleSetCache) (f : Function)
    (values : List String) (outboundId : UInt8) (ovOutbound : Outbound) (st : LowerState) :
    Except Error (List MatchSet×LowerState) :=
  match f.kind with
  | none => fail s!"unknown function type: {f.name}"
  | some kind => do
    let (vals,st) ← lowerValues env cache f values st kind
    pure (vals.map fun v => ⟨v,f.not,outboundId,ovOutbound.must,ovOutbound.mark⟩,st)

def computeOverrideOutbound (isLastInFunction isLastFunction : Bool) (rule : Outbound) :
    Outbound :=
  if !isLastInFunction then { rule with name := "LOGICAL_OR" }
  else if !isLastFunction then { rule with name := "LOGICAL_AND" }
  else rule

abbrev OutboundIdMap := String → Option UInt8

def OutboundIdMap.insert (m : OutboundIdMap) (name : String) (id : UInt8) : OutboundIdMap :=
  fun n => if n=name then some id else m n

def buildOutboundIdMap (outbounds : OutboundsConfig) : OutboundIdMap :=
  let builtin : OutboundIdMap := ((((OutboundIdMap.insert (fun _ => none) "direct"
    Outbound.direct).insert "block" Outbound.block).insert "must" Outbound.mustRules).insert
    "must_direct" Outbound.mustRules).insert "control_plane_routing" Outbound.controlPlaneRouting
  let nodes := outbounds.nodes.foldl
    (fun m n => OutboundIdMap.insert m n.name Outbound.controlPlaneRouting) builtin
  outbounds.groups.foldl
    (fun m g => OutboundIdMap.insert m g.name Outbound.controlPlaneRouting) nodes

def resolveOutboundId (ob : Outbound) (map : OutboundIdMap) : Except Error UInt8 :=
  match ob.name with
  | "direct" => .ok Outbound.direct
  | "block" => .ok Outbound.block
  | "LOGICAL_OR" => .ok Outbound.logicalOr
  | "LOGICAL_AND" => .ok Outbound.logicalAnd
  | "must" | "must_direct" => .ok Outbound.mustRules
  | "control_plane_routing" => .ok Outbound.controlPlaneRouting
  | name =>
    match map name with
    | some id => .ok id
    | none => fail s!"outbound '{name}' not found in outbound_id_map"

def buildFallbackMatchset (outboundId : UInt8) (ob : Outbound) : MatchSet :=
  ⟨.fallback,false,outboundId,ob.must,ob.mark⟩

/-- A function with the entries of its groups. -/
structure LoweredFunction where
  func : Function
  groups : List (List MatchSet)

def LoweredFunction.entries (l : LoweredFunction) : List MatchSet := l.groups.flatten

/-- The entries of a rule: those of its functions, or the `FALLBACK` entry of a rule without. -/
structure LoweredRule where
  rule : NormalizedRule
  bare : List MatchSet
  functions : List LoweredFunction

def LoweredRule.entries (l : LoweredRule) : List MatchSet :=
  l.bare++l.functions.flatMap LoweredFunction.entries

structure CompiledRouting where
  matchSets : List MatchSet
  lpmTries : List (List IpNet)
  domainSets : List CompiledDomainSet
  fallbackOutbound : UInt8
  fallbackMark : UInt32
  fallbackMust : Bool

/-- A compiled program with what led to it. -/
structure Compilation where
  program : NormalizedProgram
  proxyEntries : List MatchSet
  lowered : List LoweredRule
  routing : CompiledRouting

section Lower

variable (env : Env) (cache : Option RuleSetCache) (idMap : OutboundIdMap)

def lowerGroups (f : Function) (isLastFunction : Bool) (ob : Outbound) :
    List (List String) → LowerState → Except Error (List (List MatchSet)×LowerState)
  | [],st => .ok ([],st)
  | values::rest,st => do
    let ov := computeOverrideOutbound rest.isEmpty isLastFunction ob
    let ovId ← resolveOutboundId ov idMap
    let (entries,st) ← buildMatchSetForFunction env cache f values ovId ov st
    let (more,st) ← lowerGroups f isLastFunction ob rest st
    pure (entries::more,st)

def lowerFunctions (ob : Outbound) :
    List Function → LowerState → Except Error (List LoweredFunction×LowerState)
  | [],st => .ok ([],st)
  | f::rest,st => do
    let (groups,st) ← lowerGroups env cache idMap f rest.isEmpty ob f.groups st
    let (more,st) ← lowerFunctions ob rest st
    pure (⟨f,groups⟩::more,st)

def lowerRule (rule : NormalizedRule) (st : LowerState) :
    Except Error (LoweredRule×LowerState) := do
  let id ← resolveOutboundId rule.outbound idMap
  if rule.andFunctions.isEmpty then
    pure (⟨rule,[buildFallbackMatchset id rule.outbound],[]⟩,st)
  else
    let (fs,st) ← lowerFunctions env cache idMap rule.outbound rule.andFunctions st
    pure (⟨rule,[],fs⟩,st)

def lowerRules :
    List NormalizedRule → LowerState → Except Error (List LoweredRule×LowerState)
  | [],st => .ok ([],st)
  | rule::rest,st => do
    let (l,st) ← lowerRule env cache idMap rule st
    let (ls,st) ← lowerRules rest st
    pure (l::ls,st)

end Lower

def domainPatternsOf (cache : Option RuleSetCache) (raw : String) :
    Except Error (List DomainPattern) :=
  match parseRef raw with
  | .set name =>
    match cache with
    | none => rulesetDataMissing raw "rule set memory cache not available"
    | some cache =>
      match cache.getSetDomains name with
      | none =>
        rulesetDataMissing raw "domain_list rule set not found or rule set type mismatch"
      | some pats => .ok pats
  | .plain v => .ok (domainStringsToPatterns [v])

def domainPatterns (cache : Option RuleSetCache) : List String → Except Error (List DomainPattern)
  | [] => .ok []
  | raw::raws => do
    let pats ← domainPatternsOf cache raw
    let rest ← domainPatterns cache raws
    pure (pats++rest)

def Function.isDomain (f : Function) : Bool := f.name = "domain" || f.name = "target_domain"

def collectDomainSets (cache : Option RuleSetCache) :
    List Function → Except Error (List CompiledDomainSet)
  | [] => .ok []
  | f::fs =>
    if f.isDomain then do
      let pats ← domainPatterns cache f.rawParams
      let rest ← collectDomainSets cache fs
      pure (CompiledDomainSet.compile pats::rest)
    else collectDomainSets cache fs

/-- `dip(<proxy servers>) && !dport(53) -> direct`. -/
def proxyDirectEntries (proxyIdx : Nat) : List MatchSet :=
  [⟨.ipSet (UInt32.ofNat proxyIdx),false,Outbound.logicalAnd,false,0⟩,
   ⟨.port ⟨53,53⟩,true,Outbound.direct,false,0⟩]

def capacityExceeded (detail : String) : Except Error Unit :=
  fail s!"[E2106] Rule set capacity exceeded: {detail}"

def checkCapacity (c : CompiledRouting) : Except Error Unit :=
  if c.matchSets.length > maxMatchSetLen then
    capacityExceeded s!"MatchSet count {c.matchSets.length} exceeds MAX_MATCH_SET_LEN {maxMatchSetLen}; reduce rules or merge rule set references"
  else if c.lpmTries.length > maxLpmTries then
    capacityExceeded s!"LPM trie count {c.lpmTries.length} exceeds MAX_LPM_NUM {maxLpmTries}; reduce distinct IP rule sets"
  else if c.domainSets.length > maxMatchSetLen then
    capacityExceeded s!"domain set index {c.domainSets.length} exceeds MAX_MATCH_SET_LEN {maxMatchSetLen}; domain_routing_map bitmap has {maxMatchSetLen} bits"
  else .ok ()

def proxyTrie (proxyServerIps : List IpAddr) : Option Nat×LpmTable :=
  let cidrs := proxyServerIps.map hostNet
  if cidrs.isEmpty then (none,Intern.Table.empty)
  else
    let (i,t) := findOrCreateLpmTrie cidrs Intern.Table.empty
    (some i,t)

def compileTrace (env : Env) (cache : Option RuleSetCache) (routing : RoutingConfig)
    (outbounds : OutboundsConfig) (proxyServerIps : List IpAddr) : Except Error Compilation := do
  let program ← withContext "Failed to normalize routing rules"
    (NormalizedProgram.fromConfig routing)
  let idMap := buildOutboundIdMap outbounds
  let proxy := proxyTrie proxyServerIps
  let domainSets ← collectDomainSets cache (program.rules.flatMap (·.andFunctions))
  let (lowered,st) ← lowerRules env cache idMap program.rules ⟨proxy.2,0⟩
  let proxyEntries := (proxy.1.map proxyDirectEntries).getD []
  let fallbackId := (idMap program.fallback.name).getD Outbound.controlPlaneRouting
  let fallback : MatchSet :=
    ⟨.fallback,false,fallbackId,program.fallback.must,program.fallback.mark⟩
  let compiled : CompiledRouting :=
    { matchSets := proxyEntries++lowered.flatMap LoweredRule.entries++[fallback]
      lpmTries := st.lpm.items
      domainSets := domainSets
      fallbackOutbound := fallbackId
      fallbackMark := program.fallback.mark
      fallbackMust := program.fallback.must }
  checkCapacity compiled
  pure ⟨program,proxyEntries,lowered,compiled⟩

def compileRules (env : Env) (cache : Option RuleSetCache) (routing : RoutingConfig)
    (outbounds : OutboundsConfig) (proxyServerIps : List IpAddr) : Except Error CompiledRouting :=
  Compilation.routing <$> compileTrace env cache routing outbounds proxyServerIps

end DaeRs.Routing
