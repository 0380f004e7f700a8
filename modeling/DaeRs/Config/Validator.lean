import DaeRs.RuleSet.DomainSet
import DaeRs.Config

/-! `validate_config`: the semantic checks of a parsed daefile. -/

namespace DaeRs.Config

open RustStr Net RuleSet Fallible

structure RuntimeConfig where
  tproxyPort : Nat
  logLevel : String
  deriving DecidableEq

structure ProcessMatchConfig where
  comm : List String
  pid : List Nat
  tgid : List Nat
  deriving DecidableEq

structure ProcessExclusionConfig where
  enabled : Bool
  gcIntervalSec : Nat
  staleAfterSec : Nat
  matching : ProcessMatchConfig
  deriving DecidableEq

structure OutboundNode extends OutboundNodeConfig where
  username : Option String
  password : Option String
  cipher : Option String
  uuid : Option String
  dialTimeoutMs : Nat
  deriving DecidableEq

structure ApiConfig where
  enabled : Bool
  listen : String
  tls : Bool
  cert : Option String
  key : Option String
  token : String
  deriving DecidableEq

structure DnsConfig where
  listenAddr : String
  proxyDnsServers : List String
  directDnsServers : List String
  queryTimeoutMs : Nat
  deriving DecidableEq

inductive RuleSetUpdate where
  | time (t : String)
  | period (p : String)
  deriving DecidableEq

structure RuleSetConfig where
  name : String
  url : String
  update : Option RuleSetUpdate
  deriving DecidableEq

structure DaefileConfig where
  runtime : RuntimeConfig
  processExclusion : Option ProcessExclusionConfig
  nodes : List OutboundNode
  groups : List OutboundGroupConfig
  routing : RoutingConfig
  api : Option ApiConfig
  dns : Option DnsConfig
  ruleSet : List RuleSetConfig
  deriving DecidableEq

namespace DaefileConfig

def outbounds (c : DaefileConfig) : OutboundsConfig :=
  ⟨c.nodes.map OutboundNode.toOutboundNodeConfig,c.groups⟩

def nodeNames (c : DaefileConfig) : List String := c.nodes.map (·.name)

def groupNames (c : DaefileConfig) : List String := c.groups.map (·.name)

end DaefileConfig

inductive ConfigError where
  | missingSection (section_ : String)
  | fieldType (line : Nat) (field message : String)
  | outOfRange (line : Nat) (field message : String)
  | invalidValue (line : Nat) (field message : String)
  | duplicateNode (name : String)
  | duplicateGroup (name : String)
  | unknownNode (group node : String)
  | unknownGroup (group : String)
  | regexSyntax (group pattern detail : String)
  | regexNoMatch (group pattern : String)
  | selectMissingSelected (name : String)
  | selectSelectedUnreachable (name selected : String)
  | selectHasPolicy (name : String)
  | autoHasSelected (name : String)
  | apiListenInvalid (value : String)
  | apiTokenEmpty
  | apiTlsMissingCertKey
  | duplicateRuleSet (name : String)
  | unknownRuleSetRef (reference : String)
  | invalidRuleSetUpdate (name message : String)
  | invalidRuleSetUrl (name message : String)
  deriving DecidableEq

abbrev Verdict := Except ConfigError Unit

variable (c : DaefileConfig)

def validateStructure : Verdict := do
  ensure (!(c.nodes.isEmpty && c.groups.isEmpty))
    (.missingSection "outbounds (at least one node and one group)")
  ensure (c.routing.fallback != "") (.missingSection "routing.fallback")

variable (node : OutboundNode)

def validateNodeRange : Verdict :=
  ensure (decide (100≤node.dialTimeoutMs) && decide (node.dialTimeoutMs≤600000))
    (.outOfRange 0 "dial_timeout_ms"
      s!"node '{node.name}' dial_timeout_ms {node.dialTimeoutMs} is not in range 100-600000")

def validateProcessExclusion (pe : ProcessExclusionConfig) : Verdict := do
  ensure (decide (1≤pe.gcIntervalSec) && decide (pe.gcIntervalSec≤3600))
    (.outOfRange 0 "gc_interval_sec"
      s!"gc_interval_sec {pe.gcIntervalSec} is not in range 1-3600")
  ensure (decide (pe.gcIntervalSec≤pe.staleAfterSec))
    (.outOfRange 0 "stale_after_sec"
      s!"stale_after_sec {pe.staleAfterSec} should be >= gc_interval_sec {pe.gcIntervalSec}")

def validateRanges : Verdict := do
  ensure (decide (1 ≤ c.runtime.tproxyPort))
    (.outOfRange 0 "tproxy_port"
      s!"port {c.runtime.tproxyPort} is less than minimum value 1")
  forEach validateNodeRange c.nodes
  forEach validateProcessExclusion c.processExclusion.toList

def checkUnique (dup : String → ConfigError) : List String → List String → Verdict
  | _,[] => .ok ()
  | seen,name::names => do
    ensure (!seen.contains name) (dup name)
    checkUnique dup (name::seen) names

def validateUniqueness : Verdict := do
  checkUnique .duplicateNode [] c.nodeNames
  checkUnique .duplicateGroup [] c.groupNames

def selectorPattern (pattern : String) : String :=
  if pattern = "*" then ".*" else pattern

def validateSelector (env : Env) (nodeNames : List String) (group : String) :
    NodeSelector → Verdict
  | .list nodes => forEach (fun n => ensure (nodeNames.contains n) (.unknownNode group n)) nodes
  | .regex pattern =>
    match env.regexNew (selectorPattern pattern) with
    | none => .error (.regexSyntax group pattern "regex compilation failed")
    | some re => ensure (nodeNames.any re) (.regexNoMatch group pattern)

def extractProxyGroup (action : String) : Option String :=
  match (stripStart (trim action) "proxy(").bind (stripEnd · ")") with
  | some inner => if trim inner = "" then none else some (trim inner)
  | none => none

def validateRuleAction (groupNames : List String) (action : String) : Verdict :=
  match extractProxyGroup action with
  | some group => ensure (groupNames.contains group) (.unknownGroup group)
  | none => .ok ()

def validateReferences (env : Env) (c : DaefileConfig) : Verdict := do
  forEach (fun g : OutboundGroupConfig =>
    forEach (validateSelector env c.nodeNames g.name) g.selectors) c.groups
  forEach (fun rule : RouteRule => validateRuleAction c.groupNames rule.action) c.routing.rules

def supportedProtocols : List String :=
  ["socks5", "shadowsocks", "trojan", "tuic", "juicity", "vmess"]

def requireField (field : String) (value : Option String) : Verdict :=
  ensure value.isSome (.invalidValue 0 s!"node '{node.name}'.{field}"
    s!"missing required field '{field}' for protocol '{node.protocol}'")

def validateNode : Verdict := do
  ensure (supportedProtocols.contains node.protocol)
    (.invalidValue 0 s!"node '{node.name}'.protocol"
      (s!"unsupported protocol '{node.protocol}', supported protocols: " ++
        "socks5, shadowsocks, trojan, tuic, juicity, vmess"))
  ensure (node.address != "")
    (.fieldType 0 s!"node '{node.name}'.address" "address must not be empty")
  match node.protocol with
  | "shadowsocks" => do
    requireField node "cipher" node.cipher
    requireField node "password" node.password
  | "trojan" => requireField node "password" node.password
  | "tuic" | "juicity" => do
    requireField node "uuid" node.uuid
    requireField node "password" node.password
  | "vmess" => requireField node "uuid" node.uuid
  | _ => .ok ()

def validateNodeFields : Verdict := forEach validateNode c.nodes

def validateGroup (nodeNames : List String) (g : OutboundGroupConfig) : Verdict := do
  match g.groupType with
  | .auto => ensure g.selected.isNone (.autoHasSelected g.name)
  | .select => do
    ensure g.policy.isNone (.selectHasPolicy g.name)
    match g.selected with
    | none => .error (.selectMissingSelected g.name)
    | some selected =>
      ensure (nodeNames.contains selected) (.selectSelectedUnreachable g.name selected)
  ensure (!g.selectors.isEmpty) (.missingSection s!"group '{g.name}' has no node selectors")

def validateGroupInternals : Verdict := forEach (validateGroup c.nodeNames) c.groups

def invalidFallback (fallback : String) : ConfigError := .invalidValue 0 "routing.fallback"
    s!"fallback must be 'direct' or 'proxy(group_name)', got: '{fallback}'"

def validateFallback : Verdict :=
  let fallback := trim c.routing.fallback
  if fallback = "direct" then .ok ()
  else
    match extractProxyGroup fallback with
    | some group => ensure (c.groupNames.contains group) (.unknownGroup group)
    | none => .error (invalidFallback fallback)

def validateApi : Verdict :=
  match c.api with
  | none => .ok ()
  | some api =>
    if !api.enabled then .ok ()
    else do
      ensure (RustStr.contains api.listen ":") (.apiListenInvalid api.listen)
      match fromStrRadix 10 0xffff ((split api.listen ':').getLastD "") with
      | .ok port => ensure (decide (1≤port)) (.apiListenInvalid api.listen)
      | .error _ => .error (.apiListenInvalid api.listen)
      ensure (api.token != "") .apiTokenEmpty
      ensure (!(api.tls && (api.cert.isNone || api.key.isNone))) .apiTlsMissingCertKey

def checkServer (field server : String) : Verdict := do
  let s := trim server
  ensure (s != "") (.invalidValue 0 field s!"empty server entry in '{field}'")
  ensure (isIpAddr s || isSocketAddr s) (.invalidValue 0 field s!"invalid DNS server '{s}'")

def validateDns : Verdict :=
  match c.dns with
  | none => .ok ()
  | some dns => do
    ensure (isSocketAddr dns.listenAddr)
      (.invalidValue 0 "dns.listen_addr" s!"invalid listen address '{dns.listenAddr}'")
    forEach (checkServer "dns.proxy_dns_servers") dns.proxyDnsServers
    forEach (checkServer "dns.direct_dns_servers") dns.directDnsServers
    ensure (decide (100≤dns.queryTimeoutMs) && decide (dns.queryTimeoutMs≤60000))
      (.outOfRange 0 "dns.query_timeout_ms"
        s!"query_timeout_ms {dns.queryTimeoutMs} is not in range 100-60000")

def parseTime (hhmm : String) : Except String (Nat×Nat) :=
  match splitOnce (trim hhmm) ':' with
  | none => .error s!"invalid time '{hhmm}': expected `HH:MM`"
  | some (hh,mm) =>
    if RustStr.contains mm ":" then
      .error s!"invalid time '{hhmm}': seconds are forbidden (expected `HH:MM`)"
    else if hh = "" ∨ mm = "" then .error s!"invalid time '{hhmm}': expected `HH:MM`"
    else
      match fromStrRadix 10 0xff hh,fromStrRadix 10 0xff mm with
      | .error _,_ => .error s!"invalid time '{hhmm}': hour is not a number"
      | _,.error _ => .error s!"invalid time '{hhmm}': minute is not a number"
      | .ok h,.ok m =>
        if h > 23 then .error s!"invalid time '{hhmm}': hour {h} out of range 0-23"
        else if m > 59 then .error s!"invalid time '{hhmm}': minute {m} out of range 0-59"
        else .ok (h,m)

def unitSecs : Char → Option Nat
  | 'd' => some 86400
  | 'h' => some 3600
  | 'm' => some 60
  | _ => none

/-- The loop of `parse_period`; `digits` is the number read so far, last digit first, and `i` the
position of the next character. -/
def periodLoop (spec : String) : List Char → List Char → Nat → Nat → Except String Nat
  | [],[],_,total =>
    if total=0 then .error s!"invalid period '{spec}': must be positive" else .ok total
  | [],digits,_,_ =>
    match parseDigits 10 (2^64-1) digits.reverse 0 with
    | .error _ => .error s!"invalid period '{spec}': bad number"
    | .ok _ => .error s!"invalid period '{spec}': missing unit after number (allowed: d/h/m)"
  | c::cs,digits,i,total =>
    if '0' ≤ c ∧ c ≤ '9' then periodLoop spec cs (c::digits) (i+1) total
    else if digits=[] then
      .error s!"invalid period '{spec}': expected number before unit at position {i}"
    else
      match parseDigits 10 (2^64-1) digits.reverse 0 with
      | .error _ => .error s!"invalid period '{spec}': bad number"
      | .ok num =>
        match unitSecs c with
        | none => .error (s!"invalid period '{spec}': illegal unit '{c}' " ++
            "(allowed: d/h/m; seconds are forbidden)")
        | some secs =>
          if num*secs<2^64 ∧ total+num*secs<2^64 then
            periodLoop spec cs [] (i+1) (total+num*secs)
          else .error s!"invalid period '{spec}': overflow"

def parsePeriod (spec : String) : Except String Nat :=
  if trim spec = "" then .error "empty period" else periodLoop spec (trim spec).toList [] 0 0

def validateRuleSetUrl (entry : RuleSetConfig) : Verdict := do
  let url := trim entry.url
  ensure (startsWith url "http://" || startsWith url "https://")
    (.invalidRuleSetUrl entry.name
      s!"url must start with http:// or https://, got: '{entry.url}'")
  match (splitOnce url '#').bind fun p => stripStart p.2 "sha256=" with
  | none => .ok ()
  | some hex =>
    ensure (decide (hex.utf8ByteSize=64) && hex.toList.all fun c => (toDigit 16 c).isSome)
      (.invalidRuleSetUrl entry.name
        s!"#sha256= fragment must be a 64-char hex digest, got: '{hex}'")

def validateRuleSetUpdate (entry : RuleSetConfig) : Verdict :=
  match entry.update with
  | none => .error (.invalidRuleSetUpdate entry.name
      "missing `update` (provide exactly one of `time: HH:MM` or `period: 3h2m`)")
  | some (.time t) => (parseTime t).map (fun _ => ()) |>.mapError (.invalidRuleSetUpdate entry.name)
  | some (.period p) =>
    (parsePeriod p).map (fun _ => ()) |>.mapError (.invalidRuleSetUpdate entry.name)

def isNameChar (c : Char) : Bool := c.isAlphanum || c == '_' || c == '-'

def validateRuleSetEntries : List String → List RuleSetConfig → Verdict
  | _,[] => .ok ()
  | seen,entry::entries => do
    ensure (entry.name != "" && decide (entry.name.utf8ByteSize≤63) &&
        entry.name.toList.all isNameChar)
      (.invalidValue 0 "rule_set.name" (s!"rule set name '{entry.name}' violates naming " ++
        "constraint `[a-zA-Z0-9_-]` and length <= 63"))
    ensure (!seen.contains entry.name) (.duplicateRuleSet entry.name)
    validateRuleSetUrl entry
    validateRuleSetUpdate entry
    validateRuleSetEntries (entry.name::seen) entries

def foldsToS (c : Char) : Bool := c == 's' || c == 'S' || c == 'ſ'

def isRefChar (c : Char) : Bool :=
  c.isAlphanum || c == '_' || c == '!' || c == '@' || c == '.' || c == '-' || c == 'ſ' ||
    c == 'K'

/-- How far into a reference the scan is: the characters of `set:` seen, or the captured ones, last
first. -/
inductive RefState where
  | matched (count : Nat)
  | capture (acc : List Char)
  deriving DecidableEq

/-- The next character of `set:`; after a mismatch the match starts over at this character. -/
def RefState.step (count : Nat) (c : Char) : Nat :=
  if count=1 ∧ (c = 'e' ∨ c = 'E') then 2
  else if count=2 ∧ (c = 't' ∨ c = 'T') then 3
  else if count=3 ∧ c = ':' then 4
  else if foldsToS c then 1
  else 0

/-- The captures of `(?i)set:([A-Za-z0-9_!@.\-]+)`. -/
def refCaptures : RefState → List Char → List String
  | .matched _,[] => []
  | .capture acc,[] => [String.ofList acc.reverse]
  | .matched count,c::cs =>
    if count=4 ∧ isRefChar c then refCaptures (.capture [c]) cs
    else refCaptures (.matched (RefState.step count c)) cs
  | .capture acc,c::cs =>
    if isRefChar c then refCaptures (.capture (c::acc)) cs
    else String.ofList acc.reverse::refCaptures (.matched 0) cs

example : refCaptures (.matched 0) "sset:a.b && dip(SET:cn!x, set: y)".toList=["a.b", "cn!x"] := by
  decide

def validateRulesetRefs : Verdict := forEach (fun rule : RouteRule =>
    forEach (fun value : String =>
      ensure ((c.ruleSet.map (·.name)).contains value) (.unknownRuleSetRef s!"set:{value}"))
      (refCaptures (.matched 0) rule.matchExpr.toList)) c.routing.rules

def validateRuleSet : Verdict := do
  validateRuleSetEntries [] c.ruleSet
  validateRulesetRefs c

def validateConfig (env : Env) (c : DaefileConfig) : Verdict := do
  validateStructure c
  validateRanges c
  validateUniqueness c
  validateReferences env c
  validateNodeFields c
  validateGroupInternals c
  validateFallback c
  validateApi c
  validateDns c
  validateRuleSet c

end DaeRs.Config
