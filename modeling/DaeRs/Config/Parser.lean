import DaeRs.Config.Import
import DaeRs.Control.GroupApi
import DaeRs.RuleSet.DiskCache

/-! `parse_daefile`: the state machine over the lines of a daefile. -/

namespace DaeRs.Config

open Panicking RustStr

structure RuntimeFields extends RuntimeConfig where
  routeTable : Nat
  fwmarkProxy : Nat
  fwmarkBypass : Nat
  fwmarkMask : Nat
  mtu : Nat
  deriving DecidableEq

structure InterfaceConfig where
  wanInterface : List String
  lanInterface : List String
  bindInterface : Option String
  deriving DecidableEq

structure ProcessExclusionFields extends ProcessExclusionConfig where
  protectSelf : Bool
  protectChildren : Bool
  deriving DecidableEq

structure DnsFields extends DnsConfig where
  directUseSystemDns : Bool
  enableCache : Bool
  deriving DecidableEq

structure RuleSetFields extends RuleSetConfig where
  type : RuleSet.RuleSetType
  expectedSha256 : Option String
  updateOnStart : Bool
  proxy : Option String
  deriving DecidableEq

structure Daefile where
  runtime : RuntimeFields
  interface : Option InterfaceConfig
  processExclusion : Option ProcessExclusionFields
  nodes : List NodeFields
  groups : List OutboundGroupConfig
  routing : RoutingConfig
  api : Option ApiConfig
  dns : Option DnsFields
  ruleSet : List RuleSetFields
  deriving DecidableEq

def RuntimeFields.default : RuntimeFields where
  tproxyPort := 15080
  logLevel := "info"
  routeTable := 2023
  fwmarkProxy := 0x08000000
  fwmarkBypass := 0x04000000
  fwmarkMask := 0x08000000
  mtu := 1500

def ProcessMatchConfig.empty : ProcessMatchConfig := ⟨[],[],[]⟩

def ProcessExclusionFields.default : ProcessExclusionFields where
  enabled := true
  protectSelf := true
  protectChildren := true
  gcIntervalSec := 30
  staleAfterSec := 120
  matching := .empty

def DnsFields.default : DnsFields where
  listenAddr := "169.254.0.1:53"
  proxyDnsServers := ["8.8.8.8:53", "1.1.1.1:53"]
  directDnsServers := []
  directUseSystemDns := true
  queryTimeoutMs := 5000
  enableCache := true

def ApiConfig.default : ApiConfig where
  enabled := true
  listen := "127.0.0.1:9090"
  tls := false
  cert := none
  key := none
  token := ""

def RuleSetFields.named (name : String) : RuleSetFields where
  name := name
  type := .ipList
  url := ""
  expectedSha256 := none
  update := none
  updateOnStart := false
  proxy := none

def groupNamed (name : String) : OutboundGroupConfig where
  name := name
  groupType := .auto
  policy := none
  selected := none
  selectors := []

def Daefile.default : Daefile where
  runtime := .default
  interface := none
  processExclusion := some .default
  nodes := []
  groups := []
  routing := ⟨[], "proxy(proxy_primary)"⟩
  api := none
  dns := none
  ruleSet := []

def globalFields : Fields RuntimeFields where
  field
    | "tproxy_port" => some (.integer u16Max fun v c => { c with tproxyPort := v })
    | "log_level" => some (.text fun v c => { c with logLevel := v })
    | "route_table" => some (.integer u32Max fun v c => { c with routeTable := v })
    | "fwmark_proxy" => some (.mark fun v c => { c with fwmarkProxy := v })
    | "fwmark_bypass" => some (.mark fun v c => { c with fwmarkBypass := v })
    | "fwmark_mask" => some (.mark fun v c => { c with fwmarkMask := v })
    | "mtu" => some (.integer u32Max fun v c => { c with mtu := v })
    | _ => none
  unknown key := s!"unknown global field: '{key}'"

def interfaceFields : Fields InterfaceConfig where
  field
    | "wan_interface" =>
      some (.list splitWhitespace (fun _ => true) fun v c => { c with wanInterface := v })
    | "lan_interface" =>
      some (.list splitWhitespace (fun _ => true) fun v c => { c with lanInterface := v })
    | "bind_interface" => some (.text fun v c => { c with bindInterface := some v })
    | _ => none
  unknown key := s!"unknown interface field: '{key}'"

def processExclusionFields : Fields ProcessExclusionFields where
  field
    | "enabled" => some (.boolean fun v c => { c with enabled := v })
    | "protect_self" => some (.boolean fun v c => { c with protectSelf := v })
    | "protect_children" => some (.boolean fun v c => { c with protectChildren := v })
    | "gc_interval_sec" => some (.integer u32Max fun v c => { c with gcIntervalSec := v })
    | "stale_after_sec" => some (.integer u32Max fun v c => { c with staleAfterSec := v })
    | _ => none
  unknown key := s!"unknown process_exclusion field: '{key}'"

def nodeFields : Fields NodeFields where
  field
    | "protocol" => some (.text fun v n => { n with protocol := v })
    | "address" => some (.text fun v n => { n with address := v })
    | "username" => some (.text fun v n => { n with username := some v })
    | "password" => some (.text fun v n => { n with password := some v })
    | "cipher" => some (.text fun v n => { n with cipher := some v })
    | "sni" => some (.text fun v n => { n with sni := some v })
    | "ca_sha256" => some (.text fun v n => { n with caSha256 := some v })
    | "uuid" => some (.text fun v n => { n with uuid := some v })
    | "congestion_control" => some (.text fun v n => { n with congestionControl := some v })
    | "alpn" => some (.list (split · ',') (· ≠ "") fun v n => { n with alpn := some v })
    | "security" => some (.text fun v n => { n with security := some v })
    | "alter_id" => some (.integer u32Max fun v n => { n with alterId := some v })
    | "network" => some (.text fun v n => { n with network := some v })
    | "ws_path" => some (.text fun v n => { n with wsPath := some v })
    | "ws_headers" => some (.map fun v n => { n with wsHeaders := some v })
    | "h2_path" => some (.text fun v n => { n with h2Path := some v })
    | "h2_host" => some (.text fun v n => { n with h2Host := some v })
    | "grpc_service_name" => some (.text fun v n => { n with grpcServiceName := some v })
    | "dial_timeout_ms" => some (.integer u64Max fun v n => { n with dialTimeoutMs := v })
    | _ => none
  unknown key := s!"unknown node field: '{key}'"

def parseGroupType : String → Option GroupType
  | "auto" => some .auto
  | "select" => some .select
  | _ => none

def groupFields : Fields OutboundGroupConfig where
  field
    | "type" => some (.word
        (fun v => (parseGroupType v).map fun t g => { g with groupType := t }) "type"
        fun v => s!"unknown group type '{v}', expected auto or select")
    | "policy" => some (.word
        (fun v => (Control.parsePolicy v).map fun p g => { g with policy := some p }) "policy"
        fun v => s!"unknown policy '{v}', expected fixed/random/min/min_avg10/min_moving_avg")
    | "selected" => some (.text fun v g => { g with selected := some v })
    | _ => none
  unknown key := s!"unknown group field: '{key}'"

def apiFields : Fields ApiConfig where
  field
    | "enabled" => some (.boolean fun v c => { c with enabled := v })
    | "listen" => some (.text fun v c => { c with listen := v })
    | "tls" => some (.boolean fun v c => { c with tls := v })
    | "cert" => some (.text fun v c => { c with cert := some v })
    | "key" => some (.text fun v c => { c with key := some v })
    | "token" => some (.text fun v c => { c with token := v })
    | _ => none
  unknown key := s!"unknown api field: '{key}'"

def csvParts (value : String) : List String := (split value ',').map trim

def dnsFields : Fields DnsFields where
  field
    | "listen_addr" => some (.text fun v c => { c with listenAddr := v })
    | "proxy_dns_servers" =>
      some (.list csvParts (· ≠ "") fun v c => { c with proxyDnsServers := v })
    | "direct_dns_servers" =>
      some (.list csvParts (· ≠ "") fun v c => { c with directDnsServers := v })
    | "direct_use_system_dns" => some (.boolean fun v c => { c with directUseSystemDns := v })
    | "query_timeout_ms" => some (.integer u64Max fun v c => { c with queryTimeoutMs := v })
    | "enable_cache" => some (.boolean fun v c => { c with enableCache := v })
    | _ => none
  unknown key := s!"unknown dns field: '{key}'"

def expectedSha256FromUrl (url : String) : Option String :=
  ((((splitOnce url '#').bind fun p => stripStart p.2 "sha256=").map trim).filter (· ≠ "")).map
    toAsciiLowercase

def parseRuleSetType : String → Option RuleSet.RuleSetType
  | "domain_list" => some .domainList
  | "ip_list" => some .ipList
  | _ => none

def setUpdate (entryName : String) (number : Nat) (value : String) (c : RuleSetFields) :
    Except ParseError RuleSetFields :=
  if c.update.isSome then .error (.syntaxError number
    s!"rule_set '{entryName}' update already set: `time` and `period` are mutually exclusive")
  else
    let v := trim value
    match stripStart v "time:",stripStart v "period:" with
    | some t,_ => .ok { c with update := some (.time (trim t)) }
    | none,some p => .ok { c with update := some (.period (trim p)) }
    | none,none => .error (.syntaxError number
        s!"rule_set '{entryName}' update expected `time: HH:MM` or `period: 3h2m`, got: '{v}'")

def ruleSetFields (entryName : String) : Fields RuleSetFields where
  field
    | "type" => some (.word
        (fun v => (parseRuleSetType v).map fun t c => { c with type := t })
        s!"rule_set.{entryName}.type"
        fun v => s!"unknown rule set type '{v}', expected domain_list/ip_list")
    | "url" => some (.text fun v c => { c with
        expectedSha256 := expectedSha256FromUrl v
        url := v })
    | "name" => some (.text fun v c => { c with name := v })
    | "update" => some (.plain (setUpdate entryName))
    | "update_on_start" => some (.boolean fun v c => { c with updateOnStart := v })
    | "proxy" => some (.text fun v c => { c with proxy := some v })
    | _ => none
  unknown key := s!"unknown rule set field: '{key}'"

/-- The section that the parser is in. -/
inductive ParseState where
  | top
  | global
  | interface
  | processExclusion
  | processMatch
  | outbounds
  | outboundNodes
  | outboundNode (name : String)
  | outboundGroups
  | outboundGroup (name : String)
  | routing
  | api
  | dns
  | ruleSet
  | ruleSetEntry (name : String)
  deriving DecidableEq

def ParseState.debug (quote : String → String) : ParseState → String
  | top => "Top"
  | global => "Global"
  | interface => "Interface"
  | processExclusion => "ProcessExclusion"
  | processMatch => "ProcessMatch"
  | outbounds => "Outbounds"
  | outboundNodes => "OutboundNodes"
  | outboundNode name => "OutboundNode(" ++ quote name ++ ")"
  | outboundGroups => "OutboundGroups"
  | outboundGroup name => "OutboundGroup(" ++ quote name ++ ")"
  | routing => "Routing"
  | api => "Api"
  | dns => "Dns"
  | ruleSet => "RuleSet"
  | ruleSetEntry name => "RuleSetEntry(" ++ quote name ++ ")"

/-- The variables of the loop. `importUrl` is there once the node has an `import` line. -/
structure Parser where
  config : Daefile
  state : ParseState
  stateStack : List ParseState
  currentNode : NodeFields
  importUrl : Option String
  currentGroup : OutboundGroupConfig
  processMatch : ProcessMatchConfig
  currentRuleSet : RuleSetFields
  deriving DecidableEq

structure ParserEnv extends ImportEnv where
  debugStr : String → String

namespace Parser

def new : Parser where
  config := .default
  state := .top
  stateStack := []
  currentNode := .named ""
  importUrl := none
  currentGroup := groupNamed ""
  processMatch := .empty
  currentRuleSet := .named ""

variable (p : Parser)

def goTo (state : ParseState) : Parser := { p with state }

def sectionState : String → Option ParseState
  | "global" => some .global
  | "interface" => some .interface
  | "process_exclusion" => some .processExclusion
  | "outbounds" => some .outbounds
  | "routing" => some .routing
  | "api" => some .api
  | "dns" => some .dns
  | "rule_set" => some .ruleSet
  | _ => none

variable (line : String)

def blockName : Option String := (stripEnd line "\x7b").map trim

variable (number : Nat)

def stepTop (line : String) : Parse Parser :=
  match blockName line with
  | some name =>
    match sectionState name with
    | some state => pure (p.goTo state)
    | none => throw (.unknownSection number name)
  | none => throw (.syntaxError number
      s!"expected section declaration (e.g. `global \x7b`), got: '{line}'")

def closes : Bool := line == "\x7d"

def stepFields {σ : Type} (fs : Fields σ) (current : σ) (set : σ → Parser) (number : Nat)
    (line : String) : Parse Parser := do
  let c ← fs.parse line number current
  return set c

def stepGlobal (line : String) : Parse Parser :=
  if closes line then pure (p.goTo .top)
  else stepFields globalFields p.config.runtime
    (fun c => { p with config := { p.config with runtime := c } }) number line

def stepInterface (line : String) : Parse Parser :=
  if closes line then pure (p.goTo .top)
  else stepFields interfaceFields (p.config.interface.getD ⟨[],[],none⟩)
    (fun c => { p with config := { p.config with interface := some c } }) number line

def items (args : String) : List String := ((split args ',').map trim).filter (· ≠ "")

def parseIds (field : String) (number : Nat) : List String → List Nat → Parse (List Nat)
  | [],ids => pure ids
  | item::rest,ids => do
    let id ← parseInteger u32Max item number field
    parseIds field number rest (ids++[id])

def callArgs (name : String) : Option String :=
  (stripStart line (name ++ "(")).bind fun inner => stripEnd inner ")"

def parseMatchStmts (cfg : ProcessMatchConfig) :
    Parse ProcessMatchConfig :=
  let line := trim line
  match callArgs line "comm",callArgs line "pid",callArgs line "tgid" with
  | some args,_,_ => do
    let comm ← orPanic (unquoteAll (items args))
    return { cfg with comm := cfg.comm++comm }
  | none,some args,_ => do
    let pid ← parseIds "pid" number (items args) cfg.pid
    return { cfg with pid }
  | none,none,some args => do
    let tgid ← parseIds "tgid" number (items args) cfg.tgid
    return { cfg with tgid }
  | none,none,none => throw (.syntaxError number
      s!"expected comm(...)/pid(...)/tgid(...) in match, got: '{line}'")

def opensMatch : Bool := startsWith line "match" && RustStr.contains line "\x7b"

def inlineMatch : Option String :=
  let afterBrace := trim (trimStartStr line "match")
  if afterBrace = "\x7b" then none
  else
    ((stripStart afterBrace "\x7b").map trim).bind fun rest => (stripEnd rest "\x7d").map trim

/-- A block on one line leaves its entry on the stack. -/
def stepOpensMatch (line : String) : Parse Parser :=
  let p := { p with stateStack := .processExclusion::p.stateStack }
  match inlineMatch line with
  | none => pure (p.goTo .processMatch)
  | some inner => do
    let cfg ← parseMatchStmts inner number p.processMatch
    return { p with processMatch := cfg,state := .processExclusion }

def stepProcessExclusion (line : String) : Parse Parser :=
  let pe := p.config.processExclusion.getD .default
  if closes line then
    pure { p with
      config := { p.config with
        processExclusion := some { pe with matching := p.processMatch } }
      processMatch := .empty
      state := .top }
  else if opensMatch line then p.stepOpensMatch number line
  else stepFields processExclusionFields pe
    (fun c => { p with config := { p.config with processExclusion := some c } }) number line

def stepProcessMatch (line : String) : Parse Parser :=
  if closes line then
    pure { p with
      state := p.stateStack.headD .processExclusion
      stateStack := p.stateStack.tail }
  else do
    let cfg ← parseMatchStmts line number p.processMatch
    return { p with processMatch := cfg }

def stepOutbounds (line : String) : Parse Parser :=
  if closes line then pure (p.goTo .top)
  else if line = "nodes \x7b" then pure (p.goTo .outboundNodes)
  else if line = "groups \x7b" then pure (p.goTo .outboundGroups)
  else throw (.syntaxError number
    s!"expected 'nodes \x7b' or 'groups \x7b' inside outbounds, got: '{line}'")

def entryName : Option String :=
  (blockName line).filter fun name => name ≠ "" && !RustStr.contains name " "

def stepEntries (outer : ParseState) (declare : String → Parser) (message : String)
    (number : Nat) (line : String) : Parse Parser :=
  if closes line then pure (p.goTo outer)
  else
    match entryName line with
    | some name => pure (declare name)
    | none => throw (.syntaxError number message)

def stepOutboundNodes (line : String) : Parse Parser := p.stepEntries .outbounds
    (fun name => { p with
      currentNode := .named name
      importUrl := none
      state := .outboundNode name })
    s!"expected node declaration in nodes (e.g. `main \x7b`), got: '{line}'" number line

def importLink : Option String := (stripStart (trim line) "import:").map trim

def parseImportLine : Option (Option String) :=
  match importLink line with
  | some rest => (unquote rest).map some
  | none => some none

def finishNode (env : ImportEnv) (p : Parser) (name : String) : Parse NodeFields :=
  match p.importUrl with
  | some url => parseImportUrl env name url p.currentNode
  | none => pure p.currentNode

def nodeField (name : String) (number : Nat) (key value : String) :
    Parse NodeFields :=
  if p.importUrl.isSome then throw (.importConflict name)
  else nodeFields.apply number p.currentNode key value

def stepOutboundNode (env : ImportEnv) (p : Parser) (name : String) (number : Nat)
    (line : String) : Parse Parser :=
  if closes line then do
    let node ← p.finishNode env name
    return { p with
      config := { p.config with nodes := p.config.nodes++[node] }
      currentNode := .named ""
      state := .outboundNodes }
  else do
    match ← orPanic (parseImportLine line) with
    | some url => return { p with importUrl := some url }
    | none =>
      let node ← parseKvPair line number (p.nodeField name number)
      return { p with currentNode := node }

def stepOutboundGroups (line : String) : Parse Parser := p.stepEntries .outbounds
    (fun name => { p with currentGroup := groupNamed name,state := .outboundGroup name })
    s!"expected group declaration in groups (e.g. `proxy_primary \x7b`), got: '{line}'" number line

def regexPattern (content : String) : Option String := (stripStart content "regex:").map trim

def selectorContent : Option String := (callArgs (trim line) "nodes").map trim

def readSelectors (content : String) : Option (List NodeSelector) :=
  if content = "" then some []
  else
    match regexPattern content with
    | some pattern => (unquote pattern).map fun pattern => [.regex pattern]
    | none => some (if items content=[] then [] else [.list (items content)])

/-- The outer `none` is a panic. -/
def parseNodesSelector : Option (Option (List NodeSelector)) :=
  match selectorContent line with
  | none => some none
  | some content => (readSelectors content).map some

def stepOutboundGroup (line : String) : Parse Parser :=
  if closes line then
    pure { p with
      config := { p.config with groups := p.config.groups++[p.currentGroup] }
      currentGroup := groupNamed ""
      state := .outboundGroups }
  else do
    match ← orPanic (parseNodesSelector line) with
    | some selectors =>
      return { p with currentGroup :=
        { p.currentGroup with selectors := p.currentGroup.selectors++selectors } }
    | none => stepFields groupFields p.currentGroup (fun g => { p with currentGroup := g }) number line

def stepRouting (line : String) : Parse Parser :=
  if closes line then pure (p.goTo .top)
  else
    match stripStart line "fallback:" with
    | some action =>
      pure { p with config := { p.config with
        routing := { p.config.routing with fallback := trim action } } }
    | none => do
      match ← orPanic (sliceFound line "->") with
      | some (expr,action) =>
        if trim expr ≠ "" && trim action ≠ "" then
          return { p with config := { p.config with routing := { p.config.routing with
            rules := p.config.routing.rules++[⟨trim expr,trim action⟩] } } }
        else throw (ruleExpected line)
      | none => throw (ruleExpected line)
where
  ruleExpected (line : String) : ParseError := .syntaxError number
    s!"expected rule line (`expr -> action`) or `fallback: action` in routing, got: '{line}'"

def stepApi (line : String) : Parse Parser :=
  if closes line then pure (p.goTo .top)
  else stepFields apiFields (p.config.api.getD .default)
    (fun c => { p with config := { p.config with api := some c } }) number line

def stepDns (line : String) : Parse Parser :=
  if closes line then pure (p.goTo .top)
  else stepFields dnsFields (p.config.dns.getD .default)
    (fun c => { p with config := { p.config with dns := some c } }) number line

def stepRuleSet (line : String) : Parse Parser := p.stepEntries .top
    (fun name => { p with currentRuleSet := .named name,state := .ruleSetEntry name })
    s!"expected rule set entry declaration (e.g. `geoip_main \x7b`), got: '{line}'" number line

def stepRuleSetEntry (name : String) (number : Nat) (line : String) : Parse Parser :=
  if closes line then
    pure { p with
      config := { p.config with ruleSet := p.config.ruleSet++[p.currentRuleSet] }
      currentRuleSet := .named ""
      state := .ruleSet }
  else stepFields (ruleSetFields name) p.currentRuleSet (fun c => { p with currentRuleSet := c })
    number line

def stepLine (env : ImportEnv) (p : Parser) (number : Nat) (line : String) : Parse Parser :=
  match p.state with
  | .top => p.stepTop number line
  | .global => p.stepGlobal number line
  | .interface => p.stepInterface number line
  | .processExclusion => p.stepProcessExclusion number line
  | .processMatch => p.stepProcessMatch number line
  | .outbounds => p.stepOutbounds number line
  | .outboundNodes => p.stepOutboundNodes number line
  | .outboundNode name => p.stepOutboundNode env name number line
  | .outboundGroups => p.stepOutboundGroups number line
  | .outboundGroup _ => p.stepOutboundGroup number line
  | .routing => p.stepRouting number line
  | .api => p.stepApi number line
  | .dns => p.stepDns number line
  | .ruleSet => p.stepRuleSet number line
  | .ruleSetEntry name => p.stepRuleSetEntry name number line

end Parser

def beforeComment : Option Char → List Char → Option (List Char)
  | _,[] => none
  | inQuote,c::cs =>
    let rest (quote : Option Char) := (beforeComment quote cs).map (c::·)
    if (c == '\x22' || c == '\x27') && inQuote==some c then rest none
    else if (c == '\x22' || c == '\x27') && inQuote==none then rest (some c)
    else if c == '#' && inQuote==none then some []
    else rest inQuote

def stripInlineComment (line : String) : Option String :=
  match beforeComment none line.toList with
  | some before => (sliceTo line (String.ofList before).utf8ByteSize).map trimEnd
  | none => some line

def mergeLines : List String → String
  | [] => ""
  | line::lines =>
    match stripEnd (trimEnd line) "\\" with
    | some stripped => stripped++mergeLines lines
    | none => line++(if lines=[] then "" else "\n")++mergeLines lines

def preprocessMultiline (input : String) : String := mergeLines (lines input)

namespace Parser

/-- One turn of the loop; blank lines and comments are skipped. -/
def step (env : ImportEnv) (p : Parser) (number : Nat) (raw : String) : Parse Parser := do
  let stripped ← orPanic (stripInlineComment raw)
  let line := trim stripped
  if line = "" || startsWith line "#" then return p
  else p.stepLine env number line

def steps (env : ImportEnv) (p : Parser) (number : Nat) : List String → Parse Parser
  | [] => pure p
  | raw::raws => do
    let p ← p.step env number raw
    p.steps env (number+1) raws

end Parser

def parseDaefile (env : ParserEnv) (input : String) : Parse Daefile := do
  let p ← Parser.new.steps env.toImportEnv 1 (lines (preprocessMultiline input))
  if p.state=.top then return p.config
  else throw (.syntaxError (lines input).length
    s!"unclosed {p.state.debug env.debugStr} block")

end DaeRs.Config
