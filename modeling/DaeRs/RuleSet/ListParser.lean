import DaeRs.RuleSet.DomainSet

/-! The text parsers of domain lists and address lists. -/

namespace DaeRs.RuleSet

open RustStr Net

inductive ListError where
  | invalidIp (line : Nat) (value : String)
  | invalidDomain (line : Nat) (value : String)
  | unrecognizedRule (line : Nat) (value : String)
  deriving DecidableEq

def nonIpRulePrefixes : List String :=
  ["domain", "domain-suffix", "domain-keyword", "domain-regex", "geoip", "match", "final",
    "rule-set", "process-name", "process-path", "user-agent", "src-ip", "src-port", "dst-port",
    "protocol", "network", "url-regex", "ip-asn"]

def nonDomainRulePrefixes : List String :=
  ["ip-cidr", "ip-cidr6", "ip-asn", "geoip", "match", "final", "rule-set", "process-name",
    "process-path", "user-agent", "src-ip", "src-port", "dst-port", "protocol", "network",
    "url-regex"]

variable (line : String)

/-- `strip_rule_keyword`. A comma byte is a character of its own, so no slice is taken inside a
character here. -/
def stripRuleKeyword (keyword : String) : Option String :=
  match sliceAt line.toList keyword.utf8ByteSize with
  | some (head, ',' :: rest) =>
    if eqIgnoreAsciiCase (String.ofList head) keyword then some (trim (String.ofList rest))
    else none
  | _ => none

def lineIsRuleKeyword (keywords : List String) : Bool :=
  let lower := toAsciiLowercase line
  keywords.any fun kw => lower==kw || startsWith lower (kw ++ ",")

def firstArg (rest : String) : String := trim ((split rest ',').headD "")

def parseIpLine (env : Env) (line : String) : Option IpNet :=
  match env.ipNetFromStr line with
  | some net => some net
  | none =>
    match parseIpv4Addr line with
    | some addr => some (.v4 ⟨addr,32,Nat.le_refl _⟩)
    | none => (parseIpv6Addr line).map fun addr => .v6 ⟨addr,128,Nat.le_refl _⟩

def parseIpListLine (env : Env) (number : Nat) (line : String) :
    Except ListError (Option IpNet) :=
  let required (rest : String) : Except ListError (Option IpNet) :=
    match parseIpLine env (firstArg rest) with
    | some net => .ok (some net)
    | none => .error (.invalidIp number line)
  if line = "" ∨ startsWith line "#" then .ok none
  else
    match stripRuleKeyword line "IP-CIDR" with
    | some rest => required rest
    | none =>
      match stripRuleKeyword line "IP-CIDR6" with
      | some rest => required rest
      | none =>
        if lineIsRuleKeyword line nonIpRulePrefixes then .ok none
        else
          match parseIpLine env line with
          | some net => .ok (some net)
          | none =>
            if RustStr.contains line "," then .error (.unrecognizedRule number line)
            else .error (.invalidIp number line)

def parseIpLines (env : Env) : Nat → List String → Except ListError (List IpNet)
  | _,[] => .ok []
  | idx,raw::raws => do
    let entry ← parseIpListLine env (idx+1) (trim raw)
    let nets ← parseIpLines env (idx+1) raws
    pure (entry.toList++nets)

def parseIpList (env : Env) (text : String) : Except ListError (List IpNet) :=
  parseIpLines env 0 (lines text)

def ruleKeywords : List (String×DomainPatternType) :=
  [("DOMAIN-SUFFIX",.suffix),("DOMAIN-KEYWORD",.keyword),("DOMAIN-REGEX",.regex),("DOMAIN",.full)]

def parseRuleDomainWith (line : String) : List (String×DomainPatternType) → Option DomainPattern
  | [] => none
  | (keyword,ty)::keywords =>
    match stripRuleKeyword line keyword with
    | some rest =>
      let value := firstArg rest
      if value = "" then none else some ⟨ty,value⟩
    | none => parseRuleDomainWith line keywords

def parseRuleDomain : Option DomainPattern := parseRuleDomainWith line ruleKeywords

def nativePrefixes : List (String×DomainPatternType) :=
  [("full:",.full),("domain:",.domain),("suffix:",.suffix),("keyword:",.keyword),("regex:",.regex)]

/-- The rest of a line after a native prefix, in any letter case. The outer `none` is the panic
of a slice that ends inside a character. -/
def nativeRest (pre : String) : Option (Option String) :=
  if line.utf8ByteSize<pre.utf8ByteSize then some none
  else (sliceAt line.toList pre.utf8ByteSize).map fun p =>
    if eqIgnoreAsciiCase (String.ofList p.1) pre then some (String.ofList p.2) else none

def isNativeDomainPrefix : Option Bool := nativePrefixes.foldr (fun p rest => do
    match ← nativeRest line p.1 with
    | some _ => pure true
    | none => rest) (some false)

def parseDomainLineWith (line : String) :
    List (String×DomainPatternType) → Option (Option DomainPattern)
  | [] => some (if line = "" then none else some ⟨.suffix,line⟩)
  | (pre,ty)::prefixes => do
    match ← nativeRest line pre with
    | some rest =>
      let value := trim rest
      pure (if value = "" then none else some ⟨ty,value⟩)
    | none => parseDomainLineWith line prefixes

def parseDomainLine : Option (Option DomainPattern) := parseDomainLineWith line nativePrefixes

/-- One trimmed line of a domain list; the outer `none` is a panic, the inner one a skipped
line. -/
def parseDomainListLine (number : Nat) (line : String) :
    Option (Except ListError (Option DomainPattern)) :=
  if line = "" ∨ startsWith line "#" then some (.ok none)
  else
    match parseRuleDomain line with
    | some pat => some (.ok (some pat))
    | none =>
      if lineIsRuleKeyword line nonDomainRulePrefixes then some (.ok none)
      else do
        match ← parseDomainLine line with
        | some pat => pure (.ok (some pat))
        | none =>
          if ← isNativeDomainPrefix line then pure (.error (.invalidDomain number line))
          else pure (.error (.unrecognizedRule number line))

def parseDomainLines : Nat → List String → Option (Except ListError (List DomainPattern))
  | _,[] => some (.ok [])
  | idx,raw::raws => do
    match ← parseDomainListLine (idx+1) (trim raw) with
    | .error e => pure (.error e)
    | .ok entry =>
      let pats ← parseDomainLines (idx+1) raws
      pure (pats.map (entry.toList++·))

def parseDomainList (text : String) : Option (Except ListError (List DomainPattern)) :=
  parseDomainLines 0 (lines text)

example : parseDomainList "# list\nbaidu.com\nFULL:google.com\nDOMAIN-KEYWORD,ads,x\nGEOIP,CN\n" =
    some (.ok [⟨.suffix, "baidu.com"⟩,⟨.full, "google.com"⟩,⟨.keyword, "ads"⟩]) := by
  decide +kernel

example : parseIpList Env.empty "2.2.2.2\nIP-CIDR,1.1.1.1,no-resolve\nMATCH,DIRECT\n" =
    .ok [.v4 ⟨0x02020202,32,by decide⟩,.v4 ⟨0x01010101,32,by decide⟩] := by
  decide +kernel

end DaeRs.RuleSet
