import DaeRs.Routing.Rule
import DaeRs.RuleSet.DomainSet
import DaeRs.Lib.Intern

/-! The parameters of a routing function, and the values that its entries carry. -/

namespace DaeRs.Routing

open RustStr Net RuleSet Bpf

def splitParam (raw : String) : String×String :=
  match splitOnce raw ':' with
  | some (k,v) => (trim k,trim v)
  | none => ("",trim raw)

/-- `key_to_values` and `key_order` while the parameters are read. -/
structure KeyGroups where
  keyToValues : String → Option (List String)
  keyOrder : List String

namespace KeyGroups

def empty : KeyGroups := ⟨fun _ => none,[]⟩

def insert (g : KeyGroups) (raw : String) : KeyGroups :=
  let (key,val) := splitParam raw
  let inserted := (g.keyToValues key).isNone
  { keyToValues := fun k =>
      if k=key then some ((g.keyToValues key).getD []++[val]) else g.keyToValues k
    keyOrder := if inserted ∧ key ≠ "" then g.keyOrder++[key] else g.keyOrder }

/-- The unkeyed parameters are the last group, unless all of them are empty. -/
def close (g : KeyGroups) : KeyGroups :=
  match g.keyToValues "" with
  | some unkeyed =>
    if unkeyed.any (· ≠ "") then { g with keyOrder := g.keyOrder++[""] } else g
  | none => g

end KeyGroups

def groupParamsByKey (rawParams : List String) : KeyGroups :=
  (rawParams.foldl KeyGroups.insert KeyGroups.empty).close

def Function.groups (f : Function) : List (List String) :=
  let g := groupParamsByKey f.rawParams
  g.keyOrder.map fun key => (g.keyToValues key).getD []

def rulesetDataMissing {α : Type} (reference reason : String) : Except Error α :=
  fail s!"[E2103] Rule set data missing for '{reference}': {reason}"

def hostNet : IpAddr → IpNet
  | .v4 ip => .v4 ⟨ip,32,le_refl 32⟩
  | .v6 ip => .v6 ⟨ip,128,le_refl 128⟩

def parseCidrValue (env : Env) (cache : Option RuleSetCache) (val : String) :
    Except Error (List IpNet) :=
  match parseRef val with
  | .set name =>
    match cache with
    | none => rulesetDataMissing val "rule set memory cache not available"
    | some cache =>
      match cache.getSetIps name with
      | none => rulesetDataMissing val "ip_list rule set not found or rule set type mismatch"
      | some list => .ok list
  | .plain v =>
    match env.ipNetFromStr v with
    | some cidr => .ok [cidr]
    | none =>
      match parseIpv4Addr v with
      | some addr => .ok [hostNet (.v4 addr)]
      | none =>
        match parseIpv6Addr v with
        | some addr => .ok [hostNet (.v6 addr)]
        | none => fail s!"cannot parse CIDR or IP: {val}"

def parseCidrValues (env : Env) (cache : Option RuleSetCache) :
    List String → Except Error (List IpNet)
  | [] => .ok []
  | val::vals => do
    let cidrs ← parseCidrValue env cache val
    let rest ← parseCidrValues env cache vals
    pure (cidrs++rest)

def parseMacBytes : List String → Except Error (List Nat)
  | [] => .ok []
  | part::parts =>
    match fromStrRadix 16 255 part with
    | .error _ => fail s!"invalid MAC address byte: {part}"
    | .ok b => do
      let rest ← parseMacBytes parts
      pure (b::rest)

def parseMacAddress (str : String) : Except Error (List Nat) :=
  let s := trim str
  let parts := split s ':'
  if parts.length≠6 then
    fail s!"invalid MAC address format: {s} (expected xx:xx:xx:xx:xx:xx)"
  else parseMacBytes parts

/-- A MAC address as the low 48 bits of a host prefix. -/
def macNet (mac : List Nat) : IpNet :=
  hostNet (.v6 (BitVec.ofNat 128 (mac.foldl (fun acc b => acc*256+b) 0)))

/-- The prefixes of a `mac` function: malformed addresses are skipped, and a negated function also
lists the zero address. -/
def macNets (f : Function) : List IpNet :=
  let nets := f.rawParams.filterMap fun val =>
    match parseMacAddress val with
    | .ok mac => some (macNet mac)
    | .error _ => none
  if f.not then nets++[macNet (List.replicate 6 0)] else nets

def parsePort (s : String) : Except Error UInt16 := UInt16.ofNat <$> parseUint 10 0xffff s

def parsePortRange (val : String) : Except Error PortRange :=
  match splitOnce val '-' with
  | some (startStr,endStr) => do
    let first ← parsePort (trim startStr)
    let last ← parsePort (trim endStr)
    pure ⟨first,last⟩
  | none => do
    let port ← parsePort val
    pure ⟨port,port⟩

def l4protoMask (values : List String) : UInt8 := values.foldl (fun proto val =>
    match toAsciiLowercase val with
    | "tcp" => proto ||| 0x01
    | "udp" => proto ||| 0x02
    | _ => proto) 0

def ipversionMask (values : List String) : UInt8 := values.foldl (fun version val =>
    match trim val with
    | "4" => version ||| 0x01
    | "6" => version ||| 0x02
    | _ => version) 0

def nameBytes (val : String) : Bytes16 :=
  let bytes := (utf8 val).take 16
  let padded := bytes++List.replicate (16-bytes.length) 0
  BitVec.ofNat 128 (padded.foldl (fun acc b => acc*256+b.toNat) 0)

def parseDscp (val : String) : Except Error UInt8 := UInt8.ofNat <$> parseUint 10 0xff val

end DaeRs.Routing
