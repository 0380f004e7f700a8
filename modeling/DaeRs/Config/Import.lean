import DaeRs.Config.Fields
import DaeRs.Config.Validator

/-! The share links that a node can be imported from. -/

namespace DaeRs.Config

open Panicking RustStr List

structure NodeFields extends OutboundNode where
  sni : Option String
  caSha256 : Option String
  congestionControl : Option String
  alpn : Option (List String)
  security : Option String
  alterId : Option Nat
  network : Option String
  wsPath : Option String
  wsHeaders : Option (List (String×String))
  h2Path : Option String
  h2Host : Option String
  grpcServiceName : Option String
  deriving DecidableEq

def NodeFields.named (name : String) : NodeFields where
  name := name
  protocol := ""
  address := ""
  username := none
  password := none
  cipher := none
  uuid := none
  dialTimeoutMs := 5000
  sni := none
  caSha256 := none
  congestionControl := none
  alpn := none
  security := none
  alterId := none
  network := none
  wsPath := none
  wsHeaders := none
  h2Path := none
  h2Host := none
  grpcServiceName := none

/-- A field of the JSON of a VMess link. -/
inductive JsonValue where
  | text (s : String)
  | number (n : Option Nat)
  | other
  deriving DecidableEq

namespace JsonValue

def asStr : JsonValue → Option String
  | text s => some s
  | _ => none

def asU64 : JsonValue → Option Nat
  | text s => (fromStrRadix 10 u64Max s).toOption
  | number n => n
  | other => none

end JsonValue

/-- `base64` decodes padded bytes, `json` parses a text into the members of an object (none of them
if it is another value). -/
structure ImportEnv where
  base64 : List UInt8 → Option (List UInt8)
  json : String → Option (String → Option JsonValue)

def stripTrailingSlash (addr : String) : String := (stripEnd addr "/").getD addr

variable (rest : String)

def withoutFragment : String :=
  match splitOnce rest '#' with
  | some (r,_) => r
  | none => rest

variable (env : ImportEnv)

def base64Decode (input : String) : Option String :=
  let input := trim input
  let n := input.utf8ByteSize%4
  let padded := if n=0 then input else input++String.ofList (List.replicate (4-n) '=')
  (env.base64 (utf8 padded)).bind fun bytes => (fromUtf8 bytes).toOption

def queryPairs : List String → Option (List (String×String))
  | [] => some []
  | kv::kvs =>
    match splitOnce kv '=' with
    | none => queryPairs kvs
    | some (k,v) => do
      let v ← unquote v
      let pairs ← queryPairs kvs
      return (k,v)::pairs

def splitQuery : String×String :=
  let rest := withoutFragment rest
  match splitOnce rest '?' with
  | some (main,query) => (main,query)
  | none => (rest, "")

def splitUrl : Option (String×List (String×String)) :=
  let (main,query) := splitQuery rest
  (queryPairs ((split query '&').filter (· ≠ ""))).map fun pairs => (main,pairs)

def parseSocks5Import (node : NodeFields) : Parse NodeFields := do
  let address := stripTrailingSlash (withoutFragment rest)
  let node := { node with protocol := "socks5",address }
  match ← orPanic (rsliceFound address '@') with
  | none => return node
  | some (cred,host) =>
    let node := { node with address := stripTrailingSlash host }
    match ← orPanic (sliceFound cred ":") with
    | some (username,password) =>
      return { node with username := some username,password := some password }
    | none => return { node with username := some cred }

def assignSsUserinfo (userinfo : String) (node : NodeFields) :
    Parse (Option NodeFields) := do
  match ← orPanic (sliceFound userinfo ":") with
  | some (cipher,password) =>
    return some { node with cipher := some cipher,password := some password }
  | none =>
    match base64Decode env userinfo with
    | none => return none
    | some decoded =>
      match ← orPanic (sliceFound decoded ":") with
      | some (cipher,password) =>
        return some { node with cipher := some cipher,password := some password }
      | none => return none

def assignSs (text : String) (node : NodeFields) :
    Parse (NodeFields×Bool) := do
  match ← orPanic (rsliceFound text '@') with
  | none => return (node,false)
  | some (userinfo,host) =>
    let node := { node with address := stripTrailingSlash host }
    match ← assignSsUserinfo env userinfo node with
    | some node => return (node,true)
    | none => return (node,false)

def assignSsDecoded (rest : String) (x : NodeFields×Bool) :
    Parse (NodeFields×Bool) :=
  if x.2 then pure x
  else
    match base64Decode env rest with
    | some decoded => assignSs env decoded x.1
    | none => pure x

def finishImport (complete : Bool) (url : String) (node : NodeFields) : Parse NodeFields :=
  if complete then pure node else throw (.importInvalid node.name url)

def parseSsImport (rest : String) (node : NodeFields) : Parse NodeFields := do
  let rest := (split rest '#').headD rest
  let plain ← assignSs env rest { node with protocol := "shadowsocks" }
  let x ← assignSsDecoded env rest plain
  finishImport (x.2 && x.1.address ≠ "") s!"ss://{rest}" x.1

def assignUser (set : String → NodeFields → NodeFields) (main : String) (node : NodeFields) :
    Parse NodeFields := do
  match ← orPanic (rsliceFound main '@') with
  | some (user,host) => return { set user node with address := stripTrailingSlash host }
  | none => return node

variable (node : NodeFields)

def trojanQuery : String×String → NodeFields
  | ("sni",value) | ("peer",value) => { node with sni := some value }
  | ("ca_sha256",value) => { node with caSha256 := some value }
  | _ => node

def parseTrojanImport (node : NodeFields) : Parse NodeFields := do
  let url ← orPanic (splitUrl rest)
  let node ← assignUser (fun password n => { n with password := some password }) url.1
    { node with protocol := "trojan" }
  let node := url.2.foldl trojanQuery node
  finishImport (node.password≠none && node.address ≠ "") s!"trojan://{rest}" node

def assignUuidPassword (main : String) (node : NodeFields) : Parse NodeFields := do
  match ← orPanic (rsliceFound main '@') with
  | none => return node
  | some (cred,host) =>
    let node := { node with address := stripTrailingSlash host }
    match ← orPanic (sliceFound cred ":") with
    | some (uuid,password) => return { node with uuid := some uuid,password := some password }
    | none => return { node with uuid := some cred }

def tuicQuery : String×String → NodeFields
  | ("congestion_control",value) => { node with congestionControl := some value }
  | ("alpn",value) =>
    { node with alpn := some (((split value ',').map trim).filter (· ≠ "")) }
  | ("sni",value) => { node with sni := some value }
  | ("ca_sha256",value) => { node with caSha256 := some value }
  | _ => node

def juicityQuery : String×String → NodeFields
  | ("congestion_control",value) => { node with congestionControl := some value }
  | ("sni",value) => { node with sni := some value }
  | ("ca_sha256",value) => { node with caSha256 := some value }
  | _ => node

/-- TUIC and Juicity links differ in the scheme, the protocol and the keys of the query. -/
def parseUuidImport (protocol : String) (step : NodeFields → String×String → NodeFields)
    (rest : String) (node : NodeFields) : Parse NodeFields := do
  let url ← orPanic (splitUrl rest)
  let node ← assignUuidPassword url.1 { node with protocol }
  let node := url.2.foldl step node
  finishImport (node.uuid≠none && node.password≠none && node.address ≠ "")
    s!"{protocol}://{rest}" node

def parseTuicImport (node : NodeFields) : Parse NodeFields :=
  parseUuidImport "tuic" tuicQuery rest node

def parseJuicityImport (node : NodeFields) : Parse NodeFields :=
  parseUuidImport "juicity" juicityQuery rest node

def setHost (host : String) : NodeFields :=
  { node with wsHeaders := some (insertEntry "Host" host (node.wsHeaders.getD [])) }

def vmessQuery : String×String → NodeFields
  | ("security",value) | ("scy",value) => { node with security := some value }
  | ("alterId",value) | ("aid",value) =>
    { node with alterId := (fromStrRadix 10 u32Max value).toOption }
  | ("network",value) | ("net",value) => { node with network := some value }
  | ("sni",value) => { node with sni := some value }
  | ("path",value) | ("wsPath",value) => { node with wsPath := some value }
  | ("grpcServiceName",value) => { node with grpcServiceName := some value }
  | ("host",value) =>
    match node.network with
    | some "h2" => { node with h2Host := some value }
    | some "ws" => setHost node value
    | _ => node
  | _ => node

def parseVmessJson (json : String → Option JsonValue) (node : NodeFields) :
    Except ParseError NodeFields :=
  let get (key : String) := (json key).bind JsonValue.asStr
  let address :=
    match get "add",(json "port").bind JsonValue.asU64 with
    | some add,some port => s!"{add}:{port}"
    | _,_ => node.address
  let node := { node with
    address
    uuid := (get "id").or node.uuid
    alterId := ((json "aid").bind JsonValue.asU64).map (· % 4294967296)
    security := (get "scy").or (get "security")
    network := get "net"
    sni := (get "sni").or ((get "tls").filter (· ≠ "none"))
    wsPath := (get "path").or node.wsPath }
  let node :=
    match get "host",node.network with
    | some host,some "h2" => { node with h2Host := some host }
    | some host,some "ws" => setHost node host
    | _,_ => node
  if node.uuid=none || node.address = "" then
    .error (.importInvalid node.name "vmess://<base64>")
  else .ok node

def vmessJson (rest : String) : Option (String → Option JsonValue) :=
  (base64Decode env rest).bind env.json

def parseVmessUrl (node : NodeFields) : Parse NodeFields := do
  let url ← orPanic (splitUrl rest)
  let node ← assignUser (fun uuid n => { n with uuid := some uuid }) url.1 node
  let node := url.2.foldl vmessQuery node
  finishImport (node.uuid≠none && node.address ≠ "") s!"vmess://{rest}" node

def parseVmessImport (rest : String) (node : NodeFields) : Parse NodeFields :=
  match vmessJson env rest with
  | some json => fromExcept (parseVmessJson json { node with protocol := "vmess" })
  | none => parseVmessUrl rest { node with protocol := "vmess" }

inductive Scheme where
  | socks5
  | shadowsocks
  | trojan
  | tuic
  | juicity
  | vmess
  deriving DecidableEq

def schemes : List (String×Scheme) :=
  [("socks5://",.socks5),("socks://",.socks5),("ss://",.shadowsocks),("trojan://",.trojan),
    ("tuic://",.tuic),("juicity://",.juicity),("vmess://",.vmess)]

def schemeOf (url : String) : Option (Scheme×String) :=
  schemes.findSome? fun p => (stripStart url p.1).map fun rest => (p.2,rest)

def parseImportUrl (nodeName url : String) (node : NodeFields) :
    Parse NodeFields :=
  match schemeOf url with
  | some (.socks5,rest) => parseSocks5Import rest node
  | some (.shadowsocks,rest) => parseSsImport env rest node
  | some (.trojan,rest) => parseTrojanImport rest node
  | some (.tuic,rest) => parseTuicImport rest node
  | some (.juicity,rest) => parseJuicityImport rest node
  | some (.vmess,rest) => parseVmessImport env rest node
  | none => throw (.importInvalid nodeName url)

theorem returns_parseSocks5Import (node : NodeFields) : Returns (parseSocks5Import rest node) := by
  simp only [parseSocks5Import,rsliceFound_eq,sliceFound_eq,orPanic_bind]
  split
  · exact returns_pure _
  · split <;> exact returns_pure _

theorem returns_assignSsUserinfo (userinfo : String) (node : NodeFields) :
    Returns (assignSsUserinfo env userinfo node) := by
  simp only [assignSsUserinfo,sliceFound_eq,orPanic_bind]
  split
  · exact returns_pure _
  · split
    · exact returns_pure _
    · split <;> exact returns_pure _

theorem returns_assignSs (text : String) (node : NodeFields) :
    Returns (assignSs env text node) := by
  simp only [assignSs,rsliceFound_eq,orPanic_bind]
  split
  · exact returns_pure _
  · refine returns_bind_iff.2 ⟨returns_assignSsUserinfo env _ _,fun o _ => ?_⟩
    split <;> exact returns_pure _

theorem returns_finishImport (complete : Bool) (url : String) (node : NodeFields) :
    Returns (finishImport complete url node) := by
  cases complete with
  | true => exact returns_pure _
  | false => exact returns_throw _

theorem returns_parseSsImport (rest : String) (node : NodeFields) :
    Returns (parseSsImport env rest node) := by
  refine returns_bind_iff.2 ⟨returns_assignSs env _ _,fun plain _ => ?_⟩
  refine returns_bind_iff.2 ⟨?_,fun x _ => returns_finishImport _ _ _⟩
  unfold assignSsDecoded
  split
  · exact returns_pure _
  · split
    · exact returns_assignSs env _ _
    · exact returns_pure _

theorem returns_assignUser (set : String → NodeFields → NodeFields) (main : String)
    (node : NodeFields) : Returns (assignUser set main node) := by
  rw [assignUser,rsliceFound_eq,orPanic_bind]
  split <;> exact returns_pure _

theorem returns_assignUuidPassword (main : String) (node : NodeFields) :
    Returns (assignUuidPassword main node) := by
  simp only [assignUuidPassword,rsliceFound_eq,sliceFound_eq,orPanic_bind]
  split
  · exact returns_pure _
  · split <;> exact returns_pure _

def urlQuotes : List String := ((split (splitQuery rest).2 '&').filter (· ≠ "")).filterMap fun kv =>
    (splitOnce kv '=').map Prod.snd

theorem queryPairs_ne_none_iff (kvs : List String) : queryPairs kvs≠none ↔
      ∀ v∈kvs.filterMap fun kv => (splitOnce kv '=').map Prod.snd,¬LoneQuote v := by
  induction kvs with
  | nil => exact iff_of_true nofun (forall_mem_nil _)
  | cons kv kvs ih =>
    rw [queryPairs,filterMap_cons]
    cases splitOnce kv '=' with
    | none => exact ih
    | some p =>
      dsimp only [Option.map_some]
      rw [forall_mem_cons,← ih,← unquote_eq_none_iff]
      cases unquote p.2 with
      | none => exact iff_of_false (fun h => h rfl) fun h => h.1 rfl
      | some v =>
        cases queryPairs kvs with
        | none => exact iff_of_false (fun h => h rfl) fun h => h.2 rfl
        | some pairs => exact iff_of_true nofun ⟨nofun,nofun⟩

theorem splitUrl_ne_none_iff : splitUrl rest≠none ↔ ∀ v∈urlQuotes rest,¬LoneQuote v := by
  rw [urlQuotes,← queryPairs_ne_none_iff,splitUrl,Ne,Option.map_eq_none_iff]

theorem returns_parseTrojanImport_iff (node : NodeFields) :
    Returns (parseTrojanImport rest node) ↔ ∀ v∈urlQuotes rest,¬LoneQuote v := by
  rw [← splitUrl_ne_none_iff,parseTrojanImport,returns_orPanic_bind_iff]
  intro url
  exact returns_bind_iff.2 ⟨returns_assignUser _ _ _,fun _ _ => returns_finishImport _ _ _⟩

theorem returns_parseUuidImport_iff (protocol : String)
    (step : NodeFields → String×String → NodeFields) (rest : String) (node : NodeFields) :
    Returns (parseUuidImport protocol step rest node) ↔ ∀ v∈urlQuotes rest,¬LoneQuote v := by
  rw [← splitUrl_ne_none_iff,parseUuidImport,returns_orPanic_bind_iff]
  intro url
  exact returns_bind_iff.2 ⟨returns_assignUuidPassword _ _,fun _ _ => returns_finishImport _ _ _⟩

theorem returns_parseVmessUrl_iff (node : NodeFields) :
    Returns (parseVmessUrl rest node) ↔ ∀ v∈urlQuotes rest,¬LoneQuote v := by
  rw [← splitUrl_ne_none_iff,parseVmessUrl,returns_orPanic_bind_iff]
  intro url
  exact returns_bind_iff.2 ⟨returns_assignUser _ _ _,fun _ _ => returns_finishImport _ _ _⟩

def vmessQuotes (rest : String) : List String :=
  match vmessJson env rest with
  | some _ => []
  | none => urlQuotes rest

theorem returns_parseVmessImport_iff (rest : String) (node : NodeFields) :
    Returns (parseVmessImport env rest node) ↔ ∀ v∈vmessQuotes env rest,¬LoneQuote v := by
  unfold parseVmessImport vmessQuotes
  cases vmessJson env rest with
  | some json => exact iff_of_true (returns_fromExcept _) (forall_mem_nil _)
  | none => exact returns_parseVmessUrl_iff rest _

def importQuotes (url : String) : List String :=
  match schemeOf url with
  | some (.trojan,rest) | some (.tuic,rest) | some (.juicity,rest) => urlQuotes rest
  | some (.vmess,rest) => vmessQuotes env rest
  | some (.socks5,_) | some (.shadowsocks,_) | none => []

theorem returns_parseImportUrl_iff (nodeName url : String) (node : NodeFields) :
    Returns (parseImportUrl env nodeName url node) ↔ ∀ v∈importQuotes env url,¬LoneQuote v := by
  unfold parseImportUrl importQuotes
  generalize schemeOf url=found
  cases found with
  | none => exact iff_of_true (returns_throw _) (forall_mem_nil _)
  | some p =>
    obtain ⟨scheme,rest⟩ := p
    cases scheme with
    | socks5 => exact iff_of_true (returns_parseSocks5Import rest node) (forall_mem_nil _)
    | shadowsocks => exact iff_of_true (returns_parseSsImport env rest node) (forall_mem_nil _)
    | trojan => exact returns_parseTrojanImport_iff rest node
    | tuic => exact returns_parseUuidImport_iff "tuic" tuicQuery rest node
    | juicity => exact returns_parseUuidImport_iff "juicity" juicityQuery rest node
    | vmess => exact returns_parseVmessImport_iff env rest node

end DaeRs.Config
