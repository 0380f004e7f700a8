import DaeRs.Lib.Fallible
import DaeRs.Lib.RustStr
import DaeRs.Config

/-! The routing configuration, parsed into rules of AND-ed functions. -/

namespace DaeRs.Routing

open RustStr Config

/-- An `anyhow` error: its message, below the contexts added to it. -/
abbrev Error := List String

def fail {α : Type} (msg : String) : Except Error α := .error [msg]

def withContext {α : Type} (msg : String) : Except Error α → Except Error α
  | .ok a => .ok a
  | .error e => .error (msg::e)

theorem withContext_ok {α : Type} {msg : String} {x : Except Error α} {a : α} :
    withContext msg x=.ok a ↔ x=.ok a := by
  cases x <;> simp [withContext]

def parseUint (radix max : Nat) (s : String) : Except Error Nat :=
  match fromStrRadix radix max s with
  | .ok n => .ok n
  | .error e => .error [e.text]

/-- A parsed routing function such as `!dport(80,443)`. -/
structure Function where
  name : String
  not : Bool
  rawParams : List String
  deriving DecidableEq

structure Outbound where
  name : String
  mark : UInt32
  must : Bool
  deriving DecidableEq

structure NormalizedRule where
  andFunctions : List Function
  outbound : Outbound
  deriving DecidableEq

structure NormalizedProgram where
  rules : List NormalizedRule
  fallback : Outbound
  deriving DecidableEq

def pushTrimmed (current : List Char) (parts : List String) : List String :=
  let trimmed := trim (String.ofList current.reverse)
  if trimmed = "" then parts else trimmed::parts

def commaLoop : List Char → List Char → Nat → List String
  | [],current,_ => pushTrimmed current []
  | ch::rest,current,depth =>
    if ch = '(' then commaLoop rest (ch::current) (depth+1)
    else if ch = ')' then commaLoop rest (ch::current) (depth-1)
    else if ch = ',' ∧ depth=0 then pushTrimmed current (commaLoop rest [] depth)
    else commaLoop rest (ch::current) depth

def parseCommaSeparated (input : String) : List String := commaLoop input.toList [] 0

def andLoop : List Char → List Char → Nat → List String
  | [],current,_ => pushTrimmed current []
  | ch::rest,current,depth =>
    if ch = '(' then andLoop rest (ch::current) (depth+1)
    else if ch = ')' then andLoop rest (ch::current) (depth-1)
    else if ch = '&' ∧ depth=0 then
      match current with
      | '&' :: before => pushTrimmed before (andLoop rest [] depth)
      | _ => andLoop rest (ch::current) depth
    else andLoop rest (ch::current) depth

def splitAndRespectingParens (input : String) : List String := andLoop input.toList [] 0

def Function.fromStr (str : String) : Except Error Function :=
  let s := trim str
  if s = "" then fail "empty function"
  else
    let (not,rest) := match stripStart s "!" with
      | some stripped => (true,trim stripped)
      | none => (false,s)
    match splitOnce rest '(' with
    | none => fail s!"expected '(' in function: {rest}"
    | some (name,after) =>
      match stripEnd after ")" with
      | none => fail s!"expected ')' to close function: {rest}"
      | some inner => .ok ⟨trim name,not,(parseCommaSeparated inner).map trim⟩

def parseMarkValue (str : String) : Except Error UInt32 :=
  let s := trim str
  let parsed := match (stripStart s "0x").or (stripStart s "0X") with
    | some hex => parseUint 16 0xffffffff hex
    | none => parseUint 10 0xffffffff s
  withContext s!"cannot parse mark value: {s}" (UInt32.ofNat <$> parsed)

namespace Outbound

def new (name : String) : Outbound := ⟨name,0,false⟩

def proxyParams : List String → Outbound → Except Error Outbound
  | [],ob =>
    if ob.name = "" then fail "missing group name in proxy outbound" else .ok ob
  | p::parts,ob =>
    let part := trim p
    if part = "must" then proxyParams parts { ob with must := true }
    else
      match stripStart part "mark=" with
      | some val => do
        let mark ← withContext "invalid mark value in outbound" (parseMarkValue val)
        proxyParams parts { ob with mark := mark }
      | none =>
        if ob.name = "" then proxyParams parts { ob with name := part }
        else fail s!"unexpected parameter in outbound: {part}"

def parseProxyParams (inner : String) : Except Error Outbound :=
  match parseCommaSeparated inner with
  | [] => fail "empty proxy outbound"
  | parts => proxyParams parts ⟨"",0,false⟩

def parseAction (str : String) : Except Error Outbound :=
  let action := trim str
  if action = "direct" ∨ action = "block" then .ok (new action)
  else
    match (stripStart action "proxy(").bind (stripEnd · ")") with
    | some inner => parseProxyParams inner
    | none => .ok (new action)

end Outbound

namespace NormalizedProgram

def parseFunctions (matchExpr : String) : List String → Except Error (List Function)
  | [] => .ok []
  | part::parts =>
    let str := trim part
    if str = "" then parseFunctions matchExpr parts
    else do
      let f ← withContext s!"failed to parse function in rule '{matchExpr}': {str}"
        (Function.fromStr str)
      let fs ← parseFunctions matchExpr parts
      pure (f::fs)

def parseRule (rule : RouteRule) : Except Error NormalizedRule :=
  let expr := trim rule.matchExpr
  if expr = "" ∨ expr = "fallback" then do
    let outbound ← Outbound.parseAction rule.action
    pure ⟨[],outbound⟩
  else do
    let outbound ← Outbound.parseAction rule.action
    let fs ← parseFunctions rule.matchExpr (splitAndRespectingParens expr)
    pure ⟨fs,outbound⟩

def parseRules : List RouteRule → Except Error (List NormalizedRule)
  | [] => .ok []
  | rule::rules => do
    let r ← parseRule rule
    let rs ← parseRules rules
    pure (r::rs)

def fromConfig (routing : RoutingConfig) : Except Error NormalizedProgram := do
  let rules ← parseRules routing.rules
  let fallback ← withContext s!"invalid fallback: {routing.fallback}"
    (Outbound.parseAction routing.fallback)
  pure ⟨rules,fallback⟩

end NormalizedProgram

example : NormalizedProgram.fromConfig
    ⟨[⟨"!dport(80, 443) && domain(suffix:a.com)", "proxy(g, mark=0x10, must)"⟩], "direct"⟩ =
    .ok ⟨[⟨[⟨"dport",true,["80", "443"]⟩,⟨"domain",false,["suffix:a.com"]⟩],
      ⟨"g",16,true⟩⟩],⟨"direct",0,false⟩⟩ := by decide

end DaeRs.Routing
