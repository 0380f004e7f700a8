import DaeRs.Lib.AddressField
import DaeRs.Lib.RustSplit
import DaeRs.Protocols.Trojan

/-! The address field of the requests that the VMess, Trojan, TUIC and Juicity dialers send, and
whether a server reads from it what the dialer was asked for. -/

namespace DaeRs

open AddressField Net Octets RustStr List

def uuidBytes : Nat → List Char → Option (List UInt8)
  | 0,_ => some []
  | n+1,l => do
    let (pair,rest) ← sliceAt l 2
    let byte ← (fromStrRadix 16 255 (String.ofList pair)).toOption
    let bytes ← uuidBytes n rest
    return UInt8.ofNat byte::bytes

/-- `parse_uuid`, as each of the protocols has it; `none` also where a slice would panic. -/
def parseUuid (uuid : String) : Option (List UInt8) :=
  let hex := uuid.toList.filter (· ≠ '-')
  if (String.ofList hex).utf8ByteSize=32 then uuidBytes 16 hex else none

namespace Addressing

/-- `split_target`, as each of the protocols has it; brackets around an IPv6 host are dropped. -/
def splitTarget {ε : Type} (protocolError : String → ε) (target : String) :
    Except ε (String×Nat) :=
  match rsplitOnce target ':' with
  | none => .error (protocolError s!"invalid target '{target}'")
  | some (host,port) =>
    match fromStrRadix 10 65535 port with
    | .error _ => .error (protocolError s!"invalid target port '{target}'")
    | .ok port =>
      match host.toList with
      | '[' :: rest =>
        if rest.getLast?=some ']' then .ok (String.ofList rest.dropLast,port) else .ok (host,port)
      | _ => .ok (host,port)

def addressOf (host : String) : Address :=
  match parseIpv4Addr host,parseIpv6Addr host with
  | some ip,_ => .ipv4 ip
  | none,some ip => .ipv6 ip
  | none,none => .name (utf8 host)

/-- A request with the bytes before and after its address field. -/
structure Request where
  before : List UInt8
  field : List UInt8
  after : List UInt8

def Request.bytes (r : Request) : List UInt8 := r.before++r.field++r.after

end Addressing

open Addressing

namespace Vmess

inductive VMessError where
  | protocolError (message : String)

theorem three_ne_one : (3 : UInt8)≠1 := by decide
theorem two_ne_one : (2 : UInt8)≠1 := by decide
theorem two_ne_three : (2 : UInt8)≠3 := by decide

/-- ATYP: 1=IPv4, 2=Domain name, 3=IPv6. -/
def layout : Layout := ⟨0x01,0x03,0x02,three_ne_one,two_ne_one,two_ne_three⟩

def encodeAddressPort (target : String) : Except VMessError (List UInt8×Nat) := do
  let (host,port) ← splitTarget .protocolError target
  return (layout.encode (addressOf host),port)

def fnv1a32 (data : List UInt8) : UInt32 :=
  data.foldl (fun hash b => (hash ^^^ b.toUInt32)*0x01000193) 0x811c9dc5

/-- What `build_request_header` draws at random, with fewer than 16 bytes of padding, or is given. -/
structure Header where
  requestBodyIv : List UInt8
  requestBodyKey : List UInt8
  responseHeaderByte : UInt8
  security : UInt8
  command : UInt8
  padding : List UInt8

def optChunkStream : UInt8 := 0x01
def optChunkMasking : UInt8 := 0x04

/-- The length of the padding is packed into the high bits. -/
def Header.securityByte (h : Header) : UInt8 := UInt8.ofNat h.padding.length <<< 4 ||| h.security

/-- `cmd_key` up to the hash. -/
def cmdKey (uuid : String) : Except VMessError (List UInt8) :=
  match parseUuid uuid with
  | none => .error (.protocolError s!"invalid uuid: '{uuid}'")
  | some bytes => .ok bytes

/-- The header that `build_request_header` seals: the port comes first. -/
def buildRequestHeader (uuid : String) (h : Header) (target : String) :
    Except VMessError Request := do
  let _ ← cmdKey uuid
  let (addr,port) ← encodeAddressPort target
  let before := [1]++h.requestBodyIv++h.requestBodyKey ++
    [h.responseHeaderByte,optChunkStream ||| optChunkMasking,h.securityByte,0,h.command]
  let field := toBE 2 port++addr
  return ⟨before,field,h.padding++toBE 4 (fnv1a32 (before++field++h.padding)).toNat⟩

end Vmess

namespace Trojan

theorem four_ne_one : (4 : UInt8)≠1 := by decide
theorem three_ne_one : (3 : UInt8)≠1 := by decide
theorem three_ne_four : (3 : UInt8)≠4 := by decide

def layout : Layout := ⟨0x01,0x04,0x03,four_ne_one,three_ne_one,three_ne_four⟩

def request (authHash : String) (target : String) : Except TrojanError Request := do
  let (host,port) ← Trojan.splitTarget target
  return ⟨crlf++utf8 authHash++crlf++[0x01]++crlf,encodeAddr host port,crlf⟩

end Trojan

namespace Tuic

inductive TuicError where
  | protocolError (message : String)

theorem two_ne_one : (2 : UInt8)≠1 := by decide
theorem zero_ne_one : (0 : UInt8)≠1 := by decide
theorem zero_ne_two : (0 : UInt8)≠2 := by decide

def layout : Layout := ⟨0x01,0x02,0x00,two_ne_one,zero_ne_one,zero_ne_two⟩

def encodeTuicAddress (target : String) : Except TuicError (List UInt8) := do
  let (host,port) ← splitTarget .protocolError target
  return layout.encode (addressOf host)++toBE 2 port

def request (target : String) : Except TuicError Request := do
  let addr ← encodeTuicAddress target
  return ⟨[0x05,0x01],addr,[]⟩

end Tuic

namespace Juicity

inductive JuicityError where
  | protocolError (message : String)

def networkTcp : UInt8 := 1

def layout : Layout := ⟨1,4,3,Trojan.four_ne_one,Trojan.three_ne_one,Trojan.three_ne_four⟩

def encodeHeader (network : UInt8) (host : String) (port : Nat) : Request :=
  ⟨[network],layout.encode (addressOf host)++toBE 2 port,[]⟩

def encodeProxyHeader (target : String) : Except JuicityError Request := do
  let (host,port) ← splitTarget .protocolError target
  return encodeHeader networkTcp host port

end Juicity

namespace Addressing

/-- The dialers, each with what else its request depends on. -/
inductive Dialer where
  | vmess (uuid : String) (header : Vmess.Header)
  | trojan (authHash : String)
  | tuic
  | juicity

def Dialer.request (target : String) : Dialer → Option Request
  | .vmess uuid header => (Vmess.buildRequestHeader uuid header target).toOption
  | .trojan authHash => (Trojan.request authHash target).toOption
  | .tuic => (Tuic.request target).toOption
  | .juicity => (Juicity.encodeProxyHeader target).toOption

def Dialer.read : Dialer → List UInt8 → Option ((Address×Nat)×List UInt8)
  | .vmess _ _ => Vmess.layout.readPortFirst
  | .trojan _ => Trojan.layout.readPortLast
  | .tuic => Tuic.layout.readPortLast
  | .juicity => Juicity.layout.readPortLast

def Bracketed (s : String) : Prop := ∃ inner,s.toList = '[' :: (inner++[']'])

/-- The host of a target: a name of any length, which is neither an address nor in brackets, or the
text of an address, which for IPv6 is in brackets. -/
inductive Host where
  | name (s : String) (notIpv4 : parseIpv4Addr s=none) (notIpv6 : parseIpv6Addr s=none)
      (plain : ¬Bracketed s)
  | ipv4 (s : String) (ip : Ipv4Addr) (parses : parseIpv4Addr s=some ip)
  | ipv6 (s : String) (ip : Ipv6Addr) (parses : parseIpv6Addr s=some ip)

namespace Host

def bare : Host → String
  | .name s _ _ _ => s
  | .ipv4 s _ _ => s
  | .ipv6 s _ _ => s

def text : Host → String
  | .name s _ _ _ => s
  | .ipv4 s _ _ => s
  | .ipv6 s _ _ => String.ofList ('[' :: (s.toList++[']']))

def address : Host → Address
  | .name s _ _ _ => .name (utf8 s)
  | .ipv4 _ ip _ => .ipv4 ip
  | .ipv6 _ ip _ => .ipv6 ip

end Host

/-- A host with a port that parses. -/
structure Target where
  host : Host
  portText : String
  port : Nat
  port_parses : fromStrRadix 10 65535 portText=.ok port

def Target.text (t : Target) : String := t.host.text ++ ":" ++ t.portText

def Dialer.ReadBack (d : Dialer) (t : Target) : Prop := ∀ r,d.request t.text=some r →
    d.read (r.field++r.after)=some ((t.host.address,t.port),r.after)

section Hosts

end Hosts

section Ports

end Ports

theorem readBack_iff {d : Dialer} {t : Target} {r : Request} (h : d.request t.text=some r) :
    d.ReadBack t ↔ d.read (r.field++r.after)=some ((t.host.address,t.port),r.after) := by
  unfold Dialer.ReadBack
  rw [h]
  constructor
  · intro hall
    exact hall r rfl
  · intro hread r' hr'
    cases hr'
    exact hread

def Dialer.field (address : Address) (port : Nat) : Dialer → List UInt8
  | .vmess _ _ => toBE 2 port++Vmess.layout.encode address
  | .trojan _ => Trojan.layout.encode address++toBE 2 port
  | .tuic => Tuic.layout.encode address++toBE 2 port
  | .juicity => Juicity.layout.encode address++toBE 2 port

end Addressing

end DaeRs
