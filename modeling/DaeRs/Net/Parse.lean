import DaeRs.Net.Addr
import DaeRs.Lib.RustStr

/-! The standard library's parsers for IP addresses. -/

namespace DaeRs.Net

open RustStr

def readNumber (radix maxDigits bound : Nat) (allowZeroPrefix : Bool) (l : List Char) :
    Option (Nat×List Char) :=
  let ds := l.takeWhile fun c => (toDigit radix c).isSome
  if ds.length=0 ∨ ds.length > maxDigits then none
  else if !allowZeroPrefix && l.head? == some '0' && decide (ds.length > 1) then none
  else
    let n := ds.foldl (fun acc c => acc*radix+(toDigit radix c).getD 0) 0
    if n≤bound then some (n,l.drop ds.length) else none

/-- `Parser::read_separator`: the separator stands before every group but the first. -/
def readSeparator {α : Type} (sep : Char) (index : Nat)
    (inner : List Char → Option (α×List Char)) (l : List Char) : Option (α×List Char) :=
  if index > 0 then
    match l with
    | c::cs => if c=sep then inner cs else none
    | [] => none
  else inner l

def readOctets : Nat → Nat → List Char → Option (List Nat×List Char)
  | 0,_,l => some ([],l)
  | k+1,i,l => do
    let (octet,l) ← readSeparator '.' i (readNumber 10 3 255 false) l
    let (rest,l) ← readOctets k (i+1) l
    pure (octet::rest,l)

def readIpv4Addr (l : List Char) : Option (Nat×List Char) := do
  let (octets,l) ← readOctets 4 0 l
  pure (octets.foldl (fun acc o => acc*256+o) 0,l)

/-- `read_groups`: up to `limit` groups, the last two of which may be an IPv4 address. -/
def readGroups (limit : Nat) : Nat → Nat → List Char → List Nat×Bool×List Char
  | 0,_,l => ([],false,l)
  | k+1,i,l =>
    let ipv4 := if i+1<limit then readSeparator ':' i readIpv4Addr l else none
    match ipv4 with
    | some (a,rest) => ([a/65536,a%65536],true,rest)
    | none =>
      match readSeparator ':' i (readNumber 16 4 0xffff true) l with
      | some (g,rest) =>
        let (gs,isV4,rest) := readGroups limit k (i+1) rest
        (g::gs,isV4,rest)
      | none => ([],false,l)

def ofGroups (gs : List Nat) : Nat := gs.foldl (fun acc g => acc*65536+g) 0

def readIpv6Addr (l : List Char) : Option (Nat×List Char) :=
  let (head,headIpv4,l) := readGroups 8 8 0 l
  if head.length=8 then some (ofGroups head,l)
  else if headIpv4 then none
  else
    match l with
    | ':' :: ':' :: l =>
      let limit := 8-(head.length+1)
      let (tail,_,l) := readGroups limit limit 0 l
      let zeros := List.replicate (8-head.length-tail.length) 0
      some (ofGroups (head++zeros++tail),l)
    | _ => none

variable (s : String)

def parseIpv4Addr : Option Ipv4Addr :=
  if s.toList.length > 15 then none
  else
    match readIpv4Addr s.toList with
    | some (a,[]) => some (BitVec.ofNat 32 a)
    | _ => none

def parseIpv6Addr : Option Ipv6Addr :=
  match readIpv6Addr s.toList with
  | some (a,[]) => some (BitVec.ofNat 128 a)
  | _ => none

def isIpAddr : Bool := (parseIpv4Addr s).isSome || (parseIpv6Addr s).isSome

def readPort : List Char → Option (Nat×List Char)
  | ':' :: l => readNumber 10 l.length 0xffff true l
  | _ => none

/-- `read_scope_id`, which may be absent. -/
def skipScopeId : List Char → List Char
  | '%' :: l => ((readNumber 10 l.length 0xffffffff true l).map Prod.snd).getD ('%' :: l)
  | l => l

def parseSocketAddr : Option (IpAddr×Nat) :=
  let v4 := do
    let (a,l) ← readIpv4Addr s.toList
    let (port,l) ← readPort l
    pure ((IpAddr.v4 (BitVec.ofNat 32 a),port),l)
  let v6 := match s.toList with
    | '[' :: l => do
      let (a,l) ← readIpv6Addr l
      match skipScopeId l with
      | ']' :: l =>
        let (port,l) ← readPort l
        pure ((IpAddr.v6 (BitVec.ofNat 128 a),port),l)
      | _ => none
    | _ => none
  match v4.or v6 with
  | some (addr,[]) => some addr
  | _ => none

def isSocketAddr : Bool := (parseSocketAddr s).isSome

example : isSocketAddr "169.254.0.1:53" = true ∧ isSocketAddr "[::1]:8080" = true ∧
    isSocketAddr "169.254.0.1" = false := by decide

example : parseIpv4Addr "10.0.0.255" = some 0x0a0000ff := by decide

example : parseIpv6Addr "2001:db8::ffff:1.2.3.4" =
    some 0x20010db8000000000000ffff01020304 := by decide

end DaeRs.Net
