import DaeRs.Lib.Octets

/-! Address fields of proxy protocols: a byte for the type, the address, which a name precedes by a
byte with its length, and a port before or after them. -/

namespace AddressField

open Octets List

inductive Address where
  | ipv4 (ip : BitVec 32)
  | ipv6 (ip : BitVec 128)
  | name (bytes : List UInt8)
  deriving DecidableEq

/-- The type bytes of a protocol; they differ. -/
structure Layout where
  ipv4 : UInt8
  ipv6 : UInt8
  name : UInt8
  ipv6_ne_ipv4 : ipv6≠ipv4
  name_ne_ipv4 : name≠ipv4
  name_ne_ipv6 : name≠ipv6

def Address.Fits : Address → Prop
  | .ipv4 _ => True
  | .ipv6 _ => True
  | .name bytes => bytes.length≤255

def takeExact (k : Nat) (bs : List UInt8) : Option (List UInt8×List UInt8) :=
  if k≤bs.length then some (bs.take k,bs.drop k) else none

theorem takeExact_append (as bs : List UInt8) : takeExact as.length (as++bs)=some (as,bs) := by
  rw [takeExact,if_pos (by simp),take_left,drop_left]

namespace Layout

variable (l : Layout)

def encode : Address → List UInt8
  | .ipv4 ip => l.ipv4::toBE 4 ip.toNat
  | .ipv6 ip => l.ipv6::toBE 16 ip.toNat
  | .name bytes => l.name::UInt8.ofNat bytes.length::bytes

def decodeName : List UInt8 → Option (Address×List UInt8)
  | [] => none
  | len::bs => (takeExact len.toNat bs).map fun p => (.name p.1,p.2)

def decode : List UInt8 → Option (Address×List UInt8)
  | [] => none
  | code::bs =>
    if code=l.ipv4 then
      (takeExact 4 bs).map fun p => (.ipv4 (BitVec.ofNat 32 (ofBE p.1)),p.2)
    else if code=l.ipv6 then
      (takeExact 16 bs).map fun p => (.ipv6 (BitVec.ofNat 128 (ofBE p.1)),p.2)
    else if code=l.name then decodeName bs
    else none

def readPortLast (bs : List UInt8) : Option ((Address×Nat)×List UInt8) := do
  let (address,bs) ← l.decode bs
  let (port,bs) ← takeExact 2 bs
  return ((address,ofBE port),bs)

def readPortFirst (bs : List UInt8) : Option ((Address×Nat)×List UInt8) := do
  let (port,bs) ← takeExact 2 bs
  let (address,bs) ← l.decode bs
  return ((address,ofBE port),bs)

variable {l} {address : Address}

theorem decode_encode (h : address.Fits) (rest : List UInt8) :
    l.decode (l.encode address++rest)=some (address,rest) := by
  cases address with
  | ipv4 ip =>
    have htake : takeExact 4 (toBE 4 ip.toNat++rest)=some (toBE 4 ip.toNat,rest) := by
      simpa using takeExact_append (toBE 4 ip.toNat) rest
    simp only [encode,decode,cons_append,if_true,htake,Option.map_some]
    rw [ofBE_toBE_bits (by decide)]
  | ipv6 ip =>
    have htake : takeExact 16 (toBE 16 ip.toNat++rest)=some (toBE 16 ip.toNat,rest) := by
      simpa using takeExact_append (toBE 16 ip.toNat) rest
    simp only [encode,decode,cons_append,if_neg l.ipv6_ne_ipv4,if_true,htake,Option.map_some]
    rw [ofBE_toBE_bits (by decide)]
  | name bytes =>
    have hlength : (UInt8.ofNat bytes.length).toNat=bytes.length := by
      have hfits : bytes.length≤255 := h
      rw [UInt8.toNat_ofNat',Nat.mod_eq_of_lt (by omega)]
    simp only [encode,decode,cons_append,if_neg l.name_ne_ipv4,if_neg l.name_ne_ipv6,
      if_true,decodeName,hlength,takeExact_append,Option.map_some]

end Layout

end AddressField
