import DaeRs.Lib.Octets
import DaeRs.Control.Handoff

/-! Packets as the programs of `tproxy.c` see them: the socket buffer with its two ways of access,
the headers, and the tuples made of them. -/

namespace DaeRs.Datapath

open Octets Bpf Net Control

def ethHlen : Nat := 14
def ethPIp : UInt16 := 0x0800
def ethPIpv6 : UInt16 := 0x86DD

def ipprotoHopopts : UInt8 := 0
def ipprotoTcp : UInt8 := 6
def ipprotoUdp : UInt8 := 17
def ipprotoRouting : UInt8 := 43
def ipprotoFragment : UInt8 := 44
def ipprotoIcmpv6 : UInt8 := 58
def ipprotoNone : UInt8 := 59
def ipprotoDstopts : UInt8 := 60

def htons (x : UInt16) : UInt16 := ntohs x

/-- A `__sk_buff`; the protocol is in network order. `pull n` is how far direct access reaches
after `bpf_skb_pull_data(skb, n)`, unless that fails. -/
structure Skb where
  data : List UInt8
  protocol : UInt16
  ifindex : UInt32
  pull : Nat → Option Nat
  pull_le : ∀ n k,pull n=some k → n≤k ∧ k≤data.length

namespace Skb

def loadBytes (skb : Skb) (off len : Nat) : Option (List UInt8) := load skb.data off len

def direct (skb : Skb) (k off len : Nat) : Option (List UInt8) := load (skb.data.take k) off len

theorem loadBytes_of_direct {skb : Skb} {k off len : Nat} {b : List UInt8}
    (h : skb.direct k off len=some b) : skb.loadBytes off len=some b :=
  load_of_take h

def linear (data : List UInt8) (protocol : UInt16) (ifindex : UInt32) : Skb where
  data
  protocol
  ifindex
  pull n := if n≤data.length then some data.length else none
  pull_le n k h := by
    split_ifs at h with hle
    cases h
    exact ⟨hle,Nat.le_refl _⟩

end Skb

variable (b : List UInt8) (i : Nat)

def octet : UInt8 := b.getD i 0

def be16 : UInt16 := UInt16.ofNat (ofLE (slice b i 2))

def be32 : UInt32 := UInt32.ofNat (ofLE (slice b i 4))

def addr4 : Ipv4Addr := BitVec.ofNat 32 (ofBE (slice b i 4))

def addr16 : Bytes16 := BitVec.ofNat 128 (ofBE (slice b i 16))

abbrev Mac := BitVec 48

def mac6 : Mac := BitVec.ofNat 48 (ofBE (slice b i 6))

structure Ethhdr where
  hDest : Mac
  hSource : Mac
  hProto : UInt16
  deriving DecidableEq

def Ethhdr.ofBytes : Ethhdr := ⟨mac6 b 0,mac6 b 6,be16 b 12⟩

structure Iphdr where
  version : UInt8
  ihl : UInt8
  tos : UInt8
  fragOff : UInt16
  protocol : UInt8
  saddr : Ipv4Addr
  daddr : Ipv4Addr
  deriving DecidableEq

def Iphdr.ofBytes : Iphdr where
  version := octet b 0 >>> 4
  ihl := octet b 0 &&& 0xf
  tos := octet b 1
  fragOff := be16 b 6
  protocol := octet b 9
  saddr := addr4 b 12
  daddr := addr4 b 16

/-- `versionAndTc` is the first two bytes, which hold the version and the traffic class. -/
structure Ipv6hdr where
  versionAndTc : UInt8×UInt8
  payloadLen : UInt16
  nexthdr : UInt8
  saddr : Bytes16
  daddr : Bytes16
  deriving DecidableEq

def Ipv6hdr.ofBytes : Ipv6hdr where
  versionAndTc := (octet b 0,octet b 1)
  payloadLen := be16 b 4
  nexthdr := octet b 6
  saddr := addr16 b 8
  daddr := addr16 b 24

structure FragHdr where
  nexthdr : UInt8
  fragOff : UInt16

def FragHdr.ofBytes : FragHdr := ⟨octet b 0,be16 b 2⟩

structure Tcphdr where
  source : UInt16
  dest : UInt16
  seq : UInt32
  ackSeq : UInt32
  doff : UInt8
  fin : Bool
  syn : Bool
  rst : Bool
  psh : Bool
  ack : Bool
  urg : Bool
  window : UInt16
  deriving DecidableEq

def Tcphdr.ofBytes : Tcphdr where
  source := be16 b 0
  dest := be16 b 2
  seq := be32 b 4
  ackSeq := be32 b 8
  doff := octet b 12 >>> 4
  fin := (octet b 13).toNat.testBit 0
  syn := (octet b 13).toNat.testBit 1
  rst := (octet b 13).toNat.testBit 2
  psh := (octet b 13).toNat.testBit 3
  ack := (octet b 13).toNat.testBit 4
  urg := (octet b 13).toNat.testBit 5
  window := be16 b 14

structure Udphdr where
  source : UInt16
  dest : UInt16
  len : UInt16
  check : UInt16
  deriving DecidableEq

def Udphdr.ofBytes : Udphdr := ⟨be16 b 0,be16 b 2,be16 b 4,be16 b 6⟩

structure Icmp6hdr where
  icmp6Type : UInt8
  icmp6Code : UInt8
  deriving DecidableEq

def Icmp6hdr.ofBytes : Icmp6hdr := ⟨octet b 0,octet b 1⟩

structure Tuples where
  five : TuplesKey
  dscp : UInt8
  deriving DecidableEq

def ipv4GetDscp (iph : Iphdr) : UInt8 := (iph.tos &&& 0xfc) >>> 2

def ipv6GetDscp (ipv6h : Ipv6hdr) : UInt8 :=
  (ipv6h.versionAndTc.1 &&& 0x0f) <<< 2 ||| ipv6h.versionAndTc.2 >>> 6

def getTuples (iph : Iphdr) (ipv6h : Ipv6hdr) (tcph : Tcphdr) (udph : Udphdr) (l4proto : UInt8) :
    Tuples where
  five := {
    sip := if iph.version=4 then (IpAddr.v4 iph.saddr).mapped else ipv6h.saddr
    dip := if iph.version=4 then (IpAddr.v4 iph.daddr).mapped else ipv6h.daddr
    sport := if l4proto=ipprotoTcp then tcph.source else udph.source
    dport := if l4proto=ipprotoTcp then tcph.dest else udph.dest
    l4proto }
  dscp := if iph.version=4 then ipv4GetDscp iph else ipv6GetDscp ipv6h

/-- An Ethernet header is taken to be present when the ethertype it would have is the packet's
protocol, and an IP one. -/
def looksLikeEthernet (hProto protocol : UInt16) : Bool :=
  (decide (hProto=htons ethPIp) || decide (hProto=htons ethPIpv6)) && decide (hProto=protocol)

def detectLinkHLen (skb : Skb) : Nat :=
  match skb.pull (ethHlen+2) with
  | none => 0
  | some k =>
    match skb.direct k 0 (ethHlen+2) with
    | none => 0
    | some b => if looksLikeEthernet (be16 b 12) skb.protocol then ethHlen else 0

end DaeRs.Datapath
