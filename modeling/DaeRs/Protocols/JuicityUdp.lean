import DaeRs.Lib.ExactReads
import DaeRs.Protocols.UdpCodecs

/-! A Juicity UDP session: datagrams one after the other on a stream. -/

namespace DaeRs.Juicity

open AddressField ExactReads Net Octets UdpCodecs
open Vmess (SocketAddr)

def networkUdp : UInt8 := 3

inductive RecvError where
  | finishedEarly
  | other (text : String)
  deriving DecidableEq

/-- The length of the payload is written as `u16`. -/
def encodePacketHeader (network : UInt8) (dest : SocketAddr) (payloadLen : Nat) : List UInt8 :=
  [network]++(encodeSocketAddr layout dest++toBE 2 payloadLen)

def datagram (p : SocketAddr×List UInt8) : List UInt8 :=
  encodePacketHeader networkUdp p.1 p.2.length++p.2

def readExactly (n : Nat) : Reader RecvError (List UInt8) := readExact .finishedEarly n

def readIp (ip : Nat → IpAddr) (k : Nat) : Reader RecvError SocketAddr := do
  let buf ← readExactly (k+2)
  return (ip (ofBE (buf.take k)),portOf (buf.drop k))

/-- A domain name is skipped. -/
def readAddr : Reader RecvError SocketAddr := do
  let typ ← readExactly 1
  if typ=[layout.ipv4] then readIp ipv4Of 4
  else if typ=[layout.ipv6] then readIp ipv6Of 16
  else if typ=[layout.name] then do
    let lenb ← readExactly 1
    let _name ← readExactly (ofBE lenb)
    let portb ← readExactly 2
    return (.v4 0,portOf portb)
  else throw (.other s!"juicity udp: unknown address type {ofBE typ}")

def recv : Reader RecvError (SocketAddr×List UInt8) := do
  let network ← readExactly 1
  if network≠[networkUdp] then
    throw (.other s!"juicity udp: unexpected network type {ofBE network}")
  else do
    let dest ← readAddr
    let lenb ← readExactly 2
    let payload ← readExactly (ofBE lenb)
    return (dest,payload)

theorem reads_readExactly {n : Nat} {bs : List UInt8} (h : bs.length=n) :
    Reads (readExactly n) bs bs := by
  subst h
  exact reads_readExact _ bs

theorem reads_readIp (ip : Nat → IpAddr) (k bits : Nat) (port : UInt16) :
    Reads (readIp ip k) (toBE k bits++toBE 2 port.toNat) (ip (ofBE (toBE k bits)),port) := by
  have hbuf : (toBE k bits++toBE 2 port.toNat).length=k+2 := by simp
  have h := (reads_readExactly hbuf).last fun buf => (ip (ofBE (buf.take k)),portOf (buf.drop k))
  rw [List.take_left' (by simp),List.drop_left' (by simp),portOf,ofBE_toBE_port] at h
  exact h

theorem reads_readAddr (dest : SocketAddr) :
    Reads readAddr (encodeSocketAddr layout dest) dest := by
  obtain ⟨ip | ip,port⟩ := dest
  · have h := reads_readIp ipv4Of 4 ip.toNat port
    rw [ipv4Of,ofBE_toBE_bits (by decide)] at h
    show Reads _ ([layout.ipv4]++_) _
    refine Reads.bind (reads_readExactly rfl) ?_
    rwa [if_pos rfl]
  · have h := reads_readIp ipv6Of 16 ip.toNat port
    rw [ipv6Of,ofBE_toBE_bits (by decide)] at h
    show Reads _ ([layout.ipv6]++_) _
    refine Reads.bind (reads_readExactly rfl) ?_
    rwa [if_neg (by decide),if_pos rfl]

theorem reads_recv (dest : SocketAddr) {payload : List UInt8} (hlen : payload.length≤65535) :
    Reads recv (datagram (dest,payload)) (dest,payload) := by
  have hpayload : payload.length=ofBE (toBE 2 payload.length) := by
    rw [ofBE_toBE,Nat.mod_eq_of_lt (by omega)]
  have hbytes : datagram (dest,payload)=[networkUdp] ++
      (encodeSocketAddr layout dest++(toBE 2 payload.length++payload)) := by
    simp [datagram,encodePacketHeader]
  rw [hbytes]
  refine Reads.bind (reads_readExactly rfl) ?_
  rw [if_neg (not_not_intro rfl)]
  refine (reads_readAddr dest).bind (Reads.bind (reads_readExactly (toBE_length 2 _)) ?_)
  exact (reads_readExactly hpayload).last _

/-- Datagrams sent on a stream are received as they were sent, however the stream is cut. -/
theorem datagrams_received {pairs : List (SocketAddr×List UInt8)}
    (hlen : ∀ p∈pairs,p.2.length≤65535) {segs : List (List UInt8)}
    (hsegs : segs.flatten=pairs.flatMap datagram) :
    ∃ segs',times recv pairs.length segs=.ok (pairs,segs') ∧ segs'.flatten=[] :=
  reads_times (fun p hp => reads_recv p.1 (hlen p hp)) segs [] (by simpa using hsegs)

theorem datagrams_received_cut : ∃ segs',times recv 3 [[3,1,8,8],[8,8,0,53,0,2,7],[9,3,4,0],
      [0,0,0,0,0,0,0,0,0,0,0,0,0,0,1,1,187],[0,0,3],[1,9,9,9,9,0,53,0,1,5]] =
      .ok ([((.v4 0x08080808,53),[7,9]),((.v6 1,443),[]),((.v4 0x09090909,53),[5])],segs') ∧
    segs'.flatten=[] :=
  @datagrams_received [((.v4 0x08080808,53),[7,9]),((.v6 1,443),[]),((.v4 0x09090909,53),[5])]
    (by decide) _ (by decide)

end DaeRs.Juicity
