import DaeRs.Lib.Panicking
import DaeRs.Protocols.Addressing
import DaeRs.Protocols.Vmess.Udp

/-! The datagrams of the SOCKS5, Shadowsocks, Trojan and VMess UDP sessions: an address of a socket
and the payload. -/

namespace DaeRs

open AddressField Net Octets Panicking RustStr List

namespace UdpCodecs

open Vmess (SocketAddr)

inductive DecodeError where
  /-- `None` of a parser: the caller waits for the next datagram. -/
  | ignored
  | protocol (text : String)
  | other (text : String)
  | invalidCipher (text : String)
  deriving DecidableEq

abbrev Decoded (α : Type) := Outcome DecodeError α

def ipv4Of (n : Nat) : IpAddr := .v4 (BitVec.ofNat 32 n)
def ipv6Of (n : Nat) : IpAddr := .v6 (BitVec.ofNat 128 n)
def unspecified (_ : Nat) : IpAddr := .v4 0
def portOf (bs : List UInt8) : UInt16 := UInt16.ofNat (ofBE bs)

def encodeSocketAddr (l : Layout) (dest : SocketAddr) : List UInt8 := (match dest.1 with
    | .v4 ip => l.ipv4::toBE 4 ip.toNat
    | .v6 ip => l.ipv6::toBE 16 ip.toNat)++toBE 2 dest.2.toNat

/-- The octets of an address at `off`, with the port behind them, for which `n` bytes are consumed. -/
def addrAt (ip : Nat → IpAddr) (k : Nat) (data : List UInt8) (off n : Nat) :
    Decoded (SocketAddr×Nat) := do
  let octets ← orPanic (load data off k)
  let port ← orPanic (load data (off+k) 2)
  return ((ip (ofBE octets),portOf port),n)

theorem addrAt_append (ip : Nat → IpAddr) (before : List UInt8) (k bits : Nat) (port : UInt16)
    (after : List UInt8) (n : Nat) :
    addrAt ip k (before++(toBE k bits++(toBE 2 port.toNat++after))) before.length n =
      pure ((ip (ofBE (toBE k bits)),port),n) := by
  have hip := load_append before (toBE k bits) (toBE 2 port.toNat++after)
  have hport := load_append (before++toBE k bits) (toBE 2 port.toNat) after
  simp only [append_assoc,length_append,toBE_length] at hip hport
  rw [addrAt,hip,hport,orPanic_bind,orPanic_bind,portOf,ofBE_toBE_port]

theorem addrAt_ipv4 (before : List UInt8) (ip : Ipv4Addr) (port : UInt16) (after : List UInt8)
    (n : Nat) :
    addrAt ipv4Of 4 (before++(toBE 4 ip.toNat++(toBE 2 port.toNat++after))) before.length n =
      pure ((.v4 ip,port),n) := by
  rw [addrAt_append,ipv4Of,ofBE_toBE_bits (by decide)]

theorem addrAt_ipv6 (before : List UInt8) (ip : Ipv6Addr) (port : UInt16) (after : List UInt8)
    (n : Nat) :
    addrAt ipv6Of 16 (before++(toBE 16 ip.toNat++(toBE 2 port.toNat++after))) before.length n =
      pure ((.v6 ip,port),n) := by
  rw [addrAt_append,ipv6Of,ofBE_toBE_bits (by decide)]

variable {data : List UInt8}

theorem addrAt_of_le {k off : Nat} (hle : off+k+2≤data.length) (ip : Nat → IpAddr) (n : Nat) :
    addrAt ip k data off n =
      pure ((ip (ofBE (slice data off k)),portOf (slice data (off+k) 2)),n) := by
  rw [addrAt,load_eq_some_iff.mpr ⟨by omega,rfl⟩,load_eq_some_iff.mpr ⟨hle,rfl⟩]
  rfl

theorem ends_load {off len : Nat} (hle : off+len≤data.length) :
    Ends (fun _ => True) (orPanic (load data off len) : Decoded (List UInt8)) := by
  refine ends_orPanic (fun hnone => ?_) fun _ _ => trivial
  have hlt := load_eq_none_iff.mp hnone
  omega

theorem ends_byte {i : Nat} (hlt : i<data.length) :
    Ends (fun _ => True) (orPanic data[i]? : Decoded UInt8) := by
  refine ends_orPanic (fun hnone => ?_) fun _ _ => trivial
  have hle := List.getElem?_eq_none_iff.mp hnone
  omega

theorem ends_addrAt {ip : Nat → IpAddr} {k off n : Nat}
    (hle : off+k+2≤data.length) (hn : n≤data.length) :
    Ends (fun r => r.2≤data.length) (addrAt ip k data off n) := by
  refine ends_bind (ends_load (by omega)) fun octets _ => ?_
  exact ends_bind (ends_load hle) fun port _ => ends_pure hn

def sized (name : String) (dest : SocketAddr) (consumed : Nat) (buf : List UInt8) :
    Decoded (SocketAddr×List UInt8) :=
  if buf.length < consumed+2 then throw (.other s!"{name} udp: short packet")
  else do
    let pktLen := ofBE (← orPanic (load buf consumed 2))
    if buf.length < consumed+2+pktLen then throw (.other s!"{name} udp: truncated payload")
    else do return (dest,← orPanic (load buf (consumed+2) pktLen))

theorem sized_append (name : String) (dest : SocketAddr) (before : List UInt8)
    {payload : List UInt8}
    (hlen : payload.length<65536) :
    sized name dest before.length (before++(toBE 2 payload.length++payload)) =
      pure (dest,payload) := by
  have hfield := load_append before (toBE 2 payload.length) payload
  have hpayload := load_append (before++toBE 2 payload.length) payload []
  have hpkt : ofBE (toBE 2 payload.length)=payload.length := by
    rw [ofBE_toBE]
    exact Nat.mod_eq_of_lt hlen
  simp only [append_assoc,append_nil,length_append,toBE_length] at hfield hpayload
  have hlength : (before++(toBE 2 payload.length++payload)).length =
      before.length+2+payload.length := by
    simp only [length_append,toBE_length,Nat.add_assoc]
  rw [sized,hlength,if_neg (by omega),hfield,orPanic_bind]
  simp only [hpkt]
  rw [if_neg (Nat.lt_irrefl _),hpayload]
  rfl

end UdpCodecs

open UdpCodecs

/-! Shadowsocks, Trojan and VMess read addresses in the same way, with codes and messages of their
own. -/

structure AddrCodec extends Layout where
  shortIpv4 : String
  shortIpv6 : String
  shortDomain : String

namespace AddrCodec

open Vmess (SocketAddr)

variable (c : AddrCodec)

def encodeAddr (dest : SocketAddr) : List UInt8 := encodeSocketAddr c.toLayout dest

def decodeTyped (typ : UInt8) (data : List UInt8) : Decoded (SocketAddr×Nat) :=
  if typ=c.ipv4 then
    if data.length<7 then throw (.protocol c.shortIpv4)
    else addrAt ipv4Of 4 data 1 7
  else if typ=c.ipv6 then
    if data.length<19 then throw (.protocol c.shortIpv6)
    else addrAt ipv6Of 16 data 1 19
  else if typ=c.name then
    if data.length<2 then throw (.protocol c.shortDomain)
    else do
      let len ← orPanic data[1]?
      if data.length<2+len.toNat+2 then throw (.protocol c.shortDomain)
      else addrAt unspecified 0 data (2+len.toNat) (2+len.toNat+2)
  else throw (.protocol s!"unknown address type: {typ}")

def decodeAddr (data : List UInt8) : Decoded (SocketAddr×Nat) :=
  if data.isEmpty then throw (.protocol "empty address")
  else do c.decodeTyped (← orPanic data[0]?) data

variable {c}

theorem decodeAddr_cons (typ : UInt8) (bs : List UInt8) :
    c.decodeAddr (typ::bs)=c.decodeTyped typ (typ::bs) := rfl

theorem decodeAddr_encodeAddr (dest : SocketAddr) (after : List UInt8) :
    c.decodeAddr (c.encodeAddr dest++after)=pure (dest,(c.encodeAddr dest).length) := by
  obtain ⟨ip,port⟩ := dest
  cases ip with
  | v4 ip =>
    have haddr := addrAt_ipv4 [c.ipv4] ip port after 7
    have hlen : ¬(c.encodeAddr (.v4 ip,port)++after).length<7 := by simp [encodeAddr,encodeSocketAddr]; omega
    simp only [encodeAddr,encodeSocketAddr,cons_append,append_assoc] at hlen ⊢
    rw [decodeAddr_cons,decodeTyped,if_pos rfl,if_neg hlen]
    simpa using haddr
  | v6 ip =>
    have haddr := addrAt_ipv6 [c.ipv6] ip port after 19
    have hlen : ¬(c.encodeAddr (.v6 ip,port)++after).length<19 := by simp [encodeAddr,encodeSocketAddr]; omega
    simp only [encodeAddr,encodeSocketAddr,cons_append,append_assoc] at hlen ⊢
    rw [decodeAddr_cons,decodeTyped,if_neg c.ipv6_ne_ipv4,if_pos rfl,if_neg hlen]
    simpa using haddr

theorem decodeAddr_ends (data : List UInt8) :
    Ends (fun r => r.2≤data.length) (c.decodeAddr data) := by
  refine ends_ite (fun _ => ends_throw _) fun hne => ?_
  have hpos : 0<data.length := length_pos_of_ne_nil (by simpa using hne)
  refine ends_bind (ends_byte hpos) fun typ _ => ?_
  refine ends_ite (fun _ => ?_) fun _ => ends_ite (fun _ => ?_) fun _ => ends_ite (fun _ => ?_)
    fun _ => ends_throw _
  · exact ends_ite (fun _ => ends_throw _) fun h => ends_addrAt (by omega) (by omega)
  · exact ends_ite (fun _ => ends_throw _) fun h => ends_addrAt (by omega) (by omega)
  · refine ends_ite (fun _ => ends_throw _) fun h => ends_bind (ends_byte (by omega)) fun len _ => ?_
    exact ends_ite (fun _ => ends_throw _) fun h => ends_addrAt (by omega) (by omega)

end AddrCodec

namespace Shadowsocks

def udpCodec : AddrCodec :=
  ⟨Trojan.layout, "short ipv4 address", "short ipv6 address", "short domain address"⟩

end Shadowsocks

def Trojan.udpCodec : AddrCodec := ⟨Trojan.layout, "short ipv4", "short ipv6", "short domain"⟩

namespace Vmess

def udpCodec : AddrCodec := ⟨layout, "short ipv4", "short ipv6", "short domain"⟩

theorem value?_decodeAddr (data : List UInt8) :
    value? (udpCodec.decodeAddr data)=(decodePacketAddr data).toOption := by
  unfold decodePacketAddr
  split
  · rfl
  · rw [AddrCodec.decodeAddr_cons,AddrCodec.decodeTyped,if_pos (by rfl)]
    split_ifs with h
    · rfl
    · rw [addrAt_of_le (by omega)]
      rfl
  · rw [AddrCodec.decodeAddr_cons,AddrCodec.decodeTyped,if_neg (by decide),if_pos (by rfl)]
    split_ifs with h
    · rfl
    · rw [addrAt_of_le (by omega)]
      rfl
  · rw [AddrCodec.decodeAddr_cons,AddrCodec.decodeTyped,if_neg (by decide),if_neg (by decide),
      if_pos (by rfl)]
    next rest =>
      cases rest with
      | nil => rfl
      | cons len bs =>
        rw [if_neg (by simp),getElem?_cons_succ,getElem?_cons_zero,orPanic_bind]
        dsimp only
        split_ifs with h
        · rfl
        · rw [addrAt_of_le (by omega)]
          rfl
  · next typ bs h₁ h₃ h₂ =>
    rw [AddrCodec.decodeAddr_cons,AddrCodec.decodeTyped,if_neg (by exact h₁),if_neg (by exact h₃),
      if_neg (by exact h₂)]
    rfl

end Vmess

namespace Socks5

open Vmess (SocketAddr)

def buildUdpRequestHeader (target : SocketAddr) : List UInt8 :=
  [0x00,0x00,0x00]++encodeSocketAddr Trojan.layout target

def parseTyped (atyp : UInt8) (data : List UInt8) : Decoded (SocketAddr×Nat) :=
  if atyp=0x01 then
    if data.length<10 then throw .ignored
    else addrAt ipv4Of 4 data 4 10
  else if atyp=0x04 then
    if data.length<22 then throw .ignored
    else addrAt ipv6Of 16 data 4 22
  else if atyp=0x03 then
    if data.length<5 then throw .ignored
    else do
      let nameLen ← orPanic data[4]?
      if data.length<5+nameLen.toNat+2 then throw .ignored
      else do
        let name ← orPanic (load data 5 nameLen.toNat)
        if (fromUtf8 name).toOption.isNone then throw .ignored
        else addrAt unspecified 0 data (5+nameLen.toNat) (5+nameLen.toNat+2)
  else throw .ignored

def parseUdpResponseHeader (data : List UInt8) : Decoded (SocketAddr×Nat) :=
  if data.length<4 then throw .ignored
  else do
    let frag ← orPanic data[2]?
    if frag≠0 then throw .ignored
    else do parseTyped (← orPanic data[3]?) data

theorem parse_build (target : SocketAddr) (after : List UInt8) :
    parseUdpResponseHeader (buildUdpRequestHeader target++after) =
      pure (target,(buildUdpRequestHeader target).length) := by
  obtain ⟨ip,port⟩ := target
  cases ip with
  | v4 ip =>
    have haddr := addrAt_ipv4 [0x00,0x00,0x00,Trojan.layout.ipv4] ip port after 10
    have hlen : ¬(buildUdpRequestHeader (.v4 ip,port)++after).length<10 := by
      simp [buildUdpRequestHeader,encodeSocketAddr]; omega
    have hparse : parseUdpResponseHeader (buildUdpRequestHeader (.v4 ip,port)++after) =
      parseTyped 0x01 (buildUdpRequestHeader (.v4 ip,port)++after) := if_neg (by omega)
    rw [hparse,parseTyped,if_pos rfl,if_neg hlen]
    simpa [buildUdpRequestHeader,encodeSocketAddr] using haddr
  | v6 ip =>
    have haddr := addrAt_ipv6 [0x00,0x00,0x00,Trojan.layout.ipv6] ip port after 22
    have hlen : ¬(buildUdpRequestHeader (.v6 ip,port)++after).length<22 := by
      simp [buildUdpRequestHeader,encodeSocketAddr]; omega
    have hparse : parseUdpResponseHeader (buildUdpRequestHeader (.v6 ip,port)++after) =
      parseTyped 0x04 (buildUdpRequestHeader (.v6 ip,port)++after) := if_neg (by omega)
    rw [hparse,parseTyped,if_neg (by decide),if_pos rfl,if_neg hlen]
    simpa [buildUdpRequestHeader,encodeSocketAddr] using haddr

theorem parse_ends (data : List UInt8) :
    Ends (fun r => r.2≤data.length) (parseUdpResponseHeader data) := by
  refine ends_ite (fun _ => ends_throw _) fun hlen => ends_bind (ends_byte (by omega)) fun frag _ => ?_
  refine ends_ite (fun _ => ends_throw _) fun _ => ends_bind (ends_byte (by omega)) fun atyp _ => ?_
  refine ends_ite (fun _ => ?_) fun _ => ends_ite (fun _ => ?_) fun _ => ends_ite (fun _ => ?_)
    fun _ => ends_throw _
  · exact ends_ite (fun _ => ends_throw _) fun h => ends_addrAt (by omega) (by omega)
  · exact ends_ite (fun _ => ends_throw _) fun h => ends_addrAt (by omega) (by omega)
  · refine ends_ite (fun _ => ends_throw _) fun h => ends_bind (ends_byte (by omega)) fun len _ => ?_
    refine ends_ite (fun _ => ends_throw _) fun h => ends_bind (ends_load (by omega)) fun name _ => ?_
    exact ends_ite (fun _ => ends_throw _) fun _ => ends_addrAt (by omega) (by omega)

end Socks5

/-- The datagram encodings. -/
inductive UdpProtocol where
  | socks5
  | shadowsocks
  | trojan
  | vmess
  deriving DecidableEq

namespace UdpProtocol

open Vmess (SocketAddr)

def decodeAddr : UdpProtocol → List UInt8 → Decoded (SocketAddr×Nat)
  | .socks5 => Socks5.parseUdpResponseHeader
  | .shadowsocks => Shadowsocks.udpCodec.decodeAddr
  | .trojan => Trojan.udpCodec.decodeAddr
  | .vmess => Vmess.udpCodec.decodeAddr

def encodeAddr : UdpProtocol → SocketAddr → List UInt8
  | .socks5 => Socks5.buildUdpRequestHeader
  | .shadowsocks => Shadowsocks.udpCodec.encodeAddr
  | .trojan => Trojan.udpCodec.encodeAddr
  | .vmess => Vmess.udpCodec.encodeAddr

variable (p : UdpProtocol)

/-- What `send` makes of a payload. Trojan and VMess write its length as `u16` before it. -/
def encode (dest : SocketAddr) (payload : List UInt8) : List UInt8 :=
  p.encodeAddr dest++match p with
    | .socks5 | .shadowsocks => payload
    | .trojan | .vmess => toBE 2 payload.length++payload

def decode (buf : List UInt8) : Decoded (SocketAddr×List UInt8) := do
  let (dest,consumed) ← p.decodeAddr buf
  match p with
  | .socks5 | .shadowsocks => return (dest,← orPanic (load buf consumed (buf.length-consumed)))
  | .trojan => sized "trojan" dest consumed buf
  | .vmess => sized "vmess" dest consumed buf

theorem decodeAddr_encodeAddr (dest : SocketAddr) (after : List UInt8) :
    p.decodeAddr (p.encodeAddr dest++after)=pure (dest,(p.encodeAddr dest).length) := by
  cases p with
  | socks5 => exact Socks5.parse_build dest after
  | shadowsocks | trojan | vmess => exact AddrCodec.decodeAddr_encodeAddr dest after

theorem decodeAddr_ends (data : List UInt8) :
    Ends (fun r => r.2≤data.length) (p.decodeAddr data) := by
  cases p with
  | socks5 => exact Socks5.parse_ends data
  | shadowsocks | trojan | vmess => exact AddrCodec.decodeAddr_ends data

theorem decode_encode (dest : SocketAddr) {payload : List UInt8}
    (hlen : payload.length<65536) : p.decode (p.encode dest payload)=pure (dest,payload) := by
  have hrest := load_append (p.encodeAddr dest) payload []
  rw [append_nil] at hrest
  rw [decode,encode.eq_def,decodeAddr_encodeAddr,pure_bind]
  cases p with
  | socks5 | shadowsocks => simp [hrest]
  | trojan | vmess => exact sized_append _ _ _ hlen

theorem value?_decode (buf : List UInt8) :
    value? (decode .vmess buf)=(Vmess.recvPacket buf).toOption := by
  rw [decode,value?_bind]
  show (value? (Vmess.udpCodec.decodeAddr buf)).bind _=_
  rw [Vmess.value?_decodeAddr,Vmess.recvPacket]
  cases Vmess.decodePacketAddr buf with
  | error e => rfl
  | ok r =>
    show value? (sized "vmess" r.1 r.2 buf)=(ite _ _ _ : Except _ _).toOption
    by_cases hshort : buf.length < r.2+2
    · rw [sized,if_pos hshort,if_pos hshort]
      rfl
    rw [sized,if_neg hshort,if_neg hshort,load_eq_some_iff.mpr ⟨by omega,rfl⟩,orPanic_bind]
    dsimp only
    split_ifs with htrunc
    · rfl
    · rw [load_eq_some_iff.mpr ⟨by omega,rfl⟩]
      rfl

/-- Every datagram that fits is read back as it was sent, and on any bytes the address decoders end,
within the buffer. -/
theorem datagram_read_back (p : UdpProtocol) :
    (∀ (dest : SocketAddr) (payload : List UInt8),(p.encode dest payload).length≤65535 →
      p.decode (p.encode dest payload)=pure (dest,payload)) ∧
    ∀ data : List UInt8,Ends (fun r => r.2≤data.length) (p.decodeAddr data) := by
  refine ⟨fun dest payload h => ?_,p.decodeAddr_ends⟩
  refine p.decode_encode dest ?_
  have hle : payload.length≤(p.encode dest payload).length := by
    cases p <;> simp [encode] <;> omega
  omega

theorem datagram_read_back_trojan : decode .trojan (encode .trojan (.v4 0x08080808,53) [1,2,3]) =
      pure ((.v4 0x08080808,53),[1,2,3]) :=
  (datagram_read_back .trojan).1 _ _ (by decide)

end UdpProtocol

end DaeRs
