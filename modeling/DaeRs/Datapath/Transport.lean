import DaeRs.Datapath.Packet

/-! The two parsers behind `parse_transport`, and what they agree on. -/

namespace DaeRs.Datapath

open Octets Bpf Net Control

structure ParseTransportCtx where
  ethh : Ethhdr
  iph : Iphdr
  ipv6h : Ipv6hdr
  icmp6h : Icmp6hdr
  tcph : Tcphdr
  udph : Udphdr
  ihl : UInt8
  l4proto : UInt8
  listenerL4proto : UInt8
  deriving DecidableEq

def Tcphdr.zero : Tcphdr := ⟨0,0,0,0,0,false,false,false,false,false,false,0⟩

def ParseTransportCtx.zero : ParseTransportCtx where
  ethh := ⟨0,0,0⟩
  iph := ⟨0,0,0,0,0,0,0⟩
  ipv6h := ⟨(0,0),0,0,0,0⟩
  icmp6h := ⟨0,0⟩
  tcph := .zero
  udph := ⟨0,0,0,0⟩
  ihl := 0
  l4proto := 0
  listenerL4proto := 0

abbrev Parsed := Int×ParseTransportCtx

def parseFragment : Int := 2

def slowPath : Int := -1

def headerPullSize : Nat := 128

def ipv6MaxExtensions : Nat := 8

def ipv6Optlen (hdrExtLen : UInt8) : Nat := (hdrExtLen.toNat+1) <<< 3

def isExtensionHeader (nexthdr : UInt8) : Bool :=
  decide (nexthdr=ipprotoHopopts) || decide (nexthdr=ipprotoRouting) ||
    decide (nexthdr=ipprotoFragment) || decide (nexthdr=ipprotoDstopts)

def tcpListenerL4proto (tcph : Tcphdr) : UInt8 :=
  if tcph.syn && !tcph.ack then ipprotoTcp else 0

def Iphdr.isFragment (iph : Iphdr) : Bool := decide (ntohs iph.fragOff &&& 0x1FFF≠0)

def FragHdr.isFragment (fragh : FragHdr) : Bool := decide (ntohs fragh.fragOff &&& 0xFFF8≠0)

namespace Fast

def copyIphdr (p : Iphdr) : Iphdr where
  version := p.version
  ihl := p.ihl
  tos := p.tos
  fragOff := 0
  protocol := p.protocol
  saddr := p.saddr
  daddr := p.daddr

/-- Neither `ack` nor `psh` and `urg` are copied. -/
def copyTcphdr (p : Tcphdr) : Tcphdr where
  source := p.source
  dest := p.dest
  seq := p.seq
  ackSeq := p.ackSeq
  doff := p.doff
  fin := p.fin
  syn := p.syn
  rst := p.rst
  psh := false
  ack := false
  urg := false
  window := p.window

variable (read : Nat → Nat → Option (List UInt8))

/-- The `switch` over the transport protocol; only IPv6 has the third case. -/
def transport (v6 : Bool) (proto : UInt8) (offset : Nat) (ctx : ParseTransportCtx) : Parsed :=
  if proto=ipprotoTcp then
    match read offset 20 with
    | none => (slowPath,ctx)
    | some b =>
      let tcph := Tcphdr.ofBytes b
      (0,{ ctx with tcph := copyTcphdr tcph,listenerL4proto := tcpListenerL4proto tcph })
  else if proto=ipprotoUdp then
    match read offset 8 with
    | none => (slowPath,ctx)
    | some b => (0,{ ctx with udph := .ofBytes b,listenerL4proto := ipprotoUdp })
  else if v6 ∧ proto=ipprotoIcmpv6 then
    match read offset 8 with
    | none => (slowPath,ctx)
    | some b => (0,{ ctx with icmp6h := .ofBytes b })
  else (1,ctx)

def ipv4 (offset : Nat) (ctx : ParseTransportCtx) : Parsed :=
  match read offset 20 with
  | none => (slowPath,ctx)
  | some b =>
    let iph := Iphdr.ofBytes b
    if iph.ihl<5 then (-efault,ctx)
    else
      let ctx := { ctx with iph := copyIphdr iph,ihl := iph.ihl,l4proto := iph.protocol }
      if iph.isFragment then (parseFragment,ctx)
      else transport read false iph.protocol (offset+iph.ihl.toNat*4) ctx

/-- The loop over the extension headers, on `nexthdr`, `offset` and `l4proto`; an early return is
an error. -/
def extensions : Nat → UInt8 → Nat → UInt8 → Except (Int×UInt8) (UInt8×Nat×UInt8)
  | 0,nexthdr,offset,l4proto => .ok (nexthdr,offset,l4proto)
  | fuel+1,nexthdr,offset,l4proto =>
    if nexthdr=ipprotoNone then .error (-efault,l4proto)
    else if nexthdr=ipprotoFragment then
      match read offset 8 with
      | none => .error (slowPath,l4proto)
      | some b =>
        let fragh := FragHdr.ofBytes b
        if fragh.isFragment then .error (parseFragment,fragh.nexthdr)
        else extensions fuel fragh.nexthdr (offset+8) fragh.nexthdr
    else if !isExtensionHeader nexthdr then .ok (nexthdr,offset,l4proto)
    else
      match read offset 2 with
      | none => .error (slowPath,l4proto)
      | some b => extensions fuel (octet b 0) (offset+ipv6Optlen (octet b 1)) (octet b 0)

def ipv6 (offset : Nat) (ctx : ParseTransportCtx) : Parsed :=
  match read offset 40 with
  | none => (slowPath,ctx)
  | some b =>
    let ipv6h := Ipv6hdr.ofBytes b
    let ctx := { ctx with ipv6h,l4proto := ipv6h.nexthdr,ihl := 10 }
    match extensions read ipv6MaxExtensions ipv6h.nexthdr (offset+40) ipv6h.nexthdr with
    | .error (ret,l4proto) => (ret,{ ctx with l4proto })
    | .ok (nexthdr,offset,l4proto) =>
      let ctx := { ctx with l4proto }
      if isExtensionHeader nexthdr then (-efault,ctx)
      else transport read true nexthdr offset ctx

def network (offset : Nat) (ethh : Ethhdr) : Parsed :=
  let ctx := { ParseTransportCtx.zero with ethh }
  if ethh.hProto=htons ethPIp then ipv4 read offset ctx
  else if ethh.hProto=htons ethPIpv6 then ipv6 read offset ctx
  else (1,ctx)

end Fast

variable (skb : Skb) (linkHLen : Nat) (c : ParseTransportCtx)

def parseTransportFast : Parsed :=
  match skb.pull headerPullSize with
  | none => (slowPath,.zero)
  | some k =>
    let read := skb.direct k
    match (if linkHLen=ethHlen then (read 0 ethHlen).map fun b => (Ethhdr.ofBytes b,ethHlen)
      else some (⟨0,0,skb.protocol⟩,0)) with
    | none => (slowPath,.zero)
    | some (ethh,offset) => Fast.network read offset ethh

namespace Slow

variable (read : Nat → Nat → Option (List UInt8))

def transport (v6 : Bool) (proto : UInt8) (offset : Nat) (ctx : ParseTransportCtx) : Parsed :=
  if proto=ipprotoTcp then
    match read offset 20 with
    | none => (-efault,ctx)
    | some b =>
      let tcph := Tcphdr.ofBytes b
      (0,{ ctx with tcph,listenerL4proto := tcpListenerL4proto tcph })
  else if proto=ipprotoUdp then
    match read offset 8 with
    | none => (-efault,ctx)
    | some b => (0,{ ctx with udph := .ofBytes b,listenerL4proto := ipprotoUdp })
  else if v6 ∧ proto=ipprotoIcmpv6 then
    match read offset 8 with
    | none => (-efault,ctx)
    | some b => (0,{ ctx with icmp6h := .ofBytes b })
  else (1,ctx)

def ipv4 (offset : Nat) (ctx : ParseTransportCtx) : Parsed :=
  match read offset 20 with
  | none => (-efault,ctx)
  | some b =>
    let iph := Iphdr.ofBytes b
    let ctx := { ctx with iph }
    if iph.ihl<5 then (-efault,ctx)
    else
      let ctx := { ctx with ihl := iph.ihl,l4proto := iph.protocol }
      if iph.isFragment then (parseFragment,ctx)
      else transport read false iph.protocol (offset+iph.ihl.toNat*4) ctx

/-- Unlike the fast parser, this one sets `l4proto` only for a fragment header. -/
def extensions : Nat → UInt8 → Nat → UInt8 → Except (Int×UInt8) (UInt8×Nat×UInt8)
  | 0,nexthdr,offset,l4proto => .ok (nexthdr,offset,l4proto)
  | fuel+1,nexthdr,offset,l4proto =>
    if nexthdr=ipprotoNone then .error (-efault,l4proto)
    else if nexthdr=ipprotoFragment then
      match read offset 8 with
      | none => .error (-efault,l4proto)
      | some b =>
        let fragh := FragHdr.ofBytes b
        if fragh.isFragment then .error (parseFragment,fragh.nexthdr)
        else extensions fuel fragh.nexthdr (offset+8) fragh.nexthdr
    else if !isExtensionHeader nexthdr then .ok (nexthdr,offset,l4proto)
    else
      match read offset 1,read (offset+1) 1 with
      | some n,some l => extensions fuel (octet n 0) (offset+ipv6Optlen (octet l 0)) l4proto
      | _,_ => .error (-efault,l4proto)

def ipv6 (offset : Nat) (ctx : ParseTransportCtx) : Parsed :=
  match read offset 40 with
  | none => (-efault,ctx)
  | some b =>
    let ipv6h := Ipv6hdr.ofBytes b
    let ctx := { ctx with ipv6h,ihl := 10 }
    match extensions read ipv6MaxExtensions ipv6h.nexthdr (offset+40) ctx.l4proto with
    | .error (ret,l4proto) => (ret,{ ctx with l4proto })
    | .ok (nexthdr,offset,l4proto) =>
      if isExtensionHeader nexthdr then (-efault,{ ctx with l4proto })
      else transport read true nexthdr offset { ctx with l4proto := nexthdr }

def network (offset : Nat) (ethh : Ethhdr) : Parsed :=
  let ctx := { ParseTransportCtx.zero with ethh }
  if ethh.hProto=htons ethPIp then ipv4 read offset ctx
  else if ethh.hProto=htons ethPIpv6 then ipv6 read offset ctx
  else (1,ctx)

end Slow

/-- `stale` is what the scratch context holds before. -/
def parseTransportSlow (stale : ParseTransportCtx) : Parsed :=
  let read := skb.loadBytes
  match (if linkHLen=ethHlen then (read 0 ethHlen).map fun b => (Ethhdr.ofBytes b,ethHlen)
    else some (⟨0,0,skb.protocol⟩,0)) with
  | none => (1,stale)
  | some (ethh,offset) => Slow.network read offset ethh

def parseTransport : Parsed :=
  let fast := parseTransportFast skb linkHLen
  if fast.1=slowPath then parseTransportSlow skb linkHLen fast.2 else fast

/-- `struct parsed_packet` without the generation, which the hooks set. -/
structure ParsedPacket where
  ethh : Ethhdr
  tuples : Tuples
  tcph : Tcphdr
  udph : Udphdr
  l4proto : UInt8
  listenerL4proto : UInt8
  deriving DecidableEq

/-- A packet that is dropped or passed by its code alone is an error. -/
def parsePacket : Except Int ParsedPacket :=
  let (ret,ctx) := parseTransport skb linkHLen
  if ret<0 then .error ret
  else if ctx.l4proto=ipprotoIcmpv6 then .error 1
  else if ret≠0 then .error ret
  else .ok {
    ethh := ctx.ethh
    tuples := getTuples ctx.iph ctx.ipv6h ctx.tcph ctx.udph ctx.l4proto
    tcph := ctx.tcph
    udph := ctx.udph
    l4proto := ctx.l4proto
    listenerL4proto := ctx.listenerL4proto }

/-- What both parsers have to agree on. -/
structure PacketReads where
  ethh : Ethhdr
  tuples : Tuples
  tos : UInt8
  versionAndTc : UInt8×UInt8
  l4proto : UInt8
  listenerL4proto : UInt8
  icmp6Type : UInt8
  syn : Bool
  ack : Bool
  fin : Bool
  rst : Bool
  deriving DecidableEq

def ParseTransportCtx.reads : PacketReads where
  ethh := c.ethh
  tuples := getTuples c.iph c.ipv6h c.tcph c.udph c.l4proto
  tos := c.iph.tos
  versionAndTc := c.ipv6h.versionAndTc
  l4proto := c.l4proto
  listenerL4proto := c.listenerL4proto
  icmp6Type := c.icmp6h.icmp6Type
  syn := c.tcph.syn
  ack := c.tcph.ack
  fin := c.tcph.fin
  rst := c.tcph.rst

/-- The codes agree, and so does all that is read unless the packet is dropped. -/
def SameOutcome (x y : Parsed) : Prop := x.1=y.1 ∧ (0≤x.1 → x.2.reads=y.2.reads)

instance (x y : Parsed) : Decidable (SameOutcome x y) := inferInstanceAs (Decidable (_ ∧ _))

/-- The protocol and the offset that a chain of extension headers leads to; there is no transport
header in a non-initial fragment. -/
def skipExtensions (data : List UInt8) : Nat → UInt8 → Nat → Option (UInt8×Nat)
  | 0,nexthdr,offset => some (nexthdr,offset)
  | fuel+1,nexthdr,offset =>
    if nexthdr=ipprotoFragment then
      if (FragHdr.ofBytes (slice data offset 8)).isFragment then none
      else skipExtensions data fuel (octet data offset) (offset+8)
    else if isExtensionHeader nexthdr then
      skipExtensions data fuel (octet data offset)
        (offset+ipv6Optlen (octet data (offset+1)))
    else some (nexthdr,offset)

def transportBehind (data : List UInt8) (offset : Nat) (proto : UInt16) : Option (UInt8×Nat) :=
  if proto=htons ethPIp then
    let iph := Iphdr.ofBytes (slice data offset 20)
    if iph.ihl<5 ∨ iph.isFragment=true then none
    else some (iph.protocol,offset+iph.ihl.toNat*4)
  else if proto=htons ethPIpv6 then
    skipExtensions data ipv6MaxExtensions (octet data (offset+6)) (offset+40)
  else none

def transportAt : Option (UInt8×Nat) :=
  if linkHLen=ethHlen then transportBehind skb.data ethHlen (be16 skb.data 12)
  else transportBehind skb.data 0 skb.protocol

def ackAt (data : List UInt8) : Option (UInt8×Nat) → Bool
  | some (proto,offset) =>
    decide (proto=ipprotoTcp) && (octet data (offset+13)).toNat.testBit 4
  | none => false

def carriesAck : Bool := ackAt skb.data (transportAt skb linkHLen)

def ParseTransportCtx.copied : ParseTransportCtx :=
  { c with iph := Fast.copyIphdr c.iph,tcph := Fast.copyTcphdr c.tcph }

theorem copied_reads_iff : c.copied.reads=c.reads ↔ c.tcph.ack=false := by
  constructor
  · intro h
    exact (congrArg PacketReads.ack h).symm
  · intro h
    have hreads : c.copied.reads={ c.reads with ack := false } := rfl
    rw [hreads,← h]
    rfl

theorem octet_load {data b : List UInt8} {off n i : Nat} (h : load data off n=some b)
    (hi : i<n) : octet b i=octet data (off+i) := by
  obtain ⟨hle,rfl⟩ := load_eq_some_iff.mp h
  simp only [octet,slice,List.getD_eq_getElem?_getD]
  rw [List.getElem?_take_of_lt hi,List.getElem?_drop]

theorem be16_load {data b : List UInt8} {off n i : Nat} (h : load data off n=some b)
    (hi : i+2≤n) : be16 b i=be16 data (off+i) := by
  obtain ⟨-,rfl⟩ := load_eq_some_iff.mp h
  rw [be16,be16,slice_slice _ _ hi]

theorem extension_load {data : List UInt8} {offset : Nat} {b : List UInt8}
    (h : load data offset 2=some b) :
    ∃ n l,load data offset 1=some n ∧ load data (offset+1) 1=some l ∧
      octet n 0=octet b 0 ∧ octet l 0=octet b 1 := by
  have hn := load_slice h (by decide : 0+1≤2)
  have hl := load_slice h (by decide : 1+1≤2)
  refine ⟨_,_,hn,hl,?_,?_⟩
  · rw [octet_load hn Nat.one_pos,octet_load h Nat.two_pos]
  · rw [octet_load hl Nat.one_pos,octet_load h Nat.one_lt_two]

/-- Unless the packet is dropped, the fast context is a copy of the other, whose ACK flag is that of
the header at the given place. -/
structure Agrees (data : List UInt8) (place : Option (UInt8×Nat)) (fast slow : Parsed) : Prop where
  code : fast.1=slow.1
  copied : 0≤fast.1 → fast.2=slow.2.copied ∧ slow.2.tcph.ack=ackAt data place
  dropped : fast.1<0 → ackAt data place=false

theorem Agrees.efault {data : List UInt8} {place : Option (UInt8×Nat)}
    {f s : ParseTransportCtx} (h : ackAt data place=false) :
    Agrees data place (-Bpf.efault,f) (-Bpf.efault,s) :=
  ⟨rfl,fun hret => absurd hret (by simp [Bpf.efault]),fun _ => h⟩

theorem Agrees.sameOutcome_iff {data : List UInt8} {place : Option (UInt8×Nat)}
    {fast slow : Parsed} (h : Agrees data place fast slow) :
    SameOutcome fast slow ↔ ackAt data place=false := by
  constructor
  · intro hsame
    by_cases hdrop : fast.1<0
    · exact h.dropped hdrop
    · obtain ⟨hcopy,hack⟩ := h.copied (by omega)
      have hreads := hsame.2 (by omega)
      rw [hcopy,copied_reads_iff,hack] at hreads
      exact hreads
  · intro hplace
    refine ⟨h.code,fun hret => ?_⟩
    obtain ⟨hcopy,hack⟩ := h.copied hret
    rw [hcopy,copied_reads_iff,hack,hplace]

section Agree

variable {data : List UInt8} {r : Nat → Nat → Option (List UInt8)}
  (hr : ∀ off len b,r off len=some b → load data off len=some b)

include hr

variable (s : ParseTransportCtx)

theorem transport_agrees {v6 : Bool} {proto : UInt8} {offset : Nat} (hack : s.tcph.ack=false)
    (h : (Fast.transport r v6 proto offset s.copied).1≠slowPath) :
    Agrees data (some (proto,offset)) (Fast.transport r v6 proto offset s.copied)
      (Slow.transport (load data) v6 proto offset s) := by
  unfold Fast.transport at h ⊢
  unfold Slow.transport
  by_cases htcp : proto=ipprotoTcp
  · simp only [if_pos htcp] at h ⊢
    cases hread : r offset 20 with
    | none => simp [hread] at h
    | some b =>
      have hoctet := octet_load (hr _ _ _ hread) (by decide : 13<20)
      simp only [hr _ _ _ hread]
      refine ⟨rfl,fun _ => ⟨rfl,?_⟩,fun h => absurd h (Int.lt_irrefl 0)⟩
      simp only [ackAt,htcp,decide_true,Bool.true_and,← hoctet]
      rfl
  have hplace : ackAt data (some (proto,offset))=false := by
    simp only [ackAt,decide_eq_false htcp,Bool.false_and]
  have hack' : s.tcph.ack=ackAt data (some (proto,offset)) := hack.trans hplace.symm
  simp only [if_neg htcp] at h ⊢
  by_cases hudp : proto=ipprotoUdp
  · simp only [if_pos hudp] at h ⊢
    cases hread : r offset 8 with
    | none => simp [hread] at h
    | some b =>
      simp only [hr _ _ _ hread]
      exact ⟨rfl,fun _ => ⟨rfl,hack'⟩,fun _ => hplace⟩
  simp only [if_neg hudp] at h ⊢
  by_cases hicmp : v6=true ∧ proto=ipprotoIcmpv6
  · simp only [if_pos hicmp] at h ⊢
    cases hread : r offset 8 with
    | none => simp [hread] at h
    | some b =>
      simp only [hr _ _ _ hread]
      exact ⟨rfl,fun _ => ⟨rfl,hack'⟩,fun _ => hplace⟩
  · simp only [if_neg hicmp]
    exact ⟨rfl,fun _ => ⟨rfl,hack'⟩,fun _ => hplace⟩

/-- Unless it falls back, the fast loop ends as the other does, at the end of the chain; one that
ends early leads to no TCP header. -/
def ChainAgree (fast slow : Except (Int×UInt8) (UInt8×Nat×UInt8))
    (found : Option (UInt8×Nat)) : Prop :=
  match fast with
  | .error (ret,l4proto) =>
    ret≠slowPath → (∃ after,slow=.error (ret,after) ∧ (0 ≤ ret → after=l4proto)) ∧
      ∀ proto off,found=some (proto,off) → proto≠ipprotoTcp
  | .ok (nexthdr,off,l4proto) =>
    l4proto=nexthdr ∧ (∃ after,slow=.ok (nexthdr,off,after)) ∧ found=some (nexthdr,off)

theorem extensions_agree (fuel : Nat) (nexthdr : UInt8) (offset : Nat) (before : UInt8) :
    ChainAgree (Fast.extensions r fuel nexthdr offset nexthdr)
      (Slow.extensions (load data) fuel nexthdr offset before)
      (skipExtensions data fuel nexthdr offset) := by
  induction fuel generalizing nexthdr offset before with
  | zero => exact ⟨rfl,⟨before,rfl⟩,rfl⟩
  | succ fuel ih =>
    rw [Fast.extensions,Slow.extensions,skipExtensions]
    by_cases hnone : nexthdr=ipprotoNone
    · subst hnone
      simp only [if_true]
      refine fun _ => ⟨⟨before,rfl,fun h => absurd h (by decide)⟩,?_⟩
      intro proto off hskip
      have hend : some (ipprotoNone,offset)=some (proto,off) := hskip
      cases hend
      decide
    simp only [if_neg hnone]
    by_cases hfrag : nexthdr=ipprotoFragment
    · simp only [if_pos hfrag]
      cases hread : r offset 8 with
      | none => exact fun h => absurd rfl h
      | some b =>
        obtain ⟨-,hslice⟩ := load_eq_some_iff.mp (hr _ _ _ hread)
        have hnext : (FragHdr.ofBytes b).nexthdr=octet data offset :=
          octet_load (hr _ _ _ hread) (by decide : 0<8)
        simp only [hr _ _ _ hread,hslice]
        by_cases hf : (FragHdr.ofBytes b).isFragment=true
        · simp only [if_pos hf]
          exact fun _ => ⟨⟨_,rfl,fun _ => rfl⟩,by simp⟩
        · simp only [if_neg hf,← hnext]
          exact ih _ _ _
    simp only [if_neg hfrag]
    by_cases hext : isExtensionHeader nexthdr=true
    · simp only [hext,Bool.not_true,Bool.false_eq_true,if_false,if_true]
      cases hread : r offset 2 with
      | none => exact fun h => absurd rfl h
      | some b =>
        obtain ⟨n,l,hn,hl,hn0,hl0⟩ := extension_load (hr _ _ _ hread)
        have h0 := octet_load (hr _ _ _ hread) (by decide : 0<2)
        have h1 := octet_load (hr _ _ _ hread) (by decide : 1<2)
        simp only [hn,hl,hn0,hl0,← h1]
        rw [← Nat.add_zero offset,← h0,Nat.add_zero]
        exact ih _ _ _
    · simp only [hext,Bool.not_false,if_true]
      exact ⟨rfl,⟨before,rfl⟩,rfl⟩

theorem ipv4_agrees {offset : Nat} (hack : s.tcph.ack=false)
    (h : (Fast.ipv4 r offset s.copied).1≠slowPath) :
    let iph := Iphdr.ofBytes (slice data offset 20)
    Agrees data (if iph.ihl<5 ∨ iph.isFragment=true then none
        else some (iph.protocol,offset+iph.ihl.toNat*4))
      (Fast.ipv4 r offset s.copied) (Slow.ipv4 (load data) offset s) := by
  unfold Fast.ipv4 at h ⊢
  unfold Slow.ipv4
  cases hread : r offset 20 with
  | none => simp [hread] at h
  | some b =>
    obtain ⟨-,hslice⟩ := load_eq_some_iff.mp (hr _ _ _ hread)
    simp only [hread] at h
    simp only [hr _ _ _ hread,hslice]
    by_cases hihl : (Iphdr.ofBytes b).ihl<5
    · simp only [if_pos hihl,if_pos (Or.inl hihl)]
      exact .efault rfl
    simp only [if_neg hihl] at h ⊢
    by_cases hfrag : (Iphdr.ofBytes b).isFragment=true
    · simp only [if_pos hfrag,if_pos (Or.inr hfrag)]
      exact ⟨rfl,fun _ => ⟨rfl,hack⟩,fun _ => rfl⟩
    · simp only [if_neg hfrag,if_neg (not_or.mpr ⟨hihl,hfrag⟩)] at h ⊢
      exact transport_agrees hr
        { s with iph := .ofBytes b,ihl := (Iphdr.ofBytes b).ihl,l4proto := (Iphdr.ofBytes b).protocol }
        hack h

theorem ipv6_agrees {offset : Nat} (hack : s.tcph.ack=false)
    (h : (Fast.ipv6 r offset s.copied).1≠slowPath) :
    Agrees data (skipExtensions data ipv6MaxExtensions (octet data (offset+6)) (offset+40))
      (Fast.ipv6 r offset s.copied) (Slow.ipv6 (load data) offset s) := by
  unfold Fast.ipv6 at h ⊢
  unfold Slow.ipv6
  cases hread : r offset 40 with
  | none => simp [hread] at h
  | some b =>
    have hnext : (Ipv6hdr.ofBytes b).nexthdr=octet data (offset+6) :=
      octet_load (hr _ _ _ hread) (by decide : 6<40)
    have hchain := extensions_agree hr ipv6MaxExtensions (Ipv6hdr.ofBytes b).nexthdr (offset+40)
      s.l4proto
    simp only [hread] at h
    simp only [hr _ _ _ hread,← hnext]
    cases hfast : Fast.extensions r ipv6MaxExtensions (Ipv6hdr.ofBytes b).nexthdr (offset+40)
        (Ipv6hdr.ofBytes b).nexthdr with
    | error e =>
      obtain ⟨ret,l4proto⟩ := e
      simp only [hfast] at h
      rw [hfast] at hchain
      obtain ⟨⟨after,hslow,hafter⟩,hplace⟩ := hchain h
      simp only [hslow]
      have hnoack : ackAt data (skipExtensions data ipv6MaxExtensions (Ipv6hdr.ofBytes b).nexthdr
          (offset+40))=false := by
        cases hskip : skipExtensions data ipv6MaxExtensions (Ipv6hdr.ofBytes b).nexthdr
            (offset+40) with
        | none => rfl
        | some p => simp only [ackAt,decide_eq_false (hplace p.1 p.2 hskip),Bool.false_and]
      refine ⟨rfl,fun hret => ?_,fun _ => hnoack⟩
      rw [hafter hret,hnoack]
      exact ⟨rfl,hack⟩
    | ok e =>
      obtain ⟨nexthdr,off,l4proto⟩ := e
      simp only [hfast] at h
      rw [hfast] at hchain
      obtain ⟨hl4,⟨after,hslow⟩,hplace⟩ := hchain
      simp only [hslow,hplace]
      by_cases hext : isExtensionHeader nexthdr=true
      · simp only [if_pos hext]
        apply Agrees.efault
        have htcp : nexthdr≠ipprotoTcp := by
          rintro rfl
          exact absurd hext (by decide)
        simp only [ackAt,decide_eq_false htcp,Bool.false_and]
      · simp only [if_neg hext] at h ⊢
        subst hl4
        exact transport_agrees hr { s with ipv6h := .ofBytes b,ihl := 10,l4proto } hack h

end Agree

theorem network_agrees {skb : Skb} {k offset : Nat} {ethh : Ethhdr}
    (h : (Fast.network (skb.direct k) offset ethh).1≠slowPath) :
    Agrees skb.data (transportBehind skb.data offset ethh.hProto)
      (Fast.network (skb.direct k) offset ethh) (Slow.network skb.loadBytes offset ethh) := by
  have hr : ∀ off len b,skb.direct k off len=some b → load skb.data off len=some b :=
    fun _ _ _ hb => Skb.loadBytes_of_direct hb
  have hload : skb.loadBytes=load skb.data := rfl
  unfold Fast.network at h ⊢
  unfold Slow.network transportBehind
  rw [hload]
  by_cases hip : ethh.hProto=htons ethPIp
  · simp only [if_pos hip] at h ⊢
    exact ipv4_agrees hr { ParseTransportCtx.zero with ethh } rfl h
  simp only [if_neg hip] at h ⊢
  by_cases hip6 : ethh.hProto=htons ethPIpv6
  · simp only [if_pos hip6] at h ⊢
    exact ipv6_agrees hr { ParseTransportCtx.zero with ethh } rfl h
  · simp only [if_neg hip6]
    exact ⟨rfl,fun _ => ⟨rfl,rfl⟩,fun _ => rfl⟩

theorem parseTransportFast_agrees {skb : Skb} {linkHLen : Nat} (stale : ParseTransportCtx)
    (h : (parseTransportFast skb linkHLen).1≠slowPath) :
    Agrees skb.data (transportAt skb linkHLen) (parseTransportFast skb linkHLen)
      (parseTransportSlow skb linkHLen stale) := by
  unfold parseTransportFast at h ⊢
  unfold parseTransportSlow transportAt
  cases hpull : skb.pull headerPullSize with
  | none => simp [hpull] at h
  | some k =>
    simp only [hpull] at h
    by_cases hlink : linkHLen=ethHlen
    · simp only [if_pos hlink] at h ⊢
      cases hread : skb.direct k 0 ethHlen with
      | none => simp [hread] at h
      | some b =>
        have hload := Skb.loadBytes_of_direct hread
        have hproto : (Ethhdr.ofBytes b).hProto=be16 skb.data 12 := be16_load hload (by decide)
        simp only [hread,Option.map_some] at h
        simp only [hload,Option.map_some,← hproto]
        exact network_agrees h
    · simp only [if_neg hlink] at h ⊢
      exact network_agrees h

/-- Where the fast parser does not fall back, the slow one returns the same code and the same values
of all that is read later, exactly unless a TCP segment has the ACK flag. -/
theorem parse_transport_agree_iff (skb : Skb) (linkHLen : Nat) (stale : ParseTransportCtx)
    (h : (parseTransportFast skb linkHLen).1≠slowPath) :
    SameOutcome (parseTransportFast skb linkHLen) (parseTransportSlow skb linkHLen stale) ↔
      carriesAck skb linkHLen=false :=
  (parseTransportFast_agrees stale h).sameOutcome_iff

def ipv4Packet (src dst : List UInt8) (proto : UInt8) (segment : List UInt8) (ifindex : UInt32) : Skb :=
  .linear ([0x45,0,0,128,0,0,0,0,64,proto,0,0]++src++dst++segment ++
    List.replicate (108-segment.length) 0) (htons ethPIp) ifindex

def tcpSegment (flags : UInt8) : List UInt8 :=
  [0xc0,0,0x01,0xbb,0,0,0,1,0,0,0,1,0x50,flags,0,0,0,0,0,0]

def tcpPacket (flags : UInt8) : Skb :=
  ipv4Packet [10,0,0,1] [1,1,1,1] ipprotoTcp (tcpSegment flags) 2

theorem parse_transport_agree_syn :
    SameOutcome (parseTransportFast (tcpPacket 0x02) 0) (parseTransportSlow (tcpPacket 0x02) 0 .zero) :=
  (parse_transport_agree_iff (tcpPacket 0x02) 0 .zero (by decide +kernel)).mpr (by decide +kernel)

/-- The fast parser takes a SYN-ACK for a SYN. -/
theorem syn_ack_loses_ack : (parseTransportFast (tcpPacket 0x12) 0).1≠slowPath ∧
      (parseTransportFast (tcpPacket 0x12) 0).2.reads.ack=false ∧
      (parseTransportSlow (tcpPacket 0x12) 0 .zero).2.reads.ack=true ∧
      ¬SameOutcome (parseTransportFast (tcpPacket 0x12) 0)
        (parseTransportSlow (tcpPacket 0x12) 0 .zero) := by
  decide +kernel

section Headers

variable {read : Nat → Nat → Option (List UInt8)} {offset : Nat} {s : ParseTransportCtx}

theorem slow_transport_headers (v6 : Bool) (proto : UInt8) :
    (Slow.transport read v6 proto offset s).2.iph=s.iph ∧
      (Slow.transport read v6 proto offset s).2.ipv6h=s.ipv6h := by
  unfold Slow.transport
  split_ifs
  all_goals first
    | exact ⟨rfl,rfl⟩
    | (split <;> exact ⟨rfl,rfl⟩)

theorem slow_ipv4_header {b : List UInt8} (hb : read offset 20=some b) :
    (Slow.ipv4 read offset s).2.iph=.ofBytes b := by
  unfold Slow.ipv4
  simp only [hb]
  split_ifs
  · rfl
  · rfl
  · exact (slow_transport_headers _ _).1

theorem slow_ipv6_header {b : List UInt8} (hb : read offset 40=some b) :
    (Slow.ipv6 read offset s).2.iph=s.iph ∧ (Slow.ipv6 read offset s).2.ipv6h=.ofBytes b := by
  unfold Slow.ipv6
  simp only [hb]
  split
  · exact ⟨rfl,rfl⟩
  · split_ifs
    · exact ⟨rfl,rfl⟩
    · exact slow_transport_headers _ _

def HasTransport (proto : UInt8) : Prop := proto=ipprotoTcp ∨ proto=ipprotoUdp ∨ proto=ipprotoIcmpv6

theorem slow_transport_l4proto {v6 : Bool} {proto : UInt8}
    (h : (Slow.transport read v6 proto offset s).1=0) :
    HasTransport proto ∧ (Slow.transport read v6 proto offset s).2.l4proto=s.l4proto := by
  unfold Slow.transport at h ⊢
  split_ifs at h ⊢ with htcp hudp hicmp
  · refine ⟨.inl htcp,?_⟩
    split <;> rfl
  · refine ⟨.inr (.inl hudp),?_⟩
    split <;> rfl
  · refine ⟨.inr (.inr hicmp.2),?_⟩
    split <;> rfl
  · cases h

theorem slow_extensions_code {fuel : Nat} {nexthdr l4proto : UInt8} {e : Int×UInt8}
    (h : Slow.extensions read fuel nexthdr offset l4proto=.error e) : e.1≠0 := by
  have hefault : -efault≠0 := by decide
  have hfragment : parseFragment≠0 := by decide
  induction fuel generalizing nexthdr offset l4proto with
  | zero => cases h
  | succ fuel ih =>
    unfold Slow.extensions at h
    split_ifs at h
    · cases h
      exact hefault
    · cases hb : read offset 8 with
      | none =>
        simp only [hb] at h
        cases h
        exact hefault
      | some b =>
        simp only [hb] at h
        split_ifs at h
        · cases h
          exact hfragment
        · exact ih h
    · cases hn : read offset 1 with
      | none =>
        simp only [hn] at h
        cases h
        exact hefault
      | some n =>
        cases hl : read (offset+1) 1 with
        | none =>
          simp only [hn,hl] at h
          cases h
          exact hefault
        | some l =>
          simp only [hn,hl] at h
          exact ih h

theorem slow_network_l4proto {ethh : Ethhdr} (h : (Slow.network read offset ethh).1=0) :
    HasTransport (Slow.network read offset ethh).2.l4proto := by
  unfold Slow.network at h ⊢
  dsimp only at h ⊢
  split_ifs at h ⊢ with hip hip6
  · unfold Slow.ipv4 at h ⊢
    cases hb : read offset 20 with
    | none =>
      rw [hb] at h
      cases h
    | some b =>
      simp only [hb] at h ⊢
      split_ifs at h ⊢
      · cases h
      · cases h
      · obtain ⟨hproto,heq⟩ := slow_transport_l4proto h
        rw [heq]
        exact hproto
  · unfold Slow.ipv6 at h ⊢
    cases hb : read offset 40 with
    | none =>
      rw [hb] at h
      cases h
    | some b =>
      simp only [hb] at h ⊢
      cases hext : Slow.extensions read ipv6MaxExtensions (Ipv6hdr.ofBytes b).nexthdr (offset+40)
          ParseTransportCtx.zero.l4proto with
      | error e =>
        simp only [hext] at h ⊢
        exact absurd h (slow_extensions_code hext)
      | ok r =>
        simp only [hext] at h ⊢
        split_ifs at h ⊢
        · cases h
        · obtain ⟨hproto,heq⟩ := slow_transport_l4proto h
          rw [heq]
          exact hproto
  · cases h

end Headers

theorem parsePacket_tuples {skb : Skb} {linkHLen : Nat} {pkt : ParsedPacket}
    (h : parsePacket skb linkHLen=.ok pkt) :
    ∃ stale c,parseTransportSlow skb linkHLen stale=(0,c) ∧ pkt.ethh=c.ethh ∧
      pkt.tuples=getTuples c.iph c.ipv6h c.tcph c.udph c.l4proto := by
  unfold parsePacket at h
  dsimp only at h
  split_ifs at h with hneg hicmp hpos
  cases h
  have hcode : (parseTransport skb linkHLen).1=0 := by simpa using hpos
  refine ⟨(parseTransportFast skb linkHLen).2,?_⟩
  unfold parseTransport at hcode ⊢
  dsimp only at hcode ⊢
  by_cases hslow : (parseTransportFast skb linkHLen).1=slowPath
  · simp only [if_pos hslow] at hcode ⊢
    exact ⟨_,Prod.ext hcode rfl,rfl,rfl⟩
  · simp only [if_neg hslow] at hcode ⊢
    have hagree := parseTransportFast_agrees (parseTransportFast skb linkHLen).2 hslow
    obtain ⟨hcopy,-⟩ := hagree.copied (by omega)
    refine ⟨_,Prod.ext (hagree.code.symm.trans hcode) rfl,?_,?_⟩
    · exact (congrArg ParseTransportCtx.ethh hcopy :)
    · exact (congrArg (fun c => getTuples c.iph c.ipv6h c.tcph c.udph c.l4proto) hcopy :)

theorem parsePacket_l4proto {skb : Skb} {linkHLen : Nat} {pkt : ParsedPacket}
    (h : parsePacket skb linkHLen=.ok pkt) :
    pkt.l4proto=ipprotoTcp ∨ pkt.l4proto=ipprotoUdp := by
  obtain ⟨stale,c,hslow,-,htuples⟩ := parsePacket_tuples h
  have hsame : pkt.tuples.five.l4proto=pkt.l4proto ∧ pkt.l4proto≠ipprotoIcmpv6 := by
    unfold parsePacket at h
    dsimp only at h
    split_ifs at h with hneg hicmp hpos
    cases h
    exact ⟨rfl,hicmp⟩
  have hproto : pkt.l4proto=c.l4proto := by
    rw [← hsame.1,htuples]
    rfl
  have hhas : HasTransport c.l4proto := by
    unfold parseTransportSlow at hslow
    dsimp only at hslow
    split at hslow
    · cases hslow
    · have hcode := slow_network_l4proto (congrArg Prod.fst hslow)
      rwa [hslow] at hcode
  rcases hhas with htcp | hudp | hicmp
  · exact .inl (hproto.trans htcp)
  · exact .inr (hproto.trans hudp)
  · exact absurd (hproto.trans hicmp) hsame.2

end DaeRs.Datapath
