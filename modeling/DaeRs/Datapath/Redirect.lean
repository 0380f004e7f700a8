import DaeRs.Datapath.Transport
import Mathlib.Data.Sym.Sym2

/-! `redirect_track`: what is recorded of a packet that goes to the control plane, and how replies
on dae0 find it. -/

namespace DaeRs.Datapath

open Octets Bpf Net Control Option Function

def htonl (x : UInt32) : UInt32 :=
  let n := x.toNat
  UInt32.ofNat
    (n%2^8*2^24+n/2^8%2^8*2^16+n/2^16%2^8*2^8+n/2^24)

variable (a : Bytes16)

def u6Addr32 (i : Nat) : UInt32 := htonl (UInt32.ofNat (a.toNat/2^(96-32*i)))

/-- The key of `redirect_track`. -/
structure RedirectTuple where
  sip : Bytes16
  dip : Bytes16
  deriving DecidableEq

/-- How replies of a flow go back. -/
structure RedirectEntry where
  ifindex : UInt32
  smac : Mac
  dmac : Mac
  fromWan : Bool
  lastSeenNs : UInt64
  deriving DecidableEq

def normalizeRedirectIp (ip : Bytes16) : Bytes16 :=
  if u6Addr32 ip 0=0 ∧ u6Addr32 ip 1=0 ∧
      (u6Addr32 ip 2=0 ∨ u6Addr32 ip 2=htonl 0x0000ffff) ∧ u6Addr32 ip 3≠0 then
    (IpAddr.v4 (BitVec.ofNat 32 ip.toNat)).mapped
  else ip

variable (t : RedirectTuple)

def normalizeRedirectTuple : RedirectTuple := ⟨normalizeRedirectIp t.sip,normalizeRedirectIp t.dip⟩

def redirectIpGt (b : Bytes16) : Bool := decide (u6Addr32 a 0 > u6Addr32 b 0) ||
    (decide (u6Addr32 a 0=u6Addr32 b 0) &&
      (decide (u6Addr32 a 1 > u6Addr32 b 1) ||
        (decide (u6Addr32 a 1=u6Addr32 b 1) &&
          (decide (u6Addr32 a 2 > u6Addr32 b 2) ||
            (decide (u6Addr32 a 2=u6Addr32 b 2) && decide (u6Addr32 a 3 > u6Addr32 b 3))))))

def RedirectTuple.sorted : RedirectTuple :=
  if redirectIpGt t.sip t.dip then ⟨t.dip,t.sip⟩ else t

def RedirectTuple.canonical : RedirectTuple := (normalizeRedirectTuple t).sorted

variable (skb : Skb)

def fillRedirectTupleFromForwardPacket (tuples : Tuples) : RedirectTuple :=
  if skb.protocol=htons ethPIp then
    ⟨(IpAddr.v4 (BitVec.ofNat 32 tuples.five.sip.toNat)).mapped,
      (IpAddr.v4 (BitVec.ofNat 32 tuples.five.dip.toNat)).mapped⟩
  else ⟨tuples.five.sip,tuples.five.dip⟩

def fillRedirectEntryFromForwardPacket (ifindex : UInt32) (linkHLen : Nat) (ethh : Ethhdr)
    (fromWan : Bool) (nowNs : UInt64) : RedirectEntry where
  ifindex
  smac := if linkHLen=ethHlen then ethh.hSource else 0
  dmac := if linkHLen=ethHlen then ethh.hDest else 0
  fromWan
  lastSeenNs := nowNs

abbrev RedirectTrack := RedirectTuple → Option RedirectEntry

/-- A packet on its way to the control plane, as `prep_redirect_to_control_plane` gets it. -/
structure Forward where
  skb : Skb
  linkHLen : Nat
  tuples : Tuples
  ethh : Ethhdr
  fromWan : Bool
  nowNs : UInt64

namespace Forward

def key (f : Forward) : RedirectTuple :=
  (fillRedirectTupleFromForwardPacket f.skb f.tuples).canonical

def entry (f : Forward) : RedirectEntry :=
  fillRedirectEntryFromForwardPacket f.skb.ifindex f.linkHLen f.ethh f.fromWan f.nowNs

end Forward

/-- The map update may fail; the packet is then dropped. -/
def publishRedirectTrackForPacket (track : RedirectTrack) (f : Forward) (stored : Bool) :
    RedirectTrack :=
  if stored then update track f.key (some f.entry) else track

def loadRedirectTupleFallback : Int := 2

def redirectPullSize : Nat := 128

/-- The swapped addresses of the header at an offset, by direct access; one branch of the source for
each of the two offsets. -/
def loadRedirectTupleFastAt (k offset : Nat) : Int×RedirectTuple :=
  if skb.protocol=htons ethPIp then
    match skb.direct k offset 20 with
    | none => (loadRedirectTupleFallback,⟨0,0⟩)
    | some b => (0,⟨(IpAddr.v4 (addr4 b 16)).mapped,(IpAddr.v4 (addr4 b 12)).mapped⟩)
  else if skb.protocol=htons ethPIpv6 then
    match skb.direct k offset 40 with
    | none => (loadRedirectTupleFallback,⟨0,0⟩)
    | some b => (0,⟨addr16 b 24,addr16 b 8⟩)
  else (1,⟨0,0⟩)

def loadRedirectTupleFast : Int×RedirectTuple :=
  match skb.pull redirectPullSize with
  | none => (loadRedirectTupleFallback,⟨0,0⟩)
  | some k =>
    match skb.direct k 0 ethHlen with
    | some b =>
      if looksLikeEthernet (be16 b 12) skb.protocol then loadRedirectTupleFastAt skb k ethHlen
      else loadRedirectTupleFastAt skb k 0
    | none => loadRedirectTupleFastAt skb k 0

def loadRedirectTupleSlow : Int×RedirectTuple :=
  let hasL2 := match skb.loadBytes 12 2 with
    | some b => looksLikeEthernet (be16 b 0) skb.protocol
    | none => false
  let l3Off := if hasL2 then ethHlen else 0
  if skb.protocol=htons ethPIp then
    match skb.loadBytes (l3Off+16) 4,skb.loadBytes (l3Off+12) 4 with
    | some d,some s => (0,⟨(IpAddr.v4 (addr4 d 0)).mapped,(IpAddr.v4 (addr4 s 0)).mapped⟩)
    | _,_ => (-efault,⟨0,0⟩)
  else if skb.protocol=htons ethPIpv6 then
    match skb.loadBytes (l3Off+24) 16,skb.loadBytes (l3Off+8) 16 with
    | some d,some s => (0,⟨addr16 d 0,addr16 s 0⟩)
    | _,_ => (-efault,⟨0,0⟩)
  else (1,⟨0,0⟩)

def loadRedirectTuple : Option RedirectTuple :=
  let fast := loadRedirectTupleFast skb
  let loaded := if fast.1=loadRedirectTupleFallback then loadRedirectTupleSlow skb else fast
  if loaded.1=0 then some loaded.2.canonical else none

inductive Dae0Action where
  | ok
  | redirect (ifindex : UInt32) (hSource hDest : Mac) (ingress : Bool)
  deriving DecidableEq

def RedirectEntry.action (e : RedirectEntry) : Dae0Action :=
  if e.ifindex=0 then .ok else .redirect e.ifindex e.dmac e.smac e.fromWan

/-- `tproxy_dae0_ingress`: the map afterwards, and what happens to the packet. -/
def tproxyDae0Ingress (track : RedirectTrack) (skb : Skb) (nowNs : UInt64) :
    RedirectTrack×Dae0Action :=
  match loadRedirectTuple skb with
  | none => (track,.ok)
  | some key =>
    match track key with
    | none => (track,.ok)
    | some e =>
      if e.ifindex=0 then (track,.ok)
      else (update track key (some { e with lastSeenNs := nowNs }),e.action)

/-- The words of an address as one number, in which the comparison is that of numbers. -/
def redirectIpKey : Nat :=
  (((u6Addr32 a 0).toNat*2^32+(u6Addr32 a 1).toNat)*2^32+(u6Addr32 a 2).toNat)*2^32 +
    (u6Addr32 a 3).toNat

theorem u6Addr32_lt : (u6Addr32 a 1).toNat<2^32 ∧ (u6Addr32 a 2).toNat<2^32 ∧
    (u6Addr32 a 3).toNat<2^32 := ⟨UInt32.toNat_lt _,UInt32.toNat_lt _,UInt32.toNat_lt _⟩

theorem redirectIpGt_iff (b : Bytes16) :
    redirectIpGt a b=true ↔ redirectIpKey b < redirectIpKey a := by
  have ha := u6Addr32_lt a
  have hb := u6Addr32_lt b
  simp only [redirectIpGt,redirectIpKey,Bool.or_eq_true,Bool.and_eq_true,decide_eq_true_eq,
    gt_iff_lt,UInt32.lt_iff_toNat_lt,← UInt32.toNat_inj]
  omega

theorem htonl_injective {x y : UInt32} (h : htonl x=htonl y) : x=y := by
  have htoNat : ∀ z : UInt32,(htonl z).toNat=z.toNat%2^8*2^24 +
      z.toNat/2^8%2^8*2^16+z.toNat/2^16%2^8*2^8+z.toNat/2^24 := by
    intro z
    have hz := z.toNat_lt
    rw [htonl,UInt32.toNat_ofNat',Nat.mod_eq_of_lt]
    omega
  have hx := x.toNat_lt
  have hy := y.toNat_lt
  have hn := congrArg UInt32.toNat h
  rw [htoNat,htoNat] at hn
  have hdigits : ∀ a b c d a' b' c' d' : Nat,b<2^8 → c<2^8 → d<2^8 → b'<2^8 → c'<2^8 → d'<2^8 →
      a*2^24+b*2^16+c*2^8+d=a'*2^24+b'*2^16+c'*2^8+d' →
      a=a' ∧ b=b' ∧ c=c' ∧ d=d' := by
    intros
    omega
  obtain ⟨h0,h1,h2,h3⟩ := hdigits _ _ _ _ _ _ _ _ (Nat.mod_lt _ (by decide))
    (Nat.mod_lt _ (by decide)) (by omega) (Nat.mod_lt _ (by decide)) (Nat.mod_lt _ (by decide))
    (by omega) hn
  apply UInt32.toNat_inj.mp
  omega

theorem redirectIpKey_injective {a b : Bytes16} (h : redirectIpKey a=redirectIpKey b) : a=b := by
  have ha' := u6Addr32_lt a
  have hb' := u6Addr32_lt b
  have hbig : ∀ i,(u6Addr32 a i).toNat=(u6Addr32 b i).toNat →
      a.toNat/2^(96-32*i)%2^32=b.toNat/2^(96-32*i)%2^32 := by
    intro i hi
    have hn := congrArg UInt32.toNat (htonl_injective (UInt32.toNat_inj.mp hi))
    simpa only [UInt32.toNat_ofNat'] using hn
  unfold redirectIpKey at h
  have h0 := hbig 0 (by omega)
  have h1 := hbig 1 (by omega)
  have h2 := hbig 2 (by omega)
  have h3 := hbig 3 (by omega)
  have ha := a.isLt
  have hb := b.isLt
  apply BitVec.eq_of_toNat_eq
  omega

theorem RedirectTuple.sorted_swap (b : Bytes16) :
    (RedirectTuple.mk a b).sorted=(RedirectTuple.mk b a).sorted := by
  unfold RedirectTuple.sorted
  by_cases hab : redirectIpGt a b=true
  · have hba : ¬redirectIpGt b a=true := by
      rw [redirectIpGt_iff] at hab ⊢
      omega
    simp only [if_pos hab,if_neg hba]
  · by_cases hba : redirectIpGt b a=true
    · simp only [if_neg hab,if_pos hba]
    · have heq : a=b := by
        apply redirectIpKey_injective
        rw [redirectIpGt_iff] at hab hba
        omega
      rw [heq]

theorem RedirectTuple.sorted_eq_iff (u : RedirectTuple) :
    t.sorted=u.sorted ↔ s(t.sip,t.dip)=s(u.sip,u.dip) := by
  have hends : ∀ t : RedirectTuple,s(t.sorted.sip,t.sorted.dip)=s(t.sip,t.dip) := by
    intro t
    unfold RedirectTuple.sorted
    split_ifs
    · exact Sym2.eq_swap
    · rfl
  constructor
  · intro h
    rw [← hends t,h,hends u]
  · intro h
    rcases Sym2.eq_iff.mp h with ⟨hs,hd⟩ | ⟨hs,hd⟩
    · rw [show t=u from by cases t; cases u; simp_all]
    · have ht : t=⟨u.dip,u.sip⟩ := by
        cases t
        simp_all
      rw [ht,RedirectTuple.sorted_swap]

def addressesAt (offset : Nat) : Option (Bytes16×Bytes16) :=
  if skb.protocol=htons ethPIp then
    (load skb.data offset 20).map fun b => ((IpAddr.v4 (addr4 b 12)).mapped,(IpAddr.v4 (addr4 b 16)).mapped)
  else if skb.protocol=htons ethPIpv6 then
    (load skb.data offset 40).map fun b => (addr16 b 8,addr16 b 24)
  else none

def detectedOffset : Nat :=
  if ethHlen ≤ skb.data.length ∧ looksLikeEthernet (be16 skb.data 12) skb.protocol=true then ethHlen
  else 0

theorem addr4_slice (b : List UInt8) (i : Nat) : addr4 (slice b i 4) 0=addr4 b i := by
  rw [addr4,addr4,slice_slice _ _ (by decide),Nat.add_zero]

theorem addr16_slice (b : List UInt8) (i : Nat) : addr16 (slice b i 16) 0=addr16 b i := by
  rw [addr16,addr16,slice_slice _ _ (by decide),Nat.add_zero]

def replyTuple (ends : Bytes16×Bytes16) : RedirectTuple := ⟨ends.2,ends.1⟩

theorem direct_eq_load {skb : Skb} {k off len : Nat} (hk : k ≤ skb.data.length)
    (h : off+len≤k) : skb.direct k off len=load skb.data off len := by
  have hsome : skb.direct k off len=some (slice (skb.data.take k) off len) := by
    rw [Skb.direct,load_eq_some_iff,List.length_take]
    exact ⟨by omega,rfl⟩
  rw [hsome,load_of_take hsome]

theorem slow_offset : (if (match skb.loadBytes 12 2 with
      | some b => looksLikeEthernet (be16 b 0) skb.protocol
      | none => false)=true then ethHlen else 0)=detectedOffset skb := by
  unfold detectedOffset
  by_cases hlen : ethHlen ≤ skb.data.length
  · have hload : skb.loadBytes 12 2=some (slice skb.data 12 2) := load_eq_some_iff.mpr ⟨hlen,rfl⟩
    have hproto : be16 (slice skb.data 12 2) 0=be16 skb.data 12 := be16_load hload (by decide)
    simp only [hload,hproto,hlen,true_and]
  · have hload : skb.loadBytes 12 2=none := load_eq_none_iff.mpr (by rw [ethHlen] at hlen; omega)
    simp only [hload,hlen,false_and,Bool.false_eq_true]

theorem load_pair (data : List UInt8) (off : Nat) {n i j k : Nat} (hi : i+k=n) (hj : j+k≤n) :
    (∃ b,load data off n=some b ∧ load data (off+i) k=some (slice b i k) ∧
      load data (off+j) k=some (slice b j k)) ∨
    load data off n=none ∧ load data (off+i) k=none := by
  cases h : load data off n with
  | none =>
    refine .inr ⟨rfl,?_⟩
    rw [load_eq_none_iff] at h ⊢
    omega
  | some b => exact .inl ⟨b,rfl,load_slice h (by omega),load_slice h hj⟩

theorem loadRedirectTupleSlow_eq :
    (if (loadRedirectTupleSlow skb).1=0 then some (loadRedirectTupleSlow skb).2 else none) =
      (addressesAt skb (detectedOffset skb)).map replyTuple := by
  unfold loadRedirectTupleSlow addressesAt
  simp only [slow_offset]
  by_cases hip : skb.protocol=htons ethPIp
  · simp only [if_pos hip,Skb.loadBytes]
    rcases load_pair skb.data (detectedOffset skb) (by decide : 16+4=20)
      (by decide : 12+4≤20) with
      ⟨b,hb,hd,hs⟩ | ⟨hb,hd⟩
    · simp only [hb,hd,hs,if_true,map_some,addr4_slice]
      rfl
    · simp only [hb,hd,map_none]
      rfl
  simp only [if_neg hip]
  by_cases hip6 : skb.protocol=htons ethPIpv6
  · simp only [if_pos hip6,Skb.loadBytes]
    rcases load_pair skb.data (detectedOffset skb) (by decide : 24+16=40)
      (by decide : 8+16≤40) with
      ⟨b,hb,hd,hs⟩ | ⟨hb,hd⟩
    · simp only [hb,hd,hs,if_true,map_some,addr16_slice]
      rfl
    · simp only [hb,hd,map_none]
      rfl
  · simp only [if_neg hip6]
    rfl

theorem loadRedirectTupleFastAt_eq {skb : Skb} {k offset : Nat} (hk : k ≤ skb.data.length)
    (hoff : offset+40≤k) :
    let fast := loadRedirectTupleFastAt skb k offset
    fast.1≠loadRedirectTupleFallback ∧
      (if fast.1=0 then some fast.2 else none)=(addressesAt skb offset).map replyTuple := by
  have hload : ∀ len≤40,∃ b,load skb.data offset len=some b ∧ skb.direct k offset len=some b := by
    intro len hlen
    rw [direct_eq_load hk (by omega)]
    exact ⟨_,load_eq_some_iff.mpr ⟨by omega,rfl⟩,load_eq_some_iff.mpr ⟨by omega,rfl⟩⟩
  unfold loadRedirectTupleFastAt addressesAt
  by_cases hip : skb.protocol=htons ethPIp
  · obtain ⟨b,hb,hd⟩ := hload 20 (by decide)
    simp only [if_pos hip,hb,hd,map_some,if_true]
    exact ⟨by decide,rfl⟩
  simp only [if_neg hip]
  by_cases hip6 : skb.protocol=htons ethPIpv6
  · obtain ⟨b,hb,hd⟩ := hload 40 (by decide)
    simp only [if_pos hip6,hb,hd,map_some,if_true]
    exact ⟨by decide,rfl⟩
  · simp only [if_neg hip6]
    exact ⟨by decide,rfl⟩

theorem loadRedirectTupleFast_eq {skb : Skb} (h : (skb.pull redirectPullSize).isSome) :
    (loadRedirectTupleFast skb).1≠loadRedirectTupleFallback ∧
      (if (loadRedirectTupleFast skb).1=0 then some (loadRedirectTupleFast skb).2 else none) =
        (addressesAt skb (detectedOffset skb)).map replyTuple := by
  obtain ⟨k,hk⟩ := isSome_iff_exists.mp h
  obtain ⟨hle,hlen⟩ := skb.pull_le _ _ hk
  have hsize : redirectPullSize=128 := rfl
  have hsmall : ethHlen=14 := rfl
  have hhead : skb.direct k 0 ethHlen=some (slice skb.data 0 ethHlen) := by
    rw [direct_eq_load hlen (by omega),load_eq_some_iff]
    exact ⟨by omega,rfl⟩
  have hproto : be16 (slice skb.data 0 ethHlen) 12=be16 skb.data 12 :=
    be16_load (Skb.loadBytes_of_direct hhead) (by decide)
  have heth : ethHlen ≤ skb.data.length := by omega
  unfold loadRedirectTupleFast detectedOffset
  simp only [hk,hhead,hproto,heth,true_and]
  by_cases hl2 : looksLikeEthernet (be16 skb.data 12) skb.protocol=true
  · simp only [if_pos hl2]
    exact loadRedirectTupleFastAt_eq hlen (by omega)
  · simp only [if_neg hl2]
    exact loadRedirectTupleFastAt_eq hlen (by omega)

theorem loadRedirectTuple_eq : loadRedirectTuple skb =
      (addressesAt skb (detectedOffset skb)).map fun ends => (replyTuple ends).canonical := by
  have hcanon : ∀ loaded : Int×RedirectTuple,
      (if loaded.1=0 then some loaded.2.canonical else none) =
        (if loaded.1=0 then some loaded.2 else none).map RedirectTuple.canonical := by
    intro loaded
    split_ifs <;> rfl
  unfold loadRedirectTuple
  dsimp only
  rw [hcanon]
  cases hpull : skb.pull redirectPullSize with
  | none =>
    have hfast : loadRedirectTupleFast skb=(loadRedirectTupleFallback,⟨0,0⟩) := by
      simp only [loadRedirectTupleFast,hpull]
    rw [hfast,if_pos rfl,loadRedirectTupleSlow_eq,map_map]
    rfl
  | some k =>
    obtain ⟨hne,heq⟩ := loadRedirectTupleFast_eq (by rw [hpull]; rfl)
    rw [if_neg hne,heq,map_map]
    rfl

def networkOffset (l2 : Bool) : Nat := if l2 then ethHlen else 0

/-- A packet from one address to the other, with or without an Ethernet header. -/
inductive Carries (skb : Skb) (l2 : Bool) : IpAddr → IpAddr → Prop where
  | v4 {b : List UInt8} (protocol : skb.protocol=htons ethPIp)
      (ethertype : l2=true → be16 skb.data 12=skb.protocol)
      (header : load skb.data (networkOffset l2) 20=some b)
      (version : (Iphdr.ofBytes b).version=4) :
      Carries skb l2 (.v4 (addr4 b 12)) (.v4 (addr4 b 16))
  | v6 {b : List UInt8} (protocol : skb.protocol=htons ethPIpv6)
      (ethertype : l2=true → be16 skb.data 12=skb.protocol)
      (header : load skb.data (networkOffset l2) 40=some b) :
      Carries skb l2 (.v6 (addr16 b 8)) (.v6 (addr16 b 24))

/-- A packet without an Ethernet header whose source address has the ethertype in its place. -/
def Misread (l2 : Bool) : Prop := l2=false ∧ looksLikeEthernet (be16 skb.data 12) skb.protocol=true

instance (skb : Skb) (l2 : Bool) : Decidable (Misread skb l2) := inferInstanceAs (Decidable (_ ∧ _))

section Carries

variable {skb : Skb} {l2 : Bool} {src dst : IpAddr} (h : Carries skb l2 src dst)
include h

theorem Carries.addresses : addressesAt skb (networkOffset l2)=some (src.mapped,dst.mapped) := by
  cases h with
  | v4 protocol ethertype header version =>
    simp only [addressesAt,if_pos protocol,header,map_some]
  | v6 protocol ethertype header =>
    have hne : ¬skb.protocol=htons ethPIp := by
      rw [protocol]
      decide
    simp only [addressesAt,if_neg hne,if_pos protocol,header,map_some]
    rfl

theorem Carries.length_le : networkOffset l2+20 ≤ skb.data.length := by
  cases h with
  | v4 protocol ethertype header version => exact (load_eq_some_iff.mp header).1
  | v6 protocol ethertype header =>
    have := (load_eq_some_iff.mp header).1
    omega

theorem Carries.ethertype (hl2 : l2=true) :
    be16 skb.data 12=skb.protocol ∧ looksLikeEthernet (be16 skb.data 12) skb.protocol=true := by
  cases h with
  | v4 protocol ethertype header version | v6 protocol ethertype header =>
    refine ⟨ethertype hl2,?_⟩
    rw [ethertype hl2,protocol]
    decide

theorem Carries.detected :
    detectedOffset skb=if Misread skb l2 then ethHlen else networkOffset l2 := by
  have hlen : ethHlen ≤ skb.data.length := by
    have hle := h.length_le
    have hsmall : ethHlen=14 := rfl
    omega
  unfold detectedOffset Misread
  cases l2 with
  | true => simp only [hlen,(h.ethertype rfl).2,networkOffset]; simp
  | false => simp only [hlen,networkOffset]; simp

theorem slow_network_tuples {ethh : Ethhdr}
    (hproto : ethh.hProto=skb.protocol) (tcph : Tcphdr) (udph : Udphdr) (l4proto : UInt8) :
    let c := (Slow.network skb.loadBytes (networkOffset l2) ethh).2
    (getTuples c.iph c.ipv6h tcph udph l4proto).five.sip=src.mapped ∧
      (getTuples c.iph c.ipv6h tcph udph l4proto).five.dip=dst.mapped := by
  unfold Slow.network
  cases h with
  | v4 protocol ethertype header version =>
    have hload : skb.loadBytes (networkOffset l2) 20=some _ := header
    simp only [if_pos (hproto.trans protocol),getTuples,slow_ipv4_header hload,version,if_true]
    exact ⟨rfl,rfl⟩
  | v6 protocol ethertype header =>
    have hne : ¬ethh.hProto=htons ethPIp := by
      rw [hproto,protocol]
      decide
    have hload : skb.loadBytes (networkOffset l2) 40=some _ := header
    simp only [if_neg hne,if_pos (hproto.trans protocol),getTuples,slow_ipv6_header hload]
    exact ⟨rfl,rfl⟩

theorem Carries.parsePacket_addresses {pkt : ParsedPacket}
    (hparse : parsePacket skb (networkOffset l2)=.ok pkt) :
    pkt.tuples.five.sip=src.mapped ∧ pkt.tuples.five.dip=dst.mapped := by
  obtain ⟨stale,c,hslow,-,htuples⟩ := parsePacket_tuples hparse
  have hctx : ∃ ethh : Ethhdr,ethh.hProto=skb.protocol ∧
      (Slow.network skb.loadBytes (networkOffset l2) ethh).2=c := by
    unfold parseTransportSlow at hslow
    cases l2 with
    | false =>
      have hlink : ¬networkOffset false=ethHlen := by decide
      simp only [if_neg hlink] at hslow
      exact ⟨⟨0,0,skb.protocol⟩,rfl,congrArg Prod.snd hslow⟩
    | true =>
      have hlink : networkOffset true=ethHlen := rfl
      have hhead : skb.loadBytes 0 ethHlen=some (slice skb.data 0 ethHlen) := by
        have hle := h.length_le
        rw [Skb.loadBytes,load_eq_some_iff]
        exact ⟨by omega,rfl⟩
      simp only [if_pos hlink,hhead,map_some] at hslow
      refine ⟨_,?_,congrArg Prod.snd hslow⟩
      exact (be16_load hhead (by decide)).trans (h.ethertype rfl).1
  obtain ⟨ethh,hproto,rfl⟩ := hctx
  rw [htuples]
  exact slow_network_tuples h hproto _ _ _

end Carries

theorem Carries.forward_tuple {f : Forward} {l2 : Bool} {src dst : IpAddr}
    (h : Carries f.skb l2 src dst) (hs : f.tuples.five.sip=src.mapped)
    (hd : f.tuples.five.dip=dst.mapped) :
    fillRedirectTupleFromForwardPacket f.skb f.tuples=⟨src.mapped,dst.mapped⟩ := by
  unfold fillRedirectTupleFromForwardPacket
  cases h with
  | v4 protocol ethertype header version =>
    rw [if_pos protocol,hs,hd,IpAddr.ofNat_mapped_v4,IpAddr.ofNat_mapped_v4]
  | v6 protocol ethertype header =>
    have hne : ¬f.skb.protocol=htons ethPIp := by
      rw [protocol]
      decide
    rw [if_neg hne,hs,hd]

def forwardOf (pkt : ParsedPacket) (fromWan : Bool) (nowNs : UInt64) : Forward :=
  ⟨skb,detectLinkHLen skb,pkt.tuples,pkt.ethh,fromWan,nowNs⟩

/-- What happens to the map; a deletion is the janitor's, or an eviction. -/
inductive TrackEvent where
  | forward (f : Forward) (stored : Bool)
  | reply (skb : Skb) (nowNs : UInt64)
  | delete (key : RedirectTuple)

namespace TrackEvent

def step (track : RedirectTrack) : TrackEvent → RedirectTrack
  | .forward f stored => publishRedirectTrackForPacket track f stored
  | .reply skb nowNs => (tproxyDae0Ingress track skb nowNs).1
  | .delete key => update track key none

def run (track : RedirectTrack) (es : List TrackEvent) : RedirectTrack := es.foldl step track

def sets (key : RedirectTuple) : TrackEvent → Option (Option RedirectEntry)
  | .forward f stored => if stored ∧ f.key=key then some (some f.entry) else none
  | .reply _ _ => none
  | .delete k => if k=key then some none else none

def lastSet (key : RedirectTuple) (before : Option RedirectEntry) (es : List TrackEvent) :
    Option RedirectEntry :=
  es.foldl (fun e event => (event.sets key).getD e) before

end TrackEvent

def RedirectEntry.record (e : RedirectEntry) : RedirectEntry := { e with lastSeenNs := 0 }

variable {track : RedirectTrack} {key : RedirectTuple}

theorem tproxyDae0Ingress_action {skb : Skb} (h : loadRedirectTuple skb=some key) (nowNs : UInt64) :
    (tproxyDae0Ingress track skb nowNs).2=((track key).map RedirectEntry.action).getD .ok := by
  unfold tproxyDae0Ingress
  simp only [h]
  cases track key with
  | none => rfl
  | some e =>
    by_cases hif : e.ifindex=0
    · simp only [if_pos hif,map_some,getD_some,RedirectEntry.action]
    · simp only [if_neg hif,map_some,getD_some]

theorem tproxyDae0Ingress_record (track : RedirectTrack) (skb : Skb) (nowNs : UInt64)
    (key : RedirectTuple) :
    ((tproxyDae0Ingress track skb nowNs).1 key).map RedirectEntry.record =
      (track key).map RedirectEntry.record := by
  unfold tproxyDae0Ingress
  cases loadRedirectTuple skb with
  | none => rfl
  | some k =>
    cases hk : track k with
    | none => simp only [hk]
    | some e =>
      by_cases hif : e.ifindex=0
      · simp only [hk,if_pos hif]
      · simp only [hk,if_neg hif]
        by_cases hkey : key=k
        · subst hkey
          rw [update_self,hk]
          rfl
        · rw [update_of_ne hkey]

theorem step_record {before : Option RedirectEntry}
    (h : (track key).map RedirectEntry.record=before.map RedirectEntry.record) (e : TrackEvent) :
    ((e.step track) key).map RedirectEntry.record =
      ((e.sets key).getD before).map RedirectEntry.record := by
  cases e with
  | forward f stored =>
    simp only [TrackEvent.step,publishRedirectTrackForPacket,TrackEvent.sets]
    by_cases hs : stored=true
    · by_cases hk : f.key=key
      · simp only [hs,hk,if_true,true_and,getD_some,update_self]
      · simp only [hs,hk,if_true,true_and,if_false,getD_none,update_of_ne (Ne.symm hk),h]
    · simp only [hs,if_false,false_and,getD_none,h,Bool.false_eq_true]
  | reply skb nowNs => exact (tproxyDae0Ingress_record track skb nowNs key).trans h
  | delete k =>
    simp only [TrackEvent.step,TrackEvent.sets]
    by_cases hk : k=key
    · simp only [hk,if_true,getD_some,update_self]
    · simp only [hk,if_false,getD_none,update_of_ne (Ne.symm hk),h]

theorem run_record (es : List TrackEvent) {before : Option RedirectEntry}
    (h : (track key).map RedirectEntry.record=before.map RedirectEntry.record) :
    ((TrackEvent.run track es) key).map RedirectEntry.record =
      (TrackEvent.lastSet key before es).map RedirectEntry.record := by
  induction es generalizing track before with
  | nil => exact h
  | cons e es ih => exact ih (step_record h e)

theorem reply_action {es : List TrackEvent} {reply : Skb} {f : Forward}
    (h : loadRedirectTuple reply=some f.key) (before : List TrackEvent) (nowNs : UInt64) :
    (tproxyDae0Ingress (TrackEvent.run track (before++.forward f true::es)) reply nowNs).2 =
      ((TrackEvent.lastSet f.key (some f.entry) es).map RedirectEntry.action).getD .ok := by
  have hrecord : ((TrackEvent.run track (before++.forward f true::es)) f.key).map
      RedirectEntry.record =
        (TrackEvent.lastSet f.key (some f.entry) es).map RedirectEntry.record := by
    rw [TrackEvent.run,List.foldl_append,List.foldl_cons]
    apply run_record
    simp only [TrackEvent.step,publishRedirectTrackForPacket,if_true,update_self]
  have haction : ∀ e : Option RedirectEntry,
      e.map RedirectEntry.action=(e.map RedirectEntry.record).map RedirectEntry.action := by
    intro e
    rw [map_map]
    rfl
  rw [tproxyDae0Ingress_action h,haction,hrecord,← haction]

def pairOf (a b : Bytes16) : Sym2 Bytes16 := s(normalizeRedirectIp a,normalizeRedirectIp b)

/-- The addresses that a packet is recorded under. -/
def Forward.ends (f : Forward) : Sym2 Bytes16 :=
  let t := fillRedirectTupleFromForwardPacket f.skb f.tuples
  pairOf t.sip t.dip

/-- What stands where the addresses are behind an Ethernet header. -/
def EndsBehindEthernet (ends : Sym2 Bytes16) : Prop :=
  ∃ a,addressesAt skb ethHlen=some a ∧ pairOf a.1 a.2=ends

theorem Carries.reply_key_iff {reply : Skb} {l2 : Bool} {src dst : IpAddr}
    (h : Carries reply l2 dst src) (f : Forward) :
    loadRedirectTuple reply=some f.key ↔
      if Misread reply l2 then EndsBehindEthernet reply f.ends
      else f.ends=pairOf src.mapped dst.mapped := by
  have hcanon (ends : Bytes16×Bytes16) :
      (replyTuple ends).canonical=f.key ↔ pairOf ends.1 ends.2=f.ends := by
    rw [Forward.key,RedirectTuple.canonical,RedirectTuple.canonical,RedirectTuple.sorted_eq_iff,
      pairOf,Sym2.eq_swap]
    rfl
  rw [loadRedirectTuple_eq,h.detected,map_eq_some_iff]
  simp only [hcanon]
  split_ifs with hread
  · exact Iff.rfl
  · rw [h.addresses]
    simp [pairOf,Sym2.eq_swap,eq_comm]

/-- A reply has the key of a packet exactly when the packet is recorded under the two addresses, as
one with its link header detected right is, unless the reply has no Ethernet header and the
ethertype stands in the place of one: then its payload must spell them. It is redirected as
recorded, whatever happens under other keys. -/
theorem reply_redirected_iff {skb reply : Skb} {l2 l2' : Bool} {src dst : IpAddr}
    {pkt : ParsedPacket} (hforward : Carries skb l2 src dst)
    (hparse : parsePacket skb (detectLinkHLen skb)=.ok pkt) (hif : skb.ifindex≠0)
    (hreply : Carries reply l2' dst src) (fromWan : Bool) (nowNs : UInt64) :
    let f := forwardOf skb pkt fromWan nowNs
    (loadRedirectTuple reply=some f.key ↔
      if Misread reply l2' then EndsBehindEthernet reply f.ends
      else f.ends=pairOf src.mapped dst.mapped) ∧
    (detectLinkHLen skb=networkOffset l2 → f.ends=pairOf src.mapped dst.mapped) ∧
    (loadRedirectTuple reply=some f.key →
      ∀ (track : RedirectTrack) (before between : List TrackEvent) (laterNs : UInt64),
        (∀ e∈between,e.sets f.key=none) →
        (tproxyDae0Ingress (TrackEvent.run track (before++.forward f true::between)) reply
          laterNs).2=.redirect skb.ifindex f.entry.dmac f.entry.smac fromWan) := by
  intro f
  refine ⟨hreply.reply_key_iff f,fun hdetect => ?_,fun hkey track before between laterNs hother => ?_⟩
  · obtain ⟨hsip,hdip⟩ := hforward.parsePacket_addresses (hdetect ▸ hparse)
    rw [Forward.ends,Carries.forward_tuple (f := f) hforward hsip hdip]
  have hlast : TrackEvent.lastSet f.key (some f.entry) between=some f.entry := by
    clear hkey
    induction between with
    | nil => rfl
    | cons e es ih =>
      have he : e.sets f.key=none := hother e (by simp)
      rw [TrackEvent.lastSet,List.foldl_cons,he]
      exact ih fun e he => hother e (by simp [he])
  rw [reply_action hkey before laterNs,hlast,Option.map_some,Option.getD_some,
    RedirectEntry.action,if_neg (show ¬f.entry.ifindex=0 from hif)]
  rfl

theorem carries_v4 {skb : Skb} {l2 : Bool} {src dst : Ipv4Addr}
    (protocol : skb.protocol=htons ethPIp)
    (ethertype : l2=true → be16 skb.data 12=skb.protocol)
    (header : ((load skb.data (networkOffset l2) 20).map fun b =>
      ((Iphdr.ofBytes b).version,addr4 b 12,addr4 b 16))=some (4,src,dst)) :
    Carries skb l2 (.v4 src) (.v4 dst) := by
  obtain ⟨b,hb,hfields⟩ := map_eq_some_iff.mp header
  obtain ⟨hversion,hsrc,hdst⟩ :
      (Iphdr.ofBytes b).version=4 ∧ addr4 b 12=src ∧ addr4 b 16=dst := by
    simpa using hfields
  rw [← hsrc,← hdst]
  exact .v4 protocol ethertype hb hversion

def tcpReply : Skb := ipv4Packet [1,1,1,1] [10,0,0,1] ipprotoTcp (tcpSegment 0x12) 9

theorem reply_redirected_syn : ∃ pkt,
    parsePacket (tcpPacket 0x02) (detectLinkHLen (tcpPacket 0x02))=.ok pkt ∧
    (tproxyDae0Ingress (TrackEvent.run (fun _ => none)
      [.forward (forwardOf (tcpPacket 0x02) pkt false 1) true]) tcpReply 2).2 =
        .redirect 2 0 0 false := by
  have hpkt : (parsePacket (tcpPacket 0x02) (detectLinkHLen (tcpPacket 0x02))).toOption.map
      (fun pkt => ((forwardOf (tcpPacket 0x02) pkt false 1).entry.dmac,
        (forwardOf (tcpPacket 0x02) pkt false 1).entry.smac))=some (0,0) := by
    decide +kernel
  obtain ⟨pkt,hparse,hmacs⟩ := Fallible.exists_ok_of_map hpkt
  obtain ⟨hdmac,hsmac⟩ := Prod.mk.inj hmacs
  have hforward : Carries (tcpPacket 0x02) false (.v4 0x0a000001) (.v4 0x01010101) :=
    carries_v4 rfl (by decide) (by decide +kernel)
  have hreply : Carries tcpReply false (.v4 0x01010101) (.v4 0x0a000001) :=
    carries_v4 rfl (by decide) (by decide +kernel)
  have hread : ¬Misread tcpReply false := by
    decide +kernel
  obtain ⟨hkey,hends,hredirect⟩ := reply_redirected_iff hforward hparse (by decide) hreply false 1
  rw [if_neg hread] at hkey
  have h := hredirect (hkey.mpr (hends (by decide +kernel))) (fun _ => none) [] [] 2 (by simp)
  rw [hdmac,hsmac] at h
  exact ⟨pkt,hparse,h⟩

/-- The reply comes from 8.0.0.1, whose first two bytes are the ethertype of IPv4. -/
theorem reply_from_ethertype_lost :
    let skb := ipv4Packet [10,0,0,1] [8,0,0,1] ipprotoTcp (tcpSegment 0x02) 2
    let reply := ipv4Packet [8,0,0,1] [10,0,0,1] ipprotoTcp (tcpSegment 0x12) 9
    (parsePacket skb (detectLinkHLen skb)).toOption.map (fun pkt =>
      let f := forwardOf skb pkt false 1
      (f.key,loadRedirectTuple reply,
        (tproxyDae0Ingress (TrackEvent.run (fun _ => none) [.forward f true]) reply 2).2)) =
      some (⟨(IpAddr.v4 0x08000001).mapped,(IpAddr.v4 0x0a000001).mapped⟩,
        some ⟨(IpAddr.v4 0x00010000).mapped,(IpAddr.v4 0x00015012).mapped⟩,.ok) := by
  decide +kernel

/-- A reply is redirected as was recorded for its flow exactly when the last entry under the pair of
addresses, of whatever flow, has its interface, MAC addresses and direction. -/
theorem flow_reply_iff {track : RedirectTrack} {before after : List TrackEvent} {f : Forward}
    {reply : Skb} (hkey : loadRedirectTuple reply=some f.key) (hif : f.skb.ifindex≠0)
    (nowNs : UInt64) :
    (tproxyDae0Ingress (TrackEvent.run track (before++.forward f true::after)) reply nowNs).2 =
        .redirect f.skb.ifindex f.entry.dmac f.entry.smac f.fromWan ↔
      (TrackEvent.lastSet f.key (some f.entry) after).map RedirectEntry.record =
        some f.entry.record := by
  rw [reply_action hkey before nowNs]
  cases hlast : TrackEvent.lastSet f.key (some f.entry) after with
  | none => simp
  | some e =>
    simp only [Option.map_some,Option.getD_some,RedirectEntry.action,Option.some.injEq]
    have hentry : f.entry.ifindex=f.skb.ifindex ∧ f.entry.fromWan=f.fromWan := ⟨rfl,rfl⟩
    by_cases he : e.ifindex=0
    · rw [if_pos he]
      constructor
      · intro h
        cases h
      · intro h
        exact absurd ((congrArg RedirectEntry.ifindex h).symm.trans he) hif
    · rw [if_neg he,Dae0Action.redirect.injEq,RedirectEntry.record,RedirectEntry.record,
        RedirectEntry.mk.injEq,← hentry.1,← hentry.2]
      tauto

def lanFlow : Forward where
  skb := tcpPacket 0x02
  linkHLen := 0
  tuples := ⟨⟨(IpAddr.v4 0x0a000001).mapped,(IpAddr.v4 0x01010101).mapped,htons 49152,htons 443,
    ipprotoTcp⟩,0⟩
  ethh := ⟨0,0,htons ethPIp⟩
  fromWan := false
  nowNs := 1

def dnsFlow : Forward where
  skb := ipv4Packet [10,0,0,1] [1,1,1,1] ipprotoUdp [0xc0,0,0,53,0,108,0,0] 3
  linkHLen := 0
  tuples := ⟨⟨(IpAddr.v4 0x0a000001).mapped,(IpAddr.v4 0x01010101).mapped,htons 49152,htons 53,
    ipprotoUdp⟩,0⟩
  ethh := ⟨0,0,htons ethPIp⟩
  fromWan := false
  nowNs := 2

/-- A query between the same addresses enters on the same interface, and the first reply to the
SYN has passed. -/
theorem flow_reply_same_interface :
    let query := { dnsFlow with
      skb := ipv4Packet [10,0,0,1] [1,1,1,1] ipprotoUdp [0xc0,0,0,53,0,108,0,0] 2 }
    (tproxyDae0Ingress (TrackEvent.run (fun _ => none) ([]++.forward lanFlow true ::
      [.forward query true,.reply tcpReply 3])) tcpReply 4).2=.redirect 2 0 0 false :=
  (flow_reply_iff (by decide +kernel) (by decide) 4).mpr (by decide +kernel)

/-- Both flows are parsed from their packets; the reply to the SYN leaves on the interface of the
DNS query. -/
theorem reply_takes_other_flow :
    (parsePacket lanFlow.skb (detectLinkHLen lanFlow.skb)).toOption.map (·.tuples) =
        some lanFlow.tuples ∧
      (parsePacket dnsFlow.skb (detectLinkHLen dnsFlow.skb)).toOption.map (·.tuples) =
        some dnsFlow.tuples ∧
      (tproxyDae0Ingress (TrackEvent.run (fun _ => none)
        [.forward lanFlow true,.forward dnsFlow true]) tcpReply 3).2=.redirect 3 0 0 false := by
  decide +kernel

end DaeRs.Datapath
