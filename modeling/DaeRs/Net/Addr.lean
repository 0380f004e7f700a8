import DaeRs.Bpf.Route
import Mathlib.Tactic.Ring
import Mathlib.Tactic.Linarith

/-! IP addresses and prefixes, and their place in the 128-bit space of the kernel tries. -/

namespace DaeRs.Net

open Bpf

abbrev Ipv4Addr := BitVec 32
abbrev Ipv6Addr := BitVec 128

inductive IpAddr where
  | v4 (ip : Ipv4Addr)
  | v6 (ip : Ipv6Addr)
  deriving DecidableEq

/-- A prefix of `w`-bit addresses; the address need not be truncated. -/
structure Prefix (w : Nat) where
  addr : BitVec w
  prefixLen : Nat
  prefixLen_le : prefixLen≤w
  deriving DecidableEq

inductive IpNet where
  | v4 (net : Prefix 32)
  | v6 (net : Prefix 128)
  deriving DecidableEq

namespace Prefix

variable {w : Nat} (n : Prefix w)

def hostBits : Nat := w-n.prefixLen

def network : Nat := n.addr.toNat/2^n.hostBits*2^n.hostBits

def contains (ip : BitVec w) : Bool := decide (n.addr.toNat/2^n.hostBits=ip.toNat/2^n.hostBits)

theorem network_lt : n.network+(2^n.hostBits-1)<2^w := by
  have hpow : 2^w=2^n.prefixLen*2^n.hostBits := by
    rw [← Nat.pow_add,hostBits,Nat.add_sub_cancel' n.prefixLen_le]
  have hpos : 0<2^n.hostBits := by positivity
  have hdiv : n.addr.toNat/2^n.hostBits<2^n.prefixLen := by
    rw [Nat.div_lt_iff_lt_mul hpos,← hpow]
    exact n.addr.isLt
  have hmul : (n.addr.toNat/2^n.hostBits+1)*2^n.hostBits ≤
      2^n.prefixLen*2^n.hostBits := Nat.mul_le_mul_right _ hdiv
  rw [hpow,network]
  rw [Nat.add_mul] at hmul
  omega

theorem contains_iff_range (ip : BitVec w) : n.contains ip=true ↔
      n.network ≤ ip.toNat ∧ ip.toNat≤n.network+(2^n.hostBits-1) := by
  have hpos : 0<2^n.hostBits := by positivity
  rw [contains,decide_eq_true_iff,network,eq_comm,Nat.div_eq_iff hpos]
  omega

end Prefix

namespace IpAddr

/-- The 16 bytes of an address in a tuple: IPv4 as `::ffff:a.b.c.d`. -/
def mapped : IpAddr → Bytes16
  | v4 ip => BitVec.append (0xffff#96) ip
  | v6 ip => ip

theorem mapped_v4_toNat (ip : Ipv4Addr) : (IpAddr.v4 ip).mapped.toNat=0xffff*2^32+ip.toNat := by
  have h : (IpAddr.v4 ip).mapped=0xffff#96++ip := rfl
  have hlt : ip.toNat<2^32 := ip.isLt
  rw [h,BitVec.toNat_append,← Nat.shiftLeft_add_eq_or_of_lt hlt,Nat.shiftLeft_eq]
  rfl

theorem ofNat_mapped_v4 (ip : Ipv4Addr) : BitVec.ofNat 32 (IpAddr.v4 ip).mapped.toNat=ip := by
  apply BitVec.eq_of_toNat_eq
  have hlt := ip.isLt
  rw [BitVec.toNat_ofNat,mapped_v4_toNat]
  omega

end IpAddr

/-- A prefix as the key of a trie. -/
structure CidrEntry where
  ip : Bytes16
  prefixLen : Nat
  deriving DecidableEq

namespace IpNet

def prefixLen : IpNet → Nat
  | v4 n => n.prefixLen
  | v6 n => n.prefixLen

def sameFamily : IpNet → IpAddr → Bool
  | v4 _,.v4 _ => true
  | v6 _,.v6 _ => true
  | _,_ => false

def contains : IpNet → IpAddr → Bool
  | v4 n,.v4 ip => n.contains ip
  | v6 n,.v6 ip => n.contains ip
  | _,_ => false

def cidrEntry : IpNet → CidrEntry
  | v4 n => ⟨(IpAddr.v4 n.addr).mapped,n.prefixLen+96⟩
  | v6 n => ⟨n.addr,n.prefixLen⟩

def lpmKey (n : IpNet) : LpmKey := ⟨n.cidrEntry.prefixLen,n.cidrEntry.ip⟩

/-- A prefix covers the address in the 128-bit space. -/
def covers (n : IpNet) (ip : Bytes16) : Bool := n.lpmKey.covers (hostKey ip)

end IpNet

def cidrsToCidrEntries (cidrs : List IpNet) : List (Nat×CidrEntry) :=
  cidrs.zipIdx.map fun c => (c.2,c.1.cidrEntry)

theorem covers_v4_mapped (n : Prefix 32) (ip : Ipv4Addr) :
    (IpNet.v4 n).covers (IpAddr.v4 ip).mapped=n.contains ip := by
  have hle := n.prefixLen_le
  have hbits : 128-(n.prefixLen+96)=n.hostBits := by
    rw [Prefix.hostBits]
    omega
  have hpow : (2 : Nat)^32=2^n.hostBits*2^n.prefixLen := by
    rw [← Nat.pow_add,Prefix.hostBits,Nat.sub_add_cancel hle]
  have hdiv : ∀ a : Nat,(0xffff*2^32+a)/2^n.hostBits =0xffff*2^n.prefixLen+a/2^n.hostBits := by
    intro a
    rw [hpow,Nat.mul_left_comm,Nat.mul_add_div (by positivity)]
  have hlen : n.prefixLen+96≤128 := by omega
  simp only [IpNet.covers,LpmKey.covers,IpNet.lpmKey,IpNet.cidrEntry,hostKey,hbits,hlen,
    decide_true,Bool.true_and,Nat.shiftRight_eq_div_pow,IpAddr.mapped_v4_toNat,hdiv,
    Nat.add_left_cancel_iff,Prefix.contains]

theorem covers_v6 (n : Prefix 128) (ip : Ipv6Addr) : (IpNet.v6 n).covers ip=n.contains ip := by
  have hle := n.prefixLen_le
  simp only [IpNet.covers,LpmKey.covers,IpNet.lpmKey,IpNet.cidrEntry,hostKey,hle,
    decide_true,Bool.true_and,Nat.shiftRight_eq_div_pow,Prefix.contains,Prefix.hostBits]
  rfl

theorem covers_eq_contains {n : IpNet} {ip : IpAddr} (h : n.sameFamily ip=true) :
    n.covers ip.mapped=n.contains ip := by
  cases n with
  | v4 n =>
    cases ip with
    | v4 ip => exact covers_v4_mapped n ip
    | v6 ip => cases h
  | v6 n =>
    cases ip with
    | v4 ip => cases h
    | v6 ip => exact covers_v6 n ip

end DaeRs.Net
