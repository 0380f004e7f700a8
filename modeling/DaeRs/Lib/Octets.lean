import Mathlib.Algebra.Order.Ring.Nat
import Mathlib.Data.List.Basic

/-! Loads from a byte string, and numbers as bytes. -/

namespace Octets

open List

variable (bs : List UInt8)

def slice (i k : Nat) : List UInt8 := (bs.drop i).take k

def load (data : List UInt8) (off len : Nat) : Option (List UInt8) :=
  if off+len≤data.length then some (slice data off len) else none

theorem load_eq_some_iff {data bs : List UInt8} {off len : Nat} :
    load data off len=some bs ↔ off+len≤data.length ∧ slice data off len=bs := by
  unfold load
  split_ifs with h
  · simp [h]
  · simp [h]

theorem load_eq_none_iff {data : List UInt8} {off len : Nat} :
    load data off len=none ↔ data.length<off+len := by
  unfold load
  split_ifs with h
  · simp [h]
  · simpa using h

theorem slice_slice {n i k : Nat} (off : Nat) (h : i+k≤n) :
    slice (slice bs off n) i k=slice bs (off+i) k := by
  simp only [slice,drop_take,take_take,drop_drop]
  rw [Nat.min_eq_left (by omega)]

theorem load_slice {data bs : List UInt8} {off n i k : Nat} (h : load data off n=some bs)
    (hik : i+k≤n) : load data (off+i) k=some (slice bs i k) := by
  obtain ⟨hle,rfl⟩ := load_eq_some_iff.mp h
  rw [load_eq_some_iff,slice_slice data off hik]
  exact ⟨by omega,rfl⟩

theorem load_of_take {data bs : List UInt8} {n off len : Nat}
    (h : load (data.take n) off len=some bs) : load data off len=some bs := by
  obtain ⟨hle,rfl⟩ := load_eq_some_iff.mp h
  rw [length_take] at hle
  rw [load_eq_some_iff]
  refine ⟨by omega,?_⟩
  simp only [slice,drop_take,take_take]
  rw [Nat.min_eq_left (by omega)]

def ofLE : List UInt8 → Nat
  | [] => 0
  | b::bs => b.toNat+256*ofLE bs

def ofBE : Nat := bs.foldl (fun n b => 256*n+b.toNat) 0

def toLE : Nat → Nat → List UInt8
  | 0,_ => []
  | w+1,n => UInt8.ofNat n::toLE w (n/256)

@[simp] theorem toLE_length (w n : Nat) : (toLE w n).length=w := by
  induction w generalizing n with
  | zero => rfl
  | succ w ih => rw [toLE,length_cons,ih]

theorem ofLE_toLE (w n : Nat) : ofLE (toLE w n)=n%256^w := by
  induction w generalizing n with
  | zero => simp [toLE,ofLE,Nat.mod_one]
  | succ w ih =>
    have hbyte : (UInt8.ofNat n).toNat=n%256 := UInt8.toNat_ofNat'
    rw [toLE,ofLE,ih,hbyte,Nat.pow_succ',Nat.mod_mul]

theorem toLE_ofLE : toLE bs.length (ofLE bs)=bs := by
  induction bs with
  | nil => rfl
  | cons b bs ih =>
    have hlt := b.toNat_lt
    have hbyte : UInt8.ofNat (b.toNat+256*ofLE bs)=b := by
      apply UInt8.toNat_inj.mp
      rw [UInt8.toNat_ofNat']
      omega
    have hrest : (b.toNat+256*ofLE bs)/256=ofLE bs := by omega
    rw [length_cons,ofLE,toLE,hbyte,hrest,ih]

theorem ofLE_lt : ofLE bs<256^bs.length := by
  induction bs with
  | nil => exact Nat.zero_lt_one
  | cons b bs ih =>
    have hlt := b.toNat_lt
    rw [length_cons,Nat.pow_succ,ofLE]
    omega

def toBE (w n : Nat) : List UInt8 := (toLE w n).reverse

@[simp] theorem toBE_length (w n : Nat) : (toBE w n).length=w := by
  rw [toBE,length_reverse,toLE_length]

theorem ofBE_append_singleton (b : UInt8) : ofBE (bs++[b])=256*ofBE bs+b.toNat := by
  rw [ofBE,foldl_append]
  rfl

theorem ofBE_reverse : ofBE bs.reverse=ofLE bs := by
  induction bs with
  | nil => rfl
  | cons b bs ih =>
    rw [reverse_cons,ofBE_append_singleton,ih,ofLE,Nat.add_comm]

theorem ofBE_toBE (w n : Nat) : ofBE (toBE w n)=n%256^w := by
  rw [toBE,ofBE_reverse,ofLE_toLE]

theorem toBE_ofBE : toBE bs.length (ofBE bs)=bs := by
  have hreverse : ofBE bs=ofLE bs.reverse := by rw [← ofBE_reverse,reverse_reverse]
  rw [toBE,hreverse,← length_reverse,toLE_ofLE,reverse_reverse]

theorem ofBE_lt : ofBE bs<256^bs.length := by
  have hlt := ofLE_lt bs.reverse
  rwa [← ofBE_reverse,reverse_reverse,length_reverse] at hlt

theorem toBE_inj {w m n : Nat} (hm : m<256^w) (hn : n<256^w) (h : toBE w m=toBE w n) : m=n := by
  have hvalue := congrArg ofBE h
  rwa [ofBE_toBE,ofBE_toBE,Nat.mod_eq_of_lt hm,Nat.mod_eq_of_lt hn] at hvalue

theorem ofBE_toBE_port (port : UInt16) : UInt16.ofNat (ofBE (toBE 2 port.toNat))=port := by
  have hlt : port.toNat<256^2 := UInt16.toNat_lt port
  rw [ofBE_toBE,Nat.mod_eq_of_lt hlt,UInt16.ofNat_toNat]

theorem ofBE_toBE_bits {w k : Nat} (hw : 2^w=256^k) (ip : BitVec w) :
    BitVec.ofNat w (ofBE (toBE k ip.toNat))=ip := by
  have hlt : ip.toNat<256^k := hw ▸ ip.isLt
  rw [ofBE_toBE,Nat.mod_eq_of_lt hlt,BitVec.ofNat_toNat,BitVec.setWidth_eq]

theorem map_xor_map_xor (k : UInt8) (bs : List UInt8) : (bs.map (· ^^^ k)).map (· ^^^ k)=bs := by
  have hcancel : ((· ^^^ k) ∘ (· ^^^ k) : UInt8 → UInt8)=id := by
    funext b
    show b ^^^ k ^^^ k=b
    rw [UInt8.xor_assoc,UInt8.xor_self,UInt8.xor_zero]
  rw [map_map,hcancel,map_id]

theorem slice_append (pre mid post : List UInt8) :
    slice (pre++(mid++post)) pre.length mid.length=mid := by
  rw [slice,drop_left,take_left]

theorem load_append (pre mid post : List UInt8) :
    load (pre++(mid++post)) pre.length mid.length=some mid := by
  rw [load_eq_some_iff,slice_append,length_append,length_append]
  exact ⟨by omega,rfl⟩

def loadFrom (data : List UInt8) (off : Nat) : Option (List UInt8) :=
  if off≤data.length then some (data.drop off) else none

theorem loadFrom_of_le {data : List UInt8} {off : Nat} (h : off≤data.length) :
    loadFrom data off=some (data.drop off) := if_pos h

theorem loadFrom_append (pre post : List UInt8) : loadFrom (pre++post) pre.length=some post := by
  rw [loadFrom_of_le (by simp),drop_left]

end Octets
