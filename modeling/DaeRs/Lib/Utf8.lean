import Mathlib.Algebra.Order.Ring.Nat
import DaeRs.Lib.RustSlice

/-! The bytes of a text are read back as that text. -/

namespace RustStr

open List String

theorem toNat_tagged {mask tag : UInt8} {bits : Nat} (hmask : mask.toNat=2^bits-1)
    (htag : ∀ n<2^bits,n ||| tag.toNat=n+tag.toNat) (b : UInt8) :
    (b &&& mask ||| tag).toNat=b.toNat%2^bits+tag.toNat := by
  rw [UInt8.toNat_or,UInt8.toNat_and,hmask,Nat.and_two_pow_sub_one_eq_mod]
  exact htag _ (Nat.mod_lt _ (Nat.two_pow_pos bits))

theorem toNat_shifted {shift : UInt32} {n : Nat} (hshift : shift.toNat=n) (hn : n<32)
    (v : UInt32) : (v >>> shift).toUInt8.toNat=v.toNat/2^n%256 := by
  rw [UInt32.toNat_toUInt8,UInt32.toNat_shiftRight,hshift,Nat.mod_eq_of_lt hn,
    Nat.shiftRight_eq_div_pow]

theorem between_of_toNat {a b c : UInt8} (hb : b.toNat≤a.toNat) (hc : a.toNat≤c.toNat) :
    (decide (b≤a) && decide (a≤c))=true := by
  rw [Bool.and_eq_true]
  exact ⟨decide_eq_true (UInt8.le_iff_toNat_le.2 hb),decide_eq_true (UInt8.le_iff_toNat_le.2 hc)⟩

theorem isContinuation_of_toNat {b : UInt8} (h : 128≤b.toNat ∧ b.toNat≤191) :
    isContinuation b=true := between_of_toNat h.1 h.2

theorem not_lt_of_toNat {a b : UInt8} (h : b.toNat≤a.toNat) : ¬a<b := by
  intro hlt
  exact absurd (UInt8.lt_iff_toNat_lt.1 hlt) (Nat.not_lt.2 h)

theorem not_between_of_toNat {a b c : UInt8} (h : c.toNat<a.toNat) : ¬(b≤a ∧ a ≤ c) := by
  intro hle
  exact absurd (UInt8.le_iff_toNat_le.1 hle.2) (Nat.not_le.2 h)

section Chars

variable {b₀ b₁ b₂ b₃ : UInt8} (rest : List UInt8) (i : Nat)

theorem fromUtf8Loop_one (h : b₀.toNat<128) :
    fromUtf8Loop (b₀::rest) i=(Char.ofNat b₀.toNat::·) <$> fromUtf8Loop rest (i+1) := by
  have hlt : b₀<0x80 := UInt8.lt_iff_toNat_lt.2 h
  rw [fromUtf8Loop.eq_def]
  dsimp only
  rw [if_pos hlt]

theorem fromUtf8Loop_two (h₀ : 194≤b₀.toNat ∧ b₀.toNat≤223) (h₁ : isContinuation b₁=true) :
    fromUtf8Loop (b₀::b₁::rest) i =
      (Char.ofNat (pushBits (b₀.toNat%32) b₁)::·) <$> fromUtf8Loop rest (i+2) := by
  have hone : ¬b₀<0x80 := not_lt_of_toNat (Nat.le_trans (by decide) h₀.1)
  have htwo : 0xC2≤b₀ ∧ b₀≤0xDF := ⟨UInt8.le_iff_toNat_le.2 h₀.1,UInt8.le_iff_toNat_le.2 h₀.2⟩
  rw [fromUtf8Loop.eq_def]
  dsimp only
  rw [if_neg hone,if_pos htwo,if_pos h₁]

theorem fromUtf8Loop_three (h₀ : 224≤b₀.toNat ∧ b₀.toNat≤239) (h₁ : second3 b₀ b₁=true)
    (h₂ : isContinuation b₂=true) :
    fromUtf8Loop (b₀::b₁::b₂::rest) i =(Char.ofNat (pushBits (pushBits (b₀.toNat%16) b₁) b₂)::·) <$>
        fromUtf8Loop rest (i+3) := by
  have hone : ¬b₀<0x80 := not_lt_of_toNat (Nat.le_trans (by decide) h₀.1)
  have htwo : ¬(0xC2≤b₀ ∧ b₀≤0xDF) := not_between_of_toNat (Nat.lt_of_lt_of_le (by decide) h₀.1)
  have hthree : 0xE0≤b₀ ∧ b₀≤0xEF := ⟨UInt8.le_iff_toNat_le.2 h₀.1,UInt8.le_iff_toNat_le.2 h₀.2⟩
  rw [fromUtf8Loop.eq_def]
  dsimp only
  rw [if_neg hone,if_neg htwo,if_pos hthree,if_pos h₁,if_pos h₂]

theorem fromUtf8Loop_four (h₀ : 240≤b₀.toNat ∧ b₀.toNat≤244) (h₁ : second4 b₀ b₁=true)
    (h₂ : isContinuation b₂=true) (h₃ : isContinuation b₃=true) :
    fromUtf8Loop (b₀::b₁::b₂::b₃::rest) i =
      (Char.ofNat (pushBits (pushBits (pushBits (b₀.toNat%8) b₁) b₂) b₃)::·) <$>
        fromUtf8Loop rest (i+4) := by
  have hone : ¬b₀<0x80 := not_lt_of_toNat (Nat.le_trans (by decide) h₀.1)
  have htwo : ¬(0xC2≤b₀ ∧ b₀≤0xDF) := not_between_of_toNat (Nat.lt_of_lt_of_le (by decide) h₀.1)
  have hthree : ¬(0xE0≤b₀ ∧ b₀≤0xEF) := not_between_of_toNat (Nat.lt_of_lt_of_le (by decide) h₀.1)
  have hfour : 0xF0≤b₀ ∧ b₀≤0xF4 := ⟨UInt8.le_iff_toNat_le.2 h₀.1,UInt8.le_iff_toNat_le.2 h₀.2⟩
  rw [fromUtf8Loop.eq_def]
  dsimp only
  rw [if_neg hone,if_neg htwo,if_neg hthree,if_pos hfour,if_pos h₁,if_pos h₂,if_pos h₃]

end Chars

theorem second3_of_toNat {b₀ b₁ : UInt8} (h : 128≤b₁.toNat ∧ b₁.toNat≤191)
    (hlong : b₀.toNat=224 → 160≤b₁.toNat) (hsurrogate : b₀.toNat=237 → b₁.toNat≤159) :
    second3 b₀ b₁=true := by
  unfold second3
  split_ifs with he0 hed
  · exact between_of_toNat (hlong (by rw [he0]; rfl)) h.2
  · exact between_of_toNat h.1 (hsurrogate (by rw [hed]; rfl))
  · exact isContinuation_of_toNat h

theorem second4_of_toNat {b₀ b₁ : UInt8} (h : 128≤b₁.toNat ∧ b₁.toNat≤191)
    (hlong : b₀.toNat=240 → 144≤b₁.toNat) (hpast : b₀.toNat=244 → b₁.toNat≤143) :
    second4 b₀ b₁=true := by
  unfold second4
  split_ifs with hf0 hf4
  · exact between_of_toNat (hlong (by rw [hf0]; rfl)) h.2
  · exact between_of_toNat h.1 (hpast (by rw [hf4]; rfl))
  · exact isContinuation_of_toNat h

theorem toNat_piece {shift : UInt32} {mask tag : UInt8} {n bits : Nat} (hshift : shift.toNat=n)
    (hn : n<32) (hmask : mask.toNat=2^bits-1)
    (htag : ∀ n<2^bits,n ||| tag.toNat=n+tag.toNat) (v : UInt32) :
    ((v >>> shift).toUInt8 &&& mask ||| tag).toNat =v.toNat/2^n%256%2^bits+tag.toNat := by
  rw [toNat_tagged hmask htag,toNat_shifted hshift hn]

theorem toNat_last (v : UInt32) : (v.toUInt8 &&& 63 ||| 128).toNat=v.toNat%64+128 := by
  have htagged : (v.toUInt8 &&& 63 ||| 128).toNat=v.toUInt8.toNat%2^6+128 :=
    toNat_tagged rfl (by decide) _
  rw [htagged,UInt32.toNat_toUInt8]
  omega

theorem fromUtf8Loop_encodeChar (c : Char) (rest : List UInt8) (i : Nat) :
    fromUtf8Loop (utf8EncodeChar c++rest) i =(c::·) <$> fromUtf8Loop rest (i+c.utf8Size) := by
  have hchar {n : Nat} (h : n=c.val.toNat) : Char.ofNat n=c := by
    rw [h]
    exact Char.ofNat_toNat c
  have hlast := toNat_last c.val
  rcases c.utf8Size_eq with h1 | h2 | h3 | h4
  · have hle : c.val.toNat≤127 := Char.utf8Size_eq_one_iff.1 h1
    have h₀ : c.val.toUInt8.toNat=c.val.toNat := by
      rw [UInt32.toNat_toUInt8]
      exact Nat.mod_eq_of_lt (by omega)
    rw [utf8EncodeChar_eq_singleton h1,singleton_append,fromUtf8Loop_one _ _ (by omega),hchar h₀,h1]
  · have hgt : 127 < c.val.toNat := (Char.utf8Size_eq_two_iff.1 h2).1
    have hle : c.val.toNat≤2047 := (Char.utf8Size_eq_two_iff.1 h2).2
    have h₀ : ((c.val >>> 6).toUInt8 &&& 31 ||| 192).toNat =
        c.val.toNat/2^6%256%2^5+192 := toNat_piece rfl (by decide) rfl (by decide) _
    rw [utf8EncodeChar_eq_cons_cons h2,cons_append,singleton_append,
      fromUtf8Loop_two _ _ (by omega) (isContinuation_of_toNat (by omega)),h2]
    rw [hchar (by rw [pushBits]; omega)]
  · have hgt : 2047 < c.val.toNat := (Char.utf8Size_eq_three_iff.1 h3).1
    have hle : c.val.toNat≤65535 := (Char.utf8Size_eq_three_iff.1 h3).2
    have hvalid : c.val.toNat<0xD800 ∨ 0xDFFF < c.val.toNat ∧ c.val.toNat<0x110000 := c.valid
    have h₀ : ((c.val >>> 12).toUInt8 &&& 15 ||| 224).toNat =
        c.val.toNat/2^12%256%2^4+224 := toNat_piece rfl (by decide) rfl (by decide) _
    have h₁ : ((c.val >>> 6).toUInt8 &&& 63 ||| 128).toNat =
        c.val.toNat/2^6%256%2^6+128 := toNat_piece rfl (by decide) rfl (by decide) _
    rw [utf8EncodeChar_eq_cons_cons_cons h3,cons_append,cons_append,
      singleton_append,fromUtf8Loop_three _ _ (by omega)
        (second3_of_toNat (by omega) (by omega) (by omega)) (isContinuation_of_toNat (by omega)),h3]
    rw [hchar (by rw [pushBits,pushBits]; omega)]
  · have hgt : 65535 < c.val.toNat := Char.utf8Size_eq_four_iff.1 h4
    have hvalid : c.val.toNat<0xD800 ∨ 0xDFFF < c.val.toNat ∧ c.val.toNat<0x110000 := c.valid
    have h₀ : ((c.val >>> 18).toUInt8 &&& 7 ||| 240).toNat =
        c.val.toNat/2^18%256%2^3+240 := toNat_piece rfl (by decide) rfl (by decide) _
    have h₁ : ((c.val >>> 12).toUInt8 &&& 63 ||| 128).toNat =
        c.val.toNat/2^12%256%2^6+128 := toNat_piece rfl (by decide) rfl (by decide) _
    have h₂ : ((c.val >>> 6).toUInt8 &&& 63 ||| 128).toNat =
        c.val.toNat/2^6%256%2^6+128 := toNat_piece rfl (by decide) rfl (by decide) _
    rw [utf8EncodeChar_eq_cons_cons_cons_cons h4,cons_append,cons_append,
      cons_append,singleton_append,fromUtf8Loop_four _ _ (by omega)
        (second4_of_toNat (by omega) (by omega) (by omega)) (isContinuation_of_toNat (by omega))
        (isContinuation_of_toNat (by omega)),h4]
    rw [hchar (by rw [pushBits,pushBits,pushBits]; omega)]

theorem fromUtf8Loop_encode (l : List Char) :
    ∀ i,fromUtf8Loop (l.flatMap utf8EncodeChar) i=.ok l := by
  induction l with
  | nil =>
    intro i
    rw [flatMap_nil,fromUtf8Loop]
  | cons c cs ih =>
    intro i
    rw [flatMap_cons,fromUtf8Loop_encodeChar,ih]
    rfl

@[simp] theorem fromUtf8_utf8 (s : String) : fromUtf8 (utf8 s)=.ok s := by
  rw [fromUtf8,utf8,fromUtf8Loop_encode]
  exact congrArg Except.ok s.ofList_toList

theorem utf8_injective : Function.Injective utf8 := by
  intro s t h
  have hread : fromUtf8 (utf8 s)=fromUtf8 (utf8 t) := congrArg fromUtf8 h
  rw [fromUtf8_utf8,fromUtf8_utf8] at hread
  exact Except.ok.inj hread

end RustStr
