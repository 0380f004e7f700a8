import DaeRs.Lib.Checked

/-! Bytes that stand at a position of a buffer, for parsers that go through a structure whose parts
follow each other. -/

namespace Checked

open Octets List

def At (buf : List UInt8) (pos : Nat) (bs : List UInt8) : Prop := bs <+: buf.drop pos

section

variable {buf bs cs : List UInt8} {pos : Nat}

theorem at_append : At buf pos (bs++cs) ↔ At buf pos bs ∧ At buf (pos+bs.length) cs := by
  unfold At
  rw [← drop_drop]
  constructor
  · intro h
    obtain ⟨rest,hrest⟩ := h
    rw [← hrest,append_assoc,drop_left]
    exact ⟨prefix_append _ _,prefix_append _ _⟩
  · intro h
    obtain ⟨⟨rest,hrest⟩,htail⟩ := h
    rw [← hrest,drop_left] at htail
    rw [← hrest]
    exact (prefix_append_right_inj bs).mpr htail

theorem at_drop_zero (buf : List UInt8) : At buf 0 buf := prefix_rfl

theorem At.length_le (h : At buf pos bs) (hbs : 0<bs.length) : pos+bs.length≤buf.length := by
  have hle := List.IsPrefix.length_le h
  rw [length_drop] at hle
  omega

theorem At.returns_numAt (h : At buf pos bs) (hbs : 0<bs.length) :
    Returns (numAt buf pos bs.length) (ofBE bs) := by
  have hslice : slice buf pos bs.length=bs := (prefix_iff_eq_take.mp h).symm
  rw [numAt,map_eq_pure_bind,(returns_bytesAt.2 ⟨h.length_le hbs,rfl⟩).bind_eq,hslice]
  rfl

theorem At.returns_toBE {k n : Nat} (h : At buf pos (toBE k n)) (hk : 0<k) (hn : n<256^k) :
    Returns (numAt buf pos k) n := by
  have hnum := h.returns_numAt (by rwa [toBE_length])
  rwa [toBE_length,ofBE_toBE,Nat.mod_eq_of_lt hn] at hnum

theorem at_of_returns_bytesAt {k : Nat} (h : Returns (bytesAt buf pos k) bs) :
    At buf pos bs ∧ bs.length=k := by
  obtain ⟨hle,rfl⟩ := returns_bytesAt.mp h
  have hbytes := take_prefix k (buf.drop pos)
  refine ⟨hbytes,?_⟩
  rw [slice,length_take,length_drop]
  omega

theorem at_of_returns_numAt {k n : Nat} (h : Returns (numAt buf pos k) n) :
    At buf pos (toBE k n) ∧ n<256^k := by
  rw [numAt,map_eq_pure_bind] at h
  obtain ⟨bs,hbs,hn⟩ := returns_bind.mp h
  obtain ⟨hat,hlength⟩ := at_of_returns_bytesAt hbs
  rw [← returns_pure.mp hn,← hlength,toBE_ofBE]
  exact ⟨hat,ofBE_lt bs⟩

theorem At.returns_byte {b : UInt8} (h : At buf pos (b::bs)) :
    pos<buf.length ∧ Returns (numAt buf pos 1) b.toNat := by
  have hone : At buf pos [b] := by
    have hsplit : At buf pos ([b]++bs) := h
    exact (at_append.mp hsplit).1
  have hle := hone.length_le Nat.zero_lt_one
  have hnum := hone.returns_numAt Nat.zero_lt_one
  rw [length_singleton] at hle hnum
  have hvalue : ofBE [b]=b.toNat := by simp [ofBE]
  rw [hvalue] at hnum
  exact ⟨hle,hnum⟩

end

end Checked
