import DaeRs.Lib.Utf8

/-! Texts with percent escapes. -/

namespace Percent

open RustStr List Option

def decode : List Char → Option (List UInt8)
  | [] => some []
  | c::rest =>
    if c = '%' then
      match rest with
      | hi::lo::rest => do
        let high ← toDigit 16 hi
        let low ← toDigit 16 lo
        let bytes ← decode rest
        return UInt8.ofNat (16*high+low)::bytes
      | _ => none
    else (decode rest).map (String.utf8EncodeChar c++·)

theorem decode_of_not_mem {cs : List Char} (h : '%' ∉ cs) :
    decode cs=some (cs.flatMap String.utf8EncodeChar) := by
  induction cs with
  | nil => rfl
  | cons c cs ih =>
    have hc : c ≠ '%' := fun heq => h (heq ▸ mem_cons_self)
    rw [decode.eq_def]
    dsimp only
    rw [if_neg hc,ih fun hmem => h (mem_cons_of_mem c hmem),map_some,flatMap_cons]

theorem length_utf8_cons (c : Char) (cs : List Char) :
    ((c::cs).flatMap String.utf8EncodeChar).length =
      c.utf8Size+(cs.flatMap String.utf8EncodeChar).length := by
  rw [flatMap_cons,length_append,String.length_utf8EncodeChar]

theorem length_of_decode : ∀ {cs : List Char} {bytes : List UInt8},decode cs=some bytes →
    bytes.length≤(cs.flatMap String.utf8EncodeChar).length ∧
      ('%' ∈ cs → bytes.length<(cs.flatMap String.utf8EncodeChar).length)
  | [],bytes,h => by
    cases h
    exact ⟨Nat.le_refl 0,nofun⟩
  | c::rest,bytes,h => by
    rw [decode.eq_def] at h
    dsimp only at h
    split_ifs at h with hc
    · match rest,h with
      | hi::lo::rest,h =>
        obtain ⟨high,-,h⟩ := bind_eq_some_iff.1 h
        obtain ⟨low,-,h⟩ := bind_eq_some_iff.1 h
        obtain ⟨tail,htail,h⟩ := bind_eq_some_iff.1 h
        cases h
        have hrest := (length_of_decode htail).1
        have hhi := hi.utf8Size_pos
        have hlo := lo.utf8Size_pos
        rw [length_utf8_cons,length_utf8_cons,length_utf8_cons,length_cons]
        exact ⟨by omega,fun _ => by omega⟩
    · obtain ⟨tail,htail,rfl⟩ := map_eq_some_iff.1 h
      obtain ⟨hle,hlt⟩ := length_of_decode htail
      rw [length_utf8_cons,length_append,String.length_utf8EncodeChar]
      refine ⟨by omega,fun hmem => ?_⟩
      have hrest := hlt ((mem_cons.1 hmem).resolve_left fun heq => hc heq.symm)
      omega

/-- A text with an escape that decodes to it. -/
structure Escaped where
  text : String
  value : String
  decodes : decode text.toList=some (utf8 value)

namespace Escaped

theorem size_le (e : Escaped) : e.value.utf8ByteSize≤e.text.utf8ByteSize := by
  have hle := (length_of_decode e.decodes).1
  rwa [utf8,length_utf8,length_utf8,String.ofList_toList,String.ofList_toList] at hle

theorem size_lt {e : Escaped} (h : '%' ∈ e.text.toList) :
    e.value.utf8ByteSize<e.text.utf8ByteSize := by
  have hlt := (length_of_decode e.decodes).2 h
  rwa [utf8,length_utf8,length_utf8,String.ofList_toList,String.ofList_toList] at hlt

theorem value_eq_iff (e : Escaped) : e.value=e.text ↔ '%' ∉ e.text.toList := by
  constructor
  · intro h hmem
    have hlt := size_lt hmem
    rw [h] at hlt
    exact Nat.lt_irrefl _ hlt
  · intro h
    have hdecodes := e.decodes
    rw [decode_of_not_mem h] at hdecodes
    exact (utf8_injective (Option.some.inj hdecodes)).symm

theorem some_text_eq_iff (e : Escaped) : some e.text=some e.value ↔ '%' ∉ e.text.toList := by
  rw [Option.some.injEq,eq_comm,e.value_eq_iff]

end Escaped

end Percent
