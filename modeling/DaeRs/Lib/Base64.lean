import Mathlib.Data.List.Basic

/-! Base64, with the standard and the URL-safe alphabet. -/

namespace Base64

open List Option

def letters : List Char := "ABCDEFGHIJKLMNOPQRSTUVWXYZabcdefghijklmnopqrstuvwxyz0123456789".toList

def standard : List Char := letters++['+', '/']

def urlSafe : List Char := letters++['-', '_']

def sextets : List UInt8 → List Nat
  | [] => []
  | [a] => [a.toNat/4,a.toNat%4*16]
  | [a,b] => [a.toNat/4,a.toNat%4*16+b.toNat/16,b.toNat%16*4]
  | a::b::c::rest =>
    a.toNat/4::(a.toNat%4*16+b.toNat/16)::(b.toNat%16*4+c.toNat/64) ::
      c.toNat%64::sextets rest

def digit (alphabet : List Char) (n : Nat) : Char := alphabet.getD n 'A'

def encode (alphabet : List Char) (bytes : List UInt8) : List Char :=
  (sextets bytes).map (digit alphabet)

def pad (code : List Char) : List Char := code++List.replicate ((4-code.length%4)%4) '='

/-- The bytes of some groups of six bits; the bits behind the last byte must be zero. -/
def bytesOf : List Nat → Option (List UInt8)
  | [] => some []
  | [a,b] => if b%16=0 then some [UInt8.ofNat (a*4+b/16)] else none
  | [a,b,c] =>
    if c%4=0 then some [UInt8.ofNat (a*4+b/16),UInt8.ofNat (b%16*16+c/4)]
    else none
  | a::b::c::d::rest =>
    (bytesOf rest).map fun bytes =>
      UInt8.ofNat (a*4+b/16)::UInt8.ofNat (b%16*16+c/4) ::
        UInt8.ofNat (c%4*64+d)::bytes
  | _ => none

def values (alphabet : List Char) : List Char → Option (List Nat)
  | [] => some []
  | c::cs => (alphabet.idxOf? c).bind fun n => (values alphabet cs).map (n::·)

def decode (alphabet text : List Char) : Option (List UInt8) :=
  let code := text.takeWhile (· ≠ '=')
  if text=pad code then (values alphabet code).bind bytesOf else none

theorem lt_of_mem_sextets : ∀ {bytes : List UInt8} {n : Nat},n∈sextets bytes → n<64
  | [],n,h => nomatch h
  | [a],n,h => by
    have ha := a.toNat_lt
    rw [sextets] at h
    simp only [mem_cons,not_mem_nil,or_false] at h
    omega
  | [a,b],n,h => by
    have ha := a.toNat_lt
    have hb := b.toNat_lt
    rw [sextets] at h
    simp only [mem_cons,not_mem_nil,or_false] at h
    omega
  | a::b::c::rest,n,h => by
    have ha := a.toNat_lt
    have hb := b.toNat_lt
    have hc := c.toNat_lt
    rw [sextets] at h
    simp only [mem_cons] at h
    rcases h with h | h | h | h | h
    · omega
    · omega
    · omega
    · omega
    · exact lt_of_mem_sextets h

theorem length_le_sextets : ∀ bytes : List UInt8,bytes.length≤(sextets bytes).length
  | [] => Nat.le_refl 0
  | [a] => Nat.le_of_ble_eq_true rfl
  | [a,b] => Nat.le_of_ble_eq_true rfl
  | a::b::c::rest => by
    have h := length_le_sextets rest
    rw [sextets]
    simp only [length_cons]
    omega

theorem ofNat_eq {a : UInt8} {n : Nat} (h : n=a.toNat) : UInt8.ofNat n=a := by
  rw [h,UInt8.ofNat_toNat]

theorem bytesOf_sextets : ∀ bytes : List UInt8,bytesOf (sextets bytes)=some bytes
  | [] => rfl
  | [a] => by
    rw [sextets,bytesOf,if_pos (by omega),ofNat_eq (a := a) (by omega)]
  | [a,b] => by
    have hb := b.toNat_lt
    rw [sextets,bytesOf,if_pos (by omega),ofNat_eq (a := a) (by omega),ofNat_eq (a := b) (by omega)]
  | a::b::c::rest => by
    have hb := b.toNat_lt
    have hc := c.toNat_lt
    rw [sextets,bytesOf,bytesOf_sextets rest,map_some,ofNat_eq (a := a) (by omega),
      ofNat_eq (a := b) (by omega),ofNat_eq (a := c) (by omega)]

variable {alphabet : List Char}

theorem values_encode (h : ∀ n<64,alphabet.idxOf? (digit alphabet n)=some n) {ns : List Nat}
    (hns : ∀ n∈ns,n<64) : values alphabet (ns.map (digit alphabet))=some ns := by
  induction ns with
  | nil => rfl
  | cons n ns ih =>
    obtain ⟨hn,hns⟩ := forall_mem_cons.1 hns
    rw [map_cons,values,h n hn,bind_some,ih hns,map_some]

theorem digit_mem (h : 'A' ∈ alphabet) (n : Nat) : digit alphabet n∈alphabet := by
  rw [digit,getD_eq_getElem?_getD]
  cases hn : alphabet[n]? with
  | none => exact h
  | some c => exact mem_of_getElem? hn

theorem mem_of_mem_encode (h : 'A' ∈ alphabet) {bytes : List UInt8} :
    ∀ c∈encode alphabet bytes,c∈alphabet := by
  intro c hc
  obtain ⟨n,-,rfl⟩ := mem_map.1 hc
  exact digit_mem h n

theorem length_le_encode (alphabet : List Char) (bytes : List UInt8) :
    bytes.length≤(encode alphabet bytes).length := by
  rw [encode,length_map]
  exact length_le_sextets bytes

theorem mem_pad {code : List Char} : ∀ c∈pad code,c∈code ∨ c = '=' := by
  intro c hc
  exact (mem_append.1 hc).imp_right eq_of_mem_replicate

theorem takeWhile_pad {code : List Char} (h : '=' ∉ code) :
    (pad code).takeWhile (· ≠ '=')=code := by
  rw [pad,takeWhile_append_of_pos]
  · rw [takeWhile_replicate]
    simp
  · intro c hc
    exact decide_eq_true fun heq => h (heq ▸ hc)

theorem decode_encode (bytes : List UInt8) :
    decode standard (pad (encode standard bytes))=some bytes := by
  have hpad : '=' ∉ encode standard bytes :=
    fun h => absurd (mem_of_mem_encode (by decide) _ h) (by decide)
  have hdigit : ∀ n<64,standard.idxOf? (digit standard n)=some n := by decide +kernel
  rw [decode,takeWhile_pad hpad,if_pos rfl,encode,
    values_encode hdigit fun n => lt_of_mem_sextets,bind_some,bytesOf_sextets]

theorem mem_of_values {code : List Char} :
    ∀ {ns : List Nat},values alphabet code=some ns → ∀ c∈code,c∈alphabet := by
  induction code with
  | nil => exact fun _ => forall_mem_nil _
  | cons c cs ih =>
    intro ns h
    obtain ⟨n,hn,h⟩ := bind_eq_some_iff.1 h
    obtain ⟨rest,hrest,-⟩ := map_eq_some_iff.1 h
    refine forall_mem_cons.2 ⟨?_,ih hrest⟩
    by_contra hc
    rw [idxOf?_eq_none_iff.2 hc] at hn
    exact nomatch hn

theorem mem_of_decode {text : List Char} {bytes : List UInt8}
    (h : decode alphabet text=some bytes) : ∀ c∈text,c∈alphabet ∨ c = '=' := by
  rw [decode] at h
  split_ifs at h with hpad
  obtain ⟨ns,hns,-⟩ := bind_eq_some_iff.1 h
  intro c hc
  rw [hpad] at hc
  exact (mem_pad c hc).imp_left (mem_of_values hns c)

theorem encode_urlSafe {bytes : List UInt8} (h : ∀ c∈encode urlSafe bytes,c ≠ '-' ∧ c ≠ '_') :
    encode urlSafe bytes=encode standard bytes := by
  have hdigit : ∀ n<64,digit urlSafe n=digit standard n ∨ digit urlSafe n = '-' ∨
      digit urlSafe n = '_' := by decide +kernel
  refine map_congr_left fun n hn => ?_
  have hne := h _ (mem_map_of_mem hn)
  rcases hdigit n (lt_of_mem_sextets hn) with heq | heq | heq
  · exact heq
  · exact absurd heq hne.1
  · exact absurd heq hne.2

end Base64
