import DaeRs.Lib.AsyncIo

/-! What the read halves of the encrypted streams share: a decrypted frame that does not fit into
the reader's buffer is kept, and its rest goes out first. -/

namespace DaeRs.Protocols

open List

/-- `read_decoded` and `read_decoded_pos`. -/
structure Decoded where
  bytes : List UInt8
  pos : Nat
  deriving DecidableEq

namespace Decoded

def empty : Decoded := ⟨[],0⟩

variable (d : Decoded)

def leftover : List UInt8 := d.bytes.drop d.pos

def Unread : Prop := d.pos<d.bytes.length

instance (d : Decoded) : Decidable d.Unread := inferInstanceAs (Decidable (_ < _))

def consume (room : Nat) : List UInt8×Decoded :=
  let bytes := d.leftover.take room
  if d.bytes.length≤d.pos+bytes.length then (bytes,empty)
  else (bytes,{ d with pos := d.pos+bytes.length })

/-- Give out a new payload as far as there is room for it, and keep the rest. -/
def handOut (payload : List UInt8) (room : Nat) : List UInt8×Decoded :=
  if payload.length ≤ room then (payload,d) else (payload.take room,⟨payload,room⟩)

theorem leftover_of_not_unread {d : Decoded} (h : ¬d.Unread) : d.leftover=[] :=
  drop_eq_nil_of_le (Nat.not_lt.mp h)

theorem take_ne_nil {bytes : List UInt8} {room : Nat} (hne : bytes≠[]) (hroom : 0 < room) :
    bytes.take room≠[] := by
  rw [ne_eq,take_eq_nil_iff]
  rintro (hzero | hnil)
  · omega
  · exact hne hnil

theorem consume_ne_nil {d : Decoded} (h : d.Unread) {room : Nat} (hroom : 0 < room) :
    (d.consume room).1≠[] := by
  have hne : d.leftover≠[] := by
    rw [leftover,ne_eq,drop_eq_nil_iff]
    exact Nat.not_le.mpr h
  unfold consume
  dsimp only
  split_ifs
  all_goals exact take_ne_nil hne hroom

theorem consume_leftover (room : Nat) :
    (d.consume room).1++(d.consume room).2.leftover=d.leftover := by
  have hlen : (d.leftover.take room).length=min room (d.bytes.length-d.pos) := by
    rw [length_take,leftover,length_drop]
  unfold consume
  dsimp only
  split_ifs with hall
  · have hfits : d.leftover.length ≤ room := by
      rw [leftover,length_drop]
      omega
    have htake : d.leftover.take room=d.leftover := take_of_length_le hfits
    rw [htake]
    exact append_nil _
  · change d.leftover.take room++d.bytes.drop (d.pos+(d.leftover.take room).length)=_
    have hroom : (d.leftover.take room).length=room := by omega
    rw [hroom,← drop_drop]
    exact take_append_drop room _

theorem handOut_ne_nil {payload : List UInt8} (hne : payload≠[]) {room : Nat}
    (hroom : 0 < room) : (d.handOut payload room).1≠[] := by
  unfold handOut
  split_ifs
  · exact hne
  · exact take_ne_nil hne hroom

theorem handOut_leftover {d : Decoded} (hd : d.leftover=[]) (payload : List UInt8) (room : Nat) :
    (d.handOut payload room).1++(d.handOut payload room).2.leftover=payload := by
  unfold handOut
  split_ifs
  · rw [hd,append_nil]
  · exact take_append_drop room payload

end Decoded

end DaeRs.Protocols
