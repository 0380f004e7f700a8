import DaeRs.Dns.Message
import DaeRs.Lib.Placed

/-! The layout of DNS messages, and what the forwarder's parsers read from it. -/

namespace DaeRs.Dns

open Checked Octets List

structure Label where
  bytes : List UInt8
  pos : 0<bytes.length
  le : bytes.length≤63

def Label.wire (l : Label) : List UInt8 := UInt8.ofNat l.bytes.length::l.bytes

/-- A name in a message: labels, and then the root or a pointer to the rest of the name. -/
structure WireName where
  labels : List Label
  pointer : Option (Fin (2^14))

def pointerWire : Option (Fin (2^14)) → List UInt8
  | none => [0]
  | some target => [UInt8.ofNat (0xC0+target.val/256),UInt8.ofNat target.val]

def WireName.wire (n : WireName) : List UInt8 := n.labels.flatMap Label.wire++pointerWire n.pointer

structure WireQuestion where
  name : WireName
  qtype : UInt16
  qclass : UInt16

def WireQuestion.wire (q : WireQuestion) : List UInt8 :=
  q.name.wire++(toBE 2 q.qtype.toNat++toBE 2 q.qclass.toNat)

structure ResourceRecord where
  name : WireName
  rtype : UInt16
  rclass : UInt16
  ttl : UInt32
  rdata : List UInt8
  rdata_lt : rdata.length<256^2

def ResourceRecord.wire (r : ResourceRecord) : List UInt8 :=
  r.name.wire++(toBE 2 r.rtype.toNat++(toBE 2 r.rclass.toNat++(toBE 4 r.ttl.toNat ++
    (toBE 2 r.rdata.length++r.rdata))))

structure Soa where
  mname : WireName
  rname : WireName
  serial : UInt32
  refresh : UInt32
  retry : UInt32
  expire : UInt32
  minimum : UInt32

def Soa.wire (s : Soa) : List UInt8 :=
  s.mname.wire++(s.rname.wire++(toBE 4 s.serial.toNat++(toBE 4 s.refresh.toNat ++
    (toBE 4 s.retry.toNat++(toBE 4 s.expire.toNat++toBE 4 s.minimum.toNat)))))

/-- A message by its sections. -/
structure Message where
  id : UInt16
  flags : UInt16
  questions : List WireQuestion
  answers : List ResourceRecord
  authority : List ResourceRecord
  additional : List ResourceRecord
  questions_lt : questions.length<256^2
  answers_lt : answers.length<256^2
  authority_lt : authority.length<256^2
  additional_lt : additional.length<256^2

theorem zero_lt_count : 0<256^2 := by decide

theorem one_lt_count : 1<256^2 := by decide

namespace Message

def header (m : Message) : List UInt8 :=
  toBE 2 m.id.toNat++(toBE 2 m.flags.toNat++(toBE 2 m.questions.length ++
    (toBE 2 m.answers.length++(toBE 2 m.authority.length++toBE 2 m.additional.length))))

def wire (m : Message) : List UInt8 :=
  m.header++(m.questions.flatMap WireQuestion.wire++(m.answers.flatMap ResourceRecord.wire ++
    (m.authority.flatMap ResourceRecord.wire++m.additional.flatMap ResourceRecord.wire)))

def IsResponse (m : Message) : Prop := m.flags.toNat &&& 0x8000≠0

@[simp] theorem header_length (m : Message) : m.header.length=12 := by
  simp [header]

end Message

section Names

theorem WireName.wire_length_pos (n : WireName) : 0<n.wire.length := by
  unfold wire
  rw [length_append]
  cases n.pointer <;> simp [pointerWire]

variable {buf : List UInt8} {pos : Nat}

theorem pointer_byte (target : Fin (2^14)) :
    (UInt8.ofNat (0xC0+target.val/256)).toNat=0xC0+target.val/256 := by
  have hlt := target.isLt
  rw [UInt8.toNat_ofNat',Nat.mod_eq_of_lt (by omega)]

theorem pointer_byte_land (target : Fin (2^14)) :
    (UInt8.ofNat (0xC0+target.val/256)).toNat &&& 0xC0=0xC0 := by
  rw [pointer_byte]
  have hlt : target.val/256<64 := by omega
  generalize target.val/256=k at hlt
  decide +revert

theorem label_byte (l : Label) : (UInt8.ofNat l.bytes.length).toNat=l.bytes.length := by
  have hle := l.le
  rw [UInt8.toNat_ofNat',Nat.mod_eq_of_lt (by omega)]

theorem label_byte_land (l : Label) : l.bytes.length &&& 0xC0≠0xC0 := by
  have hle := l.le
  generalize l.bytes.length=k at hle
  decide +revert

theorem skipNameLoop_at {labels : List Label} {pointer : Option (Fin (2^14))} {fuel : Nat}
    (h : At buf pos (labels.flatMap Label.wire++pointerWire pointer))
    (hfuel : labels.length<fuel) :
    Returns (skipNameLoop buf fuel pos)
      (pos+(labels.flatMap Label.wire++pointerWire pointer).length) := by
  induction labels generalizing pos fuel with
  | nil =>
    obtain ⟨fuel,rfl⟩ := Nat.exists_eq_succ_of_ne_zero (Nat.ne_zero_of_lt hfuel)
    cases pointer with
    | none =>
      obtain ⟨hpos,hbyte⟩ := h.returns_byte
      rw [skipNameLoop,if_neg (by omega),hbyte.bind_eq]
      rfl
    | some target =>
      obtain ⟨hpos,hbyte⟩ := h.returns_byte
      have hland := pointer_byte_land target
      have hne : (UInt8.ofNat (0xC0+target.val/256)).toNat≠0 := by
        rw [pointer_byte]
        omega
      rw [skipNameLoop,if_neg (by omega),hbyte.bind_eq,if_neg hne,if_pos hland]
      rfl
  | cons l rest ih =>
    obtain ⟨fuel,rfl⟩ := Nat.exists_eq_succ_of_ne_zero (Nat.ne_zero_of_lt hfuel)
    rw [flatMap_cons,append_assoc] at h ⊢
    obtain ⟨hlabel,hrest⟩ := at_append.mp h
    obtain ⟨hpos,hbyte⟩ := hlabel.returns_byte
    have hend := hlabel.length_le (by simp [Label.wire])
    have hlength : l.wire.length=1+l.bytes.length := by
      rw [Label.wire,length_cons,Nat.add_comm]
    have hlabel_pos := l.pos
    have hlabel_le := l.le
    rw [label_byte] at hbyte
    rw [hlength] at hend hrest
    rw [skipNameLoop,if_neg (by omega),hbyte.bind_eq,if_neg (by omega),
      if_neg (label_byte_land l),if_neg (by omega),length_append,hlength,
      ← Nat.add_assoc,← Nat.add_assoc]
    rw [← Nat.add_assoc] at hrest
    exact ih hrest (by simpa using hfuel)

theorem labels_length_le (labels : List Label) :
    labels.length≤(labels.flatMap Label.wire).length := by
  induction labels with
  | nil => exact Nat.le_refl 0
  | cons l rest ih =>
    rw [flatMap_cons,length_append,length_cons,Label.wire,length_cons]
    omega

theorem skipName_at {n : WireName} (h : At buf pos n.wire) :
    Returns (skipName buf pos) (pos+n.wire.length) := by
  have hend := h.length_le n.wire_length_pos
  have hlabels := labels_length_le n.labels
  have hwire : n.wire.length=(n.labels.flatMap Label.wire).length+(pointerWire n.pointer).length :=
    length_append
  exact skipNameLoop_at h (by omega)

end Names

section Records

variable {buf : List UInt8} {pos : Nat}

theorem uint16_lt_bytes (n : UInt16) : n.toNat<256^2 := n.toNat_lt

theorem uint32_lt_bytes (n : UInt32) : n.toNat<256^4 := n.toNat_lt

theorem Message.header_at (m : Message) :
    dnsHeaderLen ≤ m.wire.length ∧ Returns (numAt m.wire 0 2) m.id.toNat ∧
      Returns (numAt m.wire 2 2) m.flags.toNat ∧
      Returns (numAt m.wire 4 2) m.questions.length ∧
      Returns (numAt m.wire 6 2) m.answers.length ∧
      Returns (numAt m.wire 8 2) m.authority.length ∧
      Returns (numAt m.wire 10 2) m.additional.length := by
  have h := (at_append.mp (at_drop_zero m.wire)).1
  have hlength := h.length_le (by simp)
  rw [header_length,Nat.zero_add] at hlength
  obtain ⟨hid,h⟩ := at_append.mp h
  obtain ⟨hflags,h⟩ := at_append.mp h
  obtain ⟨hquestions,h⟩ := at_append.mp h
  obtain ⟨hanswers,h⟩ := at_append.mp h
  obtain ⟨hauthority,hadditional⟩ := at_append.mp h
  simp only [toBE_length] at hflags hquestions hanswers hauthority hadditional
  exact ⟨hlength,hid.returns_toBE (by omega) (uint16_lt_bytes _),
    hflags.returns_toBE (by omega) (uint16_lt_bytes _),
    hquestions.returns_toBE (by omega) m.questions_lt,
    hanswers.returns_toBE (by omega) m.answers_lt,
    hauthority.returns_toBE (by omega) m.authority_lt,
    hadditional.returns_toBE (by omega) m.additional_lt⟩

theorem WireQuestion.wire_length (q : WireQuestion) : q.wire.length=q.name.wire.length+4 := by
  simp [wire]

theorem ResourceRecord.wire_length (r : ResourceRecord) :
    r.wire.length=r.name.wire.length+10+r.rdata.length := by
  simp only [wire,length_append,toBE_length]
  omega

theorem recordAt_at {r : ResourceRecord} (h : At buf pos r.wire) : Returns (recordAt buf pos)
      ⟨r.rtype.toNat,r.ttl.toNat,pos+r.name.wire.length+10,r.rdata.length⟩ := by
  have hlength := r.wire_length
  have hend := h.length_le (by omega)
  obtain ⟨hname,h⟩ := at_append.mp h
  obtain ⟨htype,h⟩ := at_append.mp h
  obtain ⟨-,h⟩ := at_append.mp h
  obtain ⟨httl,h⟩ := at_append.mp h
  obtain ⟨hrdlength,-⟩ := at_append.mp h
  simp only [toBE_length] at httl hrdlength
  have htype := htype.returns_toBE (by omega) (uint16_lt_bytes _)
  have httl := httl.returns_toBE (by omega) (uint32_lt_bytes _)
  have hrdlength := hrdlength.returns_toBE (by omega) r.rdata_lt
  rw [recordAt,(skipName_at hname).bind_eq,if_neg (by omega),htype.bind_eq,httl.bind_eq,
    hrdlength.bind_eq,if_neg (by omega)]
  rfl

theorem skipQuestions_at {questions : List WireQuestion}
    (h : At buf pos (questions.flatMap WireQuestion.wire)) :
    Returns (skipQuestions buf questions.length pos)
      (pos+(questions.flatMap WireQuestion.wire).length) := by
  induction questions generalizing pos with
  | nil => rfl
  | cons q rest ih =>
    rw [flatMap_cons] at h ⊢
    obtain ⟨hq,hrest⟩ := at_append.mp h
    have hlength := q.wire_length
    have hend := hq.length_le (by omega)
    rw [hlength,← Nat.add_assoc] at hrest
    rw [length_cons,skipQuestions,(skipName_at (at_append.mp hq).1).bind_eq,
      if_neg (by omega),length_append,hlength,← Nat.add_assoc,← Nat.add_assoc]
    exact ih hrest

end Records

end DaeRs.Dns
