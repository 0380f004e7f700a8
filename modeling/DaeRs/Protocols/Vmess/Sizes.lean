import DaeRs.Protocols.Vmess.Nonces
import DaeRs.Protocols.Vmess.Udp

/-! The sizes of VMess chunks: what the reader makes of any size when overflow is checked, and what
the writer of a UDP session says of the chunks that it sends. -/

namespace DaeRs.Vmess

open AsyncIo Octets Protocols List Option

def checkedSub (m n : Nat) : Option Nat := if n ≤ m then some (m-n) else none

def putSlice (room : Nat) (bytes : List UInt8) : Option (List UInt8) :=
  if bytes.length ≤ room then some bytes else none

def consumeChecked (d : Decoded) (room : Nat) : Option (List UInt8×Decoded) := do
  let remaining ← loadFrom d.bytes d.pos
  let n := min remaining.length room
  let bytes ← putSlice room (← load remaining 0 n)
  if d.bytes.length≤d.pos+n then some (bytes,.empty) else some (bytes,{ d with pos := d.pos+n })

def handOutChecked (d : Decoded) (chunk : List UInt8) (room : Nat) :
    Option (List UInt8×Decoded) := do
  if chunk.length ≤ room then some (← putSlice room chunk,d)
  else some (← putSlice room (← load chunk 0 room),⟨chunk,room⟩)

def aeadOpenChecked (d : Direction) (nonce buf : List UInt8) :
    Option (Except IoError (List UInt8)) := do
  if buf.length<aeadTag then some (.error (.other "vmess: ciphertext too short"))
  else
    let tagPos ← checkedSub buf.length aeadTag
    let data ← load buf 0 tagPos
    let tag ← load (← loadFrom buf tagPos) 0 aeadTag
    match d.cipher.decrypt nonce data tag with
    | some plain => some (.ok plain)
    | none => some (.error (openFailed d.security))

def openChecked (d : Direction) (buf : List UInt8) :
    Option (Except IoError (List UInt8)×Direction) :=
  match d.security with
  | .none => some (.ok buf,d)
  | _ => (aeadOpenChecked d d.drawNonce.1 buf).map (·,d.drawNonce.2)

namespace VmessBodyStream

def readChunkChecked (x : Reading) (size encryptedLen room : Nat) :
    Option (Poll IoError (List UInt8)×Reading) :=
  match pollFillFrame x size with
  | (.pending,y) => some (.pending,y)
  | (.err e,y) => some (.err e,y)
  | (.ok (),y) =>
    if y.1.readBuf.length < size then some (.ok [],{ y.1 with eof := true },y.2)
    else do
      let chunk ← load y.1.readBuf 0 size
      let r ← openChecked y.1.dec (chunk.take encryptedLen)
      let s := { y.1 with readBuf := y.1.readBuf.drop size,dec := r.2 }
      match r.1 with
      | .error e => some (.err e,s,y.2)
      | .ok chunk => (handOutChecked s.decoded chunk room).map fun h =>
        (.ok h.1,{ s with decoded := h.2 },y.2)

/-- `poll_read` with overflow checks: `none` is a panic. -/
def pollReadChecked (x : Reading) (room : Nat) : Option (Poll IoError (List UInt8)×Reading) :=
  if x.1.decoded.Unread then
    (consumeChecked x.1.decoded room).map fun r => (.ok r.1,{ x.1 with decoded := r.2 },x.2)
  else if x.1.eof then some (.ok [],x)
  else match pollFillFrame x 2 with
    | (.pending,y) => some (.pending,y)
    | (.err e,y) => some (.err e,y)
    | (.ok (),y) =>
      if y.1.readBuf.length<2 then some (.ok [],{ y.1 with eof := true },y.2)
      else do
        let mask := y.1.dec.drawMask
        let size := UInt16.ofNat (ofBE (← load y.1.readBuf 0 2)) ^^^ mask.1
        let s := { y.1 with readBuf := y.1.readBuf.drop 2,dec := mask.2 }
        if size=0 then some (.ok [],{ s with eof := true },y.2)
        else
          let padding := mask.2.drawPadding
          let s := { s with dec := padding.2 }
          -- the difference is taken before the sizes are compared
          let encryptedLen ← checkedSub size.toNat padding.1
          if size.toNat<padding.1 then
            some (.err (.other "vmess: invalid chunk size"),{ s with eof := true },y.2)
          else readChunkChecked (s,y.2) size.toNat encryptedLen room

def nextSizes (x : Reading) : Option (Nat×Nat) :=
  if x.1.decoded.Unread ∨ x.1.eof=true then none
  else match pollFillFrame x 2 with
    | (.ok (),y) =>
      if y.1.readBuf.length<2 then none
      else some ((UInt16.ofNat (ofBE (y.1.readBuf.take 2)) ^^^ y.1.dec.drawMask.1).toNat,
        y.1.dec.drawMask.2.drawPadding.1)
    | _ => none

end VmessBodyStream

theorem load_zero {bs : List UInt8} {n : Nat} (h : n≤bs.length) : load bs 0 n=some (bs.take n) := by
  rw [load,if_pos (by omega)]
  rfl

theorem consumeChecked_eq {d : Decoded} (h : d.Unread) (room : Nat) :
    consumeChecked d room=some (d.consume room) := by
  have hle : d.pos≤d.bytes.length := Nat.le_of_lt h
  have htake : (d.bytes.drop d.pos).take (min (d.bytes.drop d.pos).length room) =
      d.leftover.take room := by
    rw [Decoded.leftover,Nat.min_comm,take_eq_take_min]
    simp
  have hlen : (d.leftover.take room).length=min (d.bytes.drop d.pos).length room := by
    rw [length_take,Decoded.leftover,Nat.min_comm]
  have hput : putSlice room (d.leftover.take room)=some (d.leftover.take room) :=
    if_pos (by rw [hlen]; omega)
  simp only [consumeChecked,loadFrom_of_le hle,bind_eq_bind,bind_some,
    load_zero (Nat.min_le_left _ _),htake,hput,Decoded.consume,hlen]
  split_ifs <;> rfl

theorem handOutChecked_eq (d : Decoded) (chunk : List UInt8) (room : Nat) :
    handOutChecked d chunk room=some (d.handOut chunk room) := by
  unfold handOutChecked Decoded.handOut putSlice
  split_ifs with h
  · rfl
  · rw [load_zero (by omega)]
    simp

theorem openChecked_eq (d : Direction) (buf : List UInt8) :
    openChecked d buf=some (openChunk d buf) := by
  have haead (nonce : List UInt8) :
      aeadOpenChecked d nonce buf=some (aeadOpenInPlace d nonce buf) := by
    unfold aeadOpenChecked aeadOpenInPlace
    split_ifs with h
    · rfl
    · have htag : (buf.drop (buf.length-aeadTag)).length=aeadTag := by
        rw [length_drop]
        omega
      simp only [checkedSub,if_pos (Nat.not_lt.mp h),bind_eq_bind,bind_some,
        load_zero (Nat.sub_le _ _),loadFrom_of_le (Nat.sub_le _ _),load_zero htag.ge,
        take_of_length_le htag.le]
      cases d.cipher.decrypt nonce _ _ <;> rfl
  unfold openChecked openChunk
  rw [haead]
  cases d.security <;> rfl

namespace VmessBodyStream

theorem readChunkChecked_eq (x : Reading) (size padding room : Nat) :
    readChunkChecked x size (size-padding) room=some (readChunk x size padding room) := by
  unfold readChunkChecked readChunk
  obtain ⟨p,y⟩ := pollFillFrame x size
  cases p with
  | pending => rfl
  | err e => rfl
  | ok =>
    by_cases h : y.1.readBuf.length < size
    · simp [h]
    · simp only [h,if_false,load_zero (Nat.not_lt.mp h),bind_eq_bind,bind_some,
        openChecked_eq,handOutChecked_eq]
      cases (openChunk y.1.dec _).1 <;> rfl

/-- With overflow checks a poll panics exactly at a chunk whose size is not zero and less than its
padding; every other poll returns the same. -/
theorem pollRead_panics_iff (x : Reading) (room : Nat) :
    (pollReadChecked x room=none ↔ ∃ size padding,
      nextSizes x=some (size,padding) ∧ 0 < size ∧ size<padding) ∧
    (pollReadChecked x room≠none → pollReadChecked x room=some (pollRead x room)) := by
  unfold pollReadChecked pollRead nextSizes
  by_cases hunread : x.1.decoded.Unread
  · simp [hunread,consumeChecked_eq]
  by_cases heof : x.1.eof=true
  · simp [hunread,heof]
  simp only [hunread,heof,if_false]
  obtain ⟨p,y⟩ := pollFillFrame x 2
  cases p with
  | pending => simp
  | err e => simp
  | ok =>
    by_cases hshort : y.1.readBuf.length<2
    · simp [hshort]
    simp only [hshort,if_false,load_zero (Nat.not_lt.mp hshort),bind_eq_bind,bind_some]
    generalize hsize : UInt16.ofNat (ofBE (y.1.readBuf.take 2)) ^^^ y.1.dec.drawMask.1=size
    by_cases hzero : size=0
    · simp [hzero]
    have hpos : 0 < size.toNat := by
      by_contra h
      exact hzero (UInt16.toNat_inj.mp (Nat.eq_zero_of_not_pos h))
    by_cases hless : size.toNat<y.1.dec.drawMask.2.drawPadding.1
    · simp [hzero,hless,checkedSub,hpos]
    · simp only [hzero,if_false,checkedSub,if_pos (Nat.not_lt.mp hless),bind_some,hless,
        readChunkChecked_eq]
      simp [hless]

theorem size_below_padding : pollReadChecked (.new false (sampleDirection .aes128Gcm)
      (.new .aes128Gcm (fun _ _ => 5) [] lengthCipher),whole [5,4]) 10=none := by
  decide

end VmessBodyStream

/-- `write_all` over the polls that it comes to, with the states in which the bytes are sealed. -/
def writeAll : List ((Nat → UInt8)×Answers) → Writer Direction → List UInt8 →
    Poll IoError Unit×List (Direction×(Nat → UInt8))
  | [],_,buf => (if buf=[] then .ok () else .pending,[])
  | (r,a)::polls,w,buf =>
    if buf=[] then (.ok (),[])
    else
      let p := w.pollWrite (framing true) r buf a
      let sealed := if w.newFrames (framing true) (.write r buf)=[] then [] else [(w.cipher,r)]
      match p.1 with
      | .pending => ((writeAll polls p.2.1 buf).1,sealed++(writeAll polls p.2.1 buf).2)
      | .err e => (.err e,sealed)
      | .ok n =>
        if n=0 then (.err (.writeZero "write zero"),sealed)
        else ((writeAll polls p.2.1 (buf.drop n)).1,sealed++(writeAll polls p.2.1 (buf.drop n)).2)

theorem pollWrite_packet {w w' : Writer Direction} {r : Nat → UInt8} {a : Answers}
    {buf out : List UInt8} {n : Nat} (hn : n≠0)
    (h : w.pollWrite (framing true) r buf a=(.ok n,w',out)) :
    buf.length≤0xFFF0 ∧ w.newFrames (framing true) (.write r buf)≠[] := by
  unfold Writer.pollWrite at h
  split_ifs at h with hout hbuf
  · generalize w.pollFlush (framing true) a=p at h
    obtain ⟨_ | _ | _,_⟩ := p <;> cases h
    exact absurd rfl hn
  · cases h
    exact absurd rfl hn
  · by_cases hlen : 0xFFF0<buf.length
    · simp [framing,hlen] at h
    · exact ⟨Nat.not_lt.mp hlen,by simp [Writer.newFrames,hout,hbuf,framing,hlen]⟩

theorem writeAll_ok {polls : List ((Nat → UInt8)×Answers)} {w : Writer Direction}
    {buf : List UInt8} (hne : buf≠[]) (h : (writeAll polls w buf).1=.ok ()) :
    buf.length≤0xFFF0 ∧ (writeAll polls w buf).2≠[] := by
  induction polls generalizing w with
  | nil => simp [writeAll,hne] at h
  | cons poll polls ih =>
    rw [writeAll,if_neg hne] at h ⊢
    rcases hp : w.pollWrite (framing true) poll.1 buf poll.2 with ⟨_ | n | e,w',out⟩
    · simp only [hp] at h ⊢
      exact ⟨(ih h).1,by simp [(ih h).2]⟩
    · by_cases hn : n=0
      · simp [hp,hn] at h
      · obtain ⟨hlen,hsealed⟩ := pollWrite_packet hn hp
        exact ⟨hlen,by simp [hn,hsealed]⟩
    · simp [hp] at h

variable {d : Direction}

theorem chunkSize_eq_iff {chunk : List UInt8} (hchunk : 2 ≤ chunk.length) (payload : List UInt8) :
    chunkSize d.drawPadding.2 (chunk.take 2) =
      UInt16.ofNat (payload.length+aeadTag+d.drawPadding.1) ↔ lengthField d payload <+: chunk := by
  have htwo : (chunk.take 2).length=2 := by simp [hchunk]
  have hlt : ofBE (chunk.take 2)<65536 := by simpa [htwo] using ofBE_lt (chunk.take 2)
  have hfield : lengthField d payload <+: chunk ↔ toBE 2 (ofBE (chunk.take 2)) =
      lengthField d payload := by
    have hbytes := toBE_ofBE (chunk.take 2)
    rw [htwo] at hbytes
    rw [hbytes,prefix_iff_eq_take,lengthField_length,eq_comm]
  rw [hfield,chunkSize,lengthField]
  generalize UInt16.ofNat (payload.length+aeadTag+d.drawPadding.1)=size
  generalize d.drawPadding.2.drawMask.1=mask
  constructor
  · intro h
    have hmask : UInt16.ofNat (ofBE (chunk.take 2))=mask ^^^ size := by
      rw [← h,UInt16.xor_comm,UInt16.xor_assoc,UInt16.xor_self,UInt16.xor_zero]
    rw [← hmask,UInt16.toNat_ofNat_of_lt' hlt]
  · intro h
    have hmask := toBE_inj hlt (UInt16.toNat_lt _) h
    rw [hmask,UInt16.ofNat_toNat,UInt16.xor_comm,← UInt16.xor_assoc,UInt16.xor_self,UInt16.zero_xor]

/-- The size is that of the rest of the chunk just if there is a tag, the sum is a 16-bit number
and the encryption leaves the two bytes as they were. -/
theorem chunkSize_sealChunk_iff (random : Nat → UInt8) (payload : List UInt8) :
    (chunkSize d.drawPadding.2 ((sealChunk d random payload).1.take 2)).toNat =
        ((sealChunk d random payload).1.drop 2).length ↔
      d.security≠.none ∧ payload.length+aeadTag+d.drawPadding.1<2^16 ∧ lengthField d payload <+:
        (d.cipher.encrypt (sealNonce d) (lengthField d payload++payload)).1 := by
  by_cases hd : d.security=.none
  · have hchunk : (sealChunk d random payload).1=lengthField d payload++payload :=
      congrArg Prod.fst (sealChunk_plain hd (random,payload))
    have hsize : chunkSize d.drawPadding.2 ((lengthField d payload++payload).take 2)=_ :=
      (chunkSize_eq_iff (by simp) payload).mpr (prefix_append _ _)
    refine iff_of_false (fun h => ?_) fun h => h.1 hd
    rw [hchunk,hsize,UInt16.toNat_ofNat',Direction.drawPadding_none hd,aeadTag,length_drop,
      length_append,lengthField_length] at h
    omega
  · have hlen := sealChunk_length hd random payload
    have htwo : 2≤(sealChunk d random payload).1.length := by omega
    have hfield : lengthField d payload <+: (sealChunk d random payload).1 ↔ lengthField d payload <+:
        (d.cipher.encrypt (sealNonce d) (lengthField d payload++payload)).1 := by
      rw [(sealChunk_aead hd random payload).1,aeadSealInto,append_assoc]
      refine ⟨fun h => prefix_of_prefix_length_le h (prefix_append _ _) ?_,
        fun h => h.trans (prefix_append _ _)⟩
      simp [VmessCipher.encrypt_length]
    rw [← hfield,← chunkSize_eq_iff htwo payload,length_drop,hlen]
    unfold aeadTag
    constructor
    · intro h
      have hlt := UInt16.toNat_lt (chunkSize d.drawPadding.2 ((sealChunk d random payload).1.take 2))
      refine ⟨hd,by omega,UInt16.toNat_inj.mp ?_⟩
      rw [h,UInt16.toNat_ofNat']
      omega
    · rintro ⟨-,hlt,h⟩
      rw [h,UInt16.toNat_ofNat_of_lt' hlt]
      omega

/-- The inner length is right. The size is right just if there is a tag, the sum does not overflow
and the cipher keeps its two bytes. -/
theorem sent_sizes_iff {polls : List ((Nat → UInt8)×Answers)} {w : Writer Direction}
    {dest : SocketAddr} {payload : List UInt8}
    (h : (writeAll polls w (sendPacket dest payload)).1=.ok ()) :
    ofBE (slice (sendPacket dest payload) (encodePacketAddr dest).length 2)=payload.length ∧
    (writeAll polls w (sendPacket dest payload)).2≠[] ∧
    ∀ s∈(writeAll polls w (sendPacket dest payload)).2,
      ((chunkSize s.1.drawPadding.2 ((sealChunk s.1 s.2 (sendPacket dest payload)).1.take 2)).toNat =
          ((sealChunk s.1 s.2 (sendPacket dest payload)).1.drop 2).length ↔
        s.1.security≠.none ∧ (sendPacket dest payload).length+aeadTag+s.1.drawPadding.1<2^16 ∧
          lengthField s.1 (sendPacket dest payload) <+: (s.1.cipher.encrypt (sealNonce s.1)
            (lengthField s.1 (sendPacket dest payload)++sendPacket dest payload)).1) := by
  have hlen : (sendPacket dest payload).length=(encodePacketAddr dest).length+2+payload.length := by
    simp [sendPacket,Nat.add_assoc]
  obtain ⟨hle,hsealed⟩ := writeAll_ok (by rw [ne_eq,← length_eq_zero_iff]; omega) h
  refine ⟨?_,hsealed,fun s _ => chunkSize_sealChunk_iff s.2 _⟩
  have hslice := slice_append (encodePacketAddr dest) (toBE 2 payload.length) payload
  rw [toBE_length] at hslice
  rw [sendPacket,append_assoc,hslice,ofBE_toBE]
  omega

def sentAtOnce (security : Security) : Poll IoError Unit×List (Direction×(Nat → UInt8)) :=
  writeAll [(fun _ => 0,readyAnswers)] ⟨sampleDirection security,[],0⟩ (sendPacket (.v4 1,53) [7])

theorem sent_sizes_iff_once : ∃ s∈(sentAtOnce .aes128Gcm).2,
    (chunkSize s.1.drawPadding.2 ((sealChunk s.1 s.2 (sendPacket (.v4 1,53) [7])).1.take 2)).toNat =
      ((sealChunk s.1 s.2 (sendPacket (.v4 1,53) [7])).1.drop 2).length :=
  ⟨(sampleDirection .aes128Gcm,fun _ => 0),List.mem_cons_self,
    ((sent_sizes_iff (rfl : (sentAtOnce .aes128Gcm).1=_)).2.2 _ List.mem_cons_self).mpr (by decide)⟩

/-- Without encryption the size counts a tag that is not sent. -/
theorem plain_size_counts_tag : ∃ s,sentAtOnce .none=(.ok (),[s]) ∧
    (chunkSize s.1.drawPadding.2 ((sealChunk s.1 s.2 (sendPacket (.v4 1,53) [7])).1.take 2)).toNat
      =26 ∧
    ((sealChunk s.1 s.2 (sendPacket (.v4 1,53) [7])).1.drop 2).length=10 :=
  ⟨(sampleDirection .none,fun _ => 0),rfl,by decide⟩

end DaeRs.Vmess
