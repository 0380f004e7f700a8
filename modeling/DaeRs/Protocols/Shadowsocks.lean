import DaeRs.Lib.Octets
import DaeRs.Protocols.FrameReader
import DaeRs.Protocols.FrameWriter

/-! The encrypted TCP stream of Shadowsocks: its own salt and frames in one direction, the server's
salt and frames in the other. -/

namespace DaeRs.Shadowsocks

open AsyncIo Octets Protocols List

/-- The ciphers of one method and master key. Packets are encrypted and decrypted in place, with
room for the tag at the end, and each moves the cipher on: one that has been through the same
packets decrypts what the other encrypted. -/
structure SsCipher where
  State : Type
  saltLen : Nat
  tagLen : Nat
  /-- The cipher that is derived from a salt. -/
  new : List UInt8 → State
  encryptPacket : State → List UInt8 → List UInt8×State
  decryptPacket : State → List UInt8 → Option (List UInt8)×State
  encrypt_length : ∀ c buf,(encryptPacket c buf).1.length=buf.length
  decrypt_encrypt : ∀ c plain room,room.length=tagLen → ∃ tag,
    decryptPacket c (encryptPacket c (plain++room)).1 =
      (some (plain++tag),(encryptPacket c (plain++room)).2)

variable {C : SsCipher}

namespace SsCipher

def packet (C : SsCipher) (enc : C.State) (plain : List UInt8) : List UInt8×C.State :=
  C.encryptPacket enc (plain++List.replicate C.tagLen 0)

theorem packet_length (enc : C.State) (plain : List UInt8) :
    (C.packet enc plain).1.length=plain.length+C.tagLen := by
  rw [packet,C.encrypt_length,length_append,length_replicate]

theorem decrypt_packet (enc : C.State) (plain : List UInt8) : ∃ tag,
    C.decryptPacket enc (C.packet enc plain).1=(some (plain++tag),(C.packet enc plain).2) :=
  C.decrypt_encrypt enc plain _ (length_replicate ..)

end SsCipher

def framePacket (C : SsCipher) (enc : C.State) (plaintext : List UInt8) : List UInt8×C.State :=
  let lenBuf := C.packet enc (toBE 2 plaintext.length)
  let payload := C.packet lenBuf.2 plaintext
  (lenBuf.1++payload.1,payload.2)

def maxPayload : Nat := 0x3FFF

def framing (C : SsCipher) : Framing C.State Unit where
  zeroText := "shadowsocks: write zero"
  chunkLen buf := .ok (min buf.length maxPayload)
  sealFrame enc _ chunk := framePacket C enc chunk

/-- A stream: its writer, and what was read. -/
structure SsStream (C : SsCipher) where
  writer : Writer C.State
  dec : Option C.State
  readBuf : List UInt8
  readPayloadLen : Option Nat
  decoded : Decoded
  eof : Bool

namespace SsStream

def new (C : SsCipher) (enc : C.State) : SsStream C := ⟨⟨enc,[],0⟩,none,[],none,.empty,false⟩

abbrev Reading (C : SsCipher) := SsStream C×List (Incoming IoError)

def pollFillFrame (x : Reading C) (need : Nat) : Poll IoError Unit×Reading C :=
  let r := fill need x.1.readBuf x.2
  (r.1,{ x.1 with readBuf := r.2.1 },r.2.2)

def handOut (x : Reading C) (room : Nat) (payload : List UInt8) :
    Poll IoError (List UInt8)×Reading C :=
  let r := x.1.decoded.handOut payload room
  (.ok r.1,{ x.1 with decoded := r.2 },x.2)

/-- The part of `poll_read` behind a length frame; the source has it twice, for a payload at once
and for one that was waited for. -/
def readPayload (dec : C.State) (payloadLen : Nat) (x : Reading C) (room : Nat) :
    Poll IoError (List UInt8)×Reading C :=
  let needPayload := payloadLen+C.tagLen
  let x := ({ x.1 with readPayloadLen := none },x.2)
  match pollFillFrame x needPayload with
  | (.pending,y) => (.pending,{ y.1 with readPayloadLen := some payloadLen },y.2)
  | (.err e,y) => (.err e,y)
  | (.ok (),y) =>
    if y.1.readBuf.length<needPayload then (.ok [],{ y.1 with eof := true },y.2)
    else
      let r := C.decryptPacket dec (y.1.readBuf.take needPayload)
      let y := ({ y.1 with readBuf := y.1.readBuf.drop needPayload,dec := some r.2 },y.2)
      match r.1 with
      | none => (.err (.other "shadowsocks: payload tag verification failed"),y)
      | some payload => handOut y room (payload.take payloadLen)

def readFrame (dec : C.State) (x : Reading C) (room : Nat) :
    Poll IoError (List UInt8)×Reading C :=
  let needLenFrame := 2+C.tagLen
  match pollFillFrame x needLenFrame with
  | (.pending,y) => (.pending,y)
  | (.err e,y) => (.err e,y)
  | (.ok (),y) =>
    if y.1.readBuf.length<needLenFrame then (.ok [],{ y.1 with eof := true },y.2)
    else
      let r := C.decryptPacket dec (y.1.readBuf.take needLenFrame)
      let y := ({ y.1 with readBuf := y.1.readBuf.drop needLenFrame,dec := some r.2 },y.2)
      match r.1 with
      | none => (.err (.other "shadowsocks: length tag verification failed"),y)
      | some lenBuf =>
        let payloadLen := ofBE (lenBuf.take 2)
        if payloadLen=0 then (.ok [],{ y.1 with eof := true },y.2)
        else readPayload r.2 payloadLen y room

def readFrames (dec : C.State) (x : Reading C) (room : Nat) :
    Poll IoError (List UInt8)×Reading C :=
  match x.1.readPayloadLen with
  | some payloadLen => readPayload dec payloadLen x room
  | none => readFrame dec x room

def pollRead (x : Reading C) (room : Nat) : Poll IoError (List UInt8)×Reading C :=
  if x.1.decoded.Unread then
    let r := x.1.decoded.consume room
    (.ok r.1,{ x.1 with decoded := r.2 },x.2)
  else if x.1.eof then (.ok [],x)
  else match x.1.dec with
    | some dec => readFrames dec x room
    | none =>
      match pollFillFrame x C.saltLen with
      | (.pending,y) => (.pending,y)
      | (.err e,y) => (.err e,y)
      | (.ok (),y) =>
        if y.1.readBuf.length<C.saltLen then (.ok [],{ y.1 with eof := true },y.2)
        else
          let dec := C.new (y.1.readBuf.take C.saltLen)
          readFrames dec
            ({ y.1 with readBuf := y.1.readBuf.drop C.saltLen,dec := some dec },y.2) room

end SsStream

/-! What the server sends, and that the reads give it out. -/

/-- A frame as the length field can announce it. -/
def IsFrame (f : List UInt8) : Prop := f≠[] ∧ f.length≤65535

instance : DecidablePred IsFrame := fun f => inferInstanceAs (Decidable (f≠[] ∧ f.length≤65535))

def encryptFrames (C : SsCipher) (c : C.State) : List (List UInt8) → List UInt8
  | [] => []
  | f::fs => (framePacket C c f).1++encryptFrames C (framePacket C c f).2 fs

def serverStream (C : SsCipher) (salt : List UInt8) (fs : List (List UInt8)) : List UInt8 :=
  salt++encryptFrames C (C.new salt) fs

theorem encryptFrames_cons (c : C.State) (f : List UInt8) (fs : List (List UInt8)) :
    encryptFrames C c (f::fs) =
      (C.packet c (toBE 2 f.length)).1++((C.packet (C.packet c (toBE 2 f.length)).2 f).1 ++
        encryptFrames C (C.packet (C.packet c (toBE 2 f.length)).2 f).2 fs) := by
  rw [encryptFrames,framePacket,append_assoc]

theorem IsFrame.announced {f : List UInt8} (hf : IsFrame f) (tag : List UInt8) :
    ofBE ((toBE 2 f.length++tag).take 2)=f.length := by
  rw [take_left' (toBE_length 2 f.length),ofBE_toBE]
  have hle := hf.2
  omega

namespace SsStream

/-- Which bytes are to come, buffered or not, and which plaintext: the server's salt, whole frames
or a payload whose length has been read. -/
inductive ToCome (s : SsStream C) : List UInt8 → List UInt8 → Prop
  | salt (salt : List UInt8) (fs : List (List UInt8)) (hdec : s.dec=none)
      (hlen : s.readPayloadLen=none) (heof : s.eof=false) (hsalt : salt.length=C.saltLen)
      (hfs : ∀ f∈fs,IsFrame f) : ToCome s (serverStream C salt fs) fs.flatten
  | frames (c : C.State) (fs : List (List UInt8)) (hdec : s.dec=some c)
      (hlen : s.readPayloadLen=none) (heof : s.eof=false) (hfs : ∀ f∈fs,IsFrame f) :
      ToCome s (encryptFrames C c fs) fs.flatten
  | payload (c : C.State) (f : List UInt8) (fs : List (List UInt8)) (hdec : s.dec=some c)
      (hlen : s.readPayloadLen=some f.length) (heof : s.eof=false) (hf : IsFrame f)
      (hfs : ∀ f∈fs,IsFrame f) :
      ToCome s ((C.packet c f).1++encryptFrames C (C.packet c f).2 fs) (f++fs.flatten)
  | ended (wire : List UInt8) (heof : s.eof=true) : ToCome s wire []

def Expects (x : Reading C) (rest : List UInt8) (n : Nat) : Prop :=
  Segments x.2 ∧ pendings x.2≤n ∧ ∃ rest',rest=x.1.decoded.leftover++rest' ∧
    ToCome x.1 (x.1.readBuf++bytesOf x.2) rest'

variable {rest : List UInt8}

theorem ToCome.congr {s s' : SsStream C} {wire : List UInt8} (h : ToCome s wire rest)
    (hdec : s'.dec=s.dec) (hlen : s'.readPayloadLen=s.readPayloadLen)
    (heof : s'.eof=s.eof) : ToCome s' wire rest := by
  cases h with
  | salt salt fs h₁ h₂ h₃ hsalt hfs =>
    exact .salt salt fs (hdec.trans h₁) (hlen.trans h₂) (heof.trans h₃) hsalt hfs
  | frames c fs h₁ h₂ h₃ hfs =>
    exact .frames c fs (hdec.trans h₁) (hlen.trans h₂) (heof.trans h₃) hfs
  | payload c f fs h₁ h₂ h₃ hf hfs =>
    exact .payload c f fs (hdec.trans h₁) (hlen.trans h₂) (heof.trans h₃) hf hfs
  | ended wire h => exact .ended wire (heof.trans h)

variable {x : Reading C}

theorem expects_of_toCome {n : Nat} (hreads : Segments x.2)
    (hn : pendings x.2≤n) (hleft : x.1.decoded.leftover=[])
    (hcome : ToCome x.1 (x.1.readBuf++bytesOf x.2) rest) : Expects x rest n :=
  ⟨hreads,hn,rest,by rw [hleft,nil_append],hcome⟩

variable {n room : Nat}

theorem handOut_gives {f : List UInt8} (hf : f≠[])
    (hroom : 0 < room) (hreads : Segments x.2) (hn : pendings x.2≤n)
    (hleft : x.1.decoded.leftover=[]) (hcome : ToCome x.1 (x.1.readBuf++bytesOf x.2) rest) :
    Gives Expects (f++rest) n (handOut x room f) := by
  refine .portion _ _ ((x.1.decoded.handOut f room).2.leftover++rest)
    (Decoded.handOut_ne_nil _ hf hroom) ?_ ?_
  · rw [← append_assoc,Decoded.handOut_leftover hleft]
  · exact ⟨hreads,hn,rest,rfl,hcome.congr rfl rfl rfl⟩

theorem readPayload_gives {c : C.State} {f : List UInt8} {fs : List (List UInt8)}
    (hroom : 0 < room) (hreads : Segments x.2) (hn : pendings x.2≤n)
    (hleft : x.1.decoded.leftover=[]) (hdec : x.1.dec=some c) (heof : x.1.eof=false)
    (hf : IsFrame f) (hfs : ∀ f∈fs,IsFrame f) (hwire : x.1.readBuf++bytesOf x.2 =
      (C.packet c f).1++encryptFrames C (C.packet c f).2 fs) :
    Gives Expects (f++fs.flatten) n (readPayload c f.length x room) := by
  have hlen : (C.packet c f).1.length=f.length+C.tagLen := C.packet_length c f
  obtain ⟨hfilled,hsegments⟩ := fill_filled (f.length+C.tagLen) x.1.readBuf hreads
  dsimp only [readPayload,pollFillFrame]
  generalize fill (f.length+C.tagLen) x.1.readBuf x.2=r at hfilled hsegments
  cases hfilled with
  | pending buf' reads' hshort hbytes hwait =>
    refine .pending _ (pendings reads') ?_ (Nat.lt_of_lt_of_le hwait hn)
    refine expects_of_toCome hsegments (Nat.le_refl _) hleft ?_
    rw [hbytes,hwire]
    exact .payload c f fs hdec rfl heof hf hfs
  | enough buf' reads' hneed hbytes hwait =>
    rw [← hlen] at hneed
    obtain ⟨htake,hdrop⟩ := split_of_append_eq (hbytes.trans hwire) hneed
    obtain ⟨tag,hdecrypt⟩ := C.decrypt_packet c f
    rw [hlen] at htake hdrop hneed
    simp only [if_neg (Nat.not_lt.mpr hneed),htake,hdecrypt,take_left]
    refine handOut_gives hf.1 hroom hsegments (Nat.le_trans hwait hn) hleft ?_
    rw [hdrop]
    exact .frames _ fs rfl rfl heof hfs
  | ended hshort =>
    rw [hwire,length_append,hlen] at hshort
    omega

theorem readFrame_gives {c : C.State} {fs : List (List UInt8)}
    (hroom : 0 < room) (hreads : Segments x.2) (hn : pendings x.2≤n)
    (hleft : x.1.decoded.leftover=[]) (hdec : x.1.dec=some c) (hlen : x.1.readPayloadLen=none)
    (heof : x.1.eof=false) (hfs : ∀ f∈fs,IsFrame f)
    (hwire : x.1.readBuf++bytesOf x.2=encryptFrames C c fs) :
    Gives Expects fs.flatten n (readFrame c x room) := by
  obtain ⟨hfilled,hsegments⟩ := fill_filled (2+C.tagLen) x.1.readBuf hreads
  dsimp only [readFrame,pollFillFrame]
  generalize fill (2+C.tagLen) x.1.readBuf x.2=r at hfilled hsegments
  cases hfilled with
  | pending buf' reads' hshort hbytes hwait =>
    refine .pending _ (pendings reads') ?_ (Nat.lt_of_lt_of_le hwait hn)
    refine expects_of_toCome hsegments (Nat.le_refl _) hleft ?_
    rw [hbytes,hwire]
    exact .frames c fs hdec hlen heof hfs
  | enough buf' reads' hneed hbytes hwait =>
    cases fs with
    | nil =>
      have hnil : buf'++bytesOf reads'=[] := hbytes.trans hwire
      rw [(append_eq_nil_iff.mp hnil).1,length_nil] at hneed
      omega
    | cons f fs =>
      have hf : IsFrame f := hfs f mem_cons_self
      have hpacket : (C.packet c (toBE 2 f.length)).1.length=2+C.tagLen := by
        rw [C.packet_length,toBE_length]
      rw [encryptFrames_cons] at hwire
      obtain ⟨htake,hdrop⟩ := split_of_append_eq (hbytes.trans hwire) (hpacket ▸ hneed)
      rw [hpacket] at htake hdrop
      obtain ⟨tag,hdecrypt⟩ := C.decrypt_packet c (toBE 2 f.length)
      simp only [if_neg (Nat.not_lt.mpr hneed),htake,hdecrypt,hf.announced,
        if_neg (fun h => hf.1 (length_eq_zero_iff.mp h))]
      exact readPayload_gives hroom hsegments (Nat.le_trans hwait hn) hleft rfl heof hf
        (fun g hg => hfs g (mem_cons_of_mem f hg)) hdrop
  | ended hshort =>
    have hfs : fs=[] := by
      cases fs with
      | nil => rfl
      | cons f fs =>
        rw [hwire,encryptFrames_cons,length_append,C.packet_length,toBE_length] at hshort
        omega
    simp only [if_pos hshort,hfs]
    exact .ended _ rfl

theorem readFrames_gives {c : C.State}
    (hroom : 0 < room) (hreads : Segments x.2) (hn : pendings x.2≤n)
    (hleft : x.1.decoded.leftover=[]) (hdec : x.1.dec=some c) (heof : x.1.eof=false)
    (hcome : ToCome x.1 (x.1.readBuf++bytesOf x.2) rest) :
    Gives Expects rest n (readFrames c x room) := by
  generalize hwire : x.1.readBuf++bytesOf x.2=wire at hcome
  unfold readFrames
  cases hcome with
  | salt salt fs hnone => rw [hdec] at hnone; cases hnone
  | frames c' fs hdec' hlen heof hfs =>
    obtain rfl : c=c' := Option.some.inj (hdec.symm.trans hdec')
    rw [hlen]
    exact readFrame_gives hroom hreads hn hleft hdec hlen heof hfs hwire
  | payload c' f fs hdec' hlen heof hf hfs =>
    obtain rfl : c=c' := Option.some.inj (hdec.symm.trans hdec')
    rw [hlen]
    exact readPayload_gives hroom hreads hn hleft hdec heof hf hfs hwire
  | ended wire h => rw [heof] at h; cases h

theorem pollRead_gives (x : Reading C) (rest : List UInt8) (n room : Nat) (hx : Expects x rest n)
    (hroom : 0 < room) : Gives Expects rest n (pollRead x room) := by
  obtain ⟨hreads,hn,rest',rfl,hcome⟩ := hx
  by_cases hleft : x.1.decoded.Unread
  · rw [pollRead,if_pos hleft]
    refine .portion _ _ ((x.1.decoded.consume room).2.leftover++rest')
      (Decoded.consume_ne_nil hleft hroom) ?_ ?_
    · rw [← append_assoc,Decoded.consume_leftover]
    · exact ⟨hreads,hn,rest',rfl,hcome.congr rfl rfl rfl⟩
  · have hnil : x.1.decoded.leftover=[] := Decoded.leftover_of_not_unread hleft
    rw [pollRead,if_neg hleft,hnil,nil_append]
    generalize hwire : x.1.readBuf++bytesOf x.2=wire at hcome
    cases hcome with
    | ended wire heof =>
      rw [if_pos heof]
      exact .ended x rfl
    | frames c fs hdec hlen heof hfs =>
      rw [if_neg (by rw [heof]; decide),hdec]
      refine readFrames_gives hroom hreads hn hnil hdec heof ?_
      rw [hwire]
      exact .frames c fs hdec hlen heof hfs
    | payload c f fs hdec hlen heof hf hfs =>
      rw [if_neg (by rw [heof]; decide),hdec]
      refine readFrames_gives hroom hreads hn hnil hdec heof ?_
      rw [hwire]
      exact .payload c f fs hdec hlen heof hf hfs
    | salt salt fs hdec hlen heof hsalt hfs =>
      rw [if_neg (by rw [heof]; decide),hdec]
      obtain ⟨hfilled,hsegments⟩ := fill_filled C.saltLen x.1.readBuf hreads
      dsimp only [pollFillFrame]
      generalize fill C.saltLen x.1.readBuf x.2=r at hfilled hsegments
      cases hfilled with
      | pending buf' reads' hshort hbytes hwait =>
        refine .pending _ (pendings reads') ?_ (Nat.lt_of_lt_of_le hwait hn)
        refine expects_of_toCome hsegments (Nat.le_refl _) hnil ?_
        rw [hbytes,hwire]
        exact .salt salt fs hdec hlen heof hsalt hfs
      | enough buf' reads' hneed hbytes hwait =>
        rw [serverStream] at hwire
        obtain ⟨htake,hdrop⟩ := split_of_append_eq (hbytes.trans hwire) (hsalt ▸ hneed)
        rw [hsalt] at htake hdrop
        simp only [if_neg (Nat.not_lt.mpr hneed),htake]
        refine readFrames_gives hroom hsegments (Nat.le_trans hwait hn) hnil rfl heof ?_
        rw [hdrop]
        exact .frames _ fs rfl hlen heof hfs
      | ended hshort =>
        rw [hwire,serverStream,length_append,hsalt] at hshort
        omega

end SsStream

/-- However the transport cuts the server's stream, and whatever room the reader has at each poll:
the polls give out the frames in order, without an error, the end of the stream only behind all of
them, and in time. -/
theorem server_frames_delivered (C : SsCipher) (enc : C.State) (salt : List UInt8)
    (hsalt : salt.length=C.saltLen) (fs : List (List UInt8)) (hfs : ∀ f∈fs,IsFrame f)
    (segments : List (Incoming IoError)) (hsegments : Segments segments)
    (hbytes : bytesOf segments=serverStream C salt fs) (rooms : List Nat)
    (hrooms : ∀ room∈rooms,0 < room) :
    GivesOut fs.flatten (pendings segments) rooms.length
      (reads SsStream.pollRead (SsStream.new C enc,segments) rooms) := by
  refine reads_givesOut SsStream.pollRead_gives ?_ hrooms
  refine SsStream.expects_of_toCome hsegments (Nat.le_refl _) rfl ?_
  change SsStream.ToCome _ ([]++bytesOf segments) _
  rw [List.nil_append,hbytes]
  exact .salt salt fs rfl rfl rfl hsalt hfs

/-- A cipher that masks each packet with its number and repeats the number as the tag. -/
def countingCipher : SsCipher where
  State := Nat
  saltLen := 4
  tagLen := 16
  new salt := ofBE salt
  encryptPacket c buf := ((buf.take (buf.length-16)).map (· ^^^ UInt8.ofNat c) ++
      List.replicate (buf.length-(buf.length-16)) (UInt8.ofNat c),c+1)
  decryptPacket c buf := (if buf.drop (buf.length-16)=List.replicate 16 (UInt8.ofNat c) then
      some ((buf.take (buf.length-16)).map (· ^^^ UInt8.ofNat c)++buf.drop (buf.length-16))
    else none,c+1)
  encrypt_length c buf := by
    rw [List.length_append,List.length_map,List.length_take,List.length_replicate]
    omega
  decrypt_encrypt c plain room hroom := by
    refine ⟨List.replicate 16 (UInt8.ofNat c),?_⟩
    have hlen : (plain++room).length-16=plain.length := by
      rw [List.length_append,hroom]
      omega
    have hroom' : (plain++room).length-plain.length=16 := by
      rw [List.length_append,hroom]
      omega
    have hmasked : (plain.map (· ^^^ UInt8.ofNat c) ++List.replicate 16 (UInt8.ofNat c)).length-16 =
          (plain.map (· ^^^ UInt8.ofNat c)).length := by
      rw [List.length_append,List.length_replicate]
      omega
    simp only [hlen,hroom',List.take_left,hmasked,List.drop_left,if_true,map_xor_map_xor]

def cutStream : List (Incoming IoError) :=
  [.pending,.data ((serverStream countingCipher [0,0,0,7] [[1,2],[3]]).take 30),
    .pending,.data ((serverStream countingCipher [0,0,0,7] [[1,2],[3]]).drop 30)]

theorem server_frames_delivered_cut : GivesOut [1,2,3] 2 6
      (reads SsStream.pollRead (SsStream.new countingCipher (0 : Nat),cutStream)
        [1,1,4,4,4,4]) :=
  server_frames_delivered countingCipher (0 : Nat) [0,0,0,7] rfl [[1,2],[3]] (by decide)
    cutStream ((segments_nil.data (by decide)).pending.data (by decide)).pending (by decide)
    [1,1,4,4,4,4] (by decide)

end DaeRs.Shadowsocks
