import DaeRs.Lib.Octets
import DaeRs.Protocols.FrameReader
import DaeRs.Protocols.FrameWriter

/-! The encrypted body stream of VMess: chunks with a masked length and random padding. -/

namespace DaeRs.Vmess

open AsyncIo Octets Protocols

inductive Security where
  | none
  | aes128Gcm
  | chacha20Poly1305
  deriving DecidableEq

def aeadTag : Nat := 16

def bodyChunkSize : Nat := 16384

/-- An AEAD cipher under one key: a buffer is encrypted and decrypted in place, the tag is apart. -/
structure VmessCipher where
  encrypt : List UInt8 → List UInt8 → List UInt8×List UInt8
  decrypt : List UInt8 → List UInt8 → List UInt8 → Option (List UInt8)
  encrypt_length : ∀ nonce plain,(encrypt nonce plain).1.length=plain.length
  tag_length : ∀ nonce plain,(encrypt nonce plain).2.length=aeadTag
  decrypt_encrypt : ∀ nonce plain,
    decrypt nonce (encrypt nonce plain).1 (encrypt nonce plain).2=some plain

/-- The output of SHAKE128 over an IV, and how much of it was read. -/
structure ShakeSize where
  stream : Nat → UInt8
  pos : Nat

namespace ShakeSize

def nextMask (s : ShakeSize) : UInt16×ShakeSize :=
  (UInt16.ofNat (ofBE [s.stream s.pos,s.stream (s.pos+1)]),{ s with pos := s.pos+2 })

def nextPadding (s : ShakeSize) : UInt16×ShakeSize := (s.nextMask.1%64,s.nextMask.2)

end ShakeSize

/-- The counter of chunks over an IV. -/
structure ChunkNonce where
  counter : UInt16
  iv : List UInt8

def ChunkNonce.next (n : ChunkNonce) : List UInt8×ChunkNonce :=
  (toBE 2 n.counter.toNat++slice n.iv 2 10,{ n with counter := n.counter+1 })

/-- The state that a side keeps of one direction. -/
structure Direction where
  security : Security
  shake : ShakeSize
  chunkNonce : ChunkNonce
  cipher : VmessCipher

namespace Direction

def new (security : Security) (shake128 : List UInt8 → Nat → UInt8) (iv : List UInt8)
    (cipher : VmessCipher) : Direction :=
  ⟨security,⟨shake128 iv,0⟩,⟨0,iv⟩,cipher⟩

variable (d : Direction)

def drawMask : UInt16×Direction := (d.shake.nextMask.1,{ d with shake := d.shake.nextMask.2 })

def drawPadding : Nat×Direction :=
  match d.security with
  | .none => (0,d)
  | _ => (d.shake.nextPadding.1.toNat,{ d with shake := d.shake.nextPadding.2 })

def drawNonce : List UInt8×Direction :=
  (d.chunkNonce.next.1,{ d with chunkNonce := d.chunkNonce.next.2 })

@[simp] theorem drawMask_security : d.drawMask.2.security=d.security := rfl

@[simp] theorem drawMask_cipher : d.drawMask.2.cipher=d.cipher := rfl

@[simp] theorem drawMask_chunkNonce : d.drawMask.2.chunkNonce=d.chunkNonce := rfl

theorem drawPadding_none {d : Direction} (h : d.security=.none) : d.drawPadding=(0,d) := by
  rw [drawPadding,h]

theorem drawPadding_shake : d.drawPadding.2={ d with shake := d.drawPadding.2.shake } := by
  unfold drawPadding
  split
  · rfl
  · rfl

@[simp] theorem drawPadding_security : d.drawPadding.2.security=d.security := by
  rw [drawPadding_shake]

@[simp] theorem drawPadding_cipher : d.drawPadding.2.cipher=d.cipher := by
  rw [drawPadding_shake]

@[simp] theorem drawPadding_chunkNonce : d.drawPadding.2.chunkNonce=d.chunkNonce := by
  rw [drawPadding_shake]

end Direction

/-- Append the ciphertext and the tag to a buffer: the buffer is encrypted from its beginning. -/
def aeadSealInto (cipher : VmessCipher) (nonce out plain : List UInt8) : List UInt8 :=
  let r := cipher.encrypt nonce (out++plain)
  r.1++r.2

def openFailed : Security → IoError
  | .chacha20Poly1305 => .other "vmess: chacha open failed"
  | _ => .other "vmess: aes open failed"

variable (d : Direction)

def aeadOpenInPlace (nonce buf : List UInt8) : Except IoError (List UInt8) :=
  if buf.length<aeadTag then .error (.other "vmess: ciphertext too short")
  else
    let tagPos := buf.length-aeadTag
    match d.cipher.decrypt nonce (buf.take tagPos) (buf.drop tagPos) with
    | some plain => .ok plain
    | none => .error (openFailed d.security)

/-- The length bytes with the payload behind them, encrypted unless the security is `none`. -/
def sealBody (lengthBytes payload : List UInt8) : List UInt8×Direction :=
  match d.security with
  | .none => (lengthBytes++payload,d)
  | _ => (aeadSealInto d.cipher d.drawNonce.1 lengthBytes payload,d.drawNonce.2)

/-- A chunk in `write_out`; `random` fills the padding. -/
def sealChunk (random : Nat → UInt8) (payload : List UInt8) :
    List UInt8×Direction :=
  let padding := d.drawPadding
  let size := UInt16.ofNat (payload.length+aeadTag+padding.1)
  let mask := padding.2.drawMask
  let body := sealBody mask.2 (toBE 2 (mask.1 ^^^ size).toNat) payload
  (body.1++(List.range padding.1).map random,body.2)

def openChunk (buf : List UInt8) : Except IoError (List UInt8)×Direction :=
  match d.security with
  | .none => (.ok buf,d)
  | _ => (aeadOpenInPlace d d.drawNonce.1 buf,d.drawNonce.2)

theorem openChunk_ok {d d' : Direction} {buf bytes : List UInt8} (hd : d.security≠.none)
    (h : openChunk d buf=(.ok bytes,d')) : aeadTag≤buf.length ∧
      d.cipher.decrypt d.drawNonce.1 (buf.take (buf.length-aeadTag))
        (buf.drop (buf.length-aeadTag))=some bytes := by
  have hopen : openChunk d buf=(aeadOpenInPlace d d.drawNonce.1 buf,d.drawNonce.2) := by
    unfold openChunk
    split
    · next hnone => exact absurd hnone hd
    · rfl
  have hok : aeadOpenInPlace d d.drawNonce.1 buf=.ok bytes := congrArg Prod.fst (hopen.symm.trans h)
  unfold aeadOpenInPlace at hok
  dsimp only at hok
  split_ifs at hok with hlen
  refine ⟨Nat.not_lt.mp hlen,?_⟩
  split at hok
  · next plain hplain =>
    cases hok
    exact hplain
  · cases hok

def framing (packetMode : Bool) : Framing Direction (Nat → UInt8) where
  zeroText := "vmess: write zero"
  chunkLen buf :=
    if packetMode then
      if 0xFFF0<buf.length then .error (.other "vmess udp: packet too large")
      else .ok buf.length
    else .ok (min buf.length bodyChunkSize)
  sealFrame := sealChunk

structure VmessBodyStream where
  packetMode : Bool
  writer : Writer Direction
  dec : Direction
  readBuf : List UInt8
  decoded : Decoded
  eof : Bool

namespace VmessBodyStream

def new (packetMode : Bool) (enc dec : Direction) : VmessBodyStream :=
  ⟨packetMode,⟨enc,[],0⟩,dec,[],.empty,false⟩

abbrev Reading := VmessBodyStream×List (Incoming IoError)

def pollFillFrame (x : Reading) (need : Nat) : Poll IoError Unit×Reading :=
  let r := fill need x.1.readBuf x.2
  (r.1,{ x.1 with readBuf := r.2.1 },r.2.2)

/-- The part of `poll_read` behind the length of a chunk; its padding is known. -/
def readChunk (x : Reading) (size padding room : Nat) : Poll IoError (List UInt8)×Reading :=
  match pollFillFrame x size with
  | (.pending,y) => (.pending,y)
  | (.err e,y) => (.err e,y)
  | (.ok (),y) =>
    if y.1.readBuf.length < size then (.ok [],{ y.1 with eof := true },y.2)
    else
      let r := openChunk y.1.dec ((y.1.readBuf.take size).take (size-padding))
      let s := { y.1 with readBuf := y.1.readBuf.drop size,dec := r.2 }
      match r.1 with
      | .error e => (.err e,s,y.2)
      | .ok chunk =>
        let h := s.decoded.handOut chunk room
        (.ok h.1,{ s with decoded := h.2 },y.2)

def pollRead (x : Reading) (room : Nat) : Poll IoError (List UInt8)×Reading :=
  if x.1.decoded.Unread then
    let r := x.1.decoded.consume room
    (.ok r.1,{ x.1 with decoded := r.2 },x.2)
  else if x.1.eof then (.ok [],x)
  else match pollFillFrame x 2 with
    | (.pending,y) => (.pending,y)
    | (.err e,y) => (.err e,y)
    | (.ok (),y) =>
      if y.1.readBuf.length<2 then (.ok [],{ y.1 with eof := true },y.2)
      else
        let mask := y.1.dec.drawMask
        let size := UInt16.ofNat (ofBE (y.1.readBuf.take 2)) ^^^ mask.1
        let s := { y.1 with readBuf := y.1.readBuf.drop 2,dec := mask.2 }
        if size=0 then (.ok [],{ s with eof := true },y.2)
        else
          let padding := mask.2.drawPadding
          let s := { s with dec := padding.2 }
          if size.toNat<padding.1 then
            (.err (.other "vmess: invalid chunk size"),{ s with eof := true },y.2)
          else readChunk (s,y.2) size.toNat padding.1 room

end VmessBodyStream

end DaeRs.Vmess
