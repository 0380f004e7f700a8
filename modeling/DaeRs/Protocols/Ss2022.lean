import DaeRs.Protocols.UdpCodecs

/-! The datagrams that a server sends to a Shadowsocks 2022 UDP session. -/

namespace DaeRs.Shadowsocks

open Octets Panicking UdpCodecs List
open Vmess (SocketAddr)

def ssUdpTagLen : Nat := 16
def ssUdpServerSocketType : UInt8 := 1
def nonceSize : Nat := 24

/-- Packets are encrypted and decrypted in place, in a buffer that ends in room for the tag. -/
structure PacketCipher where
  encrypt : List UInt8 → List UInt8 → List UInt8
  decrypt : List UInt8 → List UInt8 → Option (List UInt8)
  encrypt_length : ∀ nonce buf,(encrypt nonce buf).length=buf.length
  decrypt_length : ∀ nonce buf out,decrypt nonce buf=some out → out.length=buf.length
  decrypt_encrypt : ∀ nonce plain room,room.length=ssUdpTagLen →
    ∃ tag,decrypt nonce (encrypt nonce (plain++room))=some (plain++tag)

/-- The block cipher under the master key, the ciphers derived from it for each session id, and the
one that ChaCha20-Poly1305 uses for all of them. -/
structure Ciphers where
  encryptBlock : List UInt8 → List UInt8
  decryptBlock : List UInt8 → List UInt8
  derived : Nat → PacketCipher
  direct : PacketCipher
  encryptBlock_length : ∀ block,block.length=16 → (encryptBlock block).length=16
  decryptBlock_length : ∀ block,block.length=16 → (decryptBlock block).length=16
  decrypt_encryptBlock : ∀ block,block.length=16 → decryptBlock (encryptBlock block)=block

inductive CipherKind where
  | aes128Gcm
  | aes256Gcm
  | chacha20Poly1305
  /-- The other kinds, with their two texts. -/
  | other (display debug : String)
  deriving DecidableEq

/-- A session of the 2022 edition. -/
structure SsUdpSession where
  kind : CipherKind
  ciphers : Ciphers
  clientSessionId : UInt64

def shortPacket : DecodeError := .protocol "short AEAD 2022 server UDP packet"

def splitTag (buf : List UInt8) : Option (List UInt8) :=
  if ssUdpTagLen≤buf.length then some (buf.take (buf.length-ssUdpTagLen)) else none

def decryptPacket (cipher : PacketCipher) (nonce buf : List UInt8) : Decoded (List UInt8) := do
  let _ ← orPanic (splitTag buf)
  match cipher.decrypt nonce buf with
  | none => throw (.protocol "AEAD 2022 UDP decrypt failed")
  | some out => orPanic (splitTag out)

namespace SsUdpSession

variable (s : SsUdpSession) (data : List UInt8)

def openAesGcm : Decoded (List UInt8×Nat) :=
  if data.length<16+1+8+8+2+ssUdpTagLen then throw shortPacket
  else do
    let block ← orPanic (load data 0 16)
    let header := s.ciphers.decryptBlock block
    let serverSessionId ← orPanic (load header 0 8)
    let nonce ← orPanic (load header 4 12)
    let msg ← orPanic (loadFrom data 16)
    return (← decryptPacket (s.ciphers.derived (ofBE serverSessionId)) nonce msg,0)

/-- The session id is read before it is decrypted; the cipher does not depend on it. -/
def openChacha : Decoded (List UInt8×Nat) :=
  if data.length<nonceSize+8+8+1+8+8+2+ssUdpTagLen then throw shortPacket
  else do
    let nonce ← orPanic (load data 0 nonceSize)
    let msg ← orPanic (loadFrom data nonceSize)
    let _sessionId ← orPanic (load msg 0 8)
    return (← decryptPacket s.ciphers.direct nonce msg,16)

def openPacket : Decoded (List UInt8×Nat) :=
  match s.kind with
  | .aes128Gcm | .aes256Gcm => s.openAesGcm data
  | .chacha20Poly1305 => s.openChacha data
  | .other display debug =>
    throw (.invalidCipher s!"cipher '{display}' category {debug} not supported for UDP 2022")

def parseBody (body : List UInt8) (skip : Nat) : Decoded (SocketAddr×List UInt8) :=
  if body.length < skip+1+8+8+2 then throw (.protocol "short AEAD 2022 server UDP body")
  else do
    let socketType ← orPanic body[skip]?
    if socketType≠ssUdpServerSocketType then
      throw (.protocol s!"invalid AEAD 2022 server socket type {socketType}")
    else do
      let id ← orPanic (load body (skip+9) 8)
      if ofBE id≠s.clientSessionId.toNat then
        throw (.protocol s!"AEAD 2022 server echoed unknown client session id {ofBE id}")
      else do
        let paddingLen ← orPanic (load body (skip+17) 2)
        let pos := skip+19+ofBE paddingLen
        if body.length≤pos then
          throw (.protocol "AEAD 2022 server UDP body too short for address")
        else do
          let (dest,consumed) ← udpCodec.decodeAddr (← orPanic (loadFrom body pos))
          return (dest,← orPanic (loadFrom body (pos+consumed)))

def recv2022 : Decoded (SocketAddr×List UInt8) := do
  let (body,skip) ← s.openPacket data
  s.parseBody body skip

variable {s}

theorem ends_loadFrom {data : List UInt8} {off : Nat} (h : off≤data.length) :
    Ends (fun bs => bs.length=data.length-off) (orPanic (loadFrom data off) : Decoded _) := by
  rw [loadFrom_of_le h]
  exact ends_pure length_drop

theorem ends_decryptPacket (cipher : PacketCipher) (nonce : List UInt8) {buf : List UInt8}
    (h : ssUdpTagLen≤buf.length) : Ends (fun _ => True) (decryptPacket cipher nonce buf) := by
  rw [decryptPacket,splitTag,if_pos h,orPanic_bind]
  cases hout : cipher.decrypt nonce buf with
  | none => exact ends_throw _
  | some out =>
    have hlen := cipher.decrypt_length _ _ _ hout
    dsimp only
    rw [splitTag,if_pos (by omega)]
    exact ends_pure trivial

theorem ends_openAesGcm : Ends (fun _ => True) (s.openAesGcm data) := by
  refine ends_ite (fun _ => ends_throw _) fun hlen => ?_
  have htag : ssUdpTagLen=16 := rfl
  have hblock : load data 0 16=some (data.take 16) := load_eq_some_iff.mpr ⟨by omega,rfl⟩
  rw [hblock,orPanic_bind]
  have hheader : (s.ciphers.decryptBlock (data.take 16)).length=16 :=
    s.ciphers.decryptBlock_length _ (length_take_of_le (by omega))
  refine ends_bind (ends_load (by omega)) fun id _ => ends_bind (ends_load (by omega)) fun nonce _ => ?_
  refine ends_bind (ends_loadFrom (by omega)) fun msg hmsg => ?_
  exact ends_bind (ends_decryptPacket _ _ (by omega)) fun body _ => ends_pure trivial

theorem ends_openChacha : Ends (fun _ => True) (s.openChacha data) := by
  refine ends_ite (fun _ => ends_throw _) fun hlen => ?_
  have htag : ssUdpTagLen=16 := rfl
  refine ends_bind (ends_load (by omega)) fun nonce _ => ?_
  refine ends_bind (ends_loadFrom (by omega)) fun msg hmsg => ?_
  refine ends_bind (ends_load (by omega)) fun id _ => ?_
  exact ends_bind (ends_decryptPacket _ _ (by omega)) fun body _ => ends_pure trivial

theorem ends_openPacket : Ends (fun _ => True) (s.openPacket data) := by
  unfold openPacket
  split
  · exact ends_openAesGcm data
  · exact ends_openAesGcm data
  · exact ends_openChacha data
  · exact ends_throw _

theorem ends_parseBody (body : List UInt8) (skip : Nat) :
    Ends (fun _ => True) (s.parseBody body skip) := by
  refine ends_ite (fun _ => ends_throw _) fun hlen => ends_bind (ends_byte (by omega)) fun typ _ => ?_
  refine ends_ite (fun _ => ends_throw _) fun _ => ends_bind (ends_load (by omega)) fun id _ => ?_
  refine ends_ite (fun _ => ends_throw _) fun _ => ends_bind (ends_load (by omega)) fun pad _ => ?_
  refine ends_ite (fun _ => ends_throw _) fun hpos => ?_
  refine ends_bind (ends_loadFrom (by omega)) fun tail htail => ?_
  refine ends_bind (AddrCodec.decodeAddr_ends tail) fun r hr => ?_
  exact ends_bind (ends_loadFrom (by omega)) fun payload _ => ends_pure trivial

theorem returns_recv2022 : Returns (s.recv2022 data) :=
  (ends_bind (ends_openPacket data) fun r _ => ends_parseBody r.1 r.2).1

end SsUdpSession

/-- What a server puts into a packet for a client session. -/
structure ServerPacket where
  sessionId : UInt64
  packetId : UInt64
  timestamp : UInt64
  padding : List UInt8
  padding_le : padding.length≤65535
  dest : SocketAddr
  payload : List UInt8

namespace ServerPacket

variable (p : ServerPacket)

def ids : List UInt8 := toBE 8 p.sessionId.toNat++toBE 8 p.packetId.toNat

variable (socketType : UInt8) (clientSessionId : UInt64)

def front : List UInt8 :=
  [socketType]++(toBE 8 p.timestamp.toNat++(toBE 8 clientSessionId.toNat++toBE 2 p.padding.length))

def fields : List UInt8 :=
  p.front socketType clientSessionId++(p.padding++(udpCodec.encodeAddr p.dest++p.payload))

def room : List UInt8 := List.replicate ssUdpTagLen 0

/-- The datagram in the layout of the session's kind; ChaCha20-Poly1305 has a nonce before it. -/
def datagram (s : SsUdpSession) (nonce fields : List UInt8) : List UInt8 :=
  match s.kind with
  | .chacha20Poly1305 => nonce++s.ciphers.direct.encrypt nonce (p.ids++fields++room)
  | _ =>
    s.ciphers.encryptBlock p.ids++
      (s.ciphers.derived p.sessionId.toNat).encrypt (slice p.ids 4 12) (fields++room)

theorem ids_length : p.ids.length=16 := by simp [ids]

theorem front_length : (p.front socketType clientSessionId).length=19 := by simp [front]

theorem fields_length : (p.fields socketType clientSessionId).length=
      19+(p.padding.length+((udpCodec.encodeAddr p.dest).length+p.payload.length)) := by
  simp [fields,front_length]

end ServerPacket

open ServerPacket

def CipherKind.Is2022 : CipherKind → Prop
  | .other _ _ => False
  | _ => True

theorem encodeAddr_length_pos (dest : SocketAddr) : 0<(udpCodec.encodeAddr dest).length := by
  obtain ⟨ip | ip,port⟩ := dest
  all_goals exact Nat.succ_pos _

namespace SsUdpSession

variable {s : SsUdpSession}

theorem decryptPacket_encrypt (cipher : PacketCipher) (nonce plain : List UInt8) :
    decryptPacket cipher nonce (cipher.encrypt nonce (plain++room))=pure plain := by
  obtain ⟨tag,hdecrypt⟩ := cipher.decrypt_encrypt nonce plain room (length_replicate ..)
  have hbuf := cipher.encrypt_length nonce (plain++room)
  have hout := cipher.decrypt_length _ _ _ hdecrypt
  have hroom : room.length=ssUdpTagLen := length_replicate ..
  simp only [length_append,hroom] at hbuf hout
  have htag : tag.length=ssUdpTagLen := by omega
  rw [decryptPacket,splitTag,if_pos (by omega),orPanic_bind,hdecrypt]
  simp [splitTag,htag]

variable {fields : List UInt8}

theorem openAesGcm_datagram (p : ServerPacket) (hfields : 19≤fields.length) :
    s.openAesGcm (s.ciphers.encryptBlock p.ids++
      (s.ciphers.derived p.sessionId.toNat).encrypt (slice p.ids 4 12) (fields++room))=
      pure (fields,0) := by
  have hblock := s.ciphers.encryptBlock_length _ p.ids_length
  have hid : load p.ids 0 8=some (toBE 8 p.sessionId.toNat) := by
    have h := load_append [] (toBE 8 p.sessionId.toNat) (toBE 8 p.packetId.toNat)
    rwa [nil_append,toBE_length] at h
  have hsession : ofBE (toBE 8 p.sessionId.toNat)=p.sessionId.toNat := by
    rw [ofBE_toBE]
    exact Nat.mod_eq_of_lt p.sessionId.toNat_lt
  generalize hcipher : s.ciphers.derived p.sessionId.toNat=cipher
  have hlen := cipher.encrypt_length (slice p.ids 4 12) (fields++room)
  have hsealed := decryptPacket_encrypt cipher (slice p.ids 4 12) fields
  generalize cipher.encrypt (slice p.ids 4 12) (fields++room)=msg at hlen hsealed
  have hload := load_append [] (s.ciphers.encryptBlock p.ids) msg
  have hfrom := loadFrom_append (s.ciphers.encryptBlock p.ids) msg
  simp only [nil_append,length_nil,hblock] at hload hfrom
  have hlong : ¬(s.ciphers.encryptBlock p.ids++msg).length<16+1+8+8+2+ssUdpTagLen := by
    rw [length_append,hblock,hlen,length_append,room,length_replicate]
    omega
  rw [openAesGcm,if_neg hlong,hload,orPanic_bind,
    s.ciphers.decrypt_encryptBlock _ p.ids_length]
  dsimp only
  rw [hid,orPanic_bind,load_eq_some_iff.mpr ⟨p.ids_length.ge,rfl⟩,orPanic_bind,
    hfrom,orPanic_bind,hsession,hcipher,hsealed,pure_bind]

theorem openChacha_datagram (p : ServerPacket) {nonce : List UInt8}
    (hnonce : nonce.length=nonceSize) (hfields : 19≤fields.length) :
    s.openChacha (nonce++s.ciphers.direct.encrypt nonce (p.ids++fields++room))=
      pure (p.ids++fields,16) := by
  have hids := p.ids_length
  have hlen := s.ciphers.direct.encrypt_length nonce (p.ids++fields++room)
  have hsealed := decryptPacket_encrypt s.ciphers.direct nonce (p.ids++fields)
  generalize s.ciphers.direct.encrypt nonce (p.ids++fields++room)=msg at hlen hsealed
  have hload := load_append [] nonce msg
  have hfrom := loadFrom_append nonce msg
  simp only [nil_append,length_nil,hnonce] at hload hfrom
  rw [length_append,length_append,room,length_replicate] at hlen
  have hlong : ¬(nonce++msg).length<nonceSize+8+8+1+8+8+2+ssUdpTagLen := by
    rw [length_append]
    omega
  rw [openChacha,if_neg hlong,hload,orPanic_bind,hfrom,orPanic_bind,
    load_eq_some_iff.mpr ⟨by omega,rfl⟩,orPanic_bind,hsealed,pure_bind]

theorem openPacket_datagram (hkind : s.kind.Is2022) (p : ServerPacket) {nonce : List UInt8}
    (hnonce : nonce.length=nonceSize) (hfields : 19≤fields.length) :
    ∃ before,s.openPacket (p.datagram s nonce fields)=pure (before++fields,before.length) := by
  unfold openPacket datagram
  cases hk : s.kind with
  | aes128Gcm | aes256Gcm => exact ⟨[],openAesGcm_datagram p hfields⟩
  | chacha20Poly1305 =>
    refine ⟨p.ids,?_⟩
    rw [p.ids_length]
    exact openChacha_datagram p hnonce hfields
  | other display debug =>
    rw [hk] at hkind
    exact hkind.elim

theorem parseBody_fields (p : ServerPacket) (before : List UInt8) :
    s.parseBody (before++p.fields ssUdpServerSocketType s.clientSessionId) before.length=
      pure (p.dest,p.payload) := by
  have hlen := p.fields_length ssUdpServerSocketType s.clientSessionId
  have haddr := encodeAddr_length_pos p.dest
  generalize hbody : before++p.fields ssUdpServerSocketType s.clientSessionId=body
  have hbodylen : body.length=before.length+(p.fields ssUdpServerSocketType s.clientSessionId).length := by
    rw [← hbody,length_append]
  -- the parts of the body, each with what is before it
  have htype : body[before.length]?=some ssUdpServerSocketType := by simp [← hbody,fields,front]
  have hid : load body (before.length+9) 8=some (toBE 8 s.clientSessionId.toNat) := by
    have h := load_append (before++([ssUdpServerSocketType]++toBE 8 p.timestamp.toNat))
      (toBE 8 s.clientSessionId.toNat)
      (toBE 2 p.padding.length++(p.padding++(udpCodec.encodeAddr p.dest++p.payload)))
    simpa [← hbody,fields,front] using h
  have hpad : load body (before.length+17) 2=some (toBE 2 p.padding.length) := by
    have h := load_append (before++([ssUdpServerSocketType]++(toBE 8 p.timestamp.toNat++
      toBE 8 s.clientSessionId.toNat))) (toBE 2 p.padding.length)
      (p.padding++(udpCodec.encodeAddr p.dest++p.payload))
    simpa [← hbody,fields,front] using h
  have hdest : loadFrom body (before.length+19+p.padding.length)=
      some (udpCodec.encodeAddr p.dest++p.payload) := by
    have h := loadFrom_append (before++(p.front ssUdpServerSocketType s.clientSessionId++p.padding))
      (udpCodec.encodeAddr p.dest++p.payload)
    simpa [← hbody,fields,front_length,Nat.add_assoc] using h
  have hpayload : loadFrom body (before.length+19+p.padding.length+
      (udpCodec.encodeAddr p.dest).length)=some p.payload := by
    have h := loadFrom_append (before++(p.front ssUdpServerSocketType s.clientSessionId++
      (p.padding++udpCodec.encodeAddr p.dest))) p.payload
    simpa [← hbody,fields,front_length,Nat.add_assoc] using h
  have hcid : ofBE (toBE 8 s.clientSessionId.toNat)=s.clientSessionId.toNat := by
    rw [ofBE_toBE]
    exact Nat.mod_eq_of_lt s.clientSessionId.toNat_lt
  have hpadlen : ofBE (toBE 2 p.padding.length)=p.padding.length := by
    rw [ofBE_toBE]
    exact Nat.mod_eq_of_lt (Nat.lt_succ_of_le p.padding_le)
  rw [parseBody,if_neg (by omega),htype,orPanic_bind,if_neg (not_not_intro rfl),hid,
    orPanic_bind,hcid,if_neg (not_not_intro rfl),hpad,orPanic_bind]
  dsimp only
  rw [hpadlen,if_neg (by omega),hdest,orPanic_bind,AddrCodec.decodeAddr_encodeAddr,
    pure_bind]
  dsimp only
  rw [hpayload,orPanic_bind]

theorem parseBody_rejects {body : List UInt8} {skip : Nat}
    (h : body[skip]?≠some ssUdpServerSocketType ∨
      ofBE (slice body (skip+9) 8)≠s.clientSessionId.toNat) :
    ∃ e,s.parseBody body skip=throw e := by
  unfold parseBody
  split_ifs with hlen
  · exact ⟨_,rfl⟩
  rw [getElem?_eq_getElem (by omega)] at h ⊢
  rw [orPanic_bind]
  by_cases htype : body[skip]=ssUdpServerSocketType
  · have hid := h.resolve_left (not_not_intro (congrArg some htype))
    rw [if_neg (not_not_intro htype),load_eq_some_iff.mpr ⟨by omega,rfl⟩,orPanic_bind,
      if_pos hid]
    exact ⟨_,rfl⟩
  · rw [if_pos htype]
    exact ⟨_,rfl⟩

/-- `recv_2022` returns on any datagram: what a server encrypted for this session, and an error
where the socket type or client session id is another. -/
theorem recv2022_spec (s : SsUdpSession) : (∀ data,Returns (s.recv2022 data)) ∧
    (s.kind.Is2022 → ∀ (p : ServerPacket) (nonce : List UInt8),nonce.length=nonceSize →
      s.recv2022 (p.datagram s nonce (p.fields ssUdpServerSocketType s.clientSessionId))=
        pure (p.dest,p.payload)) ∧
    ∀ data body skip,s.openPacket data=pure (body,skip) → (body[skip]?≠some ssUdpServerSocketType ∨
        ofBE (slice body (skip+9) 8)≠s.clientSessionId.toNat) →
      ∃ e,s.recv2022 data=throw e := by
  refine ⟨returns_recv2022,fun hkind p nonce hnonce => ?_,fun data body skip hopen hwrong => ?_⟩
  · obtain ⟨before,hopen⟩ := openPacket_datagram hkind p hnonce
      ((p.fields_length _ s.clientSessionId).symm ▸ Nat.le_add_right 19 _)
    rw [recv2022,hopen,pure_bind]
    exact parseBody_fields p before
  · rw [recv2022,hopen,pure_bind]
    exact parseBody_rejects hwrong

theorem plain_length (_ buf out : List UInt8) (h : some buf=some out) : out.length=buf.length :=
  congrArg List.length (Option.some.inj h).symm

theorem plain_decrypt (_ plain room : List UInt8) (_ : room.length=ssUdpTagLen) :
    ∃ tag,some (plain++room)=some (plain++tag) := ⟨room,rfl⟩

def plainCipher : PacketCipher :=
  ⟨fun _ buf => buf,fun _ buf => some buf,fun _ _ => rfl,plain_length,plain_decrypt⟩

def plainSession : SsUdpSession :=
  ⟨.aes128Gcm,⟨id,id,fun _ => plainCipher,plainCipher,fun _ => id,fun _ => id,fun _ _ => rfl⟩,7⟩

theorem samplePadding_le : ([0,0,0] : List UInt8).length≤65535 := by decide

def samplePacket : ServerPacket := ⟨1,2,3,[0,0,0],samplePadding_le,(.v4 0x08080808,53),[9]⟩

theorem recv2022_spec_plain :
    plainSession.recv2022 (samplePacket.datagram plainSession (List.replicate nonceSize 0)
      (samplePacket.fields ssUdpServerSocketType plainSession.clientSessionId))=
        pure ((.v4 0x08080808,53),[9]) :=
  (recv2022_spec plainSession).2.1 trivial _ _ (List.length_replicate ..)

end SsUdpSession

end DaeRs.Shadowsocks
