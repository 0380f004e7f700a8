import DaeRs.Protocols.Vmess.Reading

/-! Chunks that one side has sealed, read by the other side. -/

namespace DaeRs.Vmess

open AsyncIo Octets Protocols List

/-- A payload, and what fills the padding of its chunk. -/
abbrev Sent := (Nat → UInt8)×List UInt8

def lengthField (d : Direction) (payload : List UInt8) : List UInt8 :=
  toBE 2 (d.drawPadding.2.drawMask.1 ^^^
    UInt16.ofNat (payload.length+aeadTag+d.drawPadding.1)).toNat

def sealChunks (d : Direction) : List Sent → List UInt8
  | [] => []
  | c::cs => (sealChunk d c.1 c.2).1++sealChunks (sealChunk d c.1 c.2).2 cs

def lengthFields (d : Direction) : List Sent → List (List UInt8)
  | [] => []
  | c::cs => lengthField d c.2::lengthFields (sealChunk d c.1 c.2).2 cs

/-- What the successive calls encrypt: the length bytes, and the payload. -/
def sealedTexts (d : Direction) : List Sent → List (List UInt8)
  | [] => []
  | c::cs => (lengthField d c.2++c.2)::sealedTexts (sealChunk d c.1 c.2).2 cs

def payloads (cs : List Sent) : List UInt8 := (cs.map Prod.snd).flatten

/-- Nothing in the stream can be decrypted but what was encrypted. -/
def Authentic (d : Direction) (cs : List Sent) : Prop :=
  ∀ nonce buf tag plain,(buf++tag) <:+: sealChunks d cs → tag.length=aeadTag →
    d.cipher.decrypt nonce buf tag=some plain → plain∈sealedTexts d cs

/-- A stream whose read direction has the same key and IV gives out the payloads when all bytes are
there. -/
def RoundTrips (packetMode : Bool) (enc d : Direction) (cs : List Sent) : Prop :=
  ∀ rooms : List Nat,(∀ room∈rooms,0 < room) → GivesOut (payloads cs) 0 rooms.length
    (reads VmessBodyStream.pollRead (.new packetMode enc d,whole (sealChunks d cs)) rooms)

/-- The payloads, or those behind the first of them, begin with the length bytes of a chunk. -/
def Coincident (d : Direction) (cs : List Sent) : Prop :=
  ∃ field∈lengthFields d cs,field <+: payloads cs ∨ field <+: payloads cs.tail

@[simp] theorem lengthField_length (d : Direction) (payload : List UInt8) :
    (lengthField d payload).length=2 :=
  toBE_length 2 _

variable {d : Direction} {cs : List Sent}

theorem roundTrips_iff {packetMode : Bool} {enc : Direction} :
    RoundTrips packetMode enc d cs ↔ Decodes d (sealChunks d cs) (payloads cs) := by
  constructor
  · intro h
    let rooms := replicate ((payloads cs).length+1) 1
    have hrooms : ∀ room∈rooms,0 < room := by
      intro room hroom
      rw [eq_of_mem_replicate hroom]
      decide
    have hout := h rooms hrooms
    have hend := hout.progress (by simp [rooms])
    have hdecodes := VmessBodyStream.decodes_of_reads_whole hrooms hend hout.no_error
    rwa [hout.ended hend] at hdecodes
  · intro h rooms hrooms
    rw [← bytesOf_whole (ε := IoError) (sealChunks d cs)] at h
    have hout := VmessBodyStream.givesOut_of_decodes packetMode enc (whole_segments _) h
      (pendingAt_of_pendings_eq_zero _ (pendings_whole _) _) hrooms
    rwa [pendings_whole] at hout

theorem chunkSize_lengthField (hd : d.security=.none) (payload : List UInt8) :
    chunkSize d (lengthField d payload)=UInt16.ofNat (payload.length+aeadTag) := by
  rw [chunkSize,lengthField,Direction.drawPadding_none hd,ofBE_toBE]
  have hlt : (d.drawMask.1 ^^^ UInt16.ofNat (payload.length+aeadTag+0)).toNat<256^2 :=
    UInt16.toNat_lt _
  rw [Nat.mod_eq_of_lt hlt,UInt16.ofNat_toNat,UInt16.xor_comm,← UInt16.xor_assoc,
    UInt16.xor_self,UInt16.zero_xor,Nat.add_zero]

theorem nextChunk_plain (hd : d.security=.none) {payload : List UInt8}
    (hlen : payload.length≤bodyChunkSize) (rest : List UInt8) :
    nextChunk d (lengthField d payload++(payload++rest)) =
      if rest.length<aeadTag then .truncated
      else .chunk (payload++rest.take aeadTag) d.drawMask.2 (rest.drop aeadTag) := by
  have htwo : (lengthField d payload).length=2 := lengthField_length d payload
  have hlong : ¬(lengthField d payload++(payload++rest)).length<2 := by
    rw [length_append,htwo]
    omega
  have hsize : (UInt16.ofNat (payload.length+aeadTag)).toNat=payload.length+aeadTag := by
    refine UInt16.toNat_ofNat_of_lt' ?_
    unfold bodyChunkSize at hlen
    unfold aeadTag
    change _<65536
    omega
  have hzero : UInt16.ofNat (payload.length+aeadTag)≠0 := by
    intro h
    rw [h] at hsize
    unfold aeadTag at hsize
    change 0=_ at hsize
    omega
  have hdraw : d.drawMask.2.drawPadding=(0,d.drawMask.2) := Direction.drawPadding_none hd
  rw [nextChunk,if_neg hlong,take_left' htwo,drop_left' htwo,
    chunkSize_lengthField hd,if_neg hzero,hdraw,if_neg (Nat.not_lt_zero _),openBody,hsize]
  have hopen (buf : List UInt8) : openChunk d.drawMask.2 buf=(.ok buf,d.drawMask.2) := by
    rw [openChunk,Direction.drawMask_security,hd]
  rw [length_append,hopen,ofOpened,Nat.sub_zero,take_take,Nat.min_self,
    take_length_add_append,drop_length_add_append]
  split_ifs with h₁ h₂ h₂
  · rfl
  · omega
  · omega
  · rfl

theorem sealChunk_plain (hd : d.security=.none) (c : Sent) :
    sealChunk d c.1 c.2=(lengthField d c.2++c.2,d.drawMask.2) := by
  have hbody : sealBody d.drawMask.2 (lengthField d c.2) c.2 =
      (lengthField d c.2++c.2,d.drawMask.2) := by
    rw [sealBody,Direction.drawMask_security,hd]
  unfold lengthField at hbody ⊢
  rw [sealChunk,Direction.drawPadding_none hd]
  rw [Direction.drawPadding_none hd] at hbody
  simp only [hbody,range_zero,map_nil,append_nil]

theorem decrypted_of_nextChunk {d' : Direction} {wire bytes rest : List UInt8}
    (hd : d.security≠.none) (h : nextChunk d wire=.chunk bytes d' rest) :
    ∃ nonce buf tag,(buf++tag) <:+: wire ∧ tag.length=aeadTag ∧
      d.cipher.decrypt nonce buf tag=some bytes := by
  unfold nextChunk at h
  split_ifs at h with hlen hzero hpad
  unfold openBody at h
  split_ifs at h with hshort
  obtain ⟨hopen,-⟩ := ofOpened_eq_chunk h
  obtain ⟨htag,hdecrypt⟩ := openChunk_ok (by simpa using hd) hopen
  have hpiece (n m : Nat) : ((wire.drop 2).take n).take m <:+: wire := by
    rw [take_take]
    have hbody := take_prefix (min m n) (wire.drop 2)
    exact hbody.isInfix.trans (drop_suffix 2 wire).isInfix
  refine ⟨_,_,_,?_,?_,by simpa only [Direction.drawPadding_cipher,
    Direction.drawMask_cipher] using hdecrypt⟩
  · rw [take_append_drop]
    exact hpiece _ _
  · rw [length_drop]
    omega

theorem exists_lengthField_of_mem {text : List UInt8}
    (h : text∈sealedTexts d cs) : ∃ field∈lengthFields d cs,field <+: text := by
  induction cs generalizing d with
  | nil => exact absurd h not_mem_nil
  | cons c cs ih =>
    rcases mem_cons.mp h with rfl | h
    · exact ⟨_,mem_cons_self,prefix_append _ _⟩
    · obtain ⟨field,hfield,hhead⟩ := ih h
      exact ⟨field,mem_cons_of_mem _ hfield,hhead⟩

theorem payloads_cons (c : Sent) (cs : List Sent) : payloads (c::cs)=c.2++payloads cs :=
  flatten_cons

variable {c : Sent}

theorem payloads_ne_nil (hne : c.2≠[]) (cs : List Sent) : payloads (c::cs)≠[] := by
  rw [payloads_cons]
  exact append_ne_nil_of_left_ne_nil hne _

theorem second_field_of_decodes (hd : d.security=.none) (hne : c.2≠[])
    (hlen : c.2.length≤bodyChunkSize) (h : Decodes d (sealChunks d (c::cs)) (payloads (c::cs))) :
    ∃ c' cs',cs=c'::cs' ∧ lengthField d.drawMask.2 c'.2 <+: payloads cs := by
  have hwire : sealChunks d (c::cs)=lengthField d c.2++(c.2++sealChunks d.drawMask.2 cs) := by
    rw [sealChunks,sealChunk_plain hd,append_assoc]
  have hnext := nextChunk_plain hd hlen (sealChunks d.drawMask.2 cs)
  rw [hwire] at h
  obtain ⟨bytes,d',rest,hchunk,hhead⟩ := chunk_of_decodes h (payloads_ne_nil hne cs)
  rw [hnext] at hchunk
  split_ifs at hchunk with hshort
  cases hchunk
  rw [payloads_cons,prefix_append_right_inj] at hhead
  cases cs with
  | nil =>
    have hnil : (sealChunks d.drawMask.2 []).length<aeadTag := Nat.zero_lt_succ 15
    exact absurd hnil hshort
  | cons c' cs =>
    have hd' : d.drawMask.2.security=.none := hd
    refine ⟨c',cs,rfl,List.IsPrefix.trans ?_ hhead⟩
    rw [sealChunks,sealChunk_plain hd',append_assoc,prefix_take_iff,lengthField_length]
    exact ⟨prefix_append _ _,by decide⟩

theorem sealedText_of_decodes (hd : d.security≠.none) (hne : c.2≠[])
    (hauth : Authentic d (c::cs)) (h : Decodes d (sealChunks d (c::cs)) (payloads (c::cs))) :
    ∃ text∈sealedTexts d (c::cs),text <+: payloads (c::cs) := by
  obtain ⟨bytes,d',rest,hchunk,hhead⟩ := chunk_of_decodes h (payloads_ne_nil hne cs)
  obtain ⟨nonce,buf,tag,hwithin,htag,hdecrypt⟩ := decrypted_of_nextChunk hd hchunk
  exact ⟨bytes,hauth nonce buf tag bytes hwithin htag hdecrypt,hhead⟩

theorem not_decodes_one (hne : c.2≠[])
    (hlen : c.2.length≤bodyChunkSize) (hauth : d.security≠.none → Authentic d [c]) :
    ¬Decodes d (sealChunks d [c]) (payloads [c]) := by
  intro h
  by_cases hd : d.security=.none
  · obtain ⟨c',cs',hcons,-⟩ := second_field_of_decodes hd hne hlen h
    cases hcons
  · obtain ⟨text,htext,hhead⟩ := sealedText_of_decodes hd hne (hauth hd) h
    rw [mem_singleton.mp htext] at hhead
    have hle := hhead.length_le
    rw [payloads_cons,length_append,length_append,lengthField_length] at hle
    have hnil : (payloads []).length=0 := rfl
    omega

theorem coincident_of_decodes (hne : c.2≠[])
    (hlen : c.2.length≤bodyChunkSize) (hauth : d.security≠.none → Authentic d (c::cs))
    (h : Decodes d (sealChunks d (c::cs)) (payloads (c::cs))) : Coincident d (c::cs) := by
  by_cases hd : d.security=.none
  · obtain ⟨c',cs',rfl,hhead⟩ := second_field_of_decodes hd hne hlen h
    refine ⟨_,?_,Or.inr hhead⟩
    rw [lengthFields,sealChunk_plain hd,lengthFields]
    exact mem_cons_of_mem _ mem_cons_self
  · obtain ⟨text,htext,hhead⟩ := sealedText_of_decodes hd hne (hauth hd) h
    obtain ⟨field,hfield,hstart⟩ := exists_lengthField_of_mem htext
    exact ⟨field,hfield,Or.inl (hstart.trans hhead)⟩

/-- Sealed chunks come out of the other side, wherever the transport is cut off behind one, only if
there are none; all together only by coincidence: the reader draws mask and padding in the other
order, takes the length bytes for sealed text, and waits for a tag that the unencrypted mode does
not send. -/
theorem sealed_chunks_read_back_iff (packetMode : Bool) (enc d : Direction) (cs : List Sent)
    (hsent : ∀ c∈cs,c.2≠[] ∧ c.2.length≤bodyChunkSize)
    (hauth : d.security≠.none → ∀ k,Authentic d (cs.take k)) :
    ((∀ k,RoundTrips packetMode enc d (cs.take k)) ↔ cs=[]) ∧
      (RoundTrips packetMode enc d cs → cs=[] ∨ Coincident d cs) := by
  refine ⟨⟨?_,?_⟩,?_⟩
  · intro h
    cases cs with
    | nil => rfl
    | cons c cs =>
      obtain ⟨hne,hlen⟩ := hsent c List.mem_cons_self
      exact absurd (roundTrips_iff.mp (h 1)) (not_decodes_one hne hlen fun hd => hauth hd 1)
  · intro h k
    rw [h,List.take_nil,roundTrips_iff]
    exact .short rfl
  · intro h
    cases cs with
    | nil => exact Or.inl rfl
    | cons c cs =>
      obtain ⟨hne,hlen⟩ := hsent c List.mem_cons_self
      have hall (hd : d.security≠.none) : Authentic d (c::cs) := by
        have htake := hauth hd (c::cs).length
        rwa [List.take_length] at htake
      exact Or.inr (coincident_of_decodes hne hlen hall (roundTrips_iff.mp h))

def lengthCipher : VmessCipher where
  encrypt _ plain := (plain,List.replicate aeadTag (UInt8.ofNat (160+plain.length)))
  decrypt _ buf tag :=
    if tag=List.replicate aeadTag (UInt8.ofNat (160+buf.length)) then some buf else none
  encrypt_length _ _ := rfl
  tag_length _ _ := List.length_replicate ..
  decrypt_encrypt _ _ := if_pos rfl

def sampleDirection (security : Security) : Direction :=
  .new security (fun _ i => UInt8.ofNat (64*i)) (List.replicate 16 0) lengthCipher

def sampleSent : Sent := (fun _ => 0,[7])

def sampleWire : List UInt8 := [128,209,7]++List.replicate aeadTag 163

theorem authentic_sample : Authentic (sampleDirection .aes128Gcm) [sampleSent] := by
  intro nonce buf tag plain hwithin htag hdecrypt
  obtain ⟨s,t,heq⟩ := hwithin
  have hwire : sealChunks (sampleDirection .aes128Gcm) [sampleSent]=sampleWire := by
    decide
  have htexts : sealedTexts (sampleDirection .aes128Gcm) [sampleSent]=[[128,209,7]] := by
    decide
  rw [hwire] at heq
  have hlen := congrArg List.length heq
  simp only [length_append,htag,sampleWire,length_cons,length_nil,length_replicate] at hlen
  have hbuf : buf=(sampleWire.drop s.length).take buf.length := by
    rw [← heq,append_assoc,drop_left,append_assoc,take_left]
  have htag' : tag=(sampleWire.drop (s.length+buf.length)).take aeadTag := by
    rw [← heq,append_assoc,append_assoc,← append_assoc s,
      drop_left' (length_append ..),take_left' htag]
  -- the tag can only be the one at the end, with the whole text in front of it
  have hpieces : ∀ i≤3,∀ n≤3,i+n≤3 → ∀ plain∈lengthCipher.decrypt [] ((sampleWire.drop i).take n)
        ((sampleWire.drop (i+n)).take aeadTag),plain=[128,209,7] := by
    decide
  have hsmall : s.length+buf.length≤3 := by omega
  rw [htexts,mem_singleton]
  refine hpieces s.length (by omega) buf.length (by omega) hsmall plain ?_
  rw [← hbuf,← htag']
  exact hdecrypt

theorem sealed_chunks_read_back_iff_one :
    ((∀ k,RoundTrips false (sampleDirection .aes128Gcm) (sampleDirection .aes128Gcm)
        ([sampleSent].take k)) ↔ [sampleSent]=[]) ∧
      (RoundTrips false (sampleDirection .aes128Gcm) (sampleDirection .aes128Gcm) [sampleSent] →
        [sampleSent]=[] ∨ Coincident (sampleDirection .aes128Gcm) [sampleSent]) := by
  refine sealed_chunks_read_back_iff false _ (sampleDirection .aes128Gcm) [sampleSent] ?_ ?_
  · intro c hc
    rw [List.mem_singleton.mp hc]
    decide
  · intro _ k
    cases k with
    | zero =>
      intro nonce buf tag plain hwithin htag
      have hnil := List.infix_nil.mp hwithin
      rw [(List.append_eq_nil_iff.mp hnil).2] at htag
      exact absurd htag (by decide)
    | succ k =>
      rw [List.take_succ_cons,List.take_nil]
      exact authentic_sample

open VmessBodyStream in
/-- Whatever the security, a payload that was sealed is not given out: the reader sees the end of the
stream at once. -/
theorem sealed_payload_not_read : payloads [sampleSent]=[7] ∧ ∀ security : Security,
      reads pollRead (.new false (sampleDirection security) (sampleDirection security),
        whole (sealChunks (sampleDirection security) [sampleSent])) [8]=[.ok []] := by
  refine ⟨rfl,fun security => ?_⟩
  cases security with
  | none => decide
  | aes128Gcm => decide
  | chacha20Poly1305 => decide

end DaeRs.Vmess
