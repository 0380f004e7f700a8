import Mathlib.Data.List.Nodup
import DaeRs.Protocols.Vmess.RoundTrip
import DaeRs.Protocols.Writing

/-! The nonces of the chunks that one stream seals. -/

namespace DaeRs.Protocols.Writer

open AsyncIo

variable {σ ρ : Type} (F : Framing σ ρ) {w : Writer σ}

theorem pollFlush_cipher (a : Answers) (w : Writer σ) : (w.pollFlush F a).2.1.cipher=w.cipher := by
  unfold pollFlush
  dsimp only
  split
  · rfl
  · rfl
  · rfl

theorem poll_cipher {t : Turn ρ} (h : w.newFrames F t.call=[]) :
    (w.poll F t).2.1.cipher=w.cipher := by
  obtain ⟨call,a⟩ := t
  cases call with
  | flush => exact pollFlush_cipher F a w
  | write r buf =>
    show (w.pollWrite F r buf a).2.1.cipher=w.cipher
    by_cases hout : w.Outstanding
    · rw [pollWrite,if_pos hout]
      exact pollFlush_cipher F a w
    · by_cases hbuf : buf=[]
      · rw [pollWrite,if_neg hout,if_pos hbuf]
      · have hnot : ¬(w.Outstanding ∨ buf=[]) := not_or.mpr ⟨hout,hbuf⟩
        rw [newFrames,if_neg hnot] at h
        rw [pollWrite,if_neg hout,if_neg hbuf]
        cases hchunk : F.chunkLen buf with
        | error e => rfl
        | ok n =>
          rw [hchunk] at h
          cases h

end DaeRs.Protocols.Writer

namespace DaeRs.Vmess

open AsyncIo Octets Protocols Runs List

/-- The call seals a chunk: it writes some bytes, not too many for a datagram, and no frame is
outstanding. -/
def Begins (packetMode : Bool) (s : Sending Direction) (t : Turn (Nat → UInt8)) : Prop :=
  match t.call with
  | .flush => False
  | .write _ buf =>
    ¬s.writer.Outstanding ∧ buf≠[] ∧ (packetMode=true → buf.length≤0xFFF0)

instance (packetMode : Bool) (s : Sending Direction) (t : Turn (Nat → UInt8)) :
    Decidable (Begins packetMode s t) := by
  unfold Begins
  split <;> infer_instance

def chunks (packetMode : Bool) : Sending Direction → List (Turn (Nat → UInt8)) → Nat
  | _,[] => 0
  | s,t::ts =>
    (if Begins packetMode s t then 1 else 0)+chunks packetMode (s.step (framing packetMode) t) ts

def sealNonce (d : Direction) : List UInt8 := d.drawPadding.2.drawMask.2.drawNonce.1

def nonces (packetMode : Bool) : Sending Direction → List (Turn (Nat → UInt8)) → List (List UInt8)
  | _,[] => []
  | s,t::ts =>
    (s.writer.newFrames (framing packetMode) t.call).map (fun _ => sealNonce s.writer.cipher) ++
      nonces packetMode (s.step (framing packetMode) t) ts

def nonceAt (iv : List UInt8) (i : Nat) : List UInt8 := (ChunkNonce.next ⟨UInt16.ofNat i,iv⟩).1

variable {packetMode : Bool} {s : Sending Direction} {d : Direction}

theorem sealBody_aead (hd : d.security≠.none) (lengthBytes payload : List UInt8) :
    sealBody d lengthBytes payload =
      (aeadSealInto d.cipher d.drawNonce.1 lengthBytes payload,d.drawNonce.2) := by
  unfold sealBody
  split
  · next hnone => exact absurd hnone hd
  · rfl

theorem sealChunk_aead (hd : d.security≠.none) (random : Nat → UInt8) (payload : List UInt8) :
    (sealChunk d random payload).1 =
        aeadSealInto d.cipher (sealNonce d) (lengthField d payload) payload ++
          (range d.drawPadding.1).map random ∧
      (sealChunk d random payload).2.chunkNonce=d.chunkNonce.next.2 ∧
      (sealChunk d random payload).2.security=d.security := by
  have hsec : d.drawPadding.2.drawMask.2.security≠.none := by simpa using hd
  rw [sealChunk]
  simp only [sealBody_aead hsec]
  refine ⟨?_,?_,?_⟩
  · rw [sealNonce,lengthField,Direction.drawMask_cipher,Direction.drawPadding_cipher]
  all_goals simp [Direction.drawNonce]

theorem sealNonce_eq (d : Direction) : sealNonce d=d.chunkNonce.next.1 := by
  simp [sealNonce,Direction.drawNonce]

theorem newFrames_of_not_begins {t : Turn (Nat → UInt8)} (h : ¬Begins packetMode s t) :
    s.writer.newFrames (framing packetMode) t.call=[] := by
  obtain ⟨call,a⟩ := t
  cases call with
  | flush => rfl
  | write r buf =>
    by_cases hor : s.writer.Outstanding ∨ buf=[]
    · exact if_pos hor
    · rw [Writer.newFrames,if_neg hor]
      have hlong : packetMode=true ∧ 0xFFF0<buf.length := by
        by_contra hnot
        refine h ⟨fun hout => hor (Or.inl hout),fun hbuf => hor (Or.inr hbuf),?_⟩
        intro hmode
        exact Nat.not_lt.mp fun hlt => hnot ⟨hmode,hlt⟩
      simp only [framing,hlong.1,if_true,if_pos hlong.2]

theorem exists_seals_of_begins {t : Turn (Nat → UInt8)} (h : Begins packetMode s t) :
    ∃ r buf n,Seals (framing packetMode) s.writer t.call r buf n := by
  obtain ⟨call,a⟩ := t
  cases call with
  | flush => exact absurd h id
  | write r buf =>
    obtain ⟨hidle,hne,hlen⟩ := h
    have hpos : 0<buf.length := length_pos_of_ne_nil hne
    cases packetMode with
    | false =>
      exact ⟨r,buf,min buf.length bodyChunkSize,rfl,hidle,hne,rfl,Nat.lt_min.mpr ⟨hpos,by decide⟩⟩
    | true =>
      refine ⟨r,buf,buf.length,rfl,hidle,hne,?_,hpos⟩
      exact if_neg (Nat.not_lt.mpr (hlen rfl))

theorem step_chunkNonce (packetMode : Bool) (hd : s.writer.cipher.security≠.none)
    (t : Turn (Nat → UInt8)) :
    (s.step (framing packetMode) t).writer.cipher.security≠.none ∧
      (s.step (framing packetMode) t).writer.cipher.chunkNonce =
        if Begins packetMode s t then s.writer.cipher.chunkNonce.next.2
        else s.writer.cipher.chunkNonce := by
  by_cases h : Begins packetMode s t
  · obtain ⟨r,buf,n,hseals⟩ := exists_seals_of_begins h
    obtain ⟨-,hnonce,hsec⟩ := sealChunk_aead hd r (buf.take n)
    have hcipher : (s.step (framing packetMode) t).writer.cipher =
        (sealChunk s.writer.cipher r (buf.take n)).2 := by
      show (s.writer.poll (framing packetMode) ⟨t.call,t.answers⟩).2.1.cipher=_
      rw [hseals.poll,Writer.pollFlush_cipher]
      rfl
    rw [hcipher,if_pos h,hsec]
    exact ⟨hd,hnonce⟩
  · have hcipher : (s.step (framing packetMode) t).writer.cipher=s.writer.cipher :=
      Writer.poll_cipher _ (newFrames_of_not_begins h)
    rw [hcipher,if_neg h]
    exact ⟨hd,rfl⟩

theorem nonces_eq (packetMode : Bool) (hd : s.writer.cipher.security≠.none) {iv : List UInt8}
    {k : Nat} (hk : s.writer.cipher.chunkNonce=⟨UInt16.ofNat k,iv⟩)
    (ts : List (Turn (Nat → UInt8))) :
    nonces packetMode s ts =(range (chunks packetMode s ts)).map fun i => nonceAt iv (k+i) := by
  induction ts generalizing s k with
  | nil => rfl
  | cons t ts ih =>
    obtain ⟨hsec,hnonce⟩ := step_chunkNonce packetMode hd t
    rw [nonces,chunks]
    by_cases h : Begins packetMode s t
    · obtain ⟨r,buf,n,hseals⟩ := exists_seals_of_begins h
      rw [if_pos h,hk] at hnonce
      have hnext : (ChunkNonce.next ⟨UInt16.ofNat k,iv⟩).2=⟨UInt16.ofNat (k+1),iv⟩ := by
        rw [UInt16.ofNat_add]
        rfl
      rw [hnext] at hnonce
      rw [ih hsec hnonce,hseals.newFrames,if_pos h,Nat.add_comm 1,range_succ_eq_map,
        map_singleton,map_cons,map_map,sealNonce_eq,hk,singleton_append]
      congr 1
      apply map_congr_left
      intro i hi
      rw [Function.comp_apply,Nat.succ_eq_add_one,Nat.add_assoc,Nat.add_comm 1]
    · rw [if_neg h,hk] at hnonce
      rw [ih hsec hnonce,newFrames_of_not_begins h,if_neg h,Nat.zero_add]
      rfl

theorem nonceAt_injective {iv : List UInt8} {i j : Nat} (hi : i<65536) (hj : j<65536)
    (h : nonceAt iv i=nonceAt iv j) : i=j := by
  have hcounter : toBE 2 (UInt16.ofNat i).toNat=toBE 2 (UInt16.ofNat j).toNat :=
    append_inj_left h (by rw [toBE_length,toBE_length])
  have hvalue := congrArg ofBE hcounter
  rw [ofBE_toBE,ofBE_toBE,UInt16.toNat_ofNat_of_lt' hi,UInt16.toNat_ofNat_of_lt' hj] at hvalue
  omega

theorem nonceAt_wraps (iv : List UInt8) : nonceAt iv 65536=nonceAt iv 0 := rfl

theorem nodup_nonceAt_iff (iv : List UInt8) (n : Nat) :
    ((range n).map (nonceAt iv)).Nodup ↔ n≤65536 := by
  constructor
  · intro h
    by_contra hn
    have hzero : 0<((range n).map (nonceAt iv)).length := by
      rw [length_map,length_range]
      omega
    have hlast : 65536<((range n).map (nonceAt iv)).length := by
      rw [length_map,length_range]
      omega
    have hsame : ((range n).map (nonceAt iv))[0] =((range n).map (nonceAt iv))[65536] := by
      rw [getElem_map,getElem_map,getElem_range,getElem_range]
      exact (nonceAt_wraps iv).symm
    exact absurd (h.getElem_inj_iff.mp hsame) (by decide)
  · intro hn
    refine List.Nodup.map_on ?_ nodup_range
    intro i hi j hj
    exact nonceAt_injective (Nat.lt_of_lt_of_le (mem_range.mp hi) hn)
      (Nat.lt_of_lt_of_le (mem_range.mp hj) hn)

theorem nonces_new (packetMode : Bool) {security : Security} (hsec : security≠.none)
    (shake128 : List UInt8 → Nat → UInt8) (iv : List UInt8) (cipher : VmessCipher)
    (ts : List (Turn (Nat → UInt8))) :
    nonces packetMode (.new (.new security shake128 iv cipher)) ts =
      (range (chunks packetMode (.new (.new security shake128 iv cipher)) ts)).map
        (nonceAt iv) := by
  have hnew : (Sending.new (Direction.new security shake128 iv cipher)).writer.cipher.chunkNonce =
      ⟨UInt16.ofNat 0,iv⟩ := rfl
  rw [nonces_eq packetMode hsec hnew ts]
  simp only [Nat.zero_add]

/-- No nonce is used twice just when the stream seals no more chunks than the counter has values. -/
theorem nonces_nodup_iff (packetMode : Bool) {security : Security} (hsec : security≠.none)
    (shake128 : List UInt8 → Nat → UInt8) (iv : List UInt8) (cipher : VmessCipher)
    (ts : List (Turn (Nat → UInt8))) :
    (nonces packetMode (.new (.new security shake128 iv cipher)) ts).Nodup ↔
      chunks packetMode (.new (.new security shake128 iv cipher)) ts≤65536 := by
  rw [nonces_new packetMode hsec]
  exact nodup_nonceAt_iff iv _

def byteTurn : Turn (Nat → UInt8) := ⟨.write (fun _ => 0) [1],readyAnswers⟩

theorem nonces_nodup_iff_twice :
    (nonces false (.new (sampleDirection .aes128Gcm)) [byteTurn,byteTurn]).Nodup :=
  (nonces_nodup_iff false (by decide) _ _ _ [byteTurn,byteTurn]).mpr (by decide)

theorem drawPadding_lt (d : Direction) : d.drawPadding.1<64 := by
  unfold Direction.drawPadding
  split
  · exact Nat.zero_lt_succ 63
  · show (d.shake.nextMask.1%64).toNat<64
    rw [UInt16.toNat_mod]
    exact Nat.mod_lt _ (by decide)

theorem sealChunk_length (hd : d.security≠.none) (random : Nat → UInt8) (payload : List UInt8) :
    (sealChunk d random payload).1.length=payload.length+18+d.drawPadding.1 := by
  rw [(sealChunk_aead hd random payload).1,aeadSealInto,length_append,length_append,
    VmessCipher.encrypt_length,VmessCipher.tag_length,length_append,lengthField_length,
    length_map,length_range]
  unfold aeadTag
  omega

theorem chunks_replicate (hd : s.writer.cipher.security≠.none) (hs : ¬s.writer.Outstanding)
    (n : Nat) : chunks false s (replicate n byteTurn)=n := by
  induction n generalizing s with
  | zero => rfl
  | succ n ih =>
    have hbegins : Begins false s byteTurn := ⟨hs,by decide,fun hmode => by cases hmode⟩
    have hseals : Seals (framing false) s.writer byteTurn.call (fun _ => 0) [1] 1 :=
      ⟨rfl,hs,by decide,rfl,by decide⟩
    have hroom : (s.writer.sealed (framing false) (fun _ => 0) ([1].take 1)).writeOut.length ≤
        room readyAnswers.writes := by
      show (sealChunk s.writer.cipher (fun _ => 0) [1]).1.length≤104
      rw [sealChunk_length hd]
      have hpadding := drawPadding_lt s.writer.cipher
      show 1+18+_≤104
      omega
    obtain ⟨-,hstep⟩ := Sending.step_seal_done hseals (calm_ready _) hroom
    have hidle : ¬(s.step (framing false) byteTurn).writer.Outstanding := by
      have hout : (s.step (framing false) byteTurn).writer.writeOut=[] :=
        congrArg (fun x => x.writer.writeOut) hstep
      rw [Writer.Outstanding,hout]
      exact Nat.not_lt_zero _
    rw [replicate_succ,chunks,if_pos hbegins,ih (step_chunkNonce false hd byteTurn).1 hidle,
      Nat.add_comm]

/-- The chunk after the first 65536 is sealed with the nonce of the first one. -/
theorem nonce_used_again :
    chunks false (.new (sampleDirection .aes128Gcm)) (List.replicate 65537 byteTurn)=65537 ∧
      (nonces false (.new (sampleDirection .aes128Gcm)) (List.replicate 65537 byteTurn))[0]? =
        some (List.replicate 12 0) ∧
      (nonces false (.new (sampleDirection .aes128Gcm)) (List.replicate 65537 byteTurn))[65536]? =
        some (List.replicate 12 0) := by
  have hd : (Sending.new (sampleDirection .aes128Gcm)).writer.cipher.security≠.none := by decide
  have hidle : ¬(Sending.new (sampleDirection .aes128Gcm)).writer.Outstanding := Nat.not_lt_zero _
  have hchunks := chunks_replicate hd hidle 65537
  have hnonces : nonces false (.new (sampleDirection .aes128Gcm)) (List.replicate 65537 byteTurn) =
      (List.range (chunks false (.new (sampleDirection .aes128Gcm))
        (List.replicate 65537 byteTurn))).map (nonceAt (List.replicate 16 0)) :=
    nonces_new false hd _ _ _ _
  rw [hchunks] at hnonces
  refine ⟨hchunks,?_⟩
  rw [hnonces,List.getElem?_map,List.getElem?_map,
    List.getElem?_range (by decide),List.getElem?_range (by decide)]
  exact ⟨rfl,rfl⟩

end DaeRs.Vmess
