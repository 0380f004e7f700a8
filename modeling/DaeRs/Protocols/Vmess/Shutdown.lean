import Mathlib.Data.List.TakeDrop
import DaeRs.Protocols.Vmess.Nonces

/-! The end of a VMess stream: `poll_shutdown` writes the terminating chunk past what is left of an
unfinished one. -/

namespace DaeRs.Protocols

open AsyncIo

variable {σ ρ : Type} {F : Framing σ ρ}

theorem drain_spec (zeroText : String) (len pos : Nat) (writes : List Taken) :
    pos≤(drain zeroText len pos writes).2 ∧
      ((drain zeroText len pos writes).1=.ok () → len≤(drain zeroText len pos writes).2) := by
  induction writes generalizing pos with
  | nil =>
    unfold drain
    split_ifs <;> simp
    omega
  | cons taken writes ih =>
    unfold drain
    split_ifs with hlt
    · cases taken with
      | pending => simp
      | err e => simp
      | bytes n =>
        dsimp only
        split_ifs
        · simp
        · obtain ⟨hpos,hdone⟩ := ih (pos+min n (len-pos))
          exact ⟨by omega,hdone⟩
    · exact ⟨Nat.le_refl _,fun _ => Nat.not_lt.mp hlt⟩

def Writer.rest (w : Writer σ) : List UInt8 := w.writeOut.drop w.writePos

theorem Writer.rest_eq_nil {w : Writer σ} : w.rest=[] ↔ ¬w.Outstanding := by
  rw [rest,List.drop_eq_nil_iff,Outstanding,Nat.not_lt]

theorem Writer.pollFlush_rest (F : Framing σ ρ) (a : Answers) (w : Writer σ) :
    (w.pollFlush F a).2.2++(w.pollFlush F a).2.1.rest=w.rest := by
  obtain ⟨hpos,hdone⟩ := drain_spec F.zeroText w.writeOut.length w.writePos a.writes
  have hdrop : w.writeOut.drop (drain F.zeroText w.writeOut.length w.writePos a.writes).2 =
      w.rest.drop ((drain F.zeroText w.writeOut.length w.writePos a.writes).2-w.writePos) := by
    rw [rest,List.drop_drop,Nat.add_sub_cancel' hpos]
  unfold pollFlush
  dsimp only
  split
  · next h =>
    have hlen : w.rest.length≤(drain F.zeroText w.writeOut.length w.writePos a.writes).2-w.writePos := by
      rw [rest,List.length_drop]
      have hle := hdone h
      omega
    simpa [rest] using List.take_of_length_le hlen
  all_goals exact (congrArg (_++·) hdrop).trans (List.take_append_drop _ _)

/-- The transport has all that was sealed but the rest of the last frame. -/
def Sending.Ordered (s : Sending σ) : Prop := s.taken++s.writer.rest=wires s.frames

theorem Sending.Ordered.step {s : Sending σ} (h : s.Ordered) (t : Turn ρ) :
    (s.step F t).Ordered := by
  unfold Ordered at h ⊢
  have hflush : (s.taken++(s.writer.pollFlush F t.answers).2.2) ++
      (s.writer.pollFlush F t.answers).2.1.rest=wires s.frames := by
    rw [List.append_assoc,Writer.pollFlush_rest,h]
  obtain ⟨call,a⟩ := t
  unfold Sending.step Writer.poll
  cases call with
  | flush => simpa [Writer.newFrames] using hflush
  | write r buf =>
    unfold Writer.newFrames Writer.pollWrite
    by_cases hout : s.writer.Outstanding
    · simpa [hout] using hflush
    by_cases hbuf : buf=[]
    · simpa [hout,hbuf] using h
    simp only [hout,hbuf,if_false,or_self]
    cases F.chunkLen buf with
    | error e => simpa using h
    | ok n =>
      have hrest := (s.writer.sealed F r (buf.take n)).pollFlush_rest F a
      rw [Writer.rest_eq_nil.mpr hout,List.append_nil] at h
      rw [wires_append,List.append_assoc,hrest,h]
      simp [wires,Writer.sealed,Writer.rest]

end DaeRs.Protocols

namespace DaeRs.Vmess

open AsyncIo Octets Protocols Runs

/-- A stream that is shut down, and whether it has made its terminating chunk. -/
structure Closing where
  sending : Sending Direction
  eofSent : Bool

/-- The transport's answers to one `poll_shutdown` are those to a write and to its own shutdown. -/
def pollShutdown (a : Taken×Poll IoError Unit) (c : Closing) : Poll IoError Unit×Closing :=
  if c.eofSent then (a.2,c)
  else
    let mask := c.sending.writer.cipher.drawMask
    let eof := toBE 2 mask.1.toNat
    let s := { c.sending with writer := { c.sending.writer with cipher := mask.2 } }
    match a.1 with
    | .pending => (.pending,⟨{ s with writer := ⟨mask.2,eof,0⟩ },true⟩)
    | .err e => (.err e,⟨s,true⟩)
    -- nothing looks at how much was taken
    | .bytes n => (a.2,⟨{ s with taken := s.taken++eof.take n },true⟩)

/-- `poll_shutdown` is called until it is ready. -/
def shutdown : List (Taken×Poll IoError Unit) → Closing → Poll IoError Unit×Closing
  | [],c => (.pending,c)
  | a::as,c =>
    match pollShutdown a c with
    | (.pending,c') => shutdown as c'
    | r => r

theorem shutdown_eofSent (as : List (Taken×Poll IoError Unit)) (s : Sending Direction) :
    (shutdown as ⟨s,true⟩).2.sending=s := by
  induction as with
  | nil => rfl
  | cons a as ih =>
    obtain ⟨w,_ | _ | _⟩ := a
    · exact ih
    · rfl
    · rfl

theorem shutdown_first (a : Taken×Poll IoError Unit) (as : List (Taken×Poll IoError Unit))
    (c : Closing) : (shutdown (a::as) c).2.sending=(pollShutdown a c).2.sending := by
  have hsent : (pollShutdown a c).2=⟨(pollShutdown a c).2.sending,true⟩ := by
    unfold pollShutdown
    split_ifs with h
    · obtain ⟨s,sent⟩ := c
      cases h
      rfl
    · obtain ⟨_ | _ | _,_⟩ := a <;> rfl
  rw [shutdown]
  generalize pollShutdown a c=r at hsent
  obtain ⟨_ | _ | _,c'⟩ := r
  · dsimp only at hsent ⊢
    rw [hsent,shutdown_eofSent]
  · rfl
  · rfl

/-- After any calls, the transport is given all that was sealed and the terminating chunk just if no
frame is unfinished at the first `poll_shutdown` and the transport takes both bytes at once. -/
theorem shutdown_complete_iff (packetMode : Bool) (d : Direction) (ts : List (Turn (Nat → UInt8)))
    (a : Taken×Poll IoError Unit) (as : List (Taken×Poll IoError Unit)) :
    let s := run (Sending.step (framing packetMode)) (.new d) ts
    (shutdown (a::as) ⟨s,false⟩).2.sending.taken =
        wires s.frames++toBE 2 s.writer.cipher.drawMask.1.toNat ↔
      ¬s.writer.Outstanding ∧ ∃ n,2≤n ∧ a.1=.bytes n := by
  intro s
  have hs : s.Ordered := run_invariant (fun _ t h => h.step t) (by rfl) ts
  rw [shutdown_first,← hs,← Writer.rest_eq_nil]
  have htwo := toBE_length 2 s.writer.cipher.drawMask.1.toNat
  have hnil (x : List UInt8) (hx : x.length≤2) :
      s.taken++x=(s.taken++s.writer.rest)++toBE 2 s.writer.cipher.drawMask.1.toNat ↔
        s.writer.rest=[] ∧ x=toBE 2 s.writer.cipher.drawMask.1.toNat := by
    rw [List.append_assoc,List.append_cancel_left_eq]
    constructor
    · intro h
      have hlen := congrArg List.length h
      rw [List.length_append] at hlen
      have hrest : s.writer.rest=[] := List.length_eq_zero_iff.mp (by omega)
      exact ⟨hrest,by simpa [hrest] using h⟩
    · rintro ⟨hrest,rfl⟩
      rw [hrest,List.nil_append]
  have hnone := hnil [] (Nat.zero_le 2)
  rw [List.append_nil] at hnone
  have hne : []≠toBE 2 s.writer.cipher.drawMask.1.toNat := fun h => nomatch h ▸ htwo
  obtain ⟨_ | n | e,_⟩ := a
  · exact hnone.trans (by simp [hne])
  · refine (hnil (List.take n _) (by rw [List.length_take,htwo]; omega)).trans ?_
    simp [List.take_eq_self_iff,htwo]
  · exact hnone.trans (by simp [hne])

/-- One byte of a chunk is taken before the shutdown: the terminating chunk follows at once. A
pending or short write loses it, or a byte of it. All of them end well. -/
theorem terminator_misplaced :
    let ended (a : List Taken) (as : List (Taken×Poll IoError Unit)) :=
      let r := shutdown as ⟨run (Sending.step (framing false)) (.new (sampleDirection .none))
        [⟨.write (fun _ => 0) [7],⟨a,.ok ()⟩⟩],false⟩
      (r.1,r.2.sending.taken)
    ended [.bytes 3] [(.bytes 2,.ok ())]=(.ok (),[0,81,7,128,192]) ∧
      ended [.bytes 1] [(.bytes 2,.ok ())]=(.ok (),[0,128,192]) ∧
      ended [.bytes 3] [(.pending,.pending),(.bytes 2,.ok ())]=(.ok (),[0,81,7]) ∧
      ended [.bytes 3] [(.bytes 1,.ok ())]=(.ok (),[0,81,7,128]) := by
  decide

end DaeRs.Vmess
