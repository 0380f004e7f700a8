import DaeRs.Lib.AsyncIo

/-! The write half that the encrypted streams share: `poll_write` seals a chunk into a frame and
sends it, `poll_flush` sends what is left of a frame. -/

namespace DaeRs.Protocols

open AsyncIo

inductive IoError where
  | os (code : Nat)
  | writeZero (text : String)
  | other (text : String)
  deriving DecidableEq

/-- What one `poll_write` of the transport gives: it takes no more than it is offered. -/
inductive Taken where
  | pending
  | bytes (n : Nat)
  | err (e : IoError)
  deriving DecidableEq

/-- What the transport gives to the calls of one poll; when the writes are used up it is pending. -/
structure Answers where
  writes : List Taken
  flush : Poll IoError Unit

/-- `cipher`, `write_out` and `write_pos` of a stream. -/
structure Writer (σ : Type) where
  cipher : σ
  writeOut : List UInt8
  writePos : Nat

/-- How a stream divides what it is given into chunks and makes a frame of a chunk; `ρ` is the
randomness of one frame. -/
structure Framing (σ ρ : Type) where
  zeroText : String
  chunkLen : List UInt8 → Except IoError Nat
  sealFrame : σ → ρ → List UInt8 → List UInt8×σ

variable {σ ρ : Type}

def drain (zeroText : String) (len : Nat) (pos : Nat) : List Taken → Poll IoError Unit×Nat
  | [] => if pos<len then (.pending,pos) else (.ok (),pos)
  | taken::writes =>
    if pos<len then
      match taken with
      | .pending => (.pending,pos)
      | .err e => (.err e,pos)
      | .bytes n =>
        if n=0 then (.err (.writeZero zeroText),pos)
        else drain zeroText len (pos+min n (len-pos)) writes
    else (.ok (),pos)

namespace Writer

def Outstanding (w : Writer σ) : Prop := w.writePos<w.writeOut.length

instance (w : Writer σ) : Decidable w.Outstanding := inferInstanceAs (Decidable (_ < _))

def pollFlush (F : Framing σ ρ) (a : Answers) (w : Writer σ) :
    Poll IoError Unit×Writer σ×List UInt8 :=
  let r := drain F.zeroText w.writeOut.length w.writePos a.writes
  let taken := (w.writeOut.drop w.writePos).take (r.2-w.writePos)
  match r.1 with
  | .ok () => (a.flush,{ w with writeOut := [],writePos := 0 },taken)
  | .pending => (.pending,{ w with writePos := r.2 },taken)
  | .err e => (.err e,{ w with writePos := r.2 },taken)

def sealed (F : Framing σ ρ) (r : ρ) (chunk : List UInt8) (w : Writer σ) : Writer σ :=
  ⟨(F.sealFrame w.cipher r chunk).2,(F.sealFrame w.cipher r chunk).1,0⟩

def pollWrite (F : Framing σ ρ) (r : ρ) (buf : List UInt8) (a : Answers) (w : Writer σ) :
    Poll IoError Nat×Writer σ×List UInt8 :=
  if w.Outstanding then
    -- unfinished output goes first, and nothing of the new bytes is taken
    let flushed := w.pollFlush F a
    (flushed.1.map fun _ => 0,flushed.2)
  else if buf=[] then (.ok 0,w,[])
  else match F.chunkLen buf with
    | .error e => (.err e,w,[])
    | .ok n =>
      let flushed := (w.sealed F r (buf.take n)).pollFlush F a
      (flushed.1.map fun _ => n,flushed.2)

end Writer

inductive WriteCall (ρ : Type) where
  | write (r : ρ) (buf : List UInt8)
  | flush

/-- A call with the transport's answers to it. -/
structure Turn (ρ : Type) where
  call : WriteCall ρ
  answers : Answers

/-- A stream that is written to; what was sealed (chunk and frame), what the transport took and what
was acknowledged are kept for the statements only. -/
structure Sending (σ : Type) where
  writer : Writer σ
  frames : List (List UInt8×List UInt8)
  taken : List UInt8
  acked : List UInt8

def Writer.poll (F : Framing σ ρ) (t : Turn ρ) (w : Writer σ) :
    Poll IoError Nat×Writer σ×List UInt8 :=
  match t.call with
  | .write r buf => w.pollWrite F r buf t.answers
  | .flush => ((w.pollFlush F t.answers).1.map fun _ => 0,(w.pollFlush F t.answers).2)

def Writer.newFrames (F : Framing σ ρ) (w : Writer σ) :
    WriteCall ρ → List (List UInt8×List UInt8)
  | .flush => []
  | .write r buf =>
    if w.Outstanding ∨ buf=[] then []
    else match F.chunkLen buf with
      | .error _ => []
      | .ok n => [(buf.take n,(F.sealFrame w.cipher r (buf.take n)).1)]

def acknowledged : WriteCall ρ → Poll IoError Nat → List UInt8
  | .write _ buf,.ok n => buf.take n
  | _,_ => []

namespace Sending

def new (cipher : σ) : Sending σ := ⟨⟨cipher,[],0⟩,[],[],[]⟩

def step (F : Framing σ ρ) (s : Sending σ) (t : Turn ρ) : Sending σ where
  writer := (s.writer.poll F t).2.1
  frames := s.frames++s.writer.newFrames F t.call
  taken := s.taken++(s.writer.poll F t).2.2
  acked := s.acked++acknowledged t.call (s.writer.poll F t).1

end Sending

end DaeRs.Protocols
