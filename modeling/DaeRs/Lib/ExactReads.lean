import Mathlib.Data.List.Basic

/-! Readers of a stream that comes in segments, by reads of an exact length. -/

namespace ExactReads

open List

variable {ε α β : Type}

abbrev Reader (ε : Type) := StateT (List (List UInt8)) (Except ε)

def takeExact : List (List UInt8) → Nat → Option (List UInt8×List (List UInt8))
  | [],n => if n=0 then some ([],[]) else none
  | seg::segs,n =>
    if n ≤ seg.length then some (seg.take n,seg.drop n::segs)
    else (takeExact segs (n-seg.length)).map fun p => (seg++p.1,p.2)

def readExact (early : ε) (n : Nat) : Reader ε (List UInt8) := fun segs =>
  match takeExact segs n with
  | some p => .ok p
  | none => .error early

/-- `m` reads `bs`, however it is cut into segments, and gives `a`. -/
def Reads (m : Reader ε α) (bs : List UInt8) (a : α) : Prop := ∀ segs rest,segs.flatten=bs++rest →
    ∃ segs',m segs=.ok (a,segs') ∧ segs'.flatten=rest

theorem reads_pure (a : α) : Reads (pure a : Reader ε α) [] a := fun segs _ h => ⟨segs,rfl,h⟩

theorem Reads.bind {m : Reader ε α} {f : α → Reader ε β} {bs bs' : List UInt8} {a : α} {b : β}
    (hm : Reads m bs a) (hf : Reads (f a) bs' b) : Reads (m >>= f) (bs++bs') b := by
  intro segs rest h
  obtain ⟨segs',hrun,hrest⟩ := hm segs (bs'++rest) (by simpa using h)
  obtain ⟨segs'',hrun',hrest'⟩ := hf segs' rest hrest
  refine ⟨segs'',?_,hrest'⟩
  show (m segs >>= fun p => f p.1 p.2)=_
  rw [hrun]
  exact hrun'

theorem Reads.last {m : Reader ε α} {bs : List UInt8} {a : α} (h : Reads m bs a) (g : α → β) :
    Reads (m >>= fun a => pure (g a)) bs (g a) := by
  have hlast := Reads.bind (f := fun a => pure (g a)) h (reads_pure (g a))
  rwa [append_nil] at hlast

theorem takeExact_flatten {segs : List (List UInt8)} {bs rest : List UInt8}
    (h : segs.flatten=bs++rest) :
    ∃ segs',takeExact segs bs.length=some (bs,segs') ∧ segs'.flatten=rest := by
  induction segs generalizing bs with
  | nil =>
    obtain ⟨rfl,rfl⟩ : bs=[] ∧ rest=[] := by simpa using h
    exact ⟨[],rfl,rfl⟩
  | cons seg segs ih =>
    rw [flatten_cons,append_eq_append_iff] at h
    by_cases hle : bs.length ≤ seg.length
    · rw [takeExact,if_pos hle]
      rcases h with ⟨as,rfl,h⟩ | ⟨as,rfl,rfl⟩
      · rw [length_append] at hle
        obtain rfl : as=[] := eq_nil_of_length_eq_zero (by omega)
        exact ⟨[]::segs,by simp,by simpa using h⟩
      · exact ⟨as::segs,by simp,by simp⟩
    · rw [takeExact,if_neg hle]
      rcases h with ⟨as,rfl,h⟩ | ⟨as,rfl,rfl⟩
      · obtain ⟨segs',htake,hrest⟩ := ih h
        exact ⟨segs',by simp [htake],hrest⟩
      · simp at hle

theorem reads_readExact (early : ε) (bs : List UInt8) : Reads
    (readExact early bs.length) bs bs := by
  intro segs rest h
  obtain ⟨segs',htake,hrest⟩ := takeExact_flatten h
  exact ⟨segs',by rw [readExact,htake],hrest⟩

def times (m : Reader ε α) : Nat → Reader ε (List α)
  | 0 => pure []
  | n+1 => do
    let a ← m
    let as ← times m n
    return a::as

theorem reads_times {m : Reader ε α} {encode : α → List UInt8} {as : List α}
    (h : ∀ a∈as,Reads m (encode a) a) :
    Reads (times m as.length) (as.flatMap encode) as := by
  induction as with
  | nil => exact reads_pure []
  | cons a as ih =>
    have hrest := ih fun b hb => h b (mem_cons_of_mem a hb)
    exact (h a mem_cons_self).bind (hrest.last (a::·))

end ExactReads
