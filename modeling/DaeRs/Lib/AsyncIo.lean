import Mathlib.Data.List.Basic

/-! Byte streams that are polled: a transport whose reads can be pending anywhere, a loop that fills
a buffer from it, and readers that give out what is to come in portions. -/

namespace AsyncIo

open List

inductive Poll (ε α : Type) where
  | pending
  | ok (a : α)
  | err (e : ε)
  deriving DecidableEq

def Poll.map {ε α β : Type} (f : α → β) : Poll ε α → Poll ε β
  | .pending => .pending
  | .ok a => .ok (f a)
  | .err e => .err e

/-- What one read of the transport gives. An empty portion is the end of the stream. -/
inductive Incoming (ε : Type) where
  | pending
  | data (bytes : List UInt8)
  | err (e : ε)
  deriving DecidableEq

variable {ε σ : Type}

def bytesOf : List (Incoming ε) → List UInt8
  | [] => []
  | .data bytes::reads => bytes++bytesOf reads
  | _::reads => bytesOf reads

def pendings : List (Incoming ε) → Nat
  | [] => 0
  | .pending::reads => pendings reads+1
  | _::reads => pendings reads

/-- Reads that cut a stream into portions: the stream ends behind the last of them. -/
def Segments (reads : List (Incoming ε)) : Prop :=
  ∀ read∈reads,read=.pending ∨ ∃ bytes,bytes≠[] ∧ read=.data bytes

theorem segments_nil : Segments ([] : List (Incoming ε)) := fun _ h => absurd h not_mem_nil

section Fill

variable {reads : List (Incoming ε)}

theorem Segments.pending (h : Segments reads) : Segments (.pending::reads) := by
  intro read hread
  rcases mem_cons.mp hread with rfl | hread
  · exact .inl rfl
  · exact h read hread

theorem Segments.data (h : Segments reads) {bytes : List UInt8}
    (hne : bytes≠[]) : Segments (.data bytes::reads) := by
  intro read hread
  rcases mem_cons.mp hread with rfl | hread
  · exact .inr ⟨bytes,hne,rfl⟩
  · exact h read hread

theorem Segments.tail {read : Incoming ε} (h : Segments (read::reads)) : Segments reads :=
  fun r hr => h r (mem_cons_of_mem read hr)

def PendingAt (P : List UInt8 → Prop) : List UInt8 → List (Incoming ε) → Prop
  | _,[] => True
  | seen,.pending::reads => P seen ∧ PendingAt P seen reads
  | seen,.data bytes::reads => PendingAt P (seen++bytes) reads
  | seen,.err _::reads => PendingAt P seen reads

theorem PendingAt.mono {P P' : List UInt8 → Prop} (hP : ∀ bytes,P bytes → P' bytes)
    {seen : List UInt8} (h : PendingAt P seen reads) : PendingAt P' seen reads := by
  induction reads generalizing seen with
  | nil => trivial
  | cons read reads ih =>
    cases read with
    | pending => exact ⟨hP seen h.1,ih h.2⟩
    | data bytes => exact ih h
    | err e => exact ih h

theorem pendingAt_append_iff {P : List UInt8 → Prop} {old seen : List UInt8} :
    PendingAt P (old++seen) reads ↔ PendingAt (fun bytes => P (old++bytes)) seen reads := by
  induction reads generalizing seen with
  | nil => exact Iff.rfl
  | cons read reads ih =>
    cases read with
    | pending => exact and_congr Iff.rfl ih
    | data bytes =>
      rw [PendingAt,PendingAt,append_assoc]
      exact ih
    | err e => exact ih

theorem pendingAt_of_pendings_eq_zero (P : List UInt8 → Prop)
    (h : pendings reads=0) (seen : List UInt8) : PendingAt P seen reads := by
  induction reads generalizing seen with
  | nil => trivial
  | cons read reads ih =>
    cases read with
    | pending => exact absurd h (Nat.succ_ne_zero _)
    | data bytes => exact ih h (seen++bytes)
    | err e => exact ih h seen

variable (bytes : List UInt8)

def whole : List (Incoming ε) :=
  if bytes=[] then [] else [.data bytes]

theorem whole_segments : Segments (whole bytes : List (Incoming ε)) := by
  unfold whole
  split_ifs with h
  · exact segments_nil
  · exact segments_nil.data h

theorem bytesOf_whole : bytesOf (whole bytes : List (Incoming ε))=bytes := by
  unfold whole
  split_ifs with h
  · exact h.symm
  · exact append_nil bytes

theorem pendings_whole : pendings (whole bytes : List (Incoming ε))=0 := by
  unfold whole
  split_ifs
  · rfl
  · rfl

def fill (need : Nat) (buf : List UInt8) :
    List (Incoming ε) → Poll ε Unit×List UInt8×List (Incoming ε)
  | [] => (.ok (),buf,[])
  | read::reads =>
    if need≤buf.length then (.ok (),buf,read::reads)
    else match read with
      | .pending => (.pending,buf,reads)
      | .err e => (.err e,buf,reads)
      | .data [] => (.ok (),buf,reads)
      | .data (b::bytes) => fill need (buf++b::bytes) reads

theorem fill_enough {need : Nat} {buf : List UInt8} (h : need≤buf.length)
    (reads : List (Incoming ε)) : fill need buf reads=(.ok (),buf,reads) := by
  cases reads with
  | nil => rfl
  | cons read reads =>
    rw [fill.eq_def]
    exact if_pos h

/-- What is in the buffer after a fill. -/
inductive Filled (need : Nat) (buf : List UInt8) (reads : List (Incoming ε)) :
    Poll ε Unit×List UInt8×List (Incoming ε) → Prop
  | pending (buf' : List UInt8) (reads' : List (Incoming ε)) (hshort : buf'.length<need)
      (hbytes : buf'++bytesOf reads'=buf++bytesOf reads)
      (hwait : pendings reads'<pendings reads) : Filled need buf reads (.pending,buf',reads')
  | enough (buf' : List UInt8) (reads' : List (Incoming ε)) (hneed : need≤buf'.length)
      (hbytes : buf'++bytesOf reads'=buf++bytesOf reads)
      (hwait : pendings reads'≤pendings reads) : Filled need buf reads (.ok (),buf',reads')
  | ended (hshort : (buf++bytesOf reads).length<need) :
      Filled need buf reads (.ok (),buf++bytesOf reads,[])

theorem Filled.of_data {need : Nat} {buf bytes : List UInt8}
    {r : Poll ε Unit×List UInt8×List (Incoming ε)} (h : Filled need (buf++bytes) reads r) :
    Filled need buf (.data bytes::reads) r := by
  cases h with
  | pending buf' reads' hshort hbytes hwait =>
    exact .pending buf' reads' hshort (by rw [hbytes,bytesOf,append_assoc]) hwait
  | enough buf' reads' hneed hbytes hwait =>
    exact .enough buf' reads' hneed (by rw [hbytes,bytesOf,append_assoc]) hwait
  | ended hshort =>
    rw [append_assoc] at hshort ⊢
    exact .ended hshort

theorem fill_filled (need : Nat) (buf : List UInt8) (hreads : Segments reads) :
    Filled need buf reads (fill need buf reads) ∧ Segments (fill need buf reads).2.2 := by
  induction reads generalizing buf with
  | nil =>
    refine ⟨?_,hreads⟩
    by_cases hneed : need≤buf.length
    · exact .enough buf [] hneed rfl (Nat.le_refl _)
    · have hshort : (buf++bytesOf ([] : List (Incoming ε))).length<need := by
        simpa [bytesOf] using hneed
      simpa [bytesOf,fill] using Filled.ended hshort
  | cons read reads ih =>
    by_cases hneed : need≤buf.length
    · rw [fill_enough hneed]
      exact ⟨.enough buf (read::reads) hneed rfl (Nat.le_refl _),hreads⟩
    · rcases hreads read mem_cons_self with rfl | ⟨bytes,hne,rfl⟩
      · simp only [fill,if_neg hneed]
        exact ⟨.pending buf reads (by omega) rfl (Nat.lt_succ_self _),hreads.tail⟩
      · obtain ⟨b,bytes,rfl⟩ := exists_cons_of_ne_nil hne
        simp only [fill,if_neg hneed]
        obtain ⟨hfilled,hsegments⟩ := ih (buf++b::bytes) hreads.tail
        exact ⟨hfilled.of_data,hsegments⟩

theorem split_of_append_eq {buf more first next : List UInt8} (h : buf++more=first++next)
    (hlen : first.length≤buf.length) :
    buf.take first.length=first ∧ buf.drop first.length++more=next := by
  constructor
  · have htake := congrArg (List.take first.length) h
    rwa [take_append_of_le_length hlen,take_left] at htake
  · have hdrop := congrArg (List.drop first.length) h
    rwa [drop_append_of_le_length hlen,drop_left] at hdrop

theorem fill_pendingAt (P : List UInt8 → Prop) (need : Nat) (buf : List UInt8)
    (reads : List (Incoming ε)) (h : PendingAt P buf reads) :
    PendingAt P (fill need buf reads).2.1 (fill need buf reads).2.2 ∧
      ((fill need buf reads).1=.pending → P (fill need buf reads).2.1) := by
  induction reads generalizing buf with
  | nil => exact ⟨trivial,fun hpending => by cases hpending⟩
  | cons read reads ih =>
    by_cases hneed : need≤buf.length
    · rw [fill_enough hneed]
      exact ⟨h,fun hpending => by cases hpending⟩
    · cases read with
      | pending =>
        simp only [fill,if_neg hneed]
        exact ⟨h.2,fun _ => h.1⟩
      | err e =>
        simp only [fill,if_neg hneed]
        exact ⟨h,fun hpending => by cases hpending⟩
      | data bytes =>
        cases bytes with
        | nil =>
          simp only [fill,if_neg hneed]
          refine ⟨?_,fun hpending => by cases hpending⟩
          simpa [PendingAt] using h
        | cons b bytes =>
          simp only [fill,if_neg hneed]
          exact ih _ h

end Fill

section Readers

variable (poll : σ → Nat → Poll ε (List UInt8)×σ)

/-- Polls with buffers of the given sizes, one after the other, until one gives nothing: that is the
end of the stream for the reader. -/
def reads : σ → List Nat → List (Poll ε (List UInt8))
  | _,[] => []
  | s,room::rooms =>
    match poll s room with
    | (.ok [],_) => [.ok []]
    | (p,s') => p::reads s' rooms

variable {poll}

theorem reads_cons {s s' : σ} {room : Nat} {rooms : List Nat} {p : Poll ε (List UInt8)}
    (h : poll s room=(p,s')) (hp : p≠.ok []) :
    reads poll s (room::rooms)=p::reads poll s' rooms := by
  rw [reads,h]
  split
  · next heq => exact absurd (Prod.mk.inj heq).1 hp
  · next heq => rw [(Prod.mk.inj heq).1,(Prod.mk.inj heq).2]

theorem reads_cons_end {s s' : σ} {room : Nat} {rooms : List Nat}
    (h : poll s room=(.ok [],s')) : reads poll s (room::rooms)=[.ok []] := by
  rw [reads,h]

end Readers

def delivered : List (Poll ε (List UInt8)) → List UInt8
  | [] => []
  | .ok bytes::polls => bytes++delivered polls
  | _::polls => delivered polls

/-- What a poll gives while `rest` is to come and at most `n` polls are pending: a portion of it, or
the end of the stream when nothing is left. -/
inductive Gives (I : σ → List UInt8 → Nat → Prop) (rest : List UInt8) (n : Nat) :
    Poll ε (List UInt8)×σ → Prop
  | pending (s : σ) (m : Nat) (hI : I s rest m) (hm : m<n) : Gives I rest n (.pending,s)
  | portion (s : σ) (bytes rest' : List UInt8) (hne : bytes≠[]) (hrest : rest=bytes++rest')
      (hI : I s rest' n) : Gives I rest n (.ok bytes,s)
  | ended (s : σ) (hrest : rest=[]) : Gives I rest n (.ok [],s)

/-- The polls with `rooms` buffers give out `rest`: without an error, in order, the end only behind
all of it, and after at most `n` more polls than there are bytes. -/
structure GivesOut (rest : List UInt8) (n rooms : Nat) (polls : List (Poll ε (List UInt8))) :
    Prop where
  no_error : ∀ e,.err e∉polls
  in_order : delivered polls <+: rest
  ended : .ok []∈polls → delivered polls=rest
  progress : n+rest.length < rooms → .ok []∈polls

/-- A reader whose polls keep `I` gives out what is to come. -/
theorem reads_givesOut {poll : σ → Nat → Poll ε (List UInt8)×σ} {I : σ → List UInt8 → Nat → Prop}
    (hpoll : ∀ s rest n room,I s rest n → 0 < room → Gives I rest n (poll s room))
    {s : σ} {rest : List UInt8} {n : Nat} (hI : I s rest n) {rooms : List Nat}
    (hrooms : ∀ room∈rooms,0 < room) :
    GivesOut rest n rooms.length (reads poll s rooms) := by
  induction rooms generalizing s rest n with
  | nil =>
    refine ⟨fun e h => absurd h List.not_mem_nil,List.nil_prefix,?_,?_⟩
    · exact fun h => absurd h List.not_mem_nil
    · exact fun h => absurd h (Nat.not_lt_zero _)
  | cons room rooms ih =>
    have hrest : ∀ room∈rooms,0 < room := fun r hr => hrooms r (List.mem_cons_of_mem room hr)
    have hgives := hpoll s rest n room hI (hrooms room List.mem_cons_self)
    generalize hr : poll s room=r at hgives
    cases hgives with
    | pending s' m hI' hm =>
      have hout := ih hI' hrest
      rw [reads_cons hr (by simp)]
      refine ⟨?_,hout.in_order,?_,?_⟩
      · intro e he
        exact hout.no_error e (by simpa using he)
      · intro hend
        exact hout.ended (by simpa using hend)
      · intro hlen
        rw [List.length_cons] at hlen
        exact List.mem_cons_of_mem _ (hout.progress (by omega))
    | portion s' bytes rest' hne heq hI' =>
      have hout := ih hI' hrest
      have hpos : 0<bytes.length := List.length_pos_of_ne_nil hne
      rw [reads_cons hr (by simpa using hne),heq]
      refine ⟨?_,(List.prefix_append_right_inj bytes).mpr hout.in_order,?_,?_⟩
      · intro e he
        exact hout.no_error e (by simpa using he)
      · intro hend
        have hrest' := hout.ended (by simpa [Ne.symm hne] using hend)
        exact congrArg (bytes++·) hrest'
      · intro hlen
        rw [List.length_append,List.length_cons] at hlen
        exact List.mem_cons_of_mem _ (hout.progress (by omega))
    | ended s' heq =>
      rw [reads_cons_end hr,heq]
      refine ⟨?_,List.prefix_rfl,fun _ => rfl,fun _ => List.mem_singleton_self _⟩
      intro e he
      simp at he

end AsyncIo
