import DaeRs.Protocols.Vmess.Body

/-! Reading the body stream: what the bytes say when all of them are there, and what becomes of it
when they come in segments. -/

namespace DaeRs.Vmess

open AsyncIo Octets Protocols

/-- What stands at the beginning of the bytes. -/
inductive NextChunk where
  | short
  | closed
  | truncated
  | failed (e : IoError)
  | chunk (bytes : List UInt8) (d : Direction) (rest : List UInt8)

def chunkSize (d : Direction) (lengthBytes : List UInt8) : UInt16 :=
  UInt16.ofNat (ofBE lengthBytes) ^^^ d.drawMask.1

def ofOpened (rest : List UInt8) : Except IoError (List UInt8)×Direction → NextChunk
  | (.error e,_) => .failed e
  | (.ok bytes,d) => .chunk bytes d rest

def openBody (d : Direction) (size padding : Nat) (body : List UInt8) : NextChunk :=
  if body.length < size then .truncated
  else ofOpened (body.drop size) (openChunk d ((body.take size).take (size-padding)))

def nextChunk (d : Direction) (wire : List UInt8) : NextChunk :=
  if wire.length<2 then .short
  else if chunkSize d (wire.take 2)=0 then .closed
  else if (chunkSize d (wire.take 2)).toNat<d.drawMask.2.drawPadding.1 then
    .failed (.other "vmess: invalid chunk size")
  else
    openBody d.drawMask.2.drawPadding.2 (chunkSize d (wire.take 2)).toNat
      d.drawMask.2.drawPadding.1 (wire.drop 2)

/-- The bytes give out `out` and then end, without an error. A chunk without content looks like the
end of the stream. -/
inductive Decodes : Direction → List UInt8 → List UInt8 → Prop
  | short {d : Direction} {wire : List UInt8} (h : nextChunk d wire=.short) : Decodes d wire []
  | closed {d : Direction} {wire : List UInt8} (h : nextChunk d wire=.closed) : Decodes d wire []
  | truncated {d : Direction} {wire : List UInt8} (h : nextChunk d wire=.truncated) :
      Decodes d wire []
  | empty {d d' : Direction} {wire rest : List UInt8} (h : nextChunk d wire=.chunk [] d' rest) :
      Decodes d wire []
  | chunk {d d' : Direction} {wire rest bytes out : List UInt8}
      (h : nextChunk d wire=.chunk bytes d' rest) (hne : bytes≠[])
      (hrest : Decodes d' rest out) : Decodes d wire (bytes++out)

/-- The bytes end inside a chunk's payload. -/
inductive InPayload : Direction → List UInt8 → Prop
  | here {d : Direction} {bytes : List UInt8} (h : nextChunk d bytes=.truncated) :
      InPayload d bytes
  | later {d d' : Direction} {bytes chunk rest : List UInt8}
      (h : nextChunk d bytes=.chunk chunk d' rest) (hne : chunk≠[]) (hrest : InPayload d' rest) :
      InPayload d bytes

variable {d : Direction}

theorem ofOpened_eq_chunk {rest rest' bytes : List UInt8}
    {r : Except IoError (List UInt8)×Direction} (h : ofOpened rest r=.chunk bytes d rest') :
    r=(.ok bytes,d) ∧ rest'=rest := by
  obtain ⟨result,d'⟩ := r
  cases result with
  | error e => cases h
  | ok chunk =>
    cases h
    exact ⟨rfl,rfl⟩

theorem openBody_append {d d' : Direction} {size padding : Nat} {body bytes rest : List UInt8}
    (h : openBody d size padding body=.chunk bytes d' rest) :
    size≤body.length ∧ rest=body.drop size ∧
      ∀ more,openBody d size padding (body.take size++more)=.chunk bytes d' more := by
  unfold openBody at h
  split_ifs at h with hlen
  have hsize : (body.take size).length=size := by
    rw [List.length_take]
    omega
  obtain ⟨hopened,rfl⟩ := ofOpened_eq_chunk h
  refine ⟨by omega,rfl,fun more => ?_⟩
  have hlong : ¬(body.take size++more).length < size := by
    rw [List.length_append]
    omega
  have htake : (body.take size++more).take size=body.take size := List.take_left' hsize
  have hdrop : (body.take size++more).drop size=more := List.drop_left' hsize
  rw [openBody,if_neg hlong,htake,hdrop,hopened,ofOpened]

theorem nextChunk_append {d d' : Direction} {wire bytes rest : List UInt8}
    (h : nextChunk d wire=.chunk bytes d' rest) : ∃ consumed,wire=consumed++rest ∧
      ∀ more,nextChunk d (consumed++more)=.chunk bytes d' more := by
  unfold nextChunk at h
  split_ifs at h with hlen hzero hpad
  obtain ⟨hsize,rfl,hmore⟩ := openBody_append h
  have htwo : (wire.take 2).length=2 := by
    rw [List.length_take]
    omega
  refine ⟨wire.take 2++(wire.drop 2).take (chunkSize d (wire.take 2)).toNat,?_,?_⟩
  · rw [List.append_assoc,List.take_append_drop,List.take_append_drop]
  · intro more
    have hlong : ¬(wire.take 2++((wire.drop 2).take (chunkSize d (wire.take 2)).toNat ++
        more)).length<2 := by
      rw [List.length_append,htwo]
      omega
    rw [List.append_assoc,nextChunk,if_neg hlong,List.take_left' htwo,List.drop_left' htwo,
      if_neg hzero,if_neg hpad]
    exact hmore more

theorem decodes_of_chunk {d d' : Direction} {wire bytes rest out : List UInt8}
    (h : nextChunk d wire=.chunk bytes d' rest) (hout : Decodes d wire out) :
    (bytes=[] ∧ out=[]) ∨ (bytes≠[] ∧ ∃ out',out=bytes++out' ∧ Decodes d' rest out') := by
  cases hout with
  | short h' | closed h' | truncated h' => rw [h] at h'; cases h'
  | empty h' =>
    rw [h] at h'
    cases h'
    exact .inl ⟨rfl,rfl⟩
  | chunk h' hne hrest =>
    rw [h] at h'
    cases h'
    exact .inr ⟨hne,_,rfl,hrest⟩

theorem decodes_eq_nil {wire out : List UInt8} (hout : Decodes d wire out)
    (hnone : ∀ bytes d' rest,nextChunk d wire≠.chunk bytes d' rest) : out=[] := by
  cases hout with
  | chunk h hne hrest => exact absurd h (hnone _ _ _)
  | _ => rfl

theorem chunk_of_decodes {wire out : List UInt8} (hout : Decodes d wire out) (hne : out≠[]) :
    ∃ bytes d' rest,nextChunk d wire=.chunk bytes d' rest ∧ bytes <+: out := by
  cases hout with
  | chunk h hbytes hrest => exact ⟨_,_,_,h,List.prefix_append _ _⟩
  | _ => exact absurd rfl hne

theorem not_decodes_of_failed {wire out : List UInt8} {e : IoError}
    (h : nextChunk d wire=.failed e) : ¬Decodes d wire out := by
  intro hout
  cases hout with
  | short h' | closed h' | truncated h' | empty h' | chunk h' hne hrest =>
    rw [h] at h'
    cases h'

namespace VmessBodyStream

open List

def wire (x : Reading) : List UInt8 := x.1.readBuf++bytesOf x.2

/-- How a poll that reads a chunk ends. -/
inductive ChunkRead (x : Reading) (room : Nat) : Poll IoError (List UInt8)×Reading → Prop
  | waits (buf' : List UInt8) (reads' : List (Incoming IoError)) (hreads : Segments reads')
      (hbytes : buf'++bytesOf reads'=wire x) (hwait : pendings reads'<pendings x.2)
      (hat : ∀ P,PendingAt P x.1.readBuf x.2 → PendingAt P buf' reads') :
      ChunkRead x room (.pending,{ x.1 with readBuf := buf' },reads')
  /-- The length is gone from the buffer, and the chunk is not there. -/
  | lost (y : Reading) (seen : List UInt8) (h : nextChunk x.1.dec seen=.truncated)
      (hat : ∀ P,PendingAt P x.1.readBuf x.2 → P seen) : ChunkRead x room (.pending,y)
  | ended (y : Reading) (h : Decodes x.1.dec (wire x) []) (hnone : ∀ bytes d rest,
      nextChunk x.1.dec (wire x)≠.chunk bytes d rest) : ChunkRead x room (.ok [],y)
  | failed (y : Reading) (e : IoError) (h : nextChunk x.1.dec (wire x)=.failed e) :
      ChunkRead x room (.err e,y)
  | chunk (bytes : List UInt8) (d : Direction) (buf' : List UInt8)
      (reads' : List (Incoming IoError)) (hreads : Segments reads')
      (h : nextChunk x.1.dec (wire x)=.chunk bytes d (buf'++bytesOf reads'))
      (hwait : pendings reads'≤pendings x.2)
      (hat : ∀ P consumed,wire x=consumed++(buf'++bytesOf reads') →
        PendingAt P x.1.readBuf x.2 → PendingAt P (consumed++buf') reads') :
      ChunkRead x room (.ok (x.1.decoded.handOut bytes room).1,
        { x.1 with readBuf := buf',dec := d,decoded := (x.1.decoded.handOut bytes room).2 },
        reads')

theorem readChunk_cases (y : Reading) (size padding room : Nat) (hreads : Segments y.2) :
    (∃ z seen,readChunk y size padding room=(.pending,z) ∧ seen.length < size ∧
      ∀ P,PendingAt P y.1.readBuf y.2 → P seen) ∨
    (∃ z,readChunk y size padding room=(.ok [],z) ∧ (wire y).length < size) ∨
    (∃ z e,readChunk y size padding room=(.err e,z) ∧
      openBody y.1.dec size padding (wire y)=.failed e) ∨
    (∃ bytes d buf' reads',readChunk y size padding room =
        (.ok (y.1.decoded.handOut bytes room).1,{ y.1 with
          readBuf := buf',dec := d,decoded := (y.1.decoded.handOut bytes room).2 },reads') ∧
      openBody y.1.dec size padding (wire y)=.chunk bytes d (buf'++bytesOf reads') ∧
      size≤(wire y).length ∧ Segments reads' ∧ pendings reads'≤pendings y.2 ∧
      ∀ P,PendingAt P y.1.readBuf y.2 → PendingAt P ((wire y).take size++buf') reads') := by
  obtain ⟨hfilled,hsegments⟩ := fill_filled size y.1.readBuf hreads
  have hat := fun P => fill_pendingAt P size y.1.readBuf y.2
  unfold readChunk pollFillFrame
  dsimp only
  generalize fill size y.1.readBuf y.2=r at hfilled hsegments hat
  cases hfilled with
  | pending buf' reads' hshort hbytes hwait =>
    exact .inl ⟨_,buf',rfl,hshort,fun P hP => (hat P hP).2 rfl⟩
  | ended hshort =>
    simp only [if_pos hshort]
    exact .inr (.inl ⟨_,rfl,hshort⟩)
  | enough buf' reads' hneed hbytes hwait =>
    have htake : (wire y).take size=buf'.take size := by
      rw [wire,← hbytes,take_append_of_le_length hneed]
    have hdrop : (wire y).drop size=buf'.drop size++bytesOf reads' := by
      rw [wire,← hbytes,drop_append_of_le_length hneed]
    have hlen : size≤(wire y).length := by
      rw [wire,← hbytes,length_append]
      omega
    have hopen : openBody y.1.dec size padding (wire y)=ofOpened (buf'.drop size++bytesOf reads')
        (openChunk y.1.dec ((buf'.take size).take (size-padding))) := by
      rw [openBody,if_neg (Nat.not_lt.mpr hlen),htake,hdrop]
    simp only [if_neg (Nat.not_lt.mpr hneed)]
    generalize openChunk y.1.dec ((buf'.take size).take (size-padding))=opened at hopen
    obtain ⟨result,d⟩ := opened
    cases result with
    | error e => exact .inr (.inr (.inl ⟨_,e,rfl,hopen⟩))
    | ok bytes =>
      refine .inr (.inr (.inr ⟨bytes,d,buf'.drop size,reads',rfl,hopen,hlen,hsegments,
        hwait,fun P hP => ?_⟩))
      rw [htake,take_append_drop]
      exact (hat P hP).1

def behindLength (s : VmessBodyStream) (buf : List UInt8) : VmessBodyStream :=
  { s with readBuf := buf.drop 2,dec := s.dec.drawMask.2.drawPadding.2 }

theorem pollRead_chunkRead {x : Reading} (room : Nat) (hleft : ¬x.1.decoded.Unread)
    (heof : x.1.eof=false) (hreads : Segments x.2) : ChunkRead x room (pollRead x room) := by
  obtain ⟨hfilled,hsegments⟩ := fill_filled 2 x.1.readBuf hreads
  have hat := fun P => fill_pendingAt P 2 x.1.readBuf x.2
  rw [pollRead,if_neg hleft,if_neg (by rw [heof]; decide)]
  unfold pollFillFrame
  generalize fill 2 x.1.readBuf x.2=r at hfilled hsegments hat
  cases hfilled with
  | pending buf' reads' hshort hbytes hwait =>
    exact .waits buf' reads' hsegments hbytes hwait fun P hP => (hat P hP).1
  | ended hshort =>
    have hnext : nextChunk x.1.dec (wire x)=.short := if_pos hshort
    simp only [if_pos hshort]
    exact .ended _ (.short hnext) (by rw [hnext]; simp)
  | enough buf reads' hneed hbytes hwait =>
    have htwo : (buf.take 2).length=2 := by
      rw [length_take]
      omega
    -- the length, and what stands behind it
    have hwire : wire x=buf.take 2++(buf.drop 2++bytesOf reads') := by
      rw [← append_assoc,take_append_drop]
      exact hbytes.symm
    have hbehind (b : List UInt8) : nextChunk x.1.dec (buf.take 2++b) =
        if chunkSize x.1.dec (buf.take 2)=0 then .closed
        else if (chunkSize x.1.dec (buf.take 2)).toNat<x.1.dec.drawMask.2.drawPadding.1 then
          .failed (.other "vmess: invalid chunk size")
        else openBody x.1.dec.drawMask.2.drawPadding.2 (chunkSize x.1.dec (buf.take 2)).toNat
          x.1.dec.drawMask.2.drawPadding.1 b := by
      have hlong : ¬(buf.take 2++b).length<2 := by
        rw [length_append]
        omega
      rw [nextChunk,if_neg hlong,take_left' htwo,drop_left' htwo]
    simp only [if_neg (Nat.not_lt.mpr hneed)]
    change ChunkRead x room (if chunkSize x.1.dec (buf.take 2)=0 then _ else
      if (chunkSize x.1.dec (buf.take 2)).toNat<x.1.dec.drawMask.2.drawPadding.1 then _ else _)
    split_ifs with hzero hpad
    · have hnext : nextChunk x.1.dec (wire x)=.closed := by
        rw [hwire,hbehind,if_pos hzero]
      exact .ended _ (.closed hnext) (by rw [hnext]; simp)
    · refine .failed _ _ ?_
      rw [hwire,hbehind,if_neg hzero,if_pos hpad]
    · simp only [if_neg hzero,if_neg hpad] at hbehind
      have hmore (P : List UInt8 → Prop) (hP : PendingAt P x.1.readBuf x.2) :
          PendingAt (fun bytes => P (buf.take 2++bytes)) (buf.drop 2) reads' := by
        have hbuf := (hat P hP).1
        rw [← take_append_drop 2 buf] at hbuf
        exact pendingAt_append_iff.mp hbuf
      change ChunkRead x room (readChunk (behindLength x.1 buf,reads')
        (chunkSize x.1.dec (buf.take 2)).toNat x.1.dec.drawMask.2.drawPadding.1 room)
      rcases readChunk_cases (behindLength x.1 buf,reads')
          (chunkSize x.1.dec (buf.take 2)).toNat x.1.dec.drawMask.2.drawPadding.1 room hsegments
        with ⟨z,seen,hread,hshort,hseen⟩ | ⟨z,hread,hshort⟩ | ⟨z,e,hread,hopen⟩ |
          ⟨bytes,d,buf',reads'',hread,hopen,hlen,hsegments',hwait',hat'⟩
      · rw [hread]
        refine .lost z (buf.take 2++seen) ?_ fun P hP => hseen _ (hmore P hP)
        rw [hbehind,openBody,if_pos hshort]
      · rw [hread]
        have hnext : nextChunk x.1.dec (wire x)=.truncated := by
          rw [hwire,hbehind,openBody]
          exact if_pos hshort
        exact .ended z (.truncated hnext) (by rw [hnext]; simp)
      · rw [hread]
        refine .failed z e ?_
        rw [hwire,hbehind]
        exact hopen
      · rw [hread]
        refine .chunk bytes d buf' reads'' hsegments' ?_ (Nat.le_trans hwait' hwait) ?_
        · rw [hwire,hbehind]
          exact hopen
        · intro P consumed hconsumed hP
          obtain ⟨-,hrest,-⟩ := openBody_append hopen
          have hsplit : wire x=(buf.take 2++(wire (behindLength x.1 buf,reads')).take
              (chunkSize x.1.dec (buf.take 2)).toNat)++(buf'++bytesOf reads'') := by
            rw [hrest,append_assoc,take_append_drop]
            exact hwire
          rw [append_cancel_right (hconsumed.symm.trans hsplit),append_assoc]
          exact pendingAt_append_iff.mpr (hat' _ (hmore P hP))

/-- What the reads give out: the rest of a chunk, and what the bytes behind it decode to. -/
def GoesOn (x : Reading) (out : List UInt8) : Prop := ∃ out',out=x.1.decoded.leftover++out' ∧
    ((x.1.eof=true ∧ out'=[]) ∨ (x.1.eof=false ∧ Decodes x.1.dec (wire x) out'))

/-- `out` is to come, at most `n` reads of the transport are pending, and none of them within a
chunk. -/
def Expects (x : Reading) (out : List UInt8) (n : Nat) : Prop :=
  Segments x.2 ∧ pendings x.2≤n ∧ GoesOn x out ∧
    (x.1.eof=false → PendingAt (fun bytes => ¬InPayload x.1.dec bytes) x.1.readBuf x.2)

theorem pollRead_of_unread {x : Reading} (h : x.1.decoded.Unread) (room : Nat) :
    pollRead x room=(.ok (x.1.decoded.consume room).1,
      { x.1 with decoded := (x.1.decoded.consume room).2 },x.2) := by
  rw [pollRead,if_pos h]

theorem pollRead_of_eof {x : Reading} (hleft : ¬x.1.decoded.Unread) (h : x.1.eof=true)
    (room : Nat) : pollRead x room=(.ok [],x) := by
  rw [pollRead,if_neg hleft,if_pos h]

theorem pollRead_gives (x : Reading) (out : List UInt8) (n room : Nat) (hx : Expects x out n)
    (hroom : 0 < room) : Gives Expects out n (pollRead x room) := by
  obtain ⟨hreads,hn,⟨out',rfl,hgoes⟩,hat⟩ := hx
  by_cases hleft : x.1.decoded.Unread
  · rw [pollRead_of_unread hleft]
    refine .portion _ _ ((x.1.decoded.consume room).2.leftover++out')
      (Decoded.consume_ne_nil hleft hroom) ?_ ⟨hreads,hn,⟨out',rfl,hgoes⟩,hat⟩
    rw [← append_assoc,Decoded.consume_leftover]
  · have hnil : x.1.decoded.leftover=[] := Decoded.leftover_of_not_unread hleft
    rw [hnil,nil_append]
    rcases hgoes with ⟨heof,rfl⟩ | ⟨heof,hdecodes⟩
    · rw [pollRead_of_eof hleft heof]
      exact .ended x rfl
    · have hread := pollRead_chunkRead room hleft heof hreads
      generalize pollRead x room=r at hread
      cases hread with
      | waits buf' reads' hreads' hbytes hwait hat' =>
        refine .pending _ (pendings reads') ⟨hreads',Nat.le_refl _,⟨out',?_,?_⟩,?_⟩
          (Nat.lt_of_lt_of_le hwait hn)
        · exact (congrArg (·++out') hnil).symm
        · refine .inr ⟨heof,?_⟩
          change Decodes x.1.dec (buf'++bytesOf reads') out'
          rw [hbytes]
          exact hdecodes
        · exact fun _ => hat' _ (hat heof)
      | lost y seen h hat' => exact absurd (.here h) (hat' _ (hat heof))
      | ended y h hnone => exact .ended y (decodes_eq_nil hdecodes hnone)
      | failed y e h => exact absurd hdecodes (not_decodes_of_failed h)
      | chunk bytes d buf' reads' hreads' h hwait hat' =>
        rcases decodes_of_chunk h hdecodes with ⟨rfl,rfl⟩ | ⟨hne,out'',rfl,hrest⟩
        · exact .ended _ rfl
        · refine .portion _ _ ((x.1.decoded.handOut bytes room).2.leftover++out'')
            (Decoded.handOut_ne_nil _ hne hroom) ?_
            ⟨hreads',Nat.le_trans hwait hn,⟨out'',rfl,.inr ⟨heof,hrest⟩⟩,fun _ => ?_⟩
          · rw [← append_assoc,Decoded.handOut_leftover hnil]
          · obtain ⟨consumed,hconsumed,hmore⟩ := nextChunk_append h
            have hbuf := hat' _ consumed hconsumed (hat heof)
            rw [pendingAt_append_iff] at hbuf
            exact hbuf.mono fun b hb hin => hb (.later (hmore b) hne hin)

theorem goesOn_of_reads {x : Reading} (hreads : Segments x.2) (hnow : pendings x.2=0)
    {rooms : List Nat} (hrooms : ∀ room∈rooms,0 < room)
    (hend : .ok []∈reads pollRead x rooms) (hok : ∀ e,.err e∉reads pollRead x rooms) :
    GoesOn x (delivered (reads pollRead x rooms)) := by
  induction rooms generalizing x with
  | nil => exact absurd hend not_mem_nil
  | cons room rooms ih =>
    have hroom : 0 < room := hrooms room mem_cons_self
    have hrest : ∀ room∈rooms,0 < room := fun r hr => hrooms r (mem_cons_of_mem room hr)
    -- a poll that gives a portion leaves the rest to the others
    have hportion {bytes : List UInt8} {y : Reading} (hpoll : pollRead x room=(.ok bytes,y))
        (hne : bytes≠[]) (hreads' : Segments y.2) (hnow' : pendings y.2=0) :
        reads pollRead x (room::rooms)=.ok bytes::reads pollRead y rooms ∧
          GoesOn y (delivered (reads pollRead y rooms)) := by
      have hcons : reads pollRead x (room::rooms)=.ok bytes::reads pollRead y rooms :=
        reads_cons hpoll (by simpa using hne)
      rw [hcons] at hend hok
      refine ⟨hcons,ih hreads' hnow' hrest ?_ ?_⟩
      · simpa [Ne.symm hne] using hend
      · intro e he
        exact hok e (mem_cons_of_mem _ he)
    by_cases hleft : x.1.decoded.Unread
    · obtain ⟨hcons,out',heq,hgoes⟩ := hportion (pollRead_of_unread hleft room)
        (Decoded.consume_ne_nil hleft hroom) hreads hnow
      refine ⟨out',?_,hgoes⟩
      rw [hcons,delivered,heq,← append_assoc]
      exact congrArg (·++out') (Decoded.consume_leftover x.1.decoded room)
    · have hnil : x.1.decoded.leftover=[] := Decoded.leftover_of_not_unread hleft
      cases heof : x.1.eof with
      | true =>
        rw [reads_cons_end (pollRead_of_eof hleft heof room)]
        exact ⟨[],by rw [hnil]; rfl,.inl ⟨heof,rfl⟩⟩
      | false =>
        have hread := pollRead_chunkRead room hleft heof hreads
        generalize hr : pollRead x room=r at hread
        cases hread with
        | waits buf' reads' hreads' hbytes hwait hat' =>
          rw [hnow] at hwait
          exact absurd hwait (Nat.not_lt_zero _)
        | lost y seen h hat' =>
          exact (hat' (fun _ => False) (pendingAt_of_pendings_eq_zero _ hnow _)).elim
        | ended y h hnone =>
          rw [reads_cons_end hr]
          exact ⟨[],by rw [hnil]; rfl,.inr ⟨heof,h⟩⟩
        | failed y e h =>
          refine absurd ?_ (hok e)
          rw [reads_cons hr (by simp)]
          exact mem_cons_self
        | chunk bytes d buf' reads' hreads' h hwait hat' =>
          by_cases hne : bytes=[]
          · subst hne
            rw [reads_cons_end hr]
            exact ⟨[],by rw [hnil]; rfl,.inr ⟨heof,.empty h⟩⟩
          · obtain ⟨hcons,out',heq,hgoes⟩ := hportion hr
              (Decoded.handOut_ne_nil _ hne hroom) hreads' (Nat.le_zero.mp (hnow ▸ hwait))
            rcases hgoes with ⟨heof',-⟩ | ⟨-,hdecodes⟩
            · rw [heof] at heof'
              cases heof'
            · refine ⟨bytes++out',?_,.inr ⟨heof,.chunk h hne hdecodes⟩⟩
              rw [hcons,delivered,heq,← append_assoc,hnil,nil_append]
              exact congrArg (·++out') (Decoded.handOut_leftover hnil bytes room)

theorem decodes_of_reads_whole {packetMode : Bool} {enc dec : Direction} {bytes : List UInt8}
    {rooms : List Nat} (hrooms : ∀ room∈rooms,0 < room)
    (hend : .ok []∈reads pollRead (.new packetMode enc dec,whole bytes) rooms)
    (hok : ∀ e,.err e∉reads pollRead (.new packetMode enc dec,whole bytes) rooms) :
    Decodes dec bytes
      (delivered (reads pollRead (.new packetMode enc dec,whole bytes) rooms)) := by
  obtain ⟨out,heq,hgoes⟩ := goesOn_of_reads (x := (.new packetMode enc dec,whole bytes))
    (whole_segments bytes) (pendings_whole bytes) hrooms hend hok
  rcases hgoes with ⟨heof,-⟩ | ⟨-,hdecodes⟩
  · cases heof
  · change Decodes dec ([]++bytesOf (whole bytes : List (Incoming IoError))) out at hdecodes
    rw [bytesOf_whole] at hdecodes
    rw [heq]
    exact hdecodes

theorem givesOut_of_decodes (packetMode : Bool) (enc : Direction) {dec : Direction}
    {out : List UInt8} {segments : List (Incoming IoError)} (hsegments : Segments segments)
    (hdecodes : Decodes dec (bytesOf segments) out)
    (hpending : PendingAt (fun seen => ¬InPayload dec seen) [] segments) {rooms : List Nat}
    (hrooms : ∀ room∈rooms,0 < room) :
    GivesOut out (pendings segments) rooms.length
      (reads pollRead (.new packetMode enc dec,segments) rooms) := by
  have hgoes : GoesOn (.new packetMode enc dec,segments) out := ⟨out,rfl,.inr ⟨rfl,hdecodes⟩⟩
  have hexpects : Expects (.new packetMode enc dec,segments) out (pendings segments) :=
    ⟨hsegments,Nat.le_refl _,hgoes,fun _ => hpending⟩
  exact reads_givesOut pollRead_gives hexpects hrooms

end VmessBodyStream

theorem not_inPayload_of_short {bytes : List UInt8} (h : bytes.length<2) : ¬InPayload d bytes := by
  have hshort : nextChunk d bytes=.short := if_pos h
  intro hin
  cases hin with
  | here h' | later h' hne hrest =>
    rw [hshort] at h'
    cases h'

open VmessBodyStream in
/-- A stream that is read without an error when all of it is there is read the same however the
transport cuts it, and whatever room the reader has, if the transport is pending only where the next
length is not whole. -/
theorem segmented_reads_agree (packetMode : Bool) (enc dec : Direction) (bytes : List UInt8)
    (rooms₀ : List Nat) (hrooms₀ : ∀ room∈rooms₀,0 < room)
    (hend : .ok []∈reads pollRead (.new packetMode enc dec,whole bytes) rooms₀)
    (hok : ∀ e,.err e∉reads pollRead (.new packetMode enc dec,whole bytes) rooms₀)
    (segments : List (Incoming IoError)) (hsegments : Segments segments)
    (hbytes : bytesOf segments=bytes)
    (hpending : PendingAt (fun seen => ¬InPayload dec seen) [] segments) (rooms : List Nat)
    (hrooms : ∀ room∈rooms,0 < room) :
    GivesOut (delivered (reads pollRead (.new packetMode enc dec,whole bytes) rooms₀))
      (pendings segments) rooms.length
      (reads pollRead (.new packetMode enc dec,segments) rooms) := by
  have hdecodes := decodes_of_reads_whole hrooms₀ hend hok
  rw [← hbytes] at hdecodes ⊢
  exact givesOut_of_decodes packetMode enc hsegments hdecodes hpending hrooms

/-- A cipher that masks with a constant and the nonce's counter; the tag repeats the mask. -/
def maskingCipher : VmessCipher where
  encrypt nonce plain :=
    (plain.map (· ^^^ (0x5A ^^^ nonce.getD 1 0)),List.replicate aeadTag (nonce.getD 1 0))
  decrypt nonce buf tag :=
    if tag=List.replicate aeadTag (nonce.getD 1 0) then
      some (buf.map (· ^^^ (0x5A ^^^ nonce.getD 1 0)))
    else none
  encrypt_length nonce plain := List.length_map _
  tag_length nonce plain := List.length_replicate ..
  decrypt_encrypt nonce plain := by
    rw [if_pos rfl,map_xor_map_xor]

def plainDirection : Direction :=
  .new .none (fun _ i => UInt8.ofNat (3*i+5)) (List.replicate 16 0) maskingCipher

open VmessBodyStream in
theorem reads_plain_whole :
    reads pollRead (.new false plainDirection plainDirection,whole [5,12,1,2,3,4]) [8,8] =
      [.ok [1,2,3,4],.ok []] := by
  decide

open VmessBodyStream in
theorem segmented_reads_agree_length : GivesOut [1,2,3,4] 1 4
      (reads pollRead (.new false plainDirection plainDirection,
        [.data [5],.pending,.data [12,1],.data [2,3,4]]) [1,2,4,8]) :=
  segmented_reads_agree false plainDirection plainDirection [5,12,1,2,3,4] [8,8] (by decide)
    (by decide) (fun e => by rw [reads_plain_whole]; simp) [.data [5],.pending,.data [12,1],.data [2,3,4]]
    ((((segments_nil.data (by decide)).data (by decide)).pending).data (by decide)) rfl
    ⟨not_inPayload_of_short (by decide),trivial⟩ [1,2,4,8] (by decide)

open VmessBodyStream in
/-- A chunk that is there at once is given out; when the transport is pending within it, nothing is,
and the stream ends. -/
theorem pending_chunk_lost :
    reads pollRead (.new false plainDirection plainDirection,whole [5,12,1,2,3,4]) [8,8] =
        [.ok [1,2,3,4],.ok []] ∧
      bytesOf ([.data [5,12,1,2],.pending,.data [3,4]] : List (Incoming IoError)) =[5,12,1,2,3,4] ∧
      reads pollRead (.new false plainDirection plainDirection,
        [.data [5,12,1,2],.pending,.data [3,4]]) [8,8,8]=[.pending,.ok []] :=
  ⟨reads_plain_whole,rfl,by decide⟩

end DaeRs.Vmess
