import DaeRs.Lib.FairMutex
import DaeRs.Lib.Octets
import DaeRs.Lib.Runs
import DaeRs.Net.Addr

/-! A VMess UDP session: one flow reader that loops on `recv`, and any number of senders. -/

namespace DaeRs.Vmess

open Octets Runs Net List

abbrev SocketAddr := IpAddr×UInt16

inductive UdpError where
  | protocol (text : String)
  | other (text : String)
  | io
  deriving DecidableEq

def encodePacketAddr (dest : SocketAddr) : List UInt8 := (match dest.1 with
    | .v4 ip => 0x01::toBE 4 ip.toNat
    | .v6 ip => 0x03::toBE 16 ip.toNat)++toBE 2 dest.2.toNat

def decodePacketAddr (data : List UInt8) : Except UdpError (SocketAddr×Nat) :=
  match data with
  | [] => .error (.protocol "empty address")
  | 0x01::_ =>
    if data.length<7 then .error (.protocol "short ipv4")
    else .ok ((.v4 (BitVec.ofNat 32 (ofBE (slice data 1 4))),
      UInt16.ofNat (ofBE (slice data 5 2))),7)
  | 0x03::_ =>
    if data.length<19 then .error (.protocol "short ipv6")
    else .ok ((.v6 (BitVec.ofNat 128 (ofBE (slice data 1 16))),
      UInt16.ofNat (ofBE (slice data 17 2))),19)
  | 0x02::rest =>
    match rest with
    | [] => .error (.protocol "short domain")
    | len::_ =>
      if data.length<2+len.toNat+2 then .error (.protocol "short domain")
      else .ok ((.v4 0,UInt16.ofNat (ofBE (slice data (2+len.toNat) 2))),2+len.toNat+2)
  | other::_ => .error (.protocol ("unknown address type: " ++ toString other))

def sendPacket (dest : SocketAddr) (payload : List UInt8) : List UInt8 :=
  encodePacketAddr dest++toBE 2 payload.length++payload

def recvPacket (buf : List UInt8) : Except UdpError (SocketAddr×List UInt8) := do
  let (dest,consumed) ← decodePacketAddr buf
  if buf.length < consumed+2 then .error (.other "vmess udp: short packet")
  else
    let pktLen := ofBE (slice buf consumed 2)
    if buf.length < consumed+2+pktLen then .error (.other "vmess udp: truncated payload")
    else .ok (dest,slice buf (consumed+2) pktLen)

inductive Task where
  | reader
  | sender (i : Nat)
  deriving DecidableEq

/-- Stream and buffer behind their locks. -/
structure VMessUdpSession where
  stream : FairMutex Task
  recvBuf : FairMutex Task
  incoming : List (List UInt8)
  closed : Bool
  packets : Nat → List UInt8
  outgoing : List (List UInt8)
  received : List (SocketAddr×List UInt8)
  exited : Bool

inductive UdpEvent where
  | recv
  | lockStream
  | arrive (chunk : List UInt8)
  | peerCloses
  | read
  | readFails
  | idleTimeout
  | send (i : Nat) (dest : SocketAddr) (payload : List UInt8)
  | written (i : Nat)
  | writeFails (i : Nat)
  | writeTimeout (i : Nat)

namespace VMessUdpSession

def new : VMessUdpSession := ⟨.free,.free,[],false,fun _ => [],[],[],false⟩

/-- `recv` returns: the two guards are dropped, and an error ends the flow reader. -/
def returnRecv (s : VMessUdpSession) (r : Except UdpError (SocketAddr×List UInt8)) :
    VMessUdpSession :=
  let s := { s with stream := s.stream.release,recvBuf := s.recvBuf.release }
  match r with
  | .ok pkt => { s with received := s.received++[pkt] }
  | .error _ => { s with exited := true }

/-- `stream.read` in `recv`: without a chunk it waits, unless the peer has closed the stream. -/
def readNext (s : VMessUdpSession) : VMessUdpSession :=
  match s.incoming with
  | chunk::rest => { s.returnRecv (recvPacket chunk) with incoming := rest }
  | [] => if s.closed then s.returnRecv (recvPacket []) else s

def step (s : VMessUdpSession) : UdpEvent → VMessUdpSession
  | .recv => if s.exited then s else { s with recvBuf := s.recvBuf.request .reader }
  | .lockStream =>
    if s.recvBuf.holder=some .reader then { s with stream := s.stream.request .reader } else s
  | .arrive chunk => if s.closed then s else { s with incoming := s.incoming++[chunk] }
  | .peerCloses => { s with closed := true }
  | .read => if s.stream.holder=some .reader then s.readNext else s
  | .readFails => if s.stream.holder=some .reader then s.returnRecv (.error .io) else s
  | .idleTimeout =>
    { s with
      stream := s.stream.cancel .reader
      recvBuf := s.recvBuf.cancel .reader
      exited := true }
  | .send i dest payload =>
    if .sender i∈s.stream.users then s
    else { s with
      stream := s.stream.request (.sender i)
      packets := Function.update s.packets i (sendPacket dest payload) }
  | .written i =>
    if s.stream.holder=some (.sender i) then
      { s with stream := s.stream.release,outgoing := s.outgoing++[s.packets i] }
    else s
  | .writeFails i =>
    if s.stream.holder=some (.sender i) then { s with stream := s.stream.release } else s
  | .writeTimeout i => { s with stream := s.stream.cancel (.sender i) }

def Readable (s : VMessUdpSession) : Prop := s.incoming≠[] ∨ s.closed=true

instance (s : VMessUdpSession) : Decidable s.Readable := inferInstanceAs (Decidable (_ ∨ _))

def ReaderWaits (s : VMessUdpSession) : Prop := s.stream.holder=some .reader ∧ ¬s.Readable

/-- A sender waits for the lock of a holder who waits for the peer. -/
def Blocked (s : VMessUdpSession) : Prop := s.ReaderWaits ∧ ∃ i,.sender i∈s.stream.waiters

/-- Behind the holder comes the reader, and a sender behind it. -/
def ReaderNext (s : VMessUdpSession) : Prop :=
  s.stream.waiters.head?=some .reader ∧ ∃ i,.sender i∈s.stream.waiters.tail

/-- A sender does not ask for the stream while the reader waits in it, and does not leave it to a
reader who would wait with other senders behind. -/
def Decoupled (s : VMessUdpSession) : UdpEvent → Prop
  | .send _ _ _ => ¬s.ReaderWaits
  | .written i | .writeFails i | .writeTimeout i =>
    s.stream.holder=some (.sender i) → s.ReaderNext → s.Readable
  | _ => True

variable {s : VMessUdpSession} {s' : VMessUdpSession}

theorem not_blocked_of_release (hheld : s.stream.holder=some .reader)
    (hstream : s'.stream=s.stream.release) : ¬s'.Blocked := by
  intro h
  have hholder := h.1.1
  rw [hstream,FairMutex.release_holder] at hholder
  exact FairMutex.holder_not_mem_waiters hheld (mem_of_mem_head? hholder)

theorem blocked_release_iff (hstream : s'.stream=s.stream.release)
    (hreadable : s'.Readable ↔ s.Readable) : ¬s'.Blocked ↔ (s.ReaderNext → s.Readable) := by
  unfold Blocked ReaderWaits ReaderNext
  rw [hreadable,hstream,FairMutex.release_holder,FairMutex.release_waiters]
  tauto

theorem not_blocked_send (h : ¬s.Blocked) (i : Nat) (dest : SocketAddr) (payload : List UInt8) :
    ¬(s.step (.send i dest payload)).Blocked ↔ ¬s.ReaderWaits := by
  by_cases hmem : Task.sender i∈s.stream.users
  · have hstep : s.step (.send i dest payload)=s := if_pos hmem
    rw [hstep]
    refine iff_of_true h fun hwaits => ?_
    -- the sender would be one of those who wait behind the reader
    refine h ⟨hwaits,i,?_⟩
    have hheld := hwaits.1
    revert hheld hmem
    obtain ⟨⟨users,hnodup⟩,_⟩ := s
    intro hmem hheld
    cases users with
    | nil => cases hheld
    | cons u us =>
      cases hheld
      rcases mem_cons.mp hmem with hcase | hcase
      · cases hcase
      · exact hcase
  · have hstream : (s.step (.send i dest payload)).stream=s.stream.request (.sender i) := by
      rw [step,if_neg hmem]
    have hreadable : (s.step (.send i dest payload)).Readable ↔ s.Readable := by
      rw [step,if_neg hmem]
      rfl
    refine not_congr ⟨fun hblocked => ?_,fun hwaits => ?_⟩
    · obtain ⟨⟨hholder,hnot⟩,-⟩ := hblocked
      rw [hstream] at hholder
      rw [hreadable] at hnot
      refine ⟨?_,hnot⟩
      cases hold : s.stream.holder with
      | none =>
        rw [(FairMutex.request_free hold _).1] at hholder
        cases hholder
      | some u =>
        rw [(FairMutex.request_held hold _).1] at hholder
        exact hholder
    · obtain ⟨hholder,hnot⟩ := hwaits
      obtain ⟨hheld,hwaiters⟩ := FairMutex.request_held hholder (.sender i)
      refine ⟨⟨?_,?_⟩,i,?_⟩
      · rw [hstream,hheld]
      · rw [hreadable]
        exact hnot
      · rw [hstream,hwaiters]
        exact Or.inr ⟨rfl,hmem⟩

theorem not_blocked_leave {i : Nat}
    (hheld : s.stream.holder=some (.sender i)) (hstream : s'.stream=s.stream.release)
    (hreadable : s'.Readable ↔ s.Readable) :
    ¬s'.Blocked ↔ (s.stream.holder=some (.sender i) → s.ReaderNext → s.Readable) := by
  rw [blocked_release_iff hstream hreadable]
  exact ⟨fun h _ => h,fun h => h hheld⟩

theorem not_blocked_leave_iff {r : VMessUdpSession} (h : ¬s.Blocked) (i : Nat)
    (hstream : r.stream=s.stream.release) (hreadable : r.Readable ↔ s.Readable) :
    ¬(if s.stream.holder=some (.sender i) then r else s).Blocked ↔
      (s.stream.holder=some (.sender i) → s.ReaderNext → s.Readable) := by
  by_cases hheld : s.stream.holder=some (.sender i)
  · rw [if_pos hheld]
    exact not_blocked_leave hheld hstream hreadable
  · rw [if_neg hheld]
    exact iff_of_true h fun hheld' => absurd hheld' hheld

theorem returnRecv_stream (s : VMessUdpSession) (r : Except UdpError (SocketAddr×List UInt8)) :
    (s.returnRecv r).stream=s.stream.release := by
  cases r with
  | ok pkt => rfl
  | error e => rfl

theorem not_blocked_lockStream (h : ¬s.Blocked) : ¬(s.step .lockStream).Blocked := by
  by_cases hbuf : s.recvBuf.holder=some .reader
  · have hstep : s.step .lockStream={ s with stream := s.stream.request .reader } := if_pos hbuf
    rw [hstep]
    intro hblocked
    obtain ⟨⟨hholder,hnot⟩,i,hi⟩ := hblocked
    cases hold : s.stream.holder with
    | none =>
      have hnil : (s.stream.request .reader).waiters=[] := (FairMutex.request_free hold _).2
      have hi' : Task.sender i∈(s.stream.request .reader).waiters := hi
      rw [hnil] at hi'
      exact not_mem_nil hi'
    | some u =>
      obtain ⟨hheld,hwaiters⟩ := FairMutex.request_held hold .reader
      have hreader : s.stream.holder=some .reader := hold.trans (hheld.symm.trans hholder)
      rcases (hwaiters _).mp hi with hi | ⟨hcase,-⟩
      · exact h ⟨⟨hreader,hnot⟩,i,hi⟩
      · cases hcase
  · have hstep : s.step .lockStream=s := if_neg hbuf
    rw [hstep]
    exact h

theorem not_blocked_arrive (h : ¬s.Blocked) (chunk : List UInt8) :
    ¬(s.step (.arrive chunk)).Blocked := by
  by_cases hclosed : s.closed=true
  · have hstep : s.step (.arrive chunk)=s := if_pos hclosed
    rw [hstep]
    exact h
  · have hstep : s.step (.arrive chunk)={ s with incoming := s.incoming++[chunk] } := if_neg hclosed
    rw [hstep]
    exact fun hblocked => hblocked.1.2 (Or.inl (append_ne_nil_of_right_ne_nil _ (by simp)))

theorem not_blocked_read (h : ¬s.Blocked) : ¬(s.step .read).Blocked := by
  by_cases hheld : s.stream.holder=some .reader
  · have hstep : s.step .read=s.readNext := if_pos hheld
    rw [hstep]
    unfold readNext
    split
    · exact not_blocked_of_release hheld (returnRecv_stream _ _)
    · split_ifs with hclosed
      · exact not_blocked_of_release hheld (returnRecv_stream _ _)
      · exact h
  · have hstep : s.step .read=s := if_neg hheld
    rw [hstep]
    exact h

theorem not_blocked_readFails (h : ¬s.Blocked) : ¬(s.step .readFails).Blocked := by
  by_cases hheld : s.stream.holder=some .reader
  · have hstep : s.step .readFails=s.returnRecv (.error .io) := if_pos hheld
    rw [hstep]
    exact not_blocked_of_release hheld (returnRecv_stream _ _)
  · have hstep : s.step .readFails=s := if_neg hheld
    rw [hstep]
    exact h

theorem not_blocked_idleTimeout (s : VMessUdpSession) : ¬(s.step .idleTimeout).Blocked := by
  by_cases hheld : s.stream.holder=some .reader
  · exact not_blocked_of_release hheld (FairMutex.cancel_holder hheld)
  · intro hblocked
    have hholder := (FairMutex.cancel_waiting hheld).1
    exact hheld (hholder.symm.trans hblocked.1.1)

theorem not_blocked_step_iff (h : ¬s.Blocked) (e : UdpEvent) :
    ¬(s.step e).Blocked ↔ s.Decoupled e := by
  cases e with
  | send i dest payload => exact not_blocked_send h i dest payload
  | written i | writeFails i => exact not_blocked_leave_iff h i rfl Iff.rfl
  | writeTimeout i =>
    by_cases hheld : s.stream.holder=some (.sender i)
    · exact not_blocked_leave hheld (FairMutex.cancel_holder hheld) Iff.rfl
    · refine iff_of_true (fun hblocked => h ?_) fun hheld' => absurd hheld' hheld
      obtain ⟨hholder,hwaiters⟩ := FairMutex.cancel_waiting hheld
      obtain ⟨⟨hreader,hnot⟩,j,hj⟩ := hblocked
      exact ⟨⟨hholder.symm.trans hreader,hnot⟩,j,hwaiters _ hj⟩
  | recv =>
    refine iff_of_true ?_ trivial
    by_cases hexited : s.exited=true
    · have hstep : s.step .recv=s := if_pos hexited
      rw [hstep]
      exact h
    · have hstep : s.step .recv={ s with recvBuf := s.recvBuf.request .reader } := if_neg hexited
      rw [hstep]
      exact h
  | lockStream => exact iff_of_true (not_blocked_lockStream h) trivial
  | arrive chunk => exact iff_of_true (not_blocked_arrive h chunk) trivial
  | peerCloses => exact iff_of_true (fun hblocked => hblocked.1.2 (Or.inr rfl)) trivial
  | read => exact iff_of_true (not_blocked_read h) trivial
  | readFails => exact iff_of_true (not_blocked_readFails h) trivial
  | idleTimeout => exact iff_of_true (not_blocked_idleTimeout s) trivial

/-- Along a run of the flow reader and the senders, no sender ever waits for a holder who waits for
the peer, just when every event is decoupled. -/
theorem never_blocked_iff_decoupled (es : List UdpEvent) :
    Along step (fun s e => ¬(s.step e).Blocked) new es ↔ Along step Decoupled new es := by
  refine along_iff_along (fun s => ¬s.Blocked) ?_ ?_ ?_
  · intro e _ s hs
    exact not_blocked_step_iff hs e
  · intro e _ s hs hdecoupled
    exact (not_blocked_step_iff hs e).mpr hdecoupled
  · intro hblocked
    obtain ⟨i,hi⟩ := hblocked.2
    exact List.not_mem_nil hi

/-- The reader waits for the first response, and a second packet of the flow has to wait for it. -/
theorem sender_blocked_by_reader :
    (run step new [.send 0 (.v4 0x01010101,53) [1],.written 0,.recv,.lockStream,
      .send 1 (.v4 0x01010101,53) [2]]).Blocked :=
  ⟨⟨rfl,by decide⟩,1,by decide⟩

end VMessUdpSession

end DaeRs.Vmess
