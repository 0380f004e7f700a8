import DaeRs.Lib.Octets
import DaeRs.Lib.Runs
import DaeRs.Net.Addr

/-! TUIC UDP sessions on one connection: each has a background reader, and all readers accept from the
same incoming streams. -/

namespace DaeRs.Tuic

open Octets Runs Net List Function

abbrev SocketAddr := IpAddr×UInt16

def tuicVersion : UInt8 := 0x05
def cmdPacket : UInt8 := 0x02

inductive UdpError where
  | finishedEarly
  | other (text : String)
  deriving DecidableEq

def encodeTuicAddr (dest : SocketAddr) : List UInt8 := (match dest.1 with
    | .v4 ip => 0x01::toBE 4 ip.toNat
    | .v6 ip => 0x02::toBE 16 ip.toNat)++toBE 2 dest.2.toNat

variable (assocId : UInt16)

def sendPacket (pktId : UInt16) (dest : SocketAddr) (payload : List UInt8) : List UInt8 :=
  [tuicVersion,cmdPacket] ++
    ((toBE 2 assocId.toNat++(toBE 2 pktId.toNat++([1,0]++toBE 2 payload.length))) ++
      (encodeTuicAddr dest++payload))

abbrev Recv := StateT (List UInt8) (Except UdpError)

def readExact (n : Nat) : Recv (List UInt8) := fun bs =>
  if n≤bs.length then .ok (bs.take n,bs.drop n) else .error .finishedEarly

def portOf (bs : List UInt8) : UInt16 := UInt16.ofNat (ofBE bs)

def readAddr : Recv SocketAddr := do
  let typ ← readExact 1
  match typ.headD 0 with
  | 0x01 =>
    let buf ← readExact 6
    pure (.v4 (BitVec.ofNat 32 (ofBE (slice buf 0 4))),portOf (slice buf 4 2))
  | 0x02 =>
    let buf ← readExact 18
    pure (.v6 (BitVec.ofNat 128 (ofBE (slice buf 0 16))),portOf (slice buf 16 2))
  | 0x00 =>
    let lenb ← readExact 1
    let _ ← readExact (lenb.headD 0).toNat
    let portb ← readExact 2
    pure (.v4 0,portOf portb)
  | other => throw (.other ("tuic: unknown address type " ++ toString other))

/-- Of the fields behind the type only the size is used: the association and the fragment are not
looked at. -/
def parsePacketCommand : Recv (Option (SocketAddr×List UInt8)) := do
  let head ← readExact 2
  if head.getD 1 0≠cmdPacket then pure none
  else
    let fields ← readExact 8
    let dest ← readAddr
    let payload ← readExact (ofBE (slice fields 6 2))
    pure (some (dest,payload))

variable (stream : List UInt8)

def commandOf : UInt8 := stream.getD 1 0
def assocIdOf : UInt16 := UInt16.ofNat (ofBE (slice stream 2 2))
def fragTotalOf : UInt8 := stream.getD 6 0

structure Datagram where
  stream : List UInt8
  dest : SocketAddr
  payload : List UInt8
  parsed : parsePacketCommand.run' stream=.ok (some (dest,payload))

def datagram : Except UdpError (Option Datagram) :=
  match h : parsePacketCommand.run' stream with
  | .ok (some (dest,payload)) => .ok (some ⟨stream,dest,payload,h⟩)
  | .ok none => .ok none
  | .error e => .error e

theorem bind_of_ok {α β : Type} {m : Recv α} {f : α → Recv β} {bs bs' : List UInt8} {a : α}
    (h : m bs=.ok (a,bs')) : (m >>= f) bs=f a bs' := by
  show (m bs >>= fun p => f p.1 p.2)=_
  rw [h]
  rfl

theorem bind_of_error {α β : Type} {m : Recv α} {f : α → Recv β} {bs : List UInt8} {e : UdpError}
    (h : m bs=.error e) : (m >>= f) bs=.error e := by
  show (m bs >>= fun p => f p.1 p.2)=_
  rw [h]
  rfl

theorem bind_readExact {β : Type} (f : List UInt8 → Recv β) (n : Nat) {xs : List UInt8}
    (ys : List UInt8) (hn : xs.length=n) : (readExact n >>= f) (xs++ys)=f xs ys := by
  subst hn
  refine bind_of_ok ?_
  rw [readExact,if_pos (by rw [length_append]; omega),take_left,drop_left]

theorem command_of_parsed {stream : List UInt8} {x : SocketAddr×List UInt8}
    (h : parsePacketCommand.run' stream=.ok (some x)) : commandOf stream=cmdPacket := by
  have hrun : (Prod.fst <$> parsePacketCommand stream)=.ok (some x) := h
  by_cases hlen : 2 ≤ stream.length
  · have hhead : readExact 2 stream=.ok (stream.take 2,stream.drop 2) := if_pos hlen
    rw [parsePacketCommand,bind_of_ok hhead] at hrun
    by_cases hcmd : (stream.take 2).getD 1 0=cmdPacket
    · rw [← hcmd,commandOf,getD_eq_getElem?_getD,getD_eq_getElem?_getD,
        getElem?_take_of_lt (by decide)]
    · rw [if_pos hcmd] at hrun
      cases hrun
  · have hhead : readExact 2 stream=.error .finishedEarly := if_neg hlen
    rw [parsePacketCommand,bind_of_error hhead] at hrun
    cases hrun

theorem datagram_stream {stream : List UInt8} {d : Datagram}
    (h : datagram stream=.ok (some d)) : d.stream=stream := by
  unfold datagram at h
  split at h
  · cases h
    rfl
  · cases h
  · cases h

theorem read_ip_port {w k : Nat} (hw : 2^w=256^k) (mk : BitVec w → IpAddr) (ip : BitVec w)
    (port : UInt16) (rest : List UInt8) :
    (do let buf ← readExact (k+2)
        pure (mk (BitVec.ofNat w (ofBE (slice buf 0 k))),portOf (slice buf k 2)) : Recv SocketAddr)
      (toBE k ip.toNat++toBE 2 port.toNat++rest)=.ok ((mk ip,port),rest) := by
  have hip := slice_append [] (toBE k ip.toNat) (toBE 2 port.toNat)
  have hport := slice_append (toBE k ip.toNat) (toBE 2 port.toNat) []
  rw [toBE_length] at hip hport
  rw [toBE_length,append_nil] at hport
  rw [nil_append,length_nil] at hip
  rw [bind_readExact _ _ rest (by simp),hip,hport,ofBE_toBE_bits hw,portOf,ofBE_toBE_port]
  rfl

theorem readAddr_encode (dest : SocketAddr) (rest : List UInt8) :
    readAddr (encodeTuicAddr dest++rest)=.ok (dest,rest) := by
  obtain ⟨ip,port⟩ := dest
  cases ip with
  | v4 ip => exact read_ip_port (k := 4) (by decide) .v4 ip port rest
  | v6 ip => exact read_ip_port (k := 16) (by decide) .v6 ip port rest

/-- A packet is read back as it was sent, with as much of the payload as its `u16` size says. -/
theorem parse_sendPacket (pktId : UInt16) (dest : SocketAddr) (payload : List UInt8) :
    parsePacketCommand.run' (sendPacket assocId pktId dest payload) =
      .ok (some (dest,payload.take (payload.length%65536))) := by
  have hsize : ofBE (toBE 2 payload.length)=payload.length%65536 := ofBE_toBE 2 _
  have hfields : slice (toBE 2 assocId.toNat++(toBE 2 pktId.toNat++([1,0] ++
      toBE 2 payload.length))) 6 2=toBE 2 payload.length := rfl
  show Prod.fst <$> parsePacketCommand _=_
  rw [sendPacket,parsePacketCommand,bind_readExact _ 2 _ rfl]
  show Prod.fst <$> (readExact 8 >>= _) _=_
  rw [bind_readExact _ 8 _ rfl,bind_of_ok (readAddr_encode dest payload),hfields,hsize,
    bind_of_ok (if_pos (Nat.mod_le _ _))]
  rfl

theorem fields_sendPacket (pktId : UInt16) (dest : SocketAddr) (payload : List UInt8) :
    assocIdOf (sendPacket assocId pktId dest payload)=assocId ∧
      fragTotalOf (sendPacket assocId pktId dest payload)=1 := by
  have hslice : slice (sendPacket assocId pktId dest payload) 2 2=toBE 2 assocId.toNat := rfl
  refine ⟨?_,rfl⟩
  rw [assocIdOf,hslice,ofBE_toBE_port]

inductive ReaderPc where
  | accepting
  | parsing (stream : List UInt8)
  | ended
  deriving DecidableEq

/-- A session with its reader and its queue. -/
structure TuicUdpSession where
  assocId : UInt16
  reader : ReaderPc
  channel : List Datagram
  dropped : Bool

/-- A connection, its sessions and what they returned. -/
structure Connection where
  counter : UInt16
  incoming : List (List UInt8)
  closed : Bool
  sessions : Nat → Option TuicUdpSession
  results : List (Nat×Except UdpError Datagram)

inductive UdpEvent where
  | udpDial (i : Nat)
  | dialElsewhere
  | arrive (stream : List UInt8)
  | close
  | accept (i : Nat)
  | parse (i : Nat)
  | readFails (i : Nat)
  | recv (i : Nat)
  | drop (i : Nat)

namespace TuicUdpSession

def parsed (u : TuicUdpSession) (stream : List UInt8) : TuicUdpSession :=
  match datagram stream with
  | .ok (some d) =>
    if u.dropped then { u with reader := .ended }
    else { u with reader := .accepting,channel := u.channel++[d] }
  | .ok none => { u with reader := .accepting }
  | .error _ => { u with reader := .ended }

end TuicUdpSession

namespace Connection

def new : Connection := ⟨0,[],false,fun _ => none,[]⟩

variable (s : Connection)

def randAssocId : UInt16 := s.counter+0xBEEF

variable (i : Nat) (u : TuicUdpSession)

def put : Connection := { s with sessions := update s.sessions i (some u) }

def udpDial : Connection :=
  match s.sessions i with
  | none => { s with counter := s.counter+1 }.put i ⟨s.randAssocId,.accepting,[],false⟩
  | some _ => s

def arrive (stream : List UInt8) : Connection :=
  if s.closed then s else { s with incoming := s.incoming++[stream] }

/-- `accept_uni` gives the oldest stream to whichever reader asks first. -/
def accept : Connection :=
  match u.reader,s.incoming with
  | .accepting,stream::rest =>
    { s with incoming := rest }.put i { u with reader := .parsing stream }
  | .accepting,[] => if s.closed then s.put i { u with reader := .ended } else s
  | _,_ => s

def parse : Connection :=
  match u.reader with
  | .parsing stream => s.put i (u.parsed stream)
  | _ => s

def readFails : Connection :=
  match u.reader with
  | .parsing _ => s.put i { u with reader := .ended }
  | _ => s

/-- `recv` waits on an empty channel unless the reader, which has the sender, is gone. -/
def recv : Connection :=
  if u.dropped then s
  else
    match u.channel with
    | d::rest =>
      { s with results := s.results++[(i,Except.ok d)] }.put i { u with channel := rest }
    | [] =>
      if u.reader=.ended then
        { s with results := s.results++[(i,.error (.other "tuic udp: channel closed"))] }
      else s

def onSession (f : TuicUdpSession → Connection) : Connection :=
  match s.sessions i with
  | some u => f u
  | none => s

def step : UdpEvent → Connection
  | .udpDial i => s.udpDial i
  | .dialElsewhere => { s with counter := s.counter+1 }
  | .arrive stream => s.arrive stream
  | .close => { s with closed := true }
  | .accept i => s.onSession i (s.accept i)
  | .parse i => s.onSession i (s.parse i)
  | .readFails i => s.onSession i (s.readFails i)
  | .recv i => s.onSession i (s.recv i)
  | .drop i => s.onSession i fun u => s.put i { u with channel := [],dropped := true }

end Connection

def OwnPacket (stream : List UInt8) : Prop :=
  commandOf stream=cmdPacket → assocIdOf stream=assocId ∧ fragTotalOf stream≤1

namespace Connection

/-- Every datagram that `recv` has returned was sent to its session, and is no fragment. -/
def Isolated (s : Connection) : Prop := ∀ i d,(i,Except.ok d)∈s.results → ∃ u,s.sessions i=some u ∧
    assocIdOf d.stream=u.assocId ∧ fragTotalOf d.stream≤1

/-- A reader that accepts a Packet command is the one of the session that it is for, and the packet
is not fragmented. -/
def Dispatched (s : Connection) : UdpEvent → Prop
  | .accept i => ∀ u stream rest,s.sessions i=some u → u.reader=.accepting →
      s.incoming=stream::rest → OwnPacket u.assocId stream
  | _ => True

end Connection

/-- Only own packets are being parsed or wait in the channel. -/
structure TuicUdpSession.Clean (u : TuicUdpSession) : Prop where
  parsing : ∀ stream,u.reader=.parsing stream → OwnPacket u.assocId stream
  queued : ∀ d∈u.channel,OwnPacket u.assocId d.stream

theorem TuicUdpSession.Clean.parsed {u : TuicUdpSession} (h : u.Clean) {stream : List UInt8}
    (hstream : u.reader=.parsing stream) : (u.parsed stream).Clean := by
  unfold TuicUdpSession.parsed
  split
  · next d hd =>
    split
    · exact ⟨nofun,h.queued⟩
    · refine ⟨nofun,?_⟩
      intro d' hd'
      rcases mem_append.mp hd' with hold | hnew
      · exact h.queued d' hold
      · obtain rfl := mem_singleton.mp hnew
        rw [datagram_stream hd]
        exact h.parsing stream hstream
  all_goals exact ⟨nofun,h.queued⟩

theorem TuicUdpSession.parsed_assocId (u : TuicUdpSession) (stream : List UInt8) :
    (u.parsed stream).assocId=u.assocId := by
  unfold TuicUdpSession.parsed
  split
  · split
    · rfl
    · rfl
  · rfl
  · rfl

namespace Connection

/-- Each queue has its own session's packets. -/
structure Sound (s : Connection) : Prop where
  clean : ∀ i u,s.sessions i=some u → u.Clean
  isolated : s.Isolated

variable {s : Connection} {i : Nat} {u : TuicUdpSession}

theorem Sound.put {r : Connection} (h : s.Sound)
    (hid : ∀ v,s.sessions i=some v → u.assocId=v.assocId) (hclean : u.Clean)
    (hsessions : r.sessions=s.sessions) (hresults : ∀ j d,(j,Except.ok d)∈r.results →
      (j,Except.ok d)∈s.results ∨ (j=i ∧ OwnPacket u.assocId d.stream)) :
    (r.put i u).Sound := by
  have hput : (r.put i u).sessions=update s.sessions i (some u) := by
    rw [← hsessions]
    rfl
  constructor
  · intro j v hv
    rw [hput] at hv
    by_cases hj : j=i
    · subst hj
      rw [update_self] at hv
      cases hv
      exact hclean
    · rw [update_of_ne hj] at hv
      exact h.clean j v hv
  · intro j d hd
    rw [hput]
    rcases hresults j d hd with hold | ⟨rfl,hown⟩
    · obtain ⟨v,hv,hvown⟩ := h.isolated j d hold
      by_cases hj : j=i
      · subst hj
        rw [update_self]
        exact ⟨u,rfl,hid v hv ▸ hvown⟩
      · rw [update_of_ne hj]
        exact ⟨v,hv,hvown⟩
    · rw [update_self]
      exact ⟨u,rfl,hown (command_of_parsed d.parsed)⟩

theorem Sound.put_quiet {r : Connection} (h : s.Sound) {u' : TuicUdpSession}
    (hu : s.sessions i=some u) (hid : u'.assocId=u.assocId) (hclean : u'.Clean)
    (hsessions : r.sessions=s.sessions) (hresults : r.results=s.results) :
    (r.put i u').Sound := by
  refine h.put ?_ hclean hsessions fun _ _ hd => Or.inl (hresults ▸ hd)
  intro v hv
  rw [hu] at hv
  cases hv
  exact hid

theorem Sound.udpDial (h : s.Sound) (i : Nat) : (s.udpDial i).Sound := by
  unfold Connection.udpDial
  split
  · next hnone =>
    refine h.put ?_ ⟨nofun,nofun⟩ rfl fun _ _ hd => Or.inl hd
    intro v hv
    rw [hnone] at hv
    cases hv
  · exact h

theorem Sound.arrive (h : s.Sound) (stream : List UInt8) : (s.arrive stream).Sound := by
  unfold Connection.arrive
  split
  · exact h
  · exact ⟨h.clean,h.isolated⟩

theorem Sound.accept (h : s.Sound)
    (hu : s.sessions i=some u) (hdisp : s.Dispatched (.accept i)) : (s.accept i u).Sound := by
  have hclean := h.clean i u hu
  unfold Connection.accept
  split
  · next stream rest hreader hincoming =>
    refine h.put_quiet hu rfl ⟨?_,hclean.queued⟩ rfl rfl
    intro stream' hstream'
    cases hstream'
    exact hdisp u stream rest hu hreader hincoming
  · split
    · exact h.put_quiet hu rfl ⟨nofun,hclean.queued⟩ rfl rfl
    · exact h
  · exact h

theorem Sound.parse (h : s.Sound) (hu : s.sessions i=some u) : (s.parse i u).Sound := by
  unfold Connection.parse
  split
  · next stream hreader =>
    exact h.put_quiet hu (u.parsed_assocId stream) ((h.clean i u hu).parsed hreader) rfl rfl
  · exact h

theorem Sound.readFails (h : s.Sound) (hu : s.sessions i=some u) : (s.readFails i u).Sound := by
  unfold Connection.readFails
  split
  · exact h.put_quiet hu rfl ⟨nofun,(h.clean i u hu).queued⟩ rfl rfl
  · exact h

theorem Sound.recv (h : s.Sound) (hu : s.sessions i=some u) : (s.recv i u).Sound := by
  have hclean := h.clean i u hu
  unfold Connection.recv
  split
  · exact h
  · split
    · next d rest hchannel =>
      have hown : OwnPacket u.assocId d.stream := hclean.queued d (hchannel ▸ mem_cons_self)
      refine h.put ?_ ⟨hclean.parsing,?_⟩ rfl ?_
      · intro v hv
        rw [hu] at hv
        cases hv
        rfl
      · intro d' hd'
        exact hclean.queued d' (hchannel ▸ mem_cons_of_mem d hd')
      · intro j d' hd'
        rcases mem_append.mp hd' with hold | hnew
        · exact Or.inl hold
        · cases mem_singleton.mp hnew
          exact Or.inr ⟨rfl,hown⟩
    · split
      · refine ⟨h.clean,?_⟩
        intro j d hd
        rcases mem_append.mp hd with hold | hnew
        · exact h.isolated j d hold
        · cases mem_singleton.mp hnew
      · exact h

theorem Sound.onSession (h : s.Sound) (i : Nat) {f : TuicUdpSession → Connection}
    (hf : ∀ u,s.sessions i=some u → (f u).Sound) : (s.onSession i f).Sound := by
  unfold Connection.onSession
  split
  · next u hu => exact hf u hu
  · exact h

theorem Sound.step (h : s.Sound) {e : UdpEvent} (hdisp : s.Dispatched e) : (s.step e).Sound := by
  cases e with
  | udpDial i => exact h.udpDial i
  | dialElsewhere | close => exact ⟨h.clean,h.isolated⟩
  | arrive stream => exact h.arrive stream
  | accept i => exact h.onSession i fun u hu => h.accept hu hdisp
  | parse i => exact h.onSession i fun u hu => h.parse hu
  | readFails i => exact h.onSession i fun u hu => h.readFails hu
  | recv i => exact h.onSession i fun u hu => h.recv hu
  | drop i =>
    refine h.onSession i fun u hu => h.put_quiet hu rfl ⟨?_,nofun⟩ rfl rfl
    exact (h.clean i u hu).parsing

theorem sound_new : new.Sound := ⟨nofun,nofun⟩

/-- If readers accept only the packets of their own session, and the server does not fragment, every
session gets its own datagrams, and whole. -/
theorem isolated_of_dispatched {es : List UdpEvent} (h : Along step Dispatched new es) :
    (run step new es).Isolated :=
  (h.invariant (fun _ _ hs hdisp => hs.step hdisp) sound_new).isolated

/-- Two sessions whose packets arrive the other way round; each reader accepts its own. -/
theorem isolated_of_dispatched_two :
    let s := run step new [.udpDial 0,.udpDial 1,.arrive (sendPacket 0xBEF0 0 (.v4 0x01020304,53) [8]),
      .arrive (sendPacket 0xBEEF 0 (.v4 0x01020304,53) [7]),.accept 1,.accept 0,.parse 0,.parse 1,
      .recv 0,.recv 1]
    s.Isolated ∧
      s.results.map (fun r => (r.1,r.2.toOption.map (·.payload)))=[(0,some [7]),(1,some [8])] := by
  refine ⟨isolated_of_dispatched ⟨trivial,trivial,trivial,trivial,?_,?_,trivial,trivial,trivial,
    trivial,trivial⟩,by decide⟩
  all_goals
    intro u stream rest hu _ hincoming _
    cases hu
    cases hincoming
    exact ⟨(fields_sendPacket _ 0 _ _).1,by decide⟩

/-- `recv` gives a queued datagram after those before it. -/
theorem recv_until (hu : s.sessions i=some u) (hlive : u.dropped=false) {pre : List Datagram}
    {d : Datagram} (hchannel : u.channel=pre++[d]) :
    (i,Except.ok d)∈(run step s (replicate (pre.length+1) (.recv i))).results := by
  induction pre generalizing s u with
  | nil => simp [run,step,onSession,recv,put,hu,hlive,hchannel]
  | cons d' pre ih =>
    refine ih (s := s.step (.recv i)) (u := { u with channel := pre++[d] }) ?_ hlive rfl
    simp [step,onSession,recv,put,hu,hlive,hchannel]

/-- A session that is read to the end returns whatever packet its reader accepts, of any association
and fragment. -/
theorem accepted_packet_returned (hu : s.sessions i=some u) (hlive : u.dropped=false)
    (hreader : u.reader=.accepting) {stream : List UInt8} {rest : List (List UInt8)}
    (hincoming : s.incoming=stream::rest) {d : Datagram} (hd : datagram stream=.ok (some d)) :
    (i,Except.ok d)∈(run step s (.accept i::.parse i ::
      replicate (u.channel.length+1) (.recv i))).results := by
  have hparsed : ((s.step (.accept i)).step (.parse i)).sessions i =
      some { u with reader := .accepting,channel := u.channel++[d] } := by
    simp [step,onSession,accept,parse,put,hu,hreader,hincoming,TuicUdpSession.parsed,hd,hlive]
  exact recv_until hparsed hlive rfl

/-- Two sessions with the ids BEEF and BEF0. The first reader accepts a packet for BEF0, the second
one the first fragment of two; both are returned. -/
theorem foreign_and_fragment_returned :
    (run step new [.udpDial 0,.udpDial 1,.arrive (sendPacket 0xBEF0 0 (.v4 0x01020304,53) [7]),
      .arrive [5,2,0xBE,0xF0,0,1,2,0,0,1,1,1,2,3,4,0,53,8],.accept 0,.accept 1,
      .parse 0,.parse 1,.recv 0,.recv 1]).results.map
        (fun r => (r.1,r.2.toOption.map fun d => (assocIdOf d.stream,fragTotalOf d.stream,
          d.payload)))=[(0,some (0xBEF0,1,[7])),(1,some (0xBEF0,2,[8]))] := by
  decide

end Connection

end DaeRs.Tuic
