import DaeRs.Lib.Conduit
import DaeRs.Lib.Runs

/-! The TCP relay: each direction moves bytes with `splice()` through a pipe, or with a buffer, and
both together run under the half-close guard. -/

namespace DaeRs.TcpRelay

open Runs List Function

inductive RelayError where
  | os (code : Nat)
  | timedOut (text : String)
  deriving DecidableEq

def spliceChunk : Nat := 64*1024

def copyBufferSize : Nat := 64*1024

/-- What the kernel does at a call: it would block (also: the fd is not ready yet), moves some of
the bytes that are there, or fails. -/
inductive Choice where
  | block
  | move (k : Nat)
  | fail (e : RelayError)
  deriving DecidableEq

def portion (k limit available : Nat) : Nat := min (max k 1) (min limit available)

inductive Moved where
  | bytes (n : Nat)
  | wouldBlock
  | error (e : RelayError)
  deriving DecidableEq

def readFrom (limit : Nat) (c : Conduit UInt8) : Choice → Moved×Conduit UInt8
  | .block => (.wouldBlock,c)
  | .fail e => (.error e,c)
  | .move k =>
    if c.rest=[] then (if c.ended then .bytes 0 else .wouldBlock,c)
    else (.bytes (portion k limit c.rest.length),c.take (portion k limit c.rest.length))

def writeTo (limit : Nat) (c : Conduit UInt8) : Choice → Moved×Conduit UInt8
  | .block => (.wouldBlock,c)
  | .fail e => (.error e,c)
  | .move k =>
    if c.inside=[] then (.bytes 0,c)
    else (.bytes (portion k limit c.inside.length),c.give (portion k limit c.inside.length))

/-- Where a `splice` loop stands. -/
inductive SplicePhase where
  | fill
  | drain (remaining : Nat)
  | returned (r : Except RelayError UInt64)

/-- A direction moved through a pipe. -/
structure SpliceDirection where
  conduit : Conduit UInt8
  total : UInt64
  phase : SplicePhase

namespace SpliceDirection

variable (d : SpliceDirection)

def fill (choice : Choice) : SpliceDirection :=
  match readFrom spliceChunk d.conduit choice with
  | (.bytes n,c) =>
    if n=0 then ⟨c.shutdown,d.total,.returned (.ok d.total)⟩ else ⟨c,d.total,.drain n⟩
  | (.wouldBlock,c) => ⟨c,d.total,.fill⟩
  | (.error e,c) => ⟨c,d.total,.returned (.error e)⟩

def drain (remaining : Nat) (choice : Choice) : SpliceDirection :=
  match writeTo remaining d.conduit choice with
  | (.bytes m,c) =>
    if m=0 then ⟨c,d.total,.returned (.ok d.total)⟩
    else ⟨c,d.total+UInt64.ofNat m,
      if remaining-m=0 then .fill else .drain (remaining-m)⟩
  | (.wouldBlock,c) => ⟨c,d.total,.drain remaining⟩
  | (.error e,c) => ⟨c,d.total,.returned (.error e)⟩

def poll (choice : Choice) : SpliceDirection :=
  match d.phase with
  | .fill => d.fill choice
  | .drain remaining => d.drain remaining choice
  | .returned _ => d

end SpliceDirection

inductive CopyPhase where
  | read
  | write (n : Nat)
  | shutdown
  | returned (r : Except RelayError UInt64)

/-- A direction moved through a buffer. -/
structure CopyDirection where
  conduit : Conduit UInt8
  total : UInt64
  phase : CopyPhase

namespace CopyDirection

variable (d : CopyDirection)

def read (choice : Choice) : CopyDirection :=
  match readFrom copyBufferSize d.conduit choice with
  | (.bytes n,c) => ⟨c,d.total,if n=0 then .shutdown else .write n⟩
  | (.wouldBlock,c) => ⟨c,d.total,.read⟩
  | (.error e,c) => ⟨c,d.total,.returned (.error e)⟩

def write (n : Nat) (choice : Choice) : CopyDirection :=
  match writeTo d.conduit.inside.length d.conduit choice with
  | (.bytes _,c) =>
    if c.inside=[] then ⟨c,d.total+UInt64.ofNat n,.read⟩ else ⟨c,d.total,.write n⟩
  | (.wouldBlock,c) => ⟨c,d.total,.write n⟩
  | (.error e,c) => ⟨c,d.total,.returned (.error e)⟩

def shutdown : Choice → CopyDirection
  | .block => d
  | .move _ => ⟨d.conduit.shutdown,d.total,.returned (.ok d.total)⟩
  | .fail e => ⟨d.conduit,d.total,.returned (.error e)⟩

def poll (choice : Choice) : CopyDirection :=
  match d.phase with
  | .read => d.read choice
  | .write n => d.write n choice
  | .shutdown => d.shutdown choice
  | .returned _ => d

end CopyDirection

inductive Direction where
  | splice (d : SpliceDirection)
  | buffered (d : CopyDirection)

inductive SourceEvent where
  | produce (bytes : List UInt8)
  | close

def SourceEvent.apply : SourceEvent → Conduit UInt8 → Conduit UInt8
  | .produce bytes => Conduit.produce bytes
  | .close => Conduit.close

namespace Direction

def new (spliced : Bool) : Direction :=
  if spliced then .splice ⟨.empty,0,.fill⟩ else .buffered ⟨.empty,0,.read⟩

def conduit : Direction → Conduit UInt8
  | .splice d => d.conduit
  | .buffered d => d.conduit

def result : Direction → Option (Except RelayError UInt64)
  | .splice ⟨_,_,.returned r⟩ => some r
  | .buffered ⟨_,_,.returned r⟩ => some r
  | _ => none

def poll (choice : Choice) : Direction → Direction
  | .splice d => .splice (d.poll choice)
  | .buffered d => .buffered (d.poll choice)

def source (e : SourceEvent) : Direction → Direction
  | .splice d => .splice { d with conduit := e.apply d.conduit }
  | .buffered d => .buffered { d with conduit := e.apply d.conduit }

end Direction

inductive RelaySide where
  | up
  | down
  deriving DecidableEq

/-- `half_close_guard`: it waits for one direction, and then for the other one. -/
inductive Guard where
  | select
  | second (side : RelaySide) (first : UInt64)
  | returned (r : Except RelayError (UInt64×UInt64))

structure Relay where
  directions : RelaySide → Direction
  guard : Guard

/-- What a source does, a poll of a side, or the timeout. -/
inductive RelayEvent where
  | source (side : RelaySide) (e : SourceEvent)
  | poll (side : RelaySide) (choice : Choice)
  | timeout

namespace Relay

def pair (side : RelaySide) (first b : UInt64) : UInt64×UInt64 :=
  match side with
  | .up => (first,b)
  | .down => (b,first)

def afterFirst (side : RelaySide) : Option (Except RelayError UInt64) → Guard
  | none => .select
  | some (.ok first) => .second side first
  | some (.error e) => .returned (.error e)

def afterSecond (side : RelaySide) (first : UInt64) : Option (Except RelayError UInt64) → Guard
  | none => .second side first
  | some (.ok b) => .returned (.ok (pair side first b))
  | some (.error e) => .returned (.error e)

def put (s : Relay) (side : RelaySide) (d : Direction) (guard : Guard) : Relay :=
  ⟨update s.directions side d,guard⟩

def step (s : Relay) : RelayEvent → Relay
  | .source side e => s.put side ((s.directions side).source e) s.guard
  | .poll side choice =>
    let d := (s.directions side).poll choice
    match s.guard with
    | .select => s.put side d (afterFirst side d.result)
    | .second ended first =>
      -- the direction that has ended is not polled again
      if side=ended then s else s.put side d (afterSecond ended first d.result)
    | .returned _ => s
  | .timeout =>
    match s.guard with
    | .second _ _ => { s with
        guard := .returned
          (.error (.timedOut "relay half-close timed out, forcing connection close")) }
    | _ => s

end Relay

structure Probe where
  source : Option Nat
  target : Option Nat

def einval : Nat := 22

def spliceSupported (p : Probe) : Bool := p.source != some einval && p.target != some einval

structure Setup where
  pipeAb : Bool
  pipeBa : Bool
  probeAb : Probe
  probeBa : Probe

def Setup.spliced (x : Setup) : Bool :=
  x.pipeAb && x.pipeBa && spliceSupported x.probeAb && spliceSupported x.probeBa

def relayBidirectional (x : Setup) : Relay := ⟨fun _ => .new x.spliced,.select⟩

/-- What a direction's result says: on success everything was delivered and counted, and only then
the write side was shut down. -/
def Reported (c : Conduit UInt8) : Except RelayError UInt64 → Prop
  | .ok t => c.Complete ∧ t=UInt64.ofNat c.produced.length ∧ c.shut=true
  | .error _ => c.shut=false

theorem portion_spec {k limit available : Nat} (hlimit : 0<limit) (havailable : 0<available) :
    0<portion k limit available ∧ portion k limit available≤limit ∧
      portion k limit available≤available := by
  unfold portion
  omega

/-- How `readFrom` can end. -/
inductive Read (c : Conduit UInt8) : Moved×Conduit UInt8 → Prop
  | ended (hrest : c.rest=[]) (hended : c.ended=true) : Read c (.bytes 0,c)
  | some {n : Nat} (hpos : 0<n) (hle : n ≤ c.rest.length) : Read c (.bytes n,c.take n)
  | blocked : Read c (.wouldBlock,c)
  | failed (e : RelayError) : Read c (.error e,c)

theorem readFrom_read (limit : Nat) (hlimit : 0<limit) (c : Conduit UInt8) (choice : Choice) :
    Read c (readFrom limit c choice) := by
  cases choice with
  | block => exact .blocked
  | fail e => exact .failed e
  | move k =>
    unfold readFrom
    split_ifs with hrest hended
    · exact .ended hrest hended
    · exact .blocked
    · obtain ⟨hpos,-,hle⟩ := portion_spec (k := k) hlimit (length_pos_of_ne_nil hrest)
      exact .some hpos hle

/-- How `writeTo` can end when there are bytes inside. -/
inductive Written (limit : Nat) (c : Conduit UInt8) : Moved×Conduit UInt8 → Prop
  | some {n : Nat} (hpos : 0<n) (hlimit : n≤limit) (hle : n ≤ c.inside.length) :
      Written limit c (.bytes n,c.give n)
  | blocked : Written limit c (.wouldBlock,c)
  | failed (e : RelayError) : Written limit c (.error e,c)

variable {c : Conduit UInt8}

theorem writeTo_written {limit : Nat} (hlimit : 0<limit)
    (hinside : 0 < c.inside.length) (choice : Choice) :
    Written limit c (writeTo limit c choice) := by
  cases choice with
  | block => exact .blocked
  | fail e => exact .failed e
  | move k =>
    obtain ⟨hpos,hle,hle'⟩ := portion_spec (k := k) hlimit hinside
    rw [writeTo,if_neg (ne_nil_of_length_pos hinside)]
    exact .some hpos hle hle'

/-- The bytes delivered so far were counted, and the write side is open. -/
structure Counted (c : Conduit UInt8) (total : UInt64) : Prop where
  total_eq : total=UInt64.ofNat c.delivered.length
  not_shut : c.shut=false

theorem give_delivered_length {n : Nat} (h : n ≤ c.inside.length) :
    (c.give n).delivered.length=c.delivered.length+n := by
  show (c.delivered++c.inside.take n).length=_
  rw [length_append,length_take,Nat.min_eq_left h]

theorem give_inside_length (c : Conduit UInt8) (n : Nat) :
    (c.give n).inside.length=c.inside.length-n :=
  length_drop

theorem take_inside_length {n : Nat} (hinside : c.inside=[])
    (h : n ≤ c.rest.length) : (c.take n).inside.length=n := by
  show (c.inside++c.rest.take n).length=n
  rw [hinside,nil_append,length_take,Nat.min_eq_left h]

theorem reported_ok {total : UInt64} (hc : c.Complete)
    (htotal : Counted c total) : Reported c.shutdown (.ok total) := by
  refine ⟨⟨hc.ended,hc.delivered⟩,?_,rfl⟩
  rw [htotal.total_eq,hc.delivered]
  rfl

namespace SpliceDirection

/-- The pipe holds just the bytes that remain to be moved out of it. -/
def Sound (d : SpliceDirection) : Prop :=
  match d.phase with
  | .fill => d.conduit.inside=[] ∧ Counted d.conduit d.total
  | .drain remaining =>
    0 < remaining ∧ d.conduit.inside.length=remaining ∧ Counted d.conduit d.total
  | .returned r => Reported d.conduit r

variable {d : SpliceDirection}

theorem sound_fill (hinside : d.conduit.inside=[])
    (htotal : Counted d.conduit d.total) (choice : Choice) : (d.fill choice).Sound := by
  have hread := readFrom_read spliceChunk (by decide) d.conduit choice
  unfold fill
  generalize readFrom spliceChunk d.conduit choice=r at hread
  cases hread with
  | ended hrest hended => exact reported_ok (Conduit.complete_of_empty hended hinside hrest) htotal
  | some hpos hle =>
    simp only [if_neg (Nat.ne_of_gt hpos)]
    exact ⟨hpos,take_inside_length hinside hle,htotal.total_eq,htotal.not_shut⟩
  | blocked => exact ⟨hinside,htotal⟩
  | failed e => exact htotal.not_shut

theorem sound_drain {remaining : Nat} (hpos : 0 < remaining)
    (hinside : d.conduit.inside.length=remaining) (htotal : Counted d.conduit d.total)
    (choice : Choice) : (d.drain remaining choice).Sound := by
  have hlen : 0<d.conduit.inside.length := by omega
  have hwritten := writeTo_written hpos hlen choice
  unfold drain
  generalize writeTo remaining d.conduit choice=r at hwritten
  cases hwritten with
  | @some m hm hlimit hle =>
    have hcounted : Counted (d.conduit.give m) (d.total+UInt64.ofNat m) := by
      refine ⟨?_,htotal.not_shut⟩
      rw [give_delivered_length hle,UInt64.ofNat_add,htotal.total_eq]
    have hleft := give_inside_length d.conduit m
    simp only [if_neg (Nat.ne_of_gt hm)]
    by_cases hdone : remaining-m=0
    · rw [if_pos hdone]
      refine ⟨length_eq_zero_iff.mp ?_,hcounted⟩
      show (d.conduit.give m).inside.length=0
      omega
    · rw [if_neg hdone]
      refine ⟨Nat.pos_of_ne_zero hdone,?_,hcounted⟩
      show (d.conduit.give m).inside.length=remaining-m
      omega
  | blocked => exact ⟨hpos,hinside,htotal⟩
  | failed e => exact htotal.not_shut

theorem Sound.poll (h : d.Sound) (choice : Choice) :
    (d.poll choice).Sound := by
  obtain ⟨c,total,phase⟩ := d
  cases phase with
  | fill => exact sound_fill h.1 h.2 choice
  | drain remaining => exact sound_drain h.1 h.2.1 h.2.2 choice
  | returned r => exact h

end SpliceDirection

namespace CopyDirection

/-- While the buffer is written, its bytes are delivered or still in it. -/
def Sound (d : CopyDirection) : Prop :=
  match d.phase with
  | .read => d.conduit.inside=[] ∧ Counted d.conduit d.total
  | .write n => 0<d.conduit.inside.length ∧ d.conduit.shut=false ∧ d.total+UInt64.ofNat n =
        UInt64.ofNat (d.conduit.delivered.length+d.conduit.inside.length)
  | .shutdown => d.conduit.Complete ∧ Counted d.conduit d.total
  | .returned r => Reported d.conduit r

theorem sound_read {d : CopyDirection} (hinside : d.conduit.inside=[])
    (htotal : Counted d.conduit d.total) (choice : Choice) : (d.read choice).Sound := by
  have hread := readFrom_read copyBufferSize (by decide) d.conduit choice
  unfold read
  generalize readFrom copyBufferSize d.conduit choice=r at hread
  cases hread with
  | ended hrest hended => exact ⟨Conduit.complete_of_empty hended hinside hrest,htotal⟩
  | @some n hpos hle =>
    have hlen := take_inside_length hinside hle
    simp only [if_neg (Nat.ne_of_gt hpos)]
    refine ⟨?_,htotal.not_shut,?_⟩
    · show 0<(d.conduit.take n).inside.length
      omega
    · show d.total+UInt64.ofNat n =
        UInt64.ofNat (d.conduit.delivered.length+(d.conduit.take n).inside.length)
      rw [hlen,UInt64.ofNat_add,htotal.total_eq]
  | blocked => exact ⟨hinside,htotal⟩
  | failed e => exact htotal.not_shut

theorem sound_write {d : CopyDirection} {n : Nat} (hinside : 0<d.conduit.inside.length)
    (hshut : d.conduit.shut=false)
    (htotal : d.total+UInt64.ofNat n =
      UInt64.ofNat (d.conduit.delivered.length+d.conduit.inside.length))
    (choice : Choice) : (d.write n choice).Sound := by
  have hwritten := writeTo_written hinside hinside choice
  unfold write
  generalize writeTo d.conduit.inside.length d.conduit choice=r at hwritten
  cases hwritten with
  | @some m hm hlimit hle =>
    have hdelivered := give_delivered_length hle
    have hleft := give_inside_length d.conduit m
    have hsum : (d.conduit.give m).delivered.length+(d.conduit.give m).inside.length =
        d.conduit.delivered.length+d.conduit.inside.length := by omega
    by_cases hdone : (d.conduit.give m).inside=[]
    · simp only [if_pos hdone]
      refine ⟨hdone,?_,hshut⟩
      rw [hdone,length_nil,Nat.add_zero] at hsum
      rw [htotal,hsum]
    · simp only [if_neg hdone]
      refine ⟨length_pos_of_ne_nil hdone,hshut,?_⟩
      rw [hsum]
      exact htotal
  | blocked => exact ⟨hinside,hshut,htotal⟩
  | failed e => exact hshut

theorem Sound.poll {d : CopyDirection} (h : d.Sound) (choice : Choice) : (d.poll choice).Sound := by
  obtain ⟨c,total,phase⟩ := d
  cases phase with
  | read => exact sound_read h.1 h.2 choice
  | write n => exact sound_write h.1 h.2.1 h.2.2 choice
  | shutdown =>
    cases choice with
    | block => exact h
    | move k => exact reported_ok h.1 h.2
    | fail e => exact h.2.not_shut
  | returned r => exact h

end CopyDirection

/-! What a peer does concerns only what was not taken yet. -/

variable (e : SourceEvent)

theorem SourceEvent.apply_inside (c : Conduit UInt8) : (e.apply c).inside=c.inside := by
  cases e with
  | produce bytes => exact Conduit.produce_inside bytes c
  | close => rfl

theorem SourceEvent.apply_delivered (c : Conduit UInt8) : (e.apply c).delivered=c.delivered := by
  cases e with
  | produce bytes => exact Conduit.produce_delivered bytes c
  | close => rfl

theorem SourceEvent.apply_shut (c : Conduit UInt8) : (e.apply c).shut=c.shut := by
  cases e with
  | produce bytes => exact Conduit.produce_shut bytes c
  | close => rfl

theorem SourceEvent.apply_complete (h : c.Complete) :
    (e.apply c).Complete ∧ (e.apply c).produced=c.produced := by
  cases e with
  | produce bytes =>
    show (c.produce bytes).Complete ∧ (c.produce bytes).produced=c.produced
    rw [h.produce bytes]
    exact ⟨h,rfl⟩
  | close => exact ⟨h.close,rfl⟩

theorem Counted.source {total : UInt64} (h : Counted c total)
    (e : SourceEvent) : Counted (e.apply c) total := by
  refine ⟨?_,?_⟩
  · rw [e.apply_delivered,h.total_eq]
  · rw [e.apply_shut,h.not_shut]

theorem Reported.source {r : Except RelayError UInt64} (h : Reported c r)
    (e : SourceEvent) : Reported (e.apply c) r := by
  cases r with
  | ok t =>
    obtain ⟨hc,ht,hshut⟩ := h
    obtain ⟨hc',hproduced⟩ := e.apply_complete hc
    refine ⟨hc',?_,?_⟩
    · rw [ht,hproduced]
    · rw [e.apply_shut,hshut]
  | error err =>
    show (e.apply c).shut=false
    rw [e.apply_shut]
    exact h

namespace Direction

def Sound : Direction → Prop
  | .splice d => d.Sound
  | .buffered d => d.Sound

theorem sound_new (spliced : Bool) : (new spliced).Sound := by
  cases spliced with
  | true => exact ⟨rfl,rfl,rfl⟩
  | false => exact ⟨rfl,rfl,rfl⟩

variable {d : Direction}

theorem Sound.poll (h : d.Sound) (choice : Choice) : (d.poll choice).Sound := by
  cases d with
  | splice d => exact SpliceDirection.Sound.poll h choice
  | buffered d => exact CopyDirection.Sound.poll h choice

theorem Sound.source (h : d.Sound) (e : SourceEvent) : (d.source e).Sound := by
  cases d with
  | splice d =>
    obtain ⟨c,total,phase⟩ := d
    cases phase with
    | fill => exact ⟨(e.apply_inside c).trans h.1,h.2.source e⟩
    | drain remaining =>
      exact ⟨h.1,(congrArg List.length (e.apply_inside c)).trans h.2.1,h.2.2.source e⟩
    | returned r => exact Reported.source h e
  | buffered d =>
    obtain ⟨c,total,phase⟩ := d
    cases phase with
    | read => exact ⟨(e.apply_inside c).trans h.1,h.2.source e⟩
    | write n =>
      obtain ⟨hinside,hshut,htotal⟩ := h
      refine ⟨?_,(e.apply_shut c).trans hshut,?_⟩
      · show 0<(e.apply c).inside.length
        rw [e.apply_inside]
        exact hinside
      · show total+UInt64.ofNat n =
          UInt64.ofNat ((e.apply c).delivered.length+(e.apply c).inside.length)
        rw [e.apply_inside,e.apply_delivered]
        exact htotal
    | shutdown => exact ⟨(e.apply_complete h.1).1,h.2.source e⟩
    | returned r => exact Reported.source h e

@[simp] theorem source_result (d : Direction) (e : SourceEvent) : (d.source e).result=d.result := by
  cases d with
  | splice d | buffered d =>
    obtain ⟨c,total,phase⟩ := d
    cases phase <;> rfl

theorem Sound.reported (h : d.Sound) {r : Except RelayError UInt64}
    (hr : d.result=some r) : Reported d.conduit r := by
  cases d with
  | splice d | buffered d =>
    obtain ⟨c,total,phase⟩ := d
    cases phase with
    | returned r' => cases hr; exact h
    | _ => cases hr

theorem Sound.complete_of_shut (h : d.Sound) (hshut : d.conduit.shut=true) :
    d.conduit.Complete := by
  cases hresult : d.result with
  | some r =>
    have hreported := h.reported hresult
    cases r with
    | ok t => exact hreported.1
    | error e => exact absurd (hshut.symm.trans hreported) (by decide)
  | none =>
    have hopen : d.conduit.shut=false := by
      cases d with
      | splice d =>
        obtain ⟨c,total,phase⟩ := d
        cases phase with
        | fill => exact h.2.not_shut
        | drain remaining => exact h.2.2.not_shut
        | returned r => cases hresult
      | buffered d =>
        obtain ⟨c,total,phase⟩ := d
        cases phase with
        | read | shutdown => exact h.2.not_shut
        | write n => exact h.2.1
        | returned r => cases hresult
    exact absurd (hshut.symm.trans hopen) (by decide)

end Direction

def Guard.Knows (results : RelaySide → Option (Except RelayError UInt64)) : Guard → Prop
  | .select => True
  | .second side first => results side=some (.ok first)
  | .returned (.ok p) => results .up=some (.ok p.1) ∧ results .down=some (.ok p.2)
  | .returned (.error _) => True

namespace Relay

variable (s : Relay)

def results (side : RelaySide) : Option (Except RelayError UInt64) := (s.directions side).result

/-- Both sides are sound, and the guard knows the results. -/
structure Sound (s : Relay) : Prop where
  direction : ∀ side,(s.directions side).Sound
  knows : s.guard.Knows s.results

theorem sound_relayBidirectional (x : Setup) : (relayBidirectional x).Sound :=
  ⟨fun _ => Direction.sound_new _,trivial⟩

@[simp] theorem put_directions_self (side : RelaySide) (d : Direction) (guard : Guard) :
    (s.put side d guard).directions side=d := by
  show update s.directions side d side=d
  rw [update_self]

variable {side : RelaySide}

theorem put_directions_other {side' : RelaySide} (h : side'≠side) (d : Direction)
    (guard : Guard) : (s.put side d guard).directions side'=s.directions side' := by
  show update s.directions side d side'=s.directions side'
  rw [update_of_ne h]

theorem put_results_self (side : RelaySide) (d : Direction) (guard : Guard) :
    (s.put side d guard).results side=d.result := by
  rw [results,put_directions_self]

theorem put_results_other {side' : RelaySide} (h : side'≠side) (d : Direction)
    (guard : Guard) : (s.put side d guard).results side'=s.results side' := by
  rw [results,put_directions_other s h,results]

theorem Sound.put {s : Relay} (h : s.Sound) {d : Direction} {guard : Guard}
    (hd : d.Sound) (hknows : guard.Knows (s.put side d guard).results) :
    (s.put side d guard).Sound := by
  refine ⟨fun side' => ?_,hknows⟩
  by_cases hside : side'=side
  · subst hside
    rw [put_directions_self]
    exact hd
  · rw [put_directions_other s hside]
    exact h.direction side'

theorem source_results (side : RelaySide) (e : SourceEvent) :
    (s.step (.source side e)).results=s.results := by
  funext side'
  by_cases hside : side'=side
  · subst hside
    exact (put_results_self _ _ _ _).trans (Direction.source_result _ _)
  · exact put_results_other s hside _ _

theorem knows_afterFirst (side : RelaySide) (d : Direction) :
    (afterFirst side d.result).Knows (s.put side d (afterFirst side d.result)).results := by
  cases hr : d.result with
  | none => trivial
  | some r =>
    cases r with
    | ok first => exact (put_results_self _ _ _ _).trans hr
    | error e => trivial

theorem knows_afterSecond {s : Relay} {ended : RelaySide} {first : UInt64}
    (hfirst : s.results ended=some (.ok first)) (hside : side≠ended) (d : Direction) :
    (afterSecond ended first d.result).Knows
      (s.put side d (afterSecond ended first d.result)).results := by
  cases hr : d.result with
  | none => exact (put_results_other s hside.symm _ _).trans hfirst
  | some r =>
    cases r with
    | error e => trivial
    | ok b =>
      have hold (guard : Guard) : (s.put side d guard).results ended=some (.ok first) :=
        (put_results_other s hside.symm _ _).trans hfirst
      have hnew (guard : Guard) : (s.put side d guard).results side=some (.ok b) :=
        (put_results_self _ _ _ _).trans hr
      cases ended with
      | up =>
        cases side with
        | up => exact absurd rfl hside
        | down => exact ⟨hold _,hnew _⟩
      | down =>
        cases side with
        | up => exact ⟨hnew _,hold _⟩
        | down => exact absurd rfl hside

theorem Sound.poll {s : Relay} (h : s.Sound) (side : RelaySide) (choice : Choice) :
    (s.step (.poll side choice)).Sound := by
  obtain ⟨directions,guard⟩ := s
  cases guard with
  | returned r => exact h
  | select => exact h.put ((h.direction side).poll choice) (knows_afterFirst _ _ _)
  | second ended first =>
    by_cases hside : side=ended
    · show Sound (if side=ended then _ else _)
      rw [if_pos hside]
      exact h
    · show Sound (if side=ended then _ else _)
      rw [if_neg hside]
      exact h.put ((h.direction side).poll choice) (knows_afterSecond h.knows hside _)

theorem Sound.step {s : Relay} (h : s.Sound) (e : RelayEvent) : (s.step e).Sound := by
  cases e with
  | source side e =>
    refine h.put ((h.direction side).source e) ?_
    have hresults := source_results s side e
    rw [Relay.step] at hresults
    rw [hresults]
    exact h.knows
  | poll side choice => exact h.poll side choice
  | timeout =>
    obtain ⟨directions,guard⟩ := s
    cases guard with
    | select => exact h
    | second side first => exact ⟨h.direction,trivial⟩
    | returned r => exact h

theorem sound_run (x : Setup) (es : List RelayEvent) :
    (run Relay.step (relayBidirectional x) es).Sound :=
  run_invariant (fun _ e h => h.step e) (sound_relayBidirectional x) es

end Relay

/-- Whatever the kernel and the peers do, with either way to move the bytes: a direction that
returns `Ok` has delivered all that its source gave and returns the number; a write side is shut
down only after that; the relay returns the client's number first. -/
theorem relay_delivers (x : Setup) (es : List RelayEvent) :
    (∀ side t,(run Relay.step (relayBidirectional x) es).results side=some (.ok t) →
      ((run Relay.step (relayBidirectional x) es).directions side).conduit.Complete ∧ t=UInt64.ofNat
          ((run Relay.step (relayBidirectional x) es).directions side).conduit.produced.length) ∧
    (∀ side,((run Relay.step (relayBidirectional x) es).directions side).conduit.shut=true →
      ((run Relay.step (relayBidirectional x) es).directions side).conduit.Complete) ∧
    (∀ a b,(run Relay.step (relayBidirectional x) es).guard=.returned (.ok (a,b)) →
      (run Relay.step (relayBidirectional x) es).results .up=some (.ok a) ∧
        (run Relay.step (relayBidirectional x) es).results .down=some (.ok b)) := by
  have hsound := Relay.sound_run x es
  generalize run Relay.step (relayBidirectional x) es=s at hsound
  refine ⟨?_,?_,?_⟩
  · intro side t ht
    obtain ⟨hcomplete,hnumber,-⟩ := (hsound.direction side).reported ht
    exact ⟨hcomplete,hnumber⟩
  · intro side hshut
    exact (hsound.direction side).complete_of_shut hshut
  · intro a b hguard
    have hknows := hsound.knows
    rw [hguard] at hknows
    exact hknows

def sampleEvents : List RelayEvent :=
  [.source .up (.produce [1,2,3]),.poll .up (.move 2),.poll .up (.move 1),.poll .up .block,
    .source .down (.produce [8,9]),.source .down .close,.poll .down (.move 5),
    .poll .up (.move 1),.poll .down (.move 5),.poll .down (.move 1),.poll .down (.move 1),
    .source .up .close,.poll .up (.move 7),.poll .up (.move 1),.poll .up (.move 0),
    .poll .up (.move 0)]

def sampleSetup (pipes : Bool) : Setup := ⟨pipes,pipes,⟨none,none⟩,⟨none,none⟩⟩

theorem relay_delivers_sample :
    ((run Relay.step (relayBidirectional (sampleSetup true)) sampleEvents).guard =
        .returned (.ok (3,2)) ∧
      ((run Relay.step (relayBidirectional (sampleSetup true)) sampleEvents).directions
        .up).conduit.Complete) ∧
    ((run Relay.step (relayBidirectional (sampleSetup false)) sampleEvents).guard =
        .returned (.ok (3,2)) ∧
      ((run Relay.step (relayBidirectional (sampleSetup false)) sampleEvents).directions
        .down).conduit.Complete) := by
  have hspliced := relay_delivers (sampleSetup true) sampleEvents
  have hbuffered := relay_delivers (sampleSetup false) sampleEvents
  have hup := (hspliced.2.2 3 2 rfl).1
  have hdown := (hbuffered.2.2 3 2 rfl).2
  exact ⟨⟨rfl,(hspliced.1 .up 3 hup).1⟩,rfl,(hbuffered.1 .down 2 hdown).1⟩

end DaeRs.TcpRelay
