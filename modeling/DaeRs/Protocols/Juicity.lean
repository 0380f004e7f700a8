import Mathlib.Logic.Function.Basic
import DaeRs.Lib.Runs

/-! The connection pool of a Juicity dialer, shared by concurrent `dial` and `udp_dial` calls. -/

namespace DaeRs.Juicity

open Runs

def maxStreamsPerConn : UInt32 := 30

/-- A connection of the pool, with its streams. -/
structure JuicityConnState where
  conn : Nat
  authenticated : Bool
  streamCount : UInt32
  deriving DecidableEq

/-- Where a handle is stored: in a slot of the pool, or in the frame of a call. -/
inductive Place where
  | slot (i : Nat)
  | frame (task : Nat)
  deriving DecidableEq

def ptrEq (a b : Place) : Bool := a==b

inductive Kind where
  | dial
  | udpDial
  deriving DecidableEq

/-- Where a call stands. -/
inductive DialPc where
  | idle
  | connecting (kind : Kind)
  | connected (kind : Kind) (conn : Nat)
  | picked (kind : Kind) (conn : Nat)
  | opening (kind : Kind) (conn : Nat)
  | counting (kind : Kind) (conn : Nat)
  | writing (conn : Nat)
  | returned (ok : Bool)
  deriving DecidableEq

inductive Sent where
  | authenticate (conn : Nat)
  | stream (conn : Nat)
  deriving DecidableEq

/-- The pool, the calls, and what was sent. -/
structure JuicityDialer where
  pool : List JuicityConnState
  closed : List Nat
  fresh : Nat
  tasks : Nat → DialPc
  log : List Sent

inductive DialEvent where
  | start (task : Nat) (kind : Kind)
  | handshake (task : Nat) (ok : Bool)
  | store (task : Nat)
  | timeout (task : Nat)
  | authenticate (task : Nat) (ok : Bool)
  | openBi (task : Nat) (ok : Bool)
  | count (task : Nat)
  | write (task : Nat) (ok : Bool)
  | close (conn : Nat)

namespace JuicityDialer

def new : JuicityDialer := ⟨[],[],0,fun _ => .idle,[]⟩

variable (s : JuicityDialer) (task : Nat) (kind : Kind) (conn : Nat)

def goTo (pc : DialPc) : JuicityDialer := { s with tasks := Function.update s.tasks task pc }

def alive : Bool := !s.closed.contains conn

def retain : List JuicityConnState := s.pool.filter fun c => s.alive c.conn

def usable : Option Nat :=
  (s.retain.find? fun c => s.alive c.conn && decide (c.streamCount < maxStreamsPerConn)).map
    JuicityConnState.conn

/-- The slot that the loop over the pool recognises as the call's connection. -/
def ownSlot (cond : JuicityConnState → Bool) : Option Nat :=
  (s.pool.zipIdx.find? fun c => cond c.1 && ptrEq (.slot c.2) (.frame task)).map Prod.snd

def setPool (pool : List JuicityConnState) : JuicityDialer := { s with pool := pool }

def record (x : Sent) : JuicityDialer := { s with log := s.log++[x] }

def start : JuicityDialer :=
  match s.usable with
  | some conn => (s.setPool s.retain).goTo task (.picked kind conn)
  | none => (s.setPool s.retain).goTo task (.connecting kind)

def handshake (ok : Bool) : JuicityDialer :=
  if ok then { s with fresh := s.fresh+1 }.goTo task (.connected kind s.fresh)
  else s.goTo task (.returned false)

def store : JuicityDialer :=
  match s.usable with
  | some conn' => (s.setPool s.retain).goTo task (.picked kind conn')
  | none => (s.setPool (s.retain++[⟨conn,false,0⟩])).goTo task (.picked kind conn)

/-- `authenticate` for a slot of the pool, unless it is marked. -/
def authenticateSlot (i : Nat) (task : Nat) (kind : Kind) (conn : Nat)
    (ok : Bool) : JuicityDialer :=
  if (s.pool.map JuicityConnState.authenticated).getD i false then s.goTo task (.opening kind conn)
  else if ok then
    ((s.record (.authenticate conn)).setPool
      (s.pool.modify i fun c => { c with authenticated := true })).goTo task (.opening kind conn)
  else s.goTo task (.returned false)

def authenticate (ok : Bool) :
    JuicityDialer :=
  match s.ownSlot task fun c => s.alive c.conn with
  | some i => s.authenticateSlot i task kind conn ok
  | none => s.goTo task (.opening kind conn)

def openBi (ok : Bool) :
    JuicityDialer :=
  if ok && s.alive conn then (s.record (.stream conn)).goTo task (.counting kind conn)
  else s.goTo task (.returned false)

def countSlot : Option Nat → JuicityDialer
  | some i => s.setPool (s.pool.modify i fun c => { c with streamCount := c.streamCount+1 })
  | none => s

/-- A `dial` has a header to write, a `udp_dial` returns. -/
def afterCount : Kind → DialPc
  | .dial => .writing conn
  | .udpDial => .returned true

def count : JuicityDialer :=
  (s.countSlot (s.ownSlot task fun _ => true)).goTo task (afterCount conn kind)

def step (e : DialEvent) : JuicityDialer :=
  match e with
  | .close conn => { s with closed := conn::s.closed }
  | .start task kind =>
    match s.tasks task with
    | .idle => s.start task kind
    | _ => s
  | .handshake task ok =>
    match s.tasks task with
    | .connecting kind => s.handshake task kind ok
    | _ => s
  | .store task =>
    match s.tasks task with
    | .connected kind conn => s.store task kind conn
    | _ => s
  | .timeout task =>
    match s.tasks task with
    | .connecting _ => s.goTo task (.returned false)
    | .connected _ _ => s.goTo task (.returned false)
    | _ => s
  | .authenticate task ok =>
    match s.tasks task with
    | .picked kind conn => s.authenticate task kind conn ok
    | _ => s
  | .openBi task ok =>
    match s.tasks task with
    | .opening kind conn => s.openBi task kind conn ok
    | _ => s
  | .count task =>
    match s.tasks task with
    | .counting kind conn => s.count task kind conn
    | _ => s
  | .write task ok =>
    match s.tasks task with
    | .writing _ => s.goTo task (.returned ok)
    | _ => s

end JuicityDialer

/-- Every stream is on a connection with Authenticate in front, Authenticate was sent once, and no
connection carries too many streams. -/
structure Lawful (log : List Sent) : Prop where
  authenticated : ∀ pre conn post,log=pre++.stream conn::post → .authenticate conn∈pre
  once : ∀ conn,log.count (.authenticate conn)≤1
  bounded : ∀ conn,log.count (.stream conn) ≤ maxStreamsPerConn.toNat

namespace JuicityDialer

variable (s : JuicityDialer)

def Opens : DialEvent → Prop
  | .openBi task ok => ∃ kind conn,s.tasks task=.opening kind conn ∧ ok=true ∧ s.alive conn=true
  | _ => False

variable (task : Nat) (kind : Kind)

theorem ownSlot_eq_none (cond : JuicityConnState → Bool) : s.ownSlot task cond=none := by
  unfold ownSlot
  rw [Option.map_eq_none_iff,List.find?_eq_none]
  intro c hc
  have hne : ptrEq (.slot c.2) (.frame task)=false := rfl
  rw [hne,Bool.and_false]
  exact Bool.false_ne_true

theorem authenticate_eq (conn : Nat) (ok : Bool) :
    s.authenticate task kind conn ok=s.goTo task (.opening kind conn) := by
  rw [authenticate,ownSlot_eq_none]

theorem count_eq (conn : Nat) : s.count task kind conn=s.goTo task (afterCount conn kind) := by
  rw [count,ownSlot_eq_none,countSlot]

theorem start_log : (s.start task kind).log=s.log := by
  unfold start
  split
  · rfl
  · rfl

theorem store_log (conn : Nat) : (s.store task kind conn).log=s.log := by
  unfold store
  split
  · rfl
  · rfl

theorem handshake_log (ok : Bool) : (s.handshake task kind ok).log=s.log := by
  unfold handshake
  split
  · rfl
  · rfl

theorem step_log {s : JuicityDialer} {e : DialEvent} (h : ¬s.Opens e) : (s.step e).log=s.log := by
  cases e <;> unfold step <;> dsimp only
  case start task kind =>
    split
    · exact start_log s task kind
    · rfl
  case handshake task ok =>
    split
    · exact handshake_log s task _ ok
    · rfl
  case store task =>
    split
    · exact store_log s task _ _
    · rfl
  case authenticate task ok =>
    split
    · rw [authenticate_eq]
      rfl
    · rfl
  case openBi task ok =>
    split
    · next kind conn htask =>
      have hfails : ¬(ok && s.alive conn)=true := by
        intro hok
        obtain ⟨hok,halive⟩ := Bool.and_eq_true_iff.mp hok
        exact h ⟨kind,conn,htask,hok,halive⟩
      rw [openBi,if_neg hfails]
      rfl
    · rfl
  case count task =>
    split
    · rw [count_eq]
      rfl
    · rfl
  -- the other events only move a call
  case timeout task => split <;> rfl
  case write task ok => split <;> rfl

theorem step_log_opens {s : JuicityDialer} {e : DialEvent} (h : s.Opens e) :
    ∃ conn,(s.step e).log=s.log++[.stream conn] := by
  cases e with
  | openBi task ok =>
    obtain ⟨kind,conn,htask,hok,halive⟩ := h
    refine ⟨conn,?_⟩
    unfold step
    dsimp only
    rw [htask]
    dsimp only
    rw [openBi,hok,halive]
    rfl
  | _ => exact absurd h id

end JuicityDialer

theorem lawful_nil : Lawful [] where
  authenticated pre conn post h := by cases pre <;> cases h
  once _ := Nat.zero_le _
  bounded _ := Nat.zero_le _

theorem not_lawful_stream (conn : Nat) : ¬Lawful [.stream conn] := by
  intro h
  exact List.not_mem_nil (h.authenticated [] conn [] rfl)

/-- Whatever calls and closures are interleaved, the dialer is lawful just as long as it opens no
stream. -/
theorem lawful_iff_no_stream (es : List DialEvent) :
    Along JuicityDialer.step (fun s e => Lawful (s.step e).log) .new es ↔
      Along JuicityDialer.step (fun s e => ¬s.Opens e) .new es := by
  refine along_iff_along (fun s => s.log=[]) ?_ ?_ rfl
  · intro e _ s hs
    by_cases hopens : s.Opens e
    · obtain ⟨conn,hlog⟩ := JuicityDialer.step_log_opens hopens
      rw [hlog,hs,List.nil_append]
      exact iff_of_false (not_lawful_stream conn) (not_not.mpr hopens)
    · rw [JuicityDialer.step_log hopens,hs]
      exact iff_of_true lawful_nil hopens
  · intro e _ s hs hopens
    rw [JuicityDialer.step_log hopens,hs]

def dialAgain (task : Nat) : List DialEvent :=
  [.start task .dial,.authenticate task true,.openBi task true,.count task,.write task true]

def dials (n : Nat) : List DialEvent :=
  [.start 0 .dial,.handshake 0 true,.store 0,.authenticate 0 true,.openBi 0 true,.count 0,
    .write 0 true]++(List.range n).flatMap fun i => dialAgain (i+1)

/-- Thirty-one dials, one after the other: all streams are on one connection, and nothing was
authenticated. -/
theorem streams_on_one_connection : (run JuicityDialer.step .new (dials 0)).log=[.stream 0] ∧
      (run JuicityDialer.step .new (dials 30)).log=List.replicate 31 (.stream 0) :=
  ⟨by decide,by decide +kernel⟩

end DaeRs.Juicity
