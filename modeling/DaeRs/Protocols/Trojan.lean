import DaeRs.Lib.Channels
import DaeRs.Lib.Octets
import DaeRs.Net.Parse

/-! The Trojan dialer: the request header, and calls that open a TLS connection each to send it. -/

namespace DaeRs.Trojan

open Channels Net Octets RustStr Function

inductive TrojanError where
  | protocolError (message : String)
  deriving DecidableEq

def splitTarget (target : String) : Except TrojanError (String×Nat) :=
  match rsplitOnce target ':' with
  | none => .error (.protocolError s!"invalid target '{target}'")
  | some (host,port) =>
    match fromStrRadix 10 65535 port with
    | .error _ => .error (.protocolError s!"invalid target port '{target}'")
    | .ok port =>
      match host.toList with
      | '[' :: rest =>
        if rest.getLast?=some ']' then .ok (String.ofList rest.dropLast,port) else .ok (host,port)
      | _ => .ok (host,port)

def encodeAddr (host : String) (port : Nat) : List UInt8 :=
  match parseIpv4Addr host,parseIpv6Addr host with
  | some ip,_ => 0x01::toBE 4 ip.toNat++toBE 2 port
  | none,some ip => 0x04::toBE 16 ip.toNat++toBE 2 port
  | none,none => 0x03::UInt8.ofNat (utf8 host).length::utf8 host++toBE 2 port

def crlf : List UInt8 := [0x0D,0x0A]

def buildHeader (authHash : String) (cmd : UInt8) (host : String) (port : Nat) : List UInt8 :=
  crlf++utf8 authHash++crlf++[cmd]++crlf++encodeAddr host port++crlf

inductive Call where
  | dial (target : String)
  | udpDial
  deriving DecidableEq

def Call.header (authHash : String) : Call → Except TrojanError (List UInt8)
  | .dial target => do
    let (host,port) ← splitTarget target
    return buildHeader authHash 0x01 host port
  | .udpDial => .ok (buildHeader authHash 0x03 "0.0.0.0" 0)

/-- Where a call stands. -/
inductive DialPc where
  | idle
  | connecting (call : Call)
  | handshaking (call : Call)
  | established (call : Call) (conn : Nat)
  | returned (ok : Bool)
  deriving DecidableEq

/-- The calls of a dialer, which share no connection; `fresh` numbers the TLS connections. -/
structure TrojanDialer where
  fresh : Nat
  tasks : Nat → DialPc

inductive DialEvent where
  | start (task : Nat) (call : Call)
  | connect (task : Nat) (ok : Bool)
  /-- `tls_handshake` returns -/
  | handshake (task : Nat) (ok : Bool)
  /-- the header is built and written; `ok` is the outcome of the write and of what follows it -/
  | write (task : Nat) (ok : Bool)
  | cancel (task : Nat)

namespace TrojanDialer

def new : TrojanDialer := ⟨0,fun _ => .idle⟩

variable (s : TrojanDialer)

def goTo (task : Nat) (pc : DialPc) : TrojanDialer :=
  { s with tasks := update s.tasks task pc }

def connect (task : Nat) (call : Call) (ok : Bool) : TrojanDialer :=
  s.goTo task (if ok then .handshaking call else .returned false)

def handshake (task : Nat) (call : Call) (ok : Bool) : TrojanDialer :=
  if ok then { s with fresh := s.fresh+1 }.goTo task (.established call s.fresh)
  else s.goTo task (.returned false)

def write (authHash : String) (task : Nat) (call : Call) (ok : Bool) :
    TrojanDialer :=
  match call.header authHash with
  | .ok _ => s.goTo task (.returned ok)
  | .error _ => s.goTo task (.returned false)

def step (authHash : String) (s : TrojanDialer) (e : DialEvent) : TrojanDialer :=
  match e with
  | .start task call =>
    match s.tasks task with
    | .idle => s.goTo task (.connecting call)
    | _ => s
  | .connect task ok =>
    match s.tasks task with
    | .connecting call => s.connect task call ok
    | _ => s
  | .handshake task ok =>
    match s.tasks task with
    | .handshaking call => s.handshake task call ok
    | _ => s
  | .write task ok =>
    match s.tasks task with
    | .established call _ => s.write authHash task call ok
    | _ => s
  | .cancel task =>
    match s.tasks task with
    | .returned _ => s
    | _ => s.goTo task (.returned false)

end TrojanDialer

def DialEvent.refuse : DialEvent → DialEvent
  | .handshake task _ => .handshake task false
  | e => e

def DialEvent.Completes (e : DialEvent) : Prop := ∃ task,e=.handshake task true

theorem DialEvent.completes_refuse (e : DialEvent) : ¬e.refuse.Completes := by
  intro h
  obtain ⟨task,h⟩ := h
  cases e <;> nomatch h

namespace TrojanDialer

variable (authHash : String) (s : TrojanDialer)

def sends : DialEvent → Option Nat
  | .write task _ =>
    match s.tasks task with
    | .established call conn => if (call.header authHash).toOption.isSome then some conn else none
    | _ => none
  | _ => none

def Reaches (conn : Nat) : Prop := ∃ task call,s.tasks task=.established call conn

theorem reaches_goTo {s : TrojanDialer} {task : Nat} {pc : DialPc} {conn : Nat}
    (h : (s.goTo task pc).Reaches conn) : s.Reaches conn ∨ ∃ call,pc=.established call conn := by
  obtain ⟨other,call,hcall⟩ := h
  change update s.tasks task pc other=_ at hcall
  by_cases hother : other=task
  · rw [hother,update_self] at hcall
    exact Or.inr ⟨call,hcall⟩
  · rw [update_of_ne hother] at hcall
    exact Or.inl ⟨other,call,hcall⟩

theorem kept_goTo (task : Nat) {pc : DialPc} (hpc : ∀ call conn,pc≠.established call conn) :
    Kept fresh Reaches s (s.goTo task pc) := by
  refine ⟨rfl,fun conn h => ?_⟩
  rcases reaches_goTo h with h | ⟨call,h⟩
  · exact h
  · exact absurd h (hpc call conn)

theorem opened_handshake (task : Nat) (call : Call) :
    Opened fresh Reaches s (s.handshake task call true) := by
  refine ⟨rfl,fun conn h => ?_⟩
  rcases reaches_goTo h with h | ⟨_,h⟩
  · exact Or.inl h
  · cases h
    exact Or.inr rfl

theorem step_cases (e : DialEvent) : Kept fresh Reaches s (s.step authHash e) ∨
      (e.Completes ∧ Opened fresh Reaches s (s.step authHash e)) := by
  cases e <;> unfold step <;> dsimp only
  case start task call =>
    split
    · exact Or.inl (s.kept_goTo task nofun)
    · exact Or.inl (.refl _ _ s)
  case connect task ok =>
    split
    · cases ok <;> exact Or.inl (s.kept_goTo task nofun)
    · exact Or.inl (.refl _ _ s)
  case handshake task ok =>
    split
    · next call _ =>
      cases ok with
      | true => exact Or.inr ⟨⟨task,rfl⟩,s.opened_handshake task call⟩
      | false => exact Or.inl (s.kept_goTo task nofun)
    · exact Or.inl (.refl _ _ s)
  case write task ok =>
    split
    · unfold write
      split <;> exact Or.inl (s.kept_goTo task nofun)
    · exact Or.inl (.refl _ _ s)
  case cancel task =>
    split
    · exact Or.inl (.refl _ _ s)
    · exact Or.inl (s.kept_goTo task nofun)

theorem reaches_of_sends (e : DialEvent) (conn : Nat)
    (h : s.sends authHash e=some conn) : s.Reaches conn := by
  unfold sends at h
  split at h
  · split at h
    · next hcall =>
      split_ifs at h
      cases h
      exact ⟨_,_,hcall⟩
    · nomatch h
  · nomatch h

theorem not_reaches_new (conn : Nat) : ¬new.Reaches conn := by
  intro h
  obtain ⟨_,_,h⟩ := h
  nomatch h

def machine : Machine TrojanDialer DialEvent where
  init := new
  step := step authHash
  fresh := fresh
  Reaches := Reaches
  Completes := DialEvent.Completes
  refuse := DialEvent.refuse
  sends := sends authHash
  fresh_init := rfl
  reaches_init := not_reaches_new
  step_cases := step_cases authHash
  completes_refuse := DialEvent.completes_refuse
  reaches_of_sends := reaches_of_sends authHash

end TrojanDialer

end DaeRs.Trojan
