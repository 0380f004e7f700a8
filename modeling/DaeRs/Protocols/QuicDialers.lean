import DaeRs.Lib.Channels
import DaeRs.Protocols.Addressing
import DaeRs.Protocols.Juicity
import DaeRs.Protocols.Tuic.Dialer

/-! The QUIC connections that TUIC and Juicity dialers make and send on. -/

namespace DaeRs.Quic

/-- An event of a call, or a datagram that is sent through a UDP session of a connection. -/
inductive Act (ε : Type) where
  | call (e : ε)
  | packet (conn : Nat)

end DaeRs.Quic

namespace DaeRs.Tuic

open Channels Quic Function

def gate (uuid : String) : DialEvent → DialEvent
  | .authenticate task ok => .authenticate task (ok && (parseUuid uuid).isSome)
  | e => e

def refuse : Act DialEvent → Act DialEvent
  | .call (.handshake task _) => .call (.handshake task false)
  | e => e

def Completes (e : Act DialEvent) : Prop := ∃ task,e=.call (.handshake task true)

theorem completes_refuse (e : Act DialEvent) : ¬Completes (refuse e) := by
  intro h
  obtain ⟨task,h⟩ := h
  cases e with
  | call e => cases e <;> nomatch h
  | packet conn => nomatch h

def DialPc.conn : DialPc → Option Nat
  | .connected _ conn | .picked _ conn | .authenticating _ conn | .opening conn | .writing conn =>
    some conn
  | .idle | .connecting _ | .returned _ => none

namespace TuicDialer

variable (uuid : String)

/-- The connection that Authenticate, a Connect header or the header of a packet is sent on. -/
def sends (s : TuicDialer) : Act DialEvent → Option Nat
  | .call (.authenticate task _) =>
    match s.tasks task with
    | .authenticating _ conn => if (parseUuid uuid).isSome then some conn else none
    | _ => none
  | .call (.write task _) =>
    match s.tasks task with
    | .writing conn => some conn
    | _ => none
  | .call _ => none
  | .packet conn => if .session conn∈s.log then some conn else none

def act (s : TuicDialer) : Act DialEvent → TuicDialer
  | .call e => s.step (gate uuid e)
  | .packet _ => s

inductive Reaches (s : TuicDialer) (conn : Nat) : Prop
  | stored {q : QuinnConnection} (hq : s.state=some q) (hconn : q.conn=conn)
  | call {task : Nat} (hconn : (s.tasks task).conn=some conn)
  | session (hlog : .session conn∈s.log)

variable {s : TuicDialer} {conn : Nat}

theorem reaches_only (hconn : s.Reaches conn) : ∀ c,some conn=some c → s.Reaches c := by
  rintro c ⟨⟩
  exact hconn

theorem reaches_goTo {task : Nat} {pc : DialPc}
    (h : (s.goTo task pc).Reaches conn) : s.Reaches conn ∨ pc.conn=some conn := by
  cases h with
  | stored hq hconn => exact Or.inl (.stored hq hconn)
  | @call other hconn =>
    change (update s.tasks task pc other).conn=_ at hconn
    by_cases hother : other=task
    · rw [hother,update_self] at hconn
      exact Or.inr hconn
    · rw [update_of_ne hother] at hconn
      exact Or.inl (.call hconn)
  | session hlog => exact Or.inl (.session hlog)

variable {r : TuicDialer}

theorem Reaches.of_frame (h : r.Reaches conn)
    (hstate : ∀ q,r.state=some q → s.Reaches q.conn) (htasks : r.tasks=s.tasks)
    (hlog : r.log=s.log) : s.Reaches conn := by
  cases h with
  | stored hq hconn =>
    rw [← hconn]
    exact hstate _ hq
  | call hconn =>
    rw [htasks] at hconn
    exact .call hconn
  | session hmem =>
    rw [hlog] at hmem
    exact .session hmem

theorem reaches_stored (s : TuicDialer) (q : QuinnConnection) (hq : s.state=some q) :
    s.Reaches q.conn := .stored hq rfl

theorem kept_goTo (hr : Kept fresh Reaches s r) (task : Nat) {pc : DialPc}
    (hpc : ∀ conn,pc.conn=some conn → s.Reaches conn) :
    Kept fresh Reaches s (r.goTo task pc) := by
  refine ⟨hr.fresh_eq,fun conn h => ?_⟩
  rcases reaches_goTo h with h | h
  · exact hr.reaches conn h
  · exact hpc conn h

theorem kept_record (hr : Kept fresh Reaches s r) (x : Sent)
    (hx : ∀ conn,x=.session conn → s.Reaches conn) : Kept fresh Reaches s (r.record x) := by
  refine ⟨hr.fresh_eq,fun c h => ?_⟩
  cases h with
  | stored hq hc => exact hr.reaches c (.stored hq hc)
  | call hc => exact hr.reaches c (.call hc)
  | session hlog =>
    rcases List.mem_append.mp hlog with hlog | hlog
    · exact hr.reaches c (.session hlog)
    · exact hx c (List.mem_singleton.mp hlog).symm

theorem kept_proceed (hr : Kept fresh Reaches s r) (task : Nat) (kind : Kind)
    (hconn : s.Reaches conn) : Kept fresh Reaches s (r.proceed task kind conn) := by
  cases kind with
  | dial =>
    exact kept_goTo hr task (reaches_only hconn)
  | udpDial =>
    refine kept_goTo (kept_record hr _ fun c hc => ?_) task nofun
    cases hc
    exact hconn

theorem reaches_existing (h : s.existing=some conn) : s.Reaches conn := by
  obtain ⟨q,hq,hconn⟩ := existing_eq_some h
  exact .stored hq hconn

section Calls

variable (s) (task : Nat) (kind : Kind)

theorem kept_start : Kept fresh Reaches s (s.start task kind) := by
  unfold start
  split
  · next conn hconn =>
    exact kept_goTo (.refl _ _ s) task (reaches_only (reaches_existing hconn))
  · exact kept_goTo (.refl _ _ s) task nofun

theorem kept_unlock : Kept fresh Reaches s s.unlock :=
  ⟨rfl,fun _ h => h.of_frame s.reaches_stored rfl rfl⟩

theorem kept_mark : Kept fresh Reaches s s.mark := by
  refine ⟨rfl,fun c h => h.of_frame (fun q hq => ?_) rfl rfl⟩
  obtain ⟨q',hq',hq⟩ := Option.map_eq_some_iff.mp hq
  rw [← hq]
  exact .stored hq' rfl

theorem opened_handshake : Opened fresh Reaches s (s.handshake task kind true) := by
  refine ⟨rfl,fun conn h => ?_⟩
  rcases reaches_goTo h with h | h
  · exact Or.inl (h.of_frame s.reaches_stored rfl rfl)
  · cases h
    exact Or.inr rfl

variable (hconn : s.Reaches conn)
include hconn

theorem kept_store : Kept fresh Reaches s (s.store task kind conn) := by
  unfold store
  split
  · next conn' hconn' =>
    exact kept_goTo (.refl _ _ s) task (reaches_only (reaches_existing hconn'))
  · have hstored : Kept fresh Reaches s { s with state := some ⟨conn,false⟩ } := by
      refine ⟨rfl,fun c h => h.of_frame (fun q hq => ?_) rfl rfl⟩
      cases hq
      exact hconn
    exact kept_goTo hstored task (reaches_only hconn)

theorem kept_check : Kept fresh Reaches s (s.check task kind conn) := by
  unfold check
  split
  · split
    · exact kept_proceed (.refl _ _ s) task kind hconn
    · have hlock : Kept fresh Reaches s { s with lock := some task } :=
        ⟨rfl,fun _ h => h.of_frame s.reaches_stored rfl rfl⟩
      exact kept_goTo hlock task (reaches_only hconn)
  · exact kept_proceed (.refl _ _ s) task kind hconn

theorem kept_authenticate (ok : Bool) :
    Kept fresh Reaches s (s.authenticate task kind conn ok) := by
  unfold authenticate
  split
  · have hmark := s.kept_unlock.trans s.unlock.kept_mark
    exact kept_proceed (kept_record hmark (.authenticate conn) nofun) task kind hconn
  · exact kept_goTo s.kept_unlock task nofun

theorem kept_openBi (ok : Bool) : Kept fresh Reaches s (s.openBi task conn ok) := by
  unfold openBi
  split
  · have hrecord := kept_record (.refl _ _ s) (.connect conn) nofun
    exact kept_goTo hrecord task (reaches_only hconn)
  · exact kept_goTo (.refl _ _ s) task nofun

end Calls

theorem step_cases (s : TuicDialer) (e : DialEvent) : Kept fresh Reaches s (s.step e) ∨
      ((∃ task,e=.handshake task true) ∧ Opened fresh Reaches s (s.step e)) := by
  have hcall {task : Nat} {pc : DialPc} {conn : Nat} (htask : s.tasks task=pc)
      (hpc : pc.conn=some conn) : s.Reaches conn := by
    rw [← htask] at hpc
    exact .call hpc
  cases e <;> unfold step <;> dsimp only
  case handshake task ok =>
    split
    · next kind _ =>
      cases ok with
      | true => exact Or.inr ⟨⟨task,rfl⟩,s.opened_handshake task kind⟩
      | false => exact Or.inl (kept_goTo (.refl _ _ s) task nofun)
    · exact Or.inl (.refl _ _ s)
  all_goals refine Or.inl ?_
  case close conn =>
    exact ⟨rfl,fun _ h => h.of_frame s.reaches_stored rfl rfl⟩
  case start task kind =>
    split
    · exact s.kept_start task kind
    · exact .refl _ _ s
  case store task =>
    split
    · next htask _ => exact s.kept_store task _ (hcall htask rfl)
    · exact .refl _ _ s
  case check task =>
    split
    · next htask _ => exact s.kept_check task _ (hcall htask rfl)
    · exact .refl _ _ s
  case authenticate task ok =>
    split
    · next htask => exact s.kept_authenticate task _ (hcall htask rfl) ok
    · exact .refl _ _ s
  case openBi task ok =>
    split
    · next htask => exact s.kept_openBi task (hcall htask rfl) ok
    · exact .refl _ _ s
  case write task ok =>
    split
    · exact kept_goTo (.refl _ _ s) task nofun
    · exact .refl _ _ s
  case cancel task =>
    split
    · exact kept_goTo s.kept_unlock task nofun
    · exact .refl _ _ s
    · exact kept_goTo (.refl _ _ s) task nofun

theorem act_cases (s : TuicDialer) (e : Act DialEvent) : Kept fresh Reaches s (s.act uuid e) ∨
      (Completes e ∧ Opened fresh Reaches s (s.act uuid e)) := by
  cases e with
  | call e =>
    rcases step_cases s (gate uuid e) with h | ⟨⟨task,he⟩,h⟩
    · exact Or.inl h
    · refine Or.inr ⟨⟨task,?_⟩,h⟩
      cases e <;> cases he
      rfl
  | packet conn => exact Or.inl (.refl _ _ s)

theorem reaches_of_sends (s : TuicDialer) (e : Act DialEvent) (conn : Nat)
    (h : s.sends uuid e=some conn) : s.Reaches conn := by
  unfold sends at h
  split at h
  · split at h
    · next htask =>
      split_ifs at h
      cases h
      exact .call (by rw [htask]; rfl)
    · nomatch h
  · split at h
    · next htask =>
      cases h
      exact .call (by rw [htask]; rfl)
    · nomatch h
  · nomatch h
  · split_ifs at h with hlog
    cases h
    exact .session hlog

theorem not_reaches_new (conn : Nat) : ¬new.Reaches conn := by
  intro h
  cases h with
  | stored hq _ => nomatch hq
  | call hconn => nomatch hconn
  | session hlog => nomatch hlog

/-- Nothing was authenticated, and no call is past the check. -/
structure Silent (s : TuicDialer) : Prop where
  unmarked : ∀ q,s.state=some q → q.authenticated=false
  stored : ∀ task kind conn,s.tasks task=.picked kind conn → s.state≠none
  opening : ∀ task conn,s.tasks task≠.opening conn
  writing : ∀ task conn,s.tasks task≠.writing conn
  log : s.log=[]

theorem Silent.new : new.Silent := ⟨nofun,nofun,nofun,nofun,rfl⟩

theorem Silent.goTo (h : s.Silent) (task : Nat) (pc : DialPc)
    (hpicked : ∀ kind conn,pc=.picked kind conn → s.state≠none)
    (hopening : ∀ conn,pc≠.opening conn) (hwriting : ∀ conn,pc≠.writing conn) :
    (s.goTo task pc).Silent := by
  have hcases (other : Nat) : (s.goTo task pc).tasks other=pc ∨
      (s.goTo task pc).tasks other=s.tasks other := by
    by_cases hother : other=task
    · rw [hother]
      exact Or.inl (update_self ..)
    · exact Or.inr (update_of_ne hother ..)
  refine ⟨h.unmarked,fun other kind conn hother => ?_,fun other conn hother => ?_,
    fun other conn hother => ?_,h.log⟩
  · rcases hcases other with heq | heq
    · exact hpicked kind conn (heq ▸ hother)
    · exact h.stored other kind conn (heq ▸ hother)
  · rcases hcases other with heq | heq
    · exact hopening conn (heq ▸ hother)
    · exact h.opening other conn (heq ▸ hother)
  · rcases hcases other with heq | heq
    · exact hwriting conn (heq ▸ hother)
    · exact h.writing other conn (heq ▸ hother)

theorem Silent.returned (h : s.Silent) (task : Nat) (ok : Bool) :
    (s.goTo task (.returned ok)).Silent :=
  h.goTo task (.returned ok) nofun nofun nofun

theorem Silent.unlock (h : s.Silent) : s.unlock.Silent :=
  ⟨h.unmarked,h.stored,h.opening,h.writing,h.log⟩

theorem Silent.existing (h : s.Silent) (task : Nat) (kind : Kind)
    (hconn : s.existing=some conn) : (s.goTo task (.picked kind conn)).Silent := by
  obtain ⟨q,hq,-⟩ := existing_eq_some hconn
  refine h.goTo task (.picked kind conn) (fun _ _ _ => ?_) nofun nofun
  rw [hq]
  nofun

theorem Silent.store (h : s.Silent) (task : Nat) (kind : Kind) (conn : Nat) :
    (s.store task kind conn).Silent := by
  unfold TuicDialer.store
  split
  · next conn' hconn => exact h.existing task kind hconn
  · have hstored : ({ s with state := some ⟨conn,false⟩ } : TuicDialer).Silent := by
      refine ⟨fun q hq => ?_,nofun,h.opening,h.writing,h.log⟩
      cases hq
      rfl
    exact hstored.goTo task (.picked kind conn) nofun nofun nofun

theorem Silent.check (h : s.Silent) {task : Nat} {kind : Kind}
    (htask : s.tasks task=.picked kind conn) : (s.check task kind conn).Silent := by
  unfold TuicDialer.check
  split
  · next q hq =>
    have hlock : ({ s with lock := some task } : TuicDialer).Silent :=
      ⟨h.unmarked,h.stored,h.opening,h.writing,h.log⟩
    rw [h.unmarked q hq]
    exact hlock.goTo task (.authenticating kind conn) nofun nofun nofun
  · next hnone => exact absurd hnone (h.stored task kind conn htask)

theorem Silent.act {uuid : String} (huuid : parseUuid uuid=none) (h : s.Silent)
    (e : Act DialEvent) : (s.act uuid e).Silent := by
  cases e with
  | packet conn => exact h
  | call e =>
    cases e <;> unfold TuicDialer.act gate TuicDialer.step <;> dsimp only
    case close conn => exact ⟨h.unmarked,h.stored,h.opening,h.writing,h.log⟩
    case start task kind =>
      split
      · unfold TuicDialer.start
        split
        · next conn hconn => exact h.existing task kind hconn
        · exact h.goTo task (.connecting kind) nofun nofun nofun
      · exact h
    case handshake task ok =>
      split
      · next kind _ =>
        have hfresh : ({ s with fresh := s.fresh+1 } : TuicDialer).Silent :=
          ⟨h.unmarked,h.stored,h.opening,h.writing,h.log⟩
        cases ok with
        | true => exact hfresh.goTo task (.connected kind s.fresh) nofun nofun nofun
        | false => exact h.returned task false
      · exact h
    case store task =>
      split
      · exact h.store task _ _
      · exact h
    case check task =>
      split
      · next htask _ => exact h.check htask
      · exact h
    case authenticate task ok =>
      split
      · rw [huuid,Option.isSome_none,Bool.and_false]
        exact h.unlock.returned task false
      · exact h
    case openBi task ok =>
      split
      · next htask => exact absurd htask (h.opening task _)
      · exact h
    case write task ok =>
      split
      · next htask => exact absurd htask (h.writing task _)
      · exact h
    case cancel task =>
      split
      · exact h.unlock.returned task false
      · exact h
      · exact h.returned task false

theorem Silent.sends {uuid : String} (huuid : parseUuid uuid=none) (h : s.Silent)
    (e : Act DialEvent) : s.sends uuid e=none := by
  unfold TuicDialer.sends
  split
  · split
    · rw [huuid]
      rfl
    · rfl
  · split
    · next htask => exact absurd htask (h.writing _ _)
    · rfl
  · rfl
  · rw [h.log]
    rfl

def machine : Machine TuicDialer (Act DialEvent) where
  init := new
  step := act uuid
  fresh := fresh
  Reaches := Reaches
  Completes := Completes
  refuse := refuse
  sends := sends uuid
  fresh_init := rfl
  reaches_init := not_reaches_new
  step_cases := act_cases uuid
  completes_refuse := completes_refuse
  reaches_of_sends := reaches_of_sends uuid

end TuicDialer

end DaeRs.Tuic

namespace DaeRs.Juicity

open Channels Quic List Function

def gate (uuid : String) : DialEvent → DialEvent
  | .authenticate task ok => .authenticate task (ok && (parseUuid uuid).isSome)
  | e => e

def refuse : Act DialEvent → Act DialEvent
  | .call (.handshake task _) => .call (.handshake task false)
  | e => e

def Completes (e : Act DialEvent) : Prop := ∃ task,e=.call (.handshake task true)

theorem completes_refuse (e : Act DialEvent) : ¬Completes (refuse e) := by
  intro h
  obtain ⟨task,h⟩ := h
  cases e with
  | call e => cases e <;> nomatch h
  | packet conn => nomatch h

def DialPc.conn : DialPc → Option Nat
  | .connected _ conn | .picked _ conn | .opening _ conn | .counting _ conn | .writing conn =>
    some conn
  | .idle | .connecting _ | .returned _ => none

namespace JuicityDialer

variable (uuid : String)

/-- The connection that Authenticate, a proxy header or the header of a datagram is sent on. -/
def sends (s : JuicityDialer) : Act DialEvent → Option Nat
  | .call (.authenticate task _) =>
    match s.tasks task with
    | .picked _ conn =>
      if (s.ownSlot task fun c => s.alive c.conn).isSome && (parseUuid uuid).isSome then some conn
      else none
    | _ => none
  | .call (.write task _) =>
    match s.tasks task with
    | .writing conn => some conn
    | _ => none
  | .call _ => none
  | .packet conn => if .stream conn∈s.log then some conn else none

def act (s : JuicityDialer) : Act DialEvent → JuicityDialer
  | .call e => s.step (gate uuid e)
  | .packet _ => s

inductive Reaches (s : JuicityDialer) (conn : Nat) : Prop
  | pooled {c : JuicityConnState} (hc : c∈s.pool) (hconn : c.conn=conn)
  | call {task : Nat} (hconn : (s.tasks task).conn=some conn)
  | stream (hlog : .stream conn∈s.log)

variable {s : JuicityDialer} {conn : Nat}

theorem reaches_only (hconn : s.Reaches conn) : ∀ c,some conn=some c → s.Reaches c := by
  rintro c ⟨⟩
  exact hconn

theorem reaches_goTo {task : Nat} {pc : DialPc}
    (h : (s.goTo task pc).Reaches conn) : s.Reaches conn ∨ pc.conn=some conn := by
  cases h with
  | pooled hc hconn => exact Or.inl (.pooled hc hconn)
  | @call other hconn =>
    change (update s.tasks task pc other).conn=_ at hconn
    by_cases hother : other=task
    · rw [hother,update_self] at hconn
      exact Or.inr hconn
    · rw [update_of_ne hother] at hconn
      exact Or.inl (.call hconn)
  | stream hlog => exact Or.inl (.stream hlog)

theorem kept_goTo {r : JuicityDialer} (hr : Kept fresh Reaches s r) (task : Nat) {pc : DialPc}
    (hpc : ∀ conn,pc.conn=some conn → s.Reaches conn) :
    Kept fresh Reaches s (r.goTo task pc) := by
  refine ⟨hr.fresh_eq,fun conn h => ?_⟩
  rcases reaches_goTo h with h | h
  · exact hr.reaches conn h
  · exact hpc conn h

theorem kept_setPool {r : JuicityDialer} (hr : Kept fresh Reaches s r)
    {pool : List JuicityConnState} (hpool : ∀ c∈pool,s.Reaches c.conn) :
    Kept fresh Reaches s (r.setPool pool) := by
  refine ⟨hr.fresh_eq,fun conn h => ?_⟩
  cases h with
  | pooled hc hconn =>
    rw [← hconn]
    exact hpool _ hc
  | call hconn => exact hr.reaches conn (.call hconn)
  | stream hlog => exact hr.reaches conn (.stream hlog)

theorem kept_record {r : JuicityDialer} (hr : Kept fresh Reaches s r) (x : Sent)
    (hx : ∀ conn,x=.stream conn → s.Reaches conn) : Kept fresh Reaches s (r.record x) := by
  refine ⟨hr.fresh_eq,fun conn h => ?_⟩
  cases h with
  | pooled hc hconn => exact hr.reaches conn (.pooled hc hconn)
  | call hconn => exact hr.reaches conn (.call hconn)
  | stream hlog =>
    rcases mem_append.mp hlog with hlog | hlog
    · exact hr.reaches conn (.stream hlog)
    · exact hx conn (mem_singleton.mp hlog).symm

theorem reaches_retain (c : JuicityConnState) (hc : c∈s.retain) : s.Reaches c.conn :=
  .pooled (mem_of_mem_filter hc) rfl

theorem kept_retain (s : JuicityDialer) : Kept fresh Reaches s (s.setPool s.retain) :=
  kept_setPool (.refl _ _ s) reaches_retain

theorem reaches_usable (h : s.usable=some conn) : s.Reaches conn := by
  obtain ⟨c,hc,hconn⟩ := Option.map_eq_some_iff.mp h
  rw [← hconn]
  exact reaches_retain c (mem_of_find?_eq_some hc)

section Calls

variable (s) (task : Nat) (kind : Kind)

theorem kept_start : Kept fresh Reaches s (s.start task kind) := by
  unfold start
  split
  · next conn hconn =>
    exact kept_goTo s.kept_retain task (reaches_only (reaches_usable hconn))
  · exact kept_goTo s.kept_retain task nofun

theorem opened_handshake : Opened fresh Reaches s (s.handshake task kind true) := by
  refine ⟨rfl,fun conn h => ?_⟩
  rcases reaches_goTo h with h | h
  · cases h with
    | pooled hc hconn => exact Or.inl (.pooled hc hconn)
    | call hconn => exact Or.inl (.call hconn)
    | stream hlog => exact Or.inl (.stream hlog)
  · cases h
    exact Or.inr rfl

variable (hconn : s.Reaches conn)
include hconn

theorem kept_store : Kept fresh Reaches s (s.store task kind conn) := by
  unfold store
  split
  · next conn' hconn' =>
    exact kept_goTo s.kept_retain task (reaches_only (reaches_usable hconn'))
  · refine kept_goTo (kept_setPool (.refl _ _ s) fun c hc => ?_) task (reaches_only hconn)
    rcases mem_append.mp hc with hc | hc
    · exact reaches_retain c hc
    · rw [mem_singleton.mp hc]
      exact hconn

theorem kept_authenticate (ok : Bool) :
    Kept fresh Reaches s (s.authenticate task kind conn ok) := by
  rw [authenticate_eq]
  exact kept_goTo (.refl _ _ s) task (reaches_only hconn)

theorem kept_openBi (ok : Bool) : Kept fresh Reaches s (s.openBi task kind conn ok) := by
  unfold openBi
  split
  · refine kept_goTo (kept_record (.refl _ _ s) _ fun c hc => ?_) task (reaches_only hconn)
    cases hc
    exact hconn
  · exact kept_goTo (.refl _ _ s) task nofun

theorem kept_count : Kept fresh Reaches s (s.count task kind conn) := by
  rw [count_eq]
  cases kind with
  | dial => exact kept_goTo (.refl _ _ s) task (reaches_only hconn)
  | udpDial => exact kept_goTo (.refl _ _ s) task nofun

end Calls

theorem step_cases (s : JuicityDialer) (e : DialEvent) : Kept fresh Reaches s (s.step e) ∨
      ((∃ task,e=.handshake task true) ∧ Opened fresh Reaches s (s.step e)) := by
  have hcall {task : Nat} {pc : DialPc} {conn : Nat} (htask : s.tasks task=pc)
      (hpc : pc.conn=some conn) : s.Reaches conn := by
    rw [← htask] at hpc
    exact .call hpc
  cases e <;> unfold step <;> dsimp only
  case handshake task ok =>
    split
    · next kind _ =>
      cases ok with
      | true => exact Or.inr ⟨⟨task,rfl⟩,s.opened_handshake task kind⟩
      | false => exact Or.inl (kept_goTo (.refl _ _ s) task nofun)
    · exact Or.inl (.refl _ _ s)
  all_goals refine Or.inl ?_
  case close conn =>
    refine ⟨rfl,fun c h => ?_⟩
    cases h with
    | pooled hc hconn => exact .pooled hc hconn
    | call hconn => exact .call hconn
    | stream hlog => exact .stream hlog
  case start task kind =>
    split
    · exact s.kept_start task kind
    · exact .refl _ _ s
  case store task =>
    split
    · next htask => exact s.kept_store task _ (hcall htask rfl)
    · exact .refl _ _ s
  case timeout task =>
    split
    · exact kept_goTo (.refl _ _ s) task nofun
    · exact kept_goTo (.refl _ _ s) task nofun
    · exact .refl _ _ s
  case authenticate task ok =>
    split
    · next htask => exact s.kept_authenticate task _ (hcall htask rfl) ok
    · exact .refl _ _ s
  case openBi task ok =>
    split
    · next htask => exact s.kept_openBi task _ (hcall htask rfl) ok
    · exact .refl _ _ s
  case count task =>
    split
    · next htask => exact s.kept_count task _ (hcall htask rfl)
    · exact .refl _ _ s
  case write task ok =>
    split
    · exact kept_goTo (.refl _ _ s) task nofun
    · exact .refl _ _ s

theorem act_cases (s : JuicityDialer) (e : Act DialEvent) : Kept fresh Reaches s (s.act uuid e) ∨
      (Completes e ∧ Opened fresh Reaches s (s.act uuid e)) := by
  cases e with
  | call e =>
    rcases step_cases s (gate uuid e) with h | ⟨⟨task,he⟩,h⟩
    · exact Or.inl h
    · refine Or.inr ⟨⟨task,?_⟩,h⟩
      cases e <;> cases he
      rfl
  | packet conn => exact Or.inl (.refl _ _ s)

theorem reaches_of_sends (s : JuicityDialer) (e : Act DialEvent) (conn : Nat)
    (h : s.sends uuid e=some conn) : s.Reaches conn := by
  unfold sends at h
  split at h
  · split at h
    · next htask =>
      split_ifs at h
      cases h
      exact .call (by rw [htask]; rfl)
    · nomatch h
  · split at h
    · next htask =>
      cases h
      exact .call (by rw [htask]; rfl)
    · nomatch h
  · nomatch h
  · split_ifs at h with hlog
    cases h
    exact .stream hlog

theorem not_reaches_new (conn : Nat) : ¬new.Reaches conn := by
  intro h
  cases h with
  | pooled hc _ => nomatch hc
  | call hconn => nomatch hconn
  | stream hlog => nomatch hlog

def machine : Machine JuicityDialer (Act DialEvent) where
  init := new
  step := act uuid
  fresh := fresh
  Reaches := Reaches
  Completes := Completes
  refuse := refuse
  sends := sends uuid
  fresh_init := rfl
  reaches_init := not_reaches_new
  step_cases := act_cases uuid
  completes_refuse := completes_refuse
  reaches_of_sends := reaches_of_sends uuid

end JuicityDialer

end DaeRs.Juicity
