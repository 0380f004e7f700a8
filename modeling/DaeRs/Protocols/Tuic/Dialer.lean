import Mathlib.Logic.Function.Basic
import DaeRs.Lib.Runs

/-! The shared connection of a TUIC dialer, under concurrent `dial` and `udp_dial` calls. -/

namespace DaeRs.Tuic

open Runs List Function

/-- The stored connection and its mark. -/
structure QuinnConnection where
  conn : Nat
  authenticated : Bool
  deriving DecidableEq

inductive Kind where
  | dial
  | udpDial
  deriving DecidableEq

/-- Where a call stands. -/
inductive DialPc where
  | idle
  | connecting (kind : Kind)
  | connected (kind : Kind) (conn : Nat)
  | picked (kind : Kind) (conn : Nat)
  | authenticating (kind : Kind) (conn : Nat)
  | opening (conn : Nat)
  | writing (conn : Nat)
  | returned (ok : Bool)
  deriving DecidableEq

/-- What was done on a connection: an Authenticate, a Connect stream, a UDP session. -/
inductive Sent where
  | authenticate (conn : Nat)
  | connect (conn : Nat)
  | session (conn : Nat)
  deriving DecidableEq

/-- The slot, its lock, the calls, and what was sent. -/
structure TuicDialer where
  state : Option QuinnConnection
  lock : Option Nat
  closed : List Nat
  fresh : Nat
  tasks : Nat → DialPc
  log : List Sent

inductive DialEvent where
  | start (task : Nat) (kind : Kind)
  | handshake (task : Nat) (ok : Bool)
  | store (task : Nat)
  | check (task : Nat)
  | authenticate (task : Nat) (ok : Bool)
  | openBi (task : Nat) (ok : Bool)
  | write (task : Nat) (ok : Bool)
  | cancel (task : Nat)
  | close (conn : Nat)

namespace TuicDialer

def new : TuicDialer := ⟨none,none,[],0,fun _ => .idle,[]⟩

variable (s : TuicDialer) (task : Nat) (kind : Kind) (conn : Nat)

def alive : Bool := !s.closed.contains conn

def goTo (pc : DialPc) : TuicDialer := { s with tasks := update s.tasks task pc }

def record (x : Sent) : TuicDialer := { s with log := s.log++[x] }

def unlock : TuicDialer := { s with lock := none }

def existing : Option Nat :=
  match s.state with
  | some q => if s.alive q.conn then some q.conn else none
  | none => none

def start : TuicDialer :=
  match s.existing with
  | some conn => s.goTo task (.picked kind conn)
  | none => s.goTo task (.connecting kind)

def handshake (ok : Bool) : TuicDialer :=
  if ok then { s with fresh := s.fresh+1 }.goTo task (.connected kind s.fresh)
  else s.goTo task (.returned false)

def store : TuicDialer :=
  match s.existing with
  | some conn' => s.goTo task (.picked kind conn')
  | none => { s with state := some ⟨conn,false⟩ }.goTo task (.picked kind conn)

/-- When Authenticate was sent or need not be, a `dial` goes on to open a stream, and a `udp_dial`
returns its session without another use of the connection. -/
def proceed : TuicDialer :=
  match kind with
  | .dial => s.goTo task (.opening conn)
  | .udpDial => (s.record (.session conn)).goTo task (.returned true)

def check : TuicDialer :=
  match s.state with
  | some q =>
    if q.authenticated then s.proceed task kind conn
    else { s with lock := some task }.goTo task (.authenticating kind conn)
  | none => s.proceed task kind conn

def mark : TuicDialer := { s with state := s.state.map fun q => { q with authenticated := true } }

/-- Authenticate is sent on the call's connection, the mark is set on the stored state. -/
def authenticate (ok : Bool) :
    TuicDialer :=
  if ok && s.alive conn then
    (s.unlock.mark.record (.authenticate conn)).proceed task kind conn
  else s.unlock.goTo task (.returned false)

def openBi (ok : Bool) : TuicDialer :=
  if ok && s.alive conn then (s.record (.connect conn)).goTo task (.writing conn)
  else s.goTo task (.returned false)

/-- Calls that need the state wait while it is locked. -/
def step (e : DialEvent) : TuicDialer :=
  match e with
  | .close conn => { s with closed := conn::s.closed }
  | .start task kind =>
    match s.tasks task,s.lock with
    | .idle,none => s.start task kind
    | _,_ => s
  | .handshake task ok =>
    match s.tasks task with
    | .connecting kind => s.handshake task kind ok
    | _ => s
  | .store task =>
    match s.tasks task,s.lock with
    | .connected kind conn,none => s.store task kind conn
    | _,_ => s
  | .check task =>
    match s.tasks task,s.lock with
    | .picked kind conn,none => s.check task kind conn
    | _,_ => s
  | .authenticate task ok =>
    match s.tasks task with
    | .authenticating kind conn => s.authenticate task kind conn ok
    | _ => s
  | .openBi task ok =>
    match s.tasks task with
    | .opening conn => s.openBi task conn ok
    | _ => s
  | .write task ok =>
    match s.tasks task with
    | .writing _ => s.goTo task (.returned ok)
    | _ => s
  | .cancel task =>
    match s.tasks task with
    | .authenticating _ _ => s.unlock.goTo task (.returned false)
    | .returned _ => s
    | _ => s.goTo task (.returned false)

end TuicDialer

def DialEvent.isCheck : DialEvent → Bool
  | .check _ => true
  | _ => false

def DialPc.Rests : DialPc → Prop
  | .picked _ _ | .authenticating _ _ | .opening _ => False
  | _ => True

namespace TuicDialer

/-- What an event can do to the state. -/
inductive Steps (s : TuicDialer) : DialEvent → TuicDialer → Prop
  | stay {e : DialEvent} (he : ∀ t kind conn,e=.check t → s.tasks t=.picked kind conn →
      s.lock≠none) : Steps s e s
  | close (conn : Nat) : Steps s (.close conn) { s with closed := conn::s.closed }
  | rest {e : DialEvent} (he : e.isCheck=false) (t : Nat) {pc : DialPc} (hpc : pc.Rests) :
      Steps s e (s.goTo t pc)
  | pick {e : DialEvent} (he : e.isCheck=false) (t : Nat) (kind : Kind) {q : QuinnConnection}
      (hq : s.state=some q) : Steps s e (s.goTo t (.picked kind q.conn))
  | handshake (t : Nat) (ok : Bool) (kind : Kind) : Steps s (.handshake t ok)
      ({ s with fresh := s.fresh+1 }.goTo t (.connected kind s.fresh))
  | store (t : Nat) (kind : Kind) (conn : Nat) (hnone : s.existing=none) : Steps s (.store t)
      ({ s with state := some ⟨conn,false⟩ }.goTo t (.picked kind conn))
  | pass {t : Nat} {kind : Kind} {conn : Nat} (htask : s.tasks t=.picked kind conn)
      (hlock : s.lock=none) (hmark : ∀ q,s.state=some q → q.authenticated=true) :
      Steps s (.check t) (s.proceed t kind conn)
  | lock {t : Nat} {kind : Kind} {conn : Nat} (htask : s.tasks t=.picked kind conn)
      (hlock : s.lock=none) {q : QuinnConnection} (hq : s.state=some q)
      (hmark : q.authenticated≠true) :
      Steps s (.check t) ({ s with lock := some t }.goTo t (.authenticating kind conn))
  | giveUp {e : DialEvent} (he : e.isCheck=false) {t : Nat} {kind : Kind} {conn : Nat}
      (htask : s.tasks t=.authenticating kind conn) :
      Steps s e (s.unlock.goTo t (.returned false))
  | authenticate {t : Nat} (ok : Bool) {kind : Kind} {conn : Nat}
      (htask : s.tasks t=.authenticating kind conn) (halive : s.alive conn=true) :
      Steps s (.authenticate t ok)
        ((s.unlock.mark.record (.authenticate conn)).proceed t kind conn)
  | openBi {t : Nat} (ok : Bool) {conn : Nat} (htask : s.tasks t=.opening conn)
      (halive : s.alive conn=true) :
      Steps s (.openBi t ok) ((s.record (.connect conn)).goTo t (.writing conn))

variable {s : TuicDialer}

theorem existing_eq_some {conn : Nat} (h : s.existing=some conn) :
    ∃ q,s.state=some q ∧ q.conn=conn := by
  unfold existing at h
  split at h
  · next q hq =>
    split at h
    · exact ⟨q,hq,Option.some.inj h⟩
    · cases h
  · cases h

theorem steps_start (s : TuicDialer) (t : Nat) (kind : Kind) :
    Steps s (.start t kind) (s.start t kind) := by
  unfold start
  split
  · next conn hconn =>
    obtain ⟨q,hq,rfl⟩ := existing_eq_some hconn
    exact .pick rfl t kind hq
  · exact .rest rfl t trivial

theorem steps_handshake (s : TuicDialer) (t : Nat) (kind : Kind) (ok : Bool) :
    Steps s (.handshake t ok) (s.handshake t kind ok) := by
  unfold handshake
  split
  · exact .handshake t ok kind
  · exact .rest rfl t trivial

theorem steps_store (s : TuicDialer) (t : Nat) (kind : Kind) (conn : Nat) :
    Steps s (.store t) (s.store t kind conn) := by
  unfold store
  split
  · next conn' hconn =>
    obtain ⟨q,hq,rfl⟩ := existing_eq_some hconn
    exact .pick rfl t kind hq
  · next hnone => exact .store t kind conn hnone

theorem steps_check {t : Nat} {kind : Kind} {conn : Nat}
    (htask : s.tasks t=.picked kind conn) (hlock : s.lock=none) :
    Steps s (.check t) (s.check t kind conn) := by
  unfold check
  split
  · next q hq =>
    split
    · next hmark =>
      refine .pass htask hlock fun q' hq' => ?_
      rw [hq] at hq'
      cases hq'
      exact hmark
    · next hmark => exact .lock htask hlock hq hmark
  · next hnone =>
    refine .pass htask hlock fun q hq => ?_
    rw [hnone] at hq
    cases hq

theorem steps_authenticate {t : Nat} {kind : Kind} {conn : Nat}
    (htask : s.tasks t=.authenticating kind conn) (ok : Bool) :
    Steps s (.authenticate t ok) (s.authenticate t kind conn ok) := by
  unfold authenticate
  split
  · next hok => exact .authenticate ok htask (Bool.and_eq_true_iff.mp hok).2
  · exact .giveUp rfl htask

theorem steps_openBi {t conn : Nat} (htask : s.tasks t=.opening conn)
    (ok : Bool) : Steps s (.openBi t ok) (s.openBi t conn ok) := by
  unfold openBi
  split
  · next hok => exact .openBi ok htask (Bool.and_eq_true_iff.mp hok).2
  · exact .rest rfl t trivial

theorem steps (s : TuicDialer) (e : DialEvent) : Steps s e (s.step e) := by
  cases e <;> unfold step <;> dsimp only
  case close conn => exact .close conn
  case start t kind =>
    split
    · exact s.steps_start t kind
    · exact .stay nofun
  case handshake t ok =>
    split
    · exact s.steps_handshake t _ ok
    · exact .stay nofun
  case store t =>
    split
    · exact s.steps_store t _ _
    · exact .stay nofun
  case check t =>
    split
    · next kind conn htask hlock => exact steps_check htask hlock
    · next hother =>
      refine .stay fun t' kind conn he htask hlock => ?_
      cases he
      exact hother kind conn htask hlock
  case authenticate t ok =>
    split
    · next htask => exact steps_authenticate htask ok
    · exact .stay nofun
  case openBi t ok =>
    split
    · next htask => exact steps_openBi htask ok
    · exact .stay nofun
  case write t ok =>
    split
    · exact .rest rfl t trivial
    · exact .stay nofun
  case cancel t =>
    split
    · next htask => exact .giveUp rfl htask
    · exact .stay nofun
    · exact .rest rfl t trivial

end TuicDialer

def Sent.opens : Sent → Option Nat
  | .authenticate _ => none
  | .connect conn => some conn
  | .session conn => some conn

/-- Of the records in `P`, every stream and session comes after an Authenticate on its
connection. -/
def AuthFirst (P : Sent → Prop) (log : List Sent) : Prop :=
  ∀ pre x post,log=pre++x::post → P x → ∀ conn,x.opens=some conn → .authenticate conn∈pre

theorem authFirst_nil (P : Sent → Prop) : AuthFirst P [] := by
  intro pre x post h
  cases pre <;> cases h

theorem AuthFirst.anti {P Q : Sent → Prop} {log : List Sent} (h : AuthFirst P log)
    (hsub : ∀ x,Q x → P x) : AuthFirst Q log :=
  fun pre x post hsplit hx => h pre x post hsplit (hsub x hx)

theorem authFirst_append_iff {P : Sent → Prop} {log : List Sent} (hlog : AuthFirst P log)
    (x : Sent) :
    AuthFirst P (log++[x]) ↔ (P x → ∀ conn,x.opens=some conn → .authenticate conn∈log) := by
  constructor
  · intro h
    exact h log x [] rfl
  · intro h pre y post hsplit hy conn hopens
    rcases eq_nil_or_concat post with rfl | ⟨post',z,rfl⟩
    · obtain ⟨rfl,hxy⟩ := append_inj' hsplit rfl
      cases hxy
      exact h hy conn hopens
    · rw [concat_eq_append,← cons_append,← append_assoc] at hsplit
      obtain ⟨hlog',-⟩ := append_inj' hsplit rfl
      exact hlog pre y post' hlog' hy conn hopens

namespace TuicDialer

/-- A stored state that is marked has an Authenticate on its connection. -/
def Marked (s : TuicDialer) : Prop :=
  ∀ q,s.state=some q → q.authenticated=true → .authenticate q.conn∈s.log

/-- The connection is the stored one, or was closed. -/
def Held (s : TuicDialer) (conn : Nat) : Prop :=
  ∃ q,s.state=some q ∧ (q.conn=conn ∨ s.alive conn=false)

def TaskSound (s : TuicDialer) (task : Nat) : DialPc → Prop
  | .picked _ conn => s.Held conn
  | .authenticating _ conn => s.Held conn ∧ s.lock=some task
  | .opening conn => s.alive conn=true → .authenticate conn∈s.log
  | _ => True

structure Consistent (s : TuicDialer) : Prop where
  marked : s.Marked
  task : ∀ t,s.TaskSound t (s.tasks t)

variable {s : TuicDialer}

theorem TaskSound.mono {s' : TuicDialer} {t : Nat} {pc : DialPc} (h : s.TaskSound t pc)
    (hheld : ∀ conn,s.Held conn → s'.Held conn) (hlog : ∀ x∈s.log,x∈s'.log)
    (halive : ∀ conn,s'.alive conn=true → s.alive conn=true)
    (hlock : s.lock=some t → s'.lock=some t) : s'.TaskSound t pc := by
  cases pc with
  | picked kind conn => exact hheld conn h
  | authenticating kind conn => exact ⟨hheld conn h.1,hlock h.2⟩
  | opening conn => exact fun ha => hlog _ (h (halive conn ha))
  | _ => trivial

theorem Consistent.goTo {r : TuicDialer} (h : s.Consistent) {t : Nat} {pc : DialPc}
    (htasks : r.tasks=s.tasks) (hmarked : r.Marked) (hpc : r.TaskSound t pc)
    (hheld : ∀ conn,s.Held conn → r.Held conn) (hlog : ∀ x∈s.log,x∈r.log)
    (halive : ∀ conn,r.alive conn=true → s.alive conn=true)
    (hlock : ∀ t',t'≠t → s.lock=some t' → r.lock=some t') :
    (r.goTo t pc).Consistent := by
  refine ⟨hmarked,fun t' => ?_⟩
  show r.TaskSound t' (update r.tasks t pc t')
  by_cases ht : t'=t
  · subst ht
    rw [update_self]
    exact hpc
  · rw [update_of_ne ht,htasks]
    exact (h.task t').mono hheld hlog halive (hlock t' ht)

theorem Consistent.goTo_self (h : s.Consistent) {t : Nat} {pc : DialPc}
    (hpc : s.TaskSound t pc) : (s.goTo t pc).Consistent :=
  h.goTo rfl h.marked hpc (fun _ hc => hc) (fun _ hx => hx) (fun _ ha => ha) (fun _ _ hl => hl)

theorem existing_eq_none (h : s.existing=none) {q : QuinnConnection}
    (hq : s.state=some q) : s.alive q.conn=false := by
  unfold existing at h
  rw [hq] at h
  dsimp only at h
  split at h
  · cases h
  · next halive => exact Bool.eq_false_iff.mpr halive

variable {conn : Nat}

theorem Held.mono_state (hnone : s.existing=none) (h : s.Held conn)
    (q' : QuinnConnection) : Held { s with state := some q' } conn := by
  obtain ⟨q,hq,hconn | halive⟩ := h
  · exact ⟨q',rfl,Or.inr (hconn ▸ existing_eq_none hnone hq)⟩
  · exact ⟨q',rfl,Or.inr halive⟩

theorem Held.eq_of_alive (h : s.Held conn) {q : QuinnConnection}
    (hq : s.state=some q) (halive : s.alive conn=true) : q.conn=conn := by
  obtain ⟨q',hq',hconn | hdead⟩ := h
  · rw [hq] at hq'
    cases hq'
    exact hconn
  · rw [halive] at hdead
    cases hdead

theorem Consistent.proceed {r : TuicDialer} (h : s.Consistent) {t : Nat} (kind : Kind)
    (htasks : r.tasks=s.tasks) (hmarked : r.Marked)
    (hauth : r.alive conn=true → .authenticate conn∈r.log)
    (hheld : ∀ conn,s.Held conn → r.Held conn) (hlog : ∀ x∈s.log,x∈r.log)
    (halive : ∀ conn,r.alive conn=true → s.alive conn=true)
    (hlock : ∀ t',t'≠t → s.lock=some t' → r.lock=some t') :
    (r.proceed t kind conn).Consistent := by
  cases kind with
  | dial => exact h.goTo htasks hmarked hauth hheld hlog halive hlock
  | udpDial =>
    refine h.goTo (r := r.record (.session conn)) htasks ?_ trivial hheld ?_ halive hlock
    · intro q hq hmark
      exact mem_append_left _ (hmarked q hq hmark)
    · intro x hx
      exact mem_append_left _ (hlog x hx)

theorem Consistent.authenticate (h : s.Consistent) {t : Nat} {kind : Kind} (hheld : s.Held conn)
    (hlock : s.lock=some t) (halive : s.alive conn=true) :
    ((s.unlock.mark.record (.authenticate conn)).proceed t kind conn).Consistent := by
  have hmem : Sent.authenticate conn∈(s.unlock.mark.record (.authenticate conn)).log :=
    mem_append_right _ mem_cons_self
  refine h.proceed kind rfl ?_ (fun _ => hmem) ?_ ?_ (fun _ ha => ha) ?_
  · intro q hq _
    obtain ⟨q',hq',rfl⟩ := Option.map_eq_some_iff.mp hq
    show Sent.authenticate q'.conn∈_
    rw [hheld.eq_of_alive hq' halive]
    exact hmem
  · intro c hc
    obtain ⟨q,hq,hcase⟩ := hc
    exact ⟨_,Option.map_eq_some_iff.mpr ⟨q,hq,rfl⟩,hcase⟩
  · intro x hx
    exact mem_append_left _ hx
  · intro t' ht hl
    rw [hlock] at hl
    exact absurd (Option.some.inj hl).symm ht

theorem alive_of_close {c : Nat}
    (h : alive { s with closed := conn::s.closed } c=true) : s.alive c=true := by
  unfold alive at h ⊢
  rw [Bool.not_eq_true'] at h ⊢
  rw [contains_cons,Bool.or_eq_false_iff] at h
  exact h.2

theorem Consistent.close (h : s.Consistent) (conn : Nat) :
    Consistent { s with closed := conn::s.closed } := by
  refine ⟨h.marked,fun t => (h.task t).mono ?_ (fun _ hx => hx) (fun _ ha => alive_of_close ha)
    (fun hl => hl)⟩
  intro c hc
  obtain ⟨q,hq,hcase⟩ := hc
  refine ⟨q,hq,hcase.imp id fun hdead => ?_⟩
  exact Bool.eq_false_iff.mpr fun halive => absurd (alive_of_close halive) (by rw [hdead]; decide)

theorem taskSound_of_rests (s : TuicDialer) (t : Nat) {pc : DialPc} (h : pc.Rests) :
    s.TaskSound t pc := by
  cases pc with
  | picked | authenticating | opening => exact h.elim
  | _ => trivial

theorem Consistent.step (h : s.Consistent) (e : DialEvent) : (s.step e).Consistent := by
  have htask := h.task
  have hsteps := s.steps e
  generalize s.step e=r at hsteps
  cases hsteps with
  | stay => exact h
  | close conn => exact h.close conn
  | rest he t hpc => exact h.goTo_self (s.taskSound_of_rests t hpc)
  | pick he t kind hq => exact h.goTo_self ⟨_,hq,Or.inl rfl⟩
  | handshake t ok kind =>
    exact h.goTo (r := { s with fresh := s.fresh+1 }) rfl h.marked trivial (fun _ hc => hc)
      (fun _ hx => hx) (fun _ ha => ha) (fun _ _ hl => hl)
  | store t kind conn hnone =>
    refine h.goTo (r := { s with state := some ⟨conn,false⟩ }) rfl ?_ ⟨_,rfl,Or.inl rfl⟩
      (fun c hc => hc.mono_state hnone _) (fun _ hx => hx) (fun _ ha => ha) (fun _ _ hl => hl)
    intro q hq hmark
    cases hq
    cases hmark
  | @pass t kind conn hpicked hlock hmark =>
    refine h.proceed kind rfl h.marked ?_ (fun _ hc => hc) (fun _ hx => hx) (fun _ ha => ha)
      (fun _ _ hl => hl)
    intro halive
    have hheld : s.Held conn := by
      have hsound := htask t
      rwa [hpicked] at hsound
    have ⟨q,hq,_⟩ := hheld
    rw [← Held.eq_of_alive hheld hq halive]
    exact h.marked q hq (hmark q hq)
  | @lock t kind conn hpicked hlock q hq hmark =>
    have hheld := htask t
    rw [hpicked] at hheld
    refine h.goTo (r := { s with lock := some t }) rfl h.marked ⟨hheld,rfl⟩ (fun _ hc => hc)
      (fun _ hx => hx) (fun _ ha => ha) ?_
    intro t' _ hl
    rw [hlock] at hl
    cases hl
  | @giveUp e he t kind conn hauth =>
    have hheld := htask t
    rw [hauth] at hheld
    refine h.goTo (r := s.unlock) rfl h.marked trivial (fun _ hc => hc) (fun _ hx => hx)
      (fun _ ha => ha) ?_
    intro t' ht hl
    rw [hheld.2] at hl
    exact absurd (Option.some.inj hl).symm ht
  | @authenticate t ok kind conn hauth halive =>
    have hheld := htask t
    rw [hauth] at hheld
    exact h.authenticate hheld.1 hheld.2 halive
  | @openBi t ok conn hopening halive =>
    refine h.goTo (r := s.record (.connect conn)) rfl ?_ trivial (fun _ hc => hc) ?_
      (fun _ ha => ha) (fun _ _ hl => hl)
    · intro q hq hmark
      exact mem_append_left _ (h.marked q hq hmark)
    · intro x hx
      exact mem_append_left _ hx

/-- A `udp_dial` that finds the state marked finds its own connection there, or one with
Authenticate; only for sessions in `P`. -/
def Fits (P : Sent → Prop) (s : TuicDialer) : DialEvent → Prop
  | .check task => ∀ conn q,s.lock=none → s.tasks task=.picked .udpDial conn →
      s.state=some q → q.authenticated=true → P (.session conn) →
      q.conn=conn ∨ .authenticate conn∈s.log
  | _ => True

variable {P : Sent → Prop}

theorem authFirst_proceed_iff (hlog : AuthFirst P s.log) (t : Nat) (kind : Kind)
    (conn : Nat) : AuthFirst P (s.proceed t kind conn).log ↔
      (kind=.udpDial → P (.session conn) → .authenticate conn∈s.log) := by
  cases kind with
  | dial => exact iff_of_true hlog fun h => by cases h
  | udpDial =>
    have happend : AuthFirst P (s.log++[.session conn]) ↔ _ := authFirst_append_iff hlog _
    refine happend.trans ⟨fun h _ hP => h hP conn rfl,?_⟩
    intro h hP c hc
    cases hc
    exact h rfl hP

theorem fits_of_not_check (s : TuicDialer) {e : DialEvent} (he : e.isCheck=false) : s.Fits P e := by
  cases e with
  | check t => cases he
  | _ => trivial

/-- Where every stream and session so far came after its Authenticate, an event leaves it so just
when it fits. -/
theorem authFirst_step_iff (h : s.Consistent) (hlog : AuthFirst P s.log)
    (e : DialEvent) : AuthFirst P (s.step e).log ↔ s.Fits P e := by
  have htask := h.task
  have hsteps := s.steps e
  generalize s.step e=r at hsteps
  cases hsteps with
  | stay he =>
    refine iff_of_true hlog ?_
    cases e with
    | check t =>
      intro conn q hlock hpicked
      exact absurd hlock (he t _ conn rfl hpicked)
    | _ => trivial
  | close | handshake | store => exact iff_of_true hlog trivial
  | rest he | pick he | giveUp he => exact iff_of_true hlog (s.fits_of_not_check he)
  | @lock t kind conn hpicked hlock q hq hmark =>
    refine iff_of_true hlog ?_
    intro conn' q' _ _ hq' hmark'
    rw [hq] at hq'
    cases hq'
    exact absurd hmark' hmark
  | @pass t kind conn hpicked hlock hmark =>
    have hheld := htask t
    rw [hpicked] at hheld
    obtain ⟨q,hq,-⟩ := hheld
    rw [authFirst_proceed_iff hlog]
    constructor
    · intro hauth conn' q' _ hpicked' _ _ hP
      rw [hpicked] at hpicked'
      cases hpicked'
      exact Or.inr (hauth rfl hP)
    · intro hfits hkind hP
      subst hkind
      rcases hfits conn q hlock hpicked hq (hmark q hq) hP with hconn | hmem
      · rw [← hconn]
        exact h.marked q hq (hmark q hq)
      · exact hmem
  | @authenticate t ok kind conn =>
    have hauth : AuthFirst P (s.log++[.authenticate conn]) :=
      (authFirst_append_iff hlog _).mpr fun _ c hc => by cases hc
    refine iff_of_true ?_ trivial
    exact (authFirst_proceed_iff (s := s.unlock.mark.record (.authenticate conn)) hauth t kind
      conn).mpr fun _ _ => mem_append_right _ mem_cons_self
  | @openBi t ok conn hopening halive =>
    have hauth := htask t
    rw [hopening] at hauth
    refine iff_of_true ((authFirst_append_iff hlog (.connect conn)).mpr fun _ c hc => ?_) trivial
    cases hc
    exact hauth halive

theorem consistent_new : new.Consistent := by
  refine ⟨?_,fun _ => trivial⟩
  intro q hq
  cases hq

/-- Streams count, and sessions on connections that are not closed. -/
def Live (s : TuicDialer) : Sent → Prop
  | .session conn => s.alive conn=true
  | _ => True

theorem fits_live (h : s.Consistent) (e : DialEvent) : s.Fits s.Live e := by
  cases e with
  | check t =>
    intro conn q _ htask hq _ halive
    have hheld := h.task t
    rw [htask] at hheld
    exact Or.inl (Held.eq_of_alive hheld hq halive)
  | _ => trivial

theorem closed_proceed (s : TuicDialer) (t : Nat) (kind : Kind) (conn : Nat) :
    (s.proceed t kind conn).closed=s.closed := by
  cases kind with
  | dial => rfl
  | udpDial => rfl

theorem alive_of_step {e : DialEvent} {c : Nat} (h : (s.step e).alive c=true) : s.alive c=true := by
  have hsteps := s.steps e
  generalize s.step e=r at hsteps h
  cases hsteps with
  | close conn => exact alive_of_close h
  | pass | authenticate => rwa [alive,closed_proceed] at h
  | _ => exact h

theorem authFirst_live_step (h : s.Consistent) (hlog : AuthFirst s.Live s.log)
    (e : DialEvent) : AuthFirst (s.step e).Live (s.step e).log := by
  refine ((authFirst_step_iff h hlog e).mpr (fits_live h e)).anti ?_
  intro x hx
  cases x with
  | session conn => exact alive_of_step hx
  | _ => trivial

/-- Along every run a marked state has its Authenticate, and streams and live sessions follow one;
all sessions do just when every `udp_dial` finds its own mark. -/
theorem authenticated_first_iff (es : List DialEvent) :
    Along step (fun s e => (s.step e).Marked ∧ AuthFirst (s.step e).Live (s.step e).log) new es ∧
      (Along step (fun s e => AuthFirst (fun _ => True) (s.step e).log) new es ↔
        Along step (Fits fun _ => True) new es) := by
  refine ⟨?_,?_⟩
  · refine (along_iff_along (fun s => s.Consistent ∧ AuthFirst s.Live s.log) ?_ ?_
      ⟨consistent_new,authFirst_nil _⟩).mpr (along_true new es)
    · intro e _ s hs
      exact iff_of_true ⟨(hs.1.step e).marked,authFirst_live_step hs.1 hs.2 e⟩ trivial
    · intro e _ s hs _
      exact ⟨hs.1.step e,authFirst_live_step hs.1 hs.2 e⟩
  · refine along_iff_along (fun s => s.Consistent ∧ AuthFirst (fun _ => True) s.log) ?_ ?_
      ⟨consistent_new,authFirst_nil _⟩
    · intro e _ s hs
      exact authFirst_step_iff hs.1 hs.2 e
    · intro e _ s hs hfits
      exact ⟨hs.1.step e,(authFirst_step_iff hs.1 hs.2 e).mpr hfits⟩

/-- A `udp_dial` stores connection 0, which closes; another call stores and authenticates connection
1; the first takes the mark for its own and returns a session on 0. -/
theorem session_without_authenticate :
    (run step new [.start 0 .udpDial,.handshake 0 true,.store 0,.close 0,.start 1 .udpDial,
      .handshake 1 true,.store 1,.check 1,.authenticate 1 true,.check 0]).log =
        [.authenticate 1,.session 1,.session 0] := by
  decide

end TuicDialer

end DaeRs.Tuic
