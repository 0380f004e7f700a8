import Mathlib.Logic.Function.Basic
import DaeRs.Lib.Runs

/-! The UDP flow pool: every datagram has a task that looks for a session, creates one and sends, and
every session has a reader that runs until it fails or is idle. What is done under the lock of the
pool is one step. -/

namespace DaeRs.Control.UdpFlowPool

open Runs Function

/-- Where the handling of a datagram stands. -/
inductive SendPhase where
  | lookup
  | dial
  | insert (session : Nat)
  | send (session : Nat)
  | remove (session : Option Nat)
  | done
  deriving DecidableEq

/-- Where the reader of a session is: in its loop, or on its way out of the pool. -/
inductive ReaderPhase where
  | recv
  | remove
  | done
  deriving DecidableEq

structure SendTask (Key : Type) where
  key : Key
  phase : SendPhase

/-- The task that reads a session's replies. -/
structure Reader (Key : Type) where
  key : Key
  phase : ReaderPhase

/-- The flows by their sessions, the tasks and the readers. Dropping the flow of a session does not
stop its reader. -/
structure State (Key : Type) where
  pool : Key → Option Nat
  tasks : Nat → Option (SendTask Key)
  readers : Nat → Option (Reader Key)
  nextTask : Nat
  nextSession : Nat

inductive Event (Key : Type) where
  | datagram (key : Key)
  | lookup (task : Nat)
  | dialed (task : Nat) (ok : Bool)
  | insert (task : Nat)
  | sent (task : Nat) (ok : Bool)
  | remove (task : Nat)
  | leave (session : Nat)
  | exit (session : Nat)

variable {Key : Type}

namespace State

def new : State Key := ⟨fun _ => none,fun _ => none,fun _ => none,0,0⟩

variable (s : State Key)

def setTask (i : Nat) (t : SendTask Key) : State Key :=
  { s with tasks := update s.tasks i (some t) }

def setReader (n : Nat) (r : Reader Key) : State Key :=
  { s with readers := update s.readers n (some r) }

/-- A new session has its reader before its flow is in the pool. -/
def create (i : Nat) (key : Key) : State Key :=
  { (s.setReader s.nextSession ⟨key,.recv⟩).setTask i ⟨key,.insert s.nextSession⟩ with
    nextSession := s.nextSession+1 }

def lookup (s : State Key) (i : Nat) (t : SendTask Key) : State Key :=
  match t.phase with
  | .lookup =>
    match s.pool t.key with
    | some session => s.setTask i ⟨t.key,.send session⟩
    | none => s.setTask i ⟨t.key,.dial⟩
  | _ => s

def dialed (s : State Key) (i : Nat) (t : SendTask Key) (ok : Bool) : State Key :=
  match t.phase with
  | .dial => if ok then s.create i t.key else s.setTask i ⟨t.key,.remove none⟩
  | _ => s

def sent (s : State Key) (i : Nat) (t : SendTask Key) (ok : Bool) : State Key :=
  match t.phase with
  | .send session => s.setTask i ⟨t.key,if ok then .done else .remove (some session)⟩
  | _ => s

def leave (s : State Key) (n : Nat) (r : Reader Key) : State Key :=
  match r.phase with
  | .recv => s.setReader n ⟨r.key,.remove⟩
  | _ => s

def onTask (i : Nat) (f : SendTask Key → State Key) : State Key :=
  match s.tasks i with
  | some t => f t
  | none => s

def onReader (n : Nat) (f : Reader Key → State Key) : State Key :=
  match s.readers n with
  | some r => f r
  | none => s

def Alive (s : State Key) (n : Nat) (key : Key) : Prop :=
  ∃ phase,s.readers n=some ⟨key,phase⟩ ∧ phase≠.done

/-- A task that is creating a session for a key, or a session of the key. -/
inductive Worker where
  | task (i : Nat)
  | session (n : Nat)

def Works (key : Key) : Worker → Prop
  | .task i => s.tasks i=some ⟨key,.dial⟩
  | .session n => (∃ i,s.tasks i=some ⟨key,.insert n⟩) ∨ s.Alive n key

def RemovesOwn : Event Key → Prop
  | .remove i => ∀ key n,s.tasks i=some ⟨key,.remove (some n)⟩ → ∀ m,s.pool key=some m → m=n
  | .exit n => ∀ key,s.readers n=some ⟨key,.remove⟩ → ∀ m,s.pool key=some m → m=n
  | _ => True

/-- A session is created only while nobody works on the key, and a failed send is noticed only
while the reader of its session still runs. -/
def Undisturbed (s : State Key) : Event Key → Prop
  | .lookup i => ∀ key,s.tasks i=some ⟨key,.lookup⟩ → s.pool key=none → ∀ w,¬s.Works key w
  | .remove i => ∀ key n,s.tasks i=some ⟨key,.remove (some n)⟩ → s.Alive n key
  | _ => True

/-- At most one works on a key, and no other session than the one in the pool. -/
structure Orderly (s : State Key) : Prop where
  one : ∀ key w w',s.Works key w → s.Works key w' → w=w'
  pooled : ∀ key n w,s.pool key=some n → s.Works key w → w=.session n
  fresh : ∀ n,s.nextSession≤n → s.readers n=none ∧ ∀ i key,s.tasks i≠some ⟨key,.insert n⟩

theorem tasks_setTask_self (i : Nat) (t : SendTask Key) : (s.setTask i t).tasks i=some t := by
  show update s.tasks i (some t) i=_
  rw [update_self]

theorem tasks_setTask_of_ne {i j : Nat} (h : j≠i) (t : SendTask Key) :
    (s.setTask i t).tasks j=s.tasks j := by
  show update s.tasks i (some t) j=_
  rw [update_of_ne h]

theorem readers_setReader_self (n : Nat) (r : Reader Key) : (s.setReader n r).readers n=some r := by
  show update s.readers n (some r) n=_
  rw [update_self]

theorem readers_setReader_of_ne {n m : Nat} (h : m≠n) (r : Reader Key) :
    (s.setReader n r).readers m=s.readers m := by
  show update s.readers n (some r) m=_
  rw [update_of_ne h]

theorem works_setTask {s : State Key} {i : Nat} {t : SendTask Key} {key : Key} {w : Worker}
    (h : (s.setTask i t).Works key w) :
    s.Works key w ∨ (w=.task i ∧ t=⟨key,.dial⟩) ∨ ∃ n,w=.session n ∧ t=⟨key,.insert n⟩ := by
  cases w with
  | task j =>
    change (s.setTask i t).tasks j=_ at h
    by_cases hj : j=i
    · rw [hj,tasks_setTask_self] at h
      rw [hj]
      exact Or.inr (Or.inl ⟨rfl,Option.some.inj h⟩)
    · rw [tasks_setTask_of_ne s hj] at h
      exact Or.inl h
  | session n =>
    rcases h with ⟨j,hj⟩ | halive
    · by_cases hji : j=i
      · rw [hji,tasks_setTask_self] at hj
        exact Or.inr (Or.inr ⟨n,rfl,Option.some.inj hj⟩)
      · rw [tasks_setTask_of_ne s hji] at hj
        exact Or.inl (Or.inl ⟨j,hj⟩)
    · exact Or.inl (Or.inr halive)

theorem works_setReader {s : State Key} {n : Nat} {r : Reader Key} {key : Key} {w : Worker}
    (h : (s.setReader n r).Works key w) :
    s.Works key w ∨ (w=.session n ∧ r.key=key ∧ r.phase≠.done) := by
  cases w with
  | task j => exact Or.inl h
  | session m =>
    rcases h with hinsert | ⟨phase,hreader,hphase⟩
    · exact Or.inl (Or.inl hinsert)
    · by_cases hm : m=n
      · rw [hm,readers_setReader_self] at hreader
        rw [hm,Option.some.inj hreader]
        exact Or.inr ⟨rfl,rfl,hphase⟩
      · rw [readers_setReader_of_ne s hm] at hreader
        exact Or.inl (Or.inr ⟨phase,hreader,hphase⟩)

namespace Orderly

theorem start : (new : State Key).Orderly := by
  refine ⟨fun key w w' h => ?_,fun key n w h => (nomatch h),
    fun n _ => ⟨rfl,fun i key h => (nomatch h)⟩⟩
  cases w with
  | task i => nomatch h
  | session n =>
    rcases h with ⟨i,hi⟩ | ⟨phase,hreader,-⟩
    · nomatch hi
    · nomatch hreader

variable {s : State Key} {i : Nat}

theorem works_create {key key' : Key} {w : Worker} (h : (s.create i key).Works key' w) :
    (s.Works key' w ∧ w≠.task i) ∨ (w=.session s.nextSession ∧ key'=key) := by
  have htask : w≠.task i := by
    intro hw
    rw [hw] at h
    change ((s.setReader s.nextSession ⟨key,.recv⟩).setTask i ⟨key,.insert s.nextSession⟩).tasks i =
      some ⟨key',.dial⟩ at h
    rw [tasks_setTask_self] at h
    nomatch h
  have hset : ((s.setReader s.nextSession ⟨key,.recv⟩).setTask i
      ⟨key,.insert s.nextSession⟩).Works key' w := h
  rcases works_setTask hset with hw | ⟨-,ht⟩ | ⟨n,rfl,ht⟩
  · rcases works_setReader hw with hw | ⟨rfl,hkey,-⟩
    · exact Or.inl ⟨hw,htask⟩
    · exact Or.inr ⟨rfl,hkey.symm⟩
  · nomatch ht
  · cases ht
    exact Or.inr ⟨rfl,rfl⟩

variable (h : s.Orderly)
include h

theorem shrink {s' : State Key} (hworks : ∀ key w,s'.Works key w → s.Works key w)
    (hpool : ∀ key n,s'.pool key=some n → s.pool key=some n)
    (hfresh : ∀ n,s'.nextSession≤n →
      s'.readers n=none ∧ ∀ i key,s'.tasks i≠some ⟨key,.insert n⟩) : s'.Orderly :=
  ⟨fun key w w' hw hw' => h.one key w w' (hworks key w hw) (hworks key w' hw'),
    fun key n w hn hw => h.pooled key n w (hpool key n hn) (hworks key w hw),hfresh⟩

theorem fresh_setTask {t : SendTask Key}
    (ht : ∀ n,t.phase=.insert n → n < s.nextSession) (n : Nat) (hn : s.nextSession≤n) :
    (s.setTask i t).readers n=none ∧ ∀ j key,(s.setTask i t).tasks j≠some ⟨key,.insert n⟩ := by
  refine ⟨(h.fresh n hn).1,fun j key hj => ?_⟩
  by_cases hji : j=i
  · rw [hji,tasks_setTask_self] at hj
    have hlt := ht n (by rw [Option.some.inj hj])
    omega
  · rw [tasks_setTask_of_ne s hji] at hj
    exact (h.fresh n hn).2 j key hj

theorem quiet (i : Nat) {t : SendTask Key} (hdial : t.phase≠.dial)
    (hinsert : ∀ n,t.phase≠.insert n) : (s.setTask i t).Orderly := by
  refine h.shrink (fun key w hw => ?_) (fun key n hn => hn)
    (h.fresh_setTask fun n hn => absurd hn (hinsert n))
  rcases works_setTask hw with hw | ⟨-,ht⟩ | ⟨n,-,ht⟩
  · exact hw
  · exact absurd (by rw [ht]) hdial
  · exact absurd (by rw [ht]) (hinsert n)

theorem reader {n : Nat} {r : Reader Key} (hreader : s.readers n=some r)
    (hphase : r.phase≠.done) (phase : ReaderPhase) : (s.setReader n ⟨r.key,phase⟩).Orderly := by
  refine h.shrink (fun key w hw => ?_) (fun key m hm => hm) (fun m hm => ?_)
  · rcases works_setReader hw with hw | ⟨rfl,rfl,-⟩
    · exact hw
    · exact Or.inr ⟨r.phase,hreader,hphase⟩
  · have hne : m≠n := by
      intro heq
      rw [heq] at hm
      rw [(h.fresh n hm).1] at hreader
      nomatch hreader
    exact ⟨(readers_setReader_of_ne s hne _).trans (h.fresh m hm).1,(h.fresh m hm).2⟩

variable {key : Key}

theorem dial (hpool : s.pool key=none)
    (hidle : ∀ w,¬s.Works key w) : (s.setTask i ⟨key,.dial⟩).Orderly := by
  have hworks {key' : Key} {w : Worker} (hw : (s.setTask i ⟨key,.dial⟩).Works key' w) :
      (key'≠key ∧ s.Works key' w) ∨ (key'=key ∧ w=.task i) := by
    rcases works_setTask hw with hw | ⟨rfl,ht⟩ | ⟨n,-,ht⟩
    · exact Or.inl ⟨fun heq => hidle w (heq ▸ hw),hw⟩
    · cases ht
      exact Or.inr ⟨rfl,rfl⟩
    · nomatch ht
  refine ⟨fun key' w w' hw hw' => ?_,fun key' n w hn hw => ?_,
    h.fresh_setTask fun n hn => nomatch hn⟩
  · rcases hworks hw with ⟨hne,hw⟩ | ⟨heq,rfl⟩
    · rcases hworks hw' with ⟨-,hw'⟩ | ⟨heq,-⟩
      · exact h.one key' w w' hw hw'
      · exact absurd heq hne
    · rcases hworks hw' with ⟨hne,-⟩ | ⟨-,rfl⟩
      · exact absurd heq hne
      · rfl
  · rcases hworks hw with ⟨-,hw⟩ | ⟨heq,-⟩
    · exact h.pooled key' n w hn hw
    · rw [heq] at hn
      rw [setTask,hpool] at hn
      nomatch hn

theorem created (htask : s.tasks i=some ⟨key,.dial⟩) : (s.create i key).Orderly := by
  have hkey {w : Worker} (hw : (s.create i key).Works key w) : w=.session s.nextSession := by
    rcases works_create hw with ⟨hw,hne⟩ | ⟨heq,-⟩
    · exact absurd (h.one key w (.task i) hw htask) hne
    · exact heq
  have hother {key' : Key} (hne : key'≠key) {w : Worker} (hw : (s.create i key).Works key' w) :
      s.Works key' w := by
    rcases works_create hw with ⟨hw,-⟩ | ⟨-,heq⟩
    · exact hw
    · exact absurd heq hne
  refine ⟨fun key' w w' hw hw' => ?_,fun key' n w hn hw => ?_,fun n hn => ?_⟩
  · by_cases heq : key'=key
    · subst heq
      rw [hkey hw,hkey hw']
    · exact h.one key' w w' (hother heq hw) (hother heq hw')
  · by_cases heq : key'=key
    · subst heq
      nomatch h.pooled key' n (.task i) hn htask
    · exact h.pooled key' n w hn (hother heq hw)
  · have hle : s.nextSession+1≤n := hn
    obtain ⟨hreader,htasks⟩ := h.fresh n (by omega)
    constructor
    · exact (readers_setReader_of_ne s (by omega) _).trans hreader
    · intro j key' hj
      change ((s.setReader s.nextSession ⟨key,.recv⟩).setTask i
        ⟨key,.insert s.nextSession⟩).tasks j=_ at hj
      by_cases hji : j=i
      · rw [hji,tasks_setTask_self] at hj
        cases hj
        omega
      · rw [tasks_setTask_of_ne _ hji] at hj
        exact htasks j key' hj

theorem alive_unique {n n' : Nat} (hn : s.Alive n key) (hn' : s.Alive n' key) : n=n' := by
  have heq := h.one key (.session n) (.session n') (Or.inr hn) (Or.inr hn')
  cases heq
  rfl

theorem removesOwn {e : Event Key} (he : s.Undisturbed e) : s.RemovesOwn e := by
  have hown {key : Key} {n m : Nat} (halive : s.Alive n key) (hpool : s.pool key=some m) : m=n := by
    have heq := h.pooled key m (.session n) hpool (Or.inr halive)
    cases heq
    rfl
  cases e with
  | remove i => exact fun key n htask m hpool => hown (he key n htask) hpool
  | exit n => exact fun key hreader m hpool => hown ⟨.remove,hreader,by simp⟩ hpool
  | datagram key | lookup i | dialed i ok | insert i | sent i ok | leave n => trivial

theorem onTask (i : Nat) {f : SendTask Key → State Key}
    (hf : ∀ key phase,s.tasks i=some ⟨key,phase⟩ → (f ⟨key,phase⟩).Orderly) :
    (s.onTask i f).Orderly := by
  unfold State.onTask
  split
  · next t htask => exact hf t.key t.phase htask
  · exact h

theorem onReader (n : Nat) {f : Reader Key → State Key}
    (hf : ∀ r,s.readers n=some r → (f r).Orderly) : (s.onReader n f).Orderly := by
  unfold State.onReader
  split
  · next r hreader => exact hf r hreader
  · exact h

theorem lookup {phase : SendPhase}
    (htask : s.tasks i=some ⟨key,phase⟩) (he : s.Undisturbed (.lookup i)) :
    (s.lookup i ⟨key,phase⟩).Orderly := by
  cases phase with
  | lookup =>
    unfold State.lookup
    dsimp only
    split
    · exact h.quiet i (by simp) (by simp)
    · next hpool => exact h.dial hpool (he key htask hpool)
  | dial | insert session | send session | remove session | done => exact h

theorem dialed {phase : SendPhase} (htask : s.tasks i=some ⟨key,phase⟩) (ok : Bool) :
    (s.dialed i ⟨key,phase⟩ ok).Orderly := by
  cases phase with
  | dial =>
    cases ok with
    | true => exact h.created htask
    | false => exact h.quiet i (by simp) (by simp)
  | lookup | insert session | send session | remove session | done => exact h

theorem sent (i : Nat) (t : SendTask Key) (ok : Bool) :
    (s.sent i t ok).Orderly := by
  unfold State.sent
  split
  · cases ok with
    | true => exact h.quiet i (by simp) (by simp)
    | false => exact h.quiet i (by simp) (by simp)
  · exact h

theorem leave {n : Nat} {r : Reader Key} (hreader : s.readers n=some r) :
    (s.leave n r).Orderly := by
  unfold State.leave
  split
  · next hphase => exact h.reader hreader (by rw [hphase]; simp) .remove
  · exact h

end Orderly

variable [DecidableEq Key]

def setPool (key : Key) (flow : Option Nat) : State Key :=
  { s with pool := update s.pool key flow }

def insert (s : State Key) (i : Nat) (t : SendTask Key) : State Key :=
  match t.phase with
  | .insert session => (s.setPool t.key (some session)).setTask i ⟨t.key,.send session⟩
  | _ => s

def remove (s : State Key) (i : Nat) (t : SendTask Key) : State Key :=
  match t.phase with
  | .remove _ => (s.setPool t.key none).setTask i ⟨t.key,.done⟩
  | _ => s

def exit (s : State Key) (n : Nat) (r : Reader Key) : State Key :=
  match r.phase with
  | .remove => (s.setPool r.key none).setReader n ⟨r.key,.done⟩
  | _ => s

def step (s : State Key) : Event Key → State Key
  | .datagram key => { s.setTask s.nextTask ⟨key,.lookup⟩ with nextTask := s.nextTask+1 }
  | .lookup i => s.onTask i (s.lookup i)
  | .dialed i ok => s.onTask i (s.dialed i · ok)
  | .insert i => s.onTask i (s.insert i)
  | .sent i ok => s.onTask i (s.sent i · ok)
  | .remove i => s.onTask i (s.remove i)
  | .leave n => s.onReader n (s.leave n)
  | .exit n => s.onReader n (s.exit n)

/-- After a step no key has two sessions, and the step removed no flow of another session. -/
def Lawful (s : State Key) (e : Event Key) : Prop :=
  (∀ key n n',(s.step e).Alive n key → (s.step e).Alive n' key → n=n') ∧ s.RemovesOwn e

namespace Orderly

variable {s : State Key}

variable (h : s.Orderly)
include h

theorem setPool_none (key : Key) : (s.setPool key none).Orderly := by
  refine h.shrink (fun _ _ hw => hw) (fun key' n hn => ?_) h.fresh
  change update s.pool key none key'=some n at hn
  by_cases hkey : key'=key
  · rw [hkey,update_self] at hn
    nomatch hn
  · rw [update_of_ne hkey] at hn
    exact hn

theorem inserted {i n : Nat} {key : Key} (htask : s.tasks i=some ⟨key,.insert n⟩) :
    ((s.setPool key (some n)).setTask i ⟨key,.send n⟩).Orderly := by
  have hworks {key' : Key} {w : Worker}
      (hw : ((s.setPool key (some n)).setTask i ⟨key,.send n⟩).Works key' w) : s.Works key' w := by
    rcases works_setTask hw with hw | ⟨-,ht⟩ | ⟨m,-,ht⟩
    · exact hw
    · nomatch ht
    · nomatch ht
  refine ⟨fun key' w w' hw hw' => h.one key' w w' (hworks hw) (hworks hw'),
    fun key' m w hm hw => ?_,?_⟩
  · change update s.pool key (some n) key'=some m at hm
    by_cases hkey : key'=key
    · rw [hkey,update_self] at hm
      rw [hkey] at hw
      rw [← Option.some.inj hm]
      exact h.one key w (.session n) (hworks hw) (Or.inl ⟨i,htask⟩)
    · rw [update_of_ne hkey] at hm
      exact h.pooled key' m w hm (hworks hw)
  · exact h.fresh_setTask fun m hm => nomatch hm

theorem insert {i : Nat} {key : Key} {phase : SendPhase}
    (htask : s.tasks i=some ⟨key,phase⟩) : (s.insert i ⟨key,phase⟩).Orderly := by
  cases phase with
  | insert session => exact h.inserted htask
  | lookup | dial | send session | remove session | done => exact h

theorem remove (i : Nat) (t : SendTask Key) : (s.remove i t).Orderly := by
  unfold State.remove
  split
  · exact (h.setPool_none t.key).quiet i (by simp) (by simp)
  · exact h

theorem exit {n : Nat} {r : Reader Key} (hreader : s.readers n=some r) :
    (s.exit n r).Orderly := by
  unfold State.exit
  split
  · next hphase => exact (h.setPool_none r.key).reader hreader (by rw [hphase]; simp) .done
  · exact h

theorem step {e : Event Key} (he : s.Undisturbed e) : (s.step e).Orderly := by
  cases e with
  | datagram key =>
    have hquiet : (s.setTask s.nextTask ⟨key,.lookup⟩).Orderly :=
      h.quiet s.nextTask (by simp) (by simp)
    exact ⟨hquiet.one,hquiet.pooled,hquiet.fresh⟩
  | lookup i => exact h.onTask i fun key phase htask => h.lookup htask he
  | dialed i ok => exact h.onTask i fun key phase htask => h.dialed htask ok
  | insert i => exact h.onTask i fun key phase htask => h.insert htask
  | sent i ok => exact h.onTask i fun key phase _ => h.sent i ⟨key,phase⟩ ok
  | remove i => exact h.onTask i fun key phase _ => h.remove i ⟨key,phase⟩
  | leave n => exact h.onReader n fun r hreader => h.leave hreader
  | exit n => exact h.onReader n fun r hreader => h.exit hreader

end Orderly

/-- Along every run in which sessions are created undisturbed and sends fail only while their
readers run, a key has one session at most, and flows are removed by their own. -/
theorem lawful_of_undisturbed {es : List (Event Key)}
    (h : Along step Undisturbed (new : State Key) es) : Along step Lawful (new : State Key) es := by
  refine h.imp Orderly (fun s e hs he => ?_) Orderly.start
  have hnext := hs.step he
  exact ⟨⟨fun key n n' hn hn' => hnext.alive_unique hn hn',hs.removesOwn he⟩,hnext⟩

/-- The second datagram finds the session of the first one, and its send fails while the reader
still runs. -/
theorem lawful_of_undisturbed_resent : Along step Lawful (new : State Nat)
    [.datagram 7,.lookup 0,.dialed 0 true,.insert 0,.sent 0 true,.datagram 7,.lookup 1,
      .sent 1 false,.remove 1,.leave 0,.exit 0] := by
  refine lawful_of_undisturbed ⟨trivial,?_,trivial,trivial,trivial,trivial,?_,trivial,?_,trivial,
    trivial,trivial⟩
  · intro key _ _ w hw
    have hset : ((new : State Nat).setTask 0 ⟨7,.lookup⟩).Works key w := hw
    rcases works_setTask hset with hw | ⟨-,ht⟩ | ⟨n,-,ht⟩
    · cases w with
      | task i => nomatch hw
      | session n =>
        rcases hw with ⟨i,hi⟩ | ⟨phase,hreader,-⟩
        · nomatch hi
        · nomatch hreader
    · nomatch ht
    · nomatch ht
  · intro key htask hpool
    cases htask
    nomatch hpool
  · intro key n htask
    cases htask
    exact ⟨.recv,rfl,by simp⟩

/-- Two datagrams look for a session before the first is inserted: both sessions are alive, and the
reader of the first removes the flow of the second. After a failed send the next datagram starts a
second session beside the first, without any race. -/
theorem two_sessions_and_foreign_removal :
    let racing := run step (new : State Nat) [.datagram 7,.datagram 7,.lookup 0,.lookup 1,
      .dialed 0 true,.insert 0,.dialed 1 true,.insert 1]
    let failing := run step (new : State Nat) [.datagram 7,.lookup 0,.dialed 0 true,.insert 0,
      .sent 0 false,.remove 0,.datagram 7,.lookup 1,.dialed 1 true]
    (racing.Alive 0 7 ∧ racing.Alive 1 7 ∧ racing.pool 7=some 1 ∧
      (run step racing [.leave 0,.exit 0]).Alive 1 7 ∧
      (run step racing [.leave 0,.exit 0]).pool 7=none) ∧
    failing.Alive 0 7 ∧ failing.Alive 1 7 :=
  ⟨⟨⟨.recv,rfl,by simp⟩,⟨.recv,rfl,by simp⟩,rfl,⟨.recv,rfl,by simp⟩,rfl⟩,
    ⟨.recv,rfl,by simp⟩,⟨.recv,rfl,by simp⟩⟩

end State

end DaeRs.Control.UdpFlowPool
