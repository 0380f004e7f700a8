import DaeRs.Datapath.ConnTrack
import DaeRs.Lib.Runs

/-! `__mark_udp_seen` on several CPUs at once, for packets of one UDP flow: each reads the clock, looks
the entry up, compares the times, and deletes, changes or inserts the entry in steps of their own. -/

namespace DaeRs.Datapath.UdpRace

open Runs List

/-- A call of `mark_udp_seen` on a CPU. -/
structure UdpCall where
  isWanIngressDirection : Bool
  args : ConntrackArgs
  generation : UInt16
  fits : Bool

/-- Where a CPU is in `__mark_udp_seen`. Entries are told apart by the memory they are in. -/
inductive Pc where
  | idle
  | sampled (call : UdpCall) (now : UInt64)
  | found (call : UdpCall) (now : UInt64) (id : Nat)
  | expired (call : UdpCall) (now : UInt64) (id : Nat) (seen : UInt64)
  | current (call : UdpCall) (now : UInt64) (id : Nat)
  | stale (call : UdpCall) (now : UInt64) (id : Nat)
  | seen (call : UdpCall) (id : Nat)
  | missing (call : UdpCall) (now : UInt64)

/-- What the CPUs share: the clock, the memory of entries, and the entry that the map has under the
key of the flow. -/
structure Machine (κ : Type) where
  clock : UInt64
  heap : Nat → ConnState
  free : Nat
  live : Option Nat
  cpu : κ → Pc

/-- Time goes on, a CPU begins with a packet, or a CPU takes the next step of its call. -/
inductive Event (κ : Type) where
  | tick (now : UInt64)
  | start (c : κ) (call : UdpCall)
  | step (c : κ)

namespace Machine

variable {κ : Type}

def store (s : Machine κ) (id : Nat) (entry : ConnState) : Machine κ :=
  { s with heap := Function.update s.heap id entry }

def newEntry (call : UdpCall) (now : UInt64) : ConnState :=
  (ConnState.fresh call.isWanIngressDirection now call.args).publish call.generation call.args

def insert (s : Machine κ) (call : UdpCall) (now : UInt64) : Machine κ :=
  if call.fits then
    { s.store s.free (newEntry call now) with live := some s.free,free := s.free+1 }
  else s

theorem insert_frame (s : Machine κ) (call : UdpCall) (now : UInt64) :
    (s.insert call now).clock=s.clock ∧ (s.insert call now).cpu=s.cpu := by
  unfold insert
  split_ifs
  all_goals exact ⟨rfl,rfl⟩

variable [DecidableEq κ]

def goto (s : Machine κ) (c : κ) (pc : Pc) : Machine κ :=
  { s with cpu := Function.update s.cpu c pc }

def stepAt (s : Machine κ) (c : κ) : Pc → Machine κ
  | .idle => s
  | .sampled call now =>
    match s.live with
    | some id => s.goto c (.found call now id)
    | none => s.goto c (.missing call now)
  | .found call now id =>
    if udpConnStateExpired (s.heap id) now then
      s.goto c (.expired call now id (s.heap id).lastSeenNs)
    else s.goto c (.current call now id)
  | .expired call now _ _ => { s with live := none }.goto c (.missing call now)
  | .current call now id =>
    if now-(s.heap id).lastSeenNs > 1000000000 then s.goto c (.stale call now id)
    else s.goto c (.seen call id)
  | .stale call now id =>
    (s.store id { s.heap id with lastSeenNs := now }).goto c (.seen call id)
  | .seen call id =>
    (s.store id ((s.heap id).publish call.generation call.args)).goto c .idle
  | .missing call now => (s.insert call now).goto c .idle

def apply (s : Machine κ) : Event κ → Machine κ
  | .tick now => { s with clock := if s.clock≤now then now else s.clock }
  | .start c call =>
    match s.cpu c with
    | .idle => s.goto c (.sampled call s.clock)
    | _ => s
  | .step c => s.stepAt c (s.cpu c)

section Alone

def entry (s : Machine κ) : Option ConnState := s.live.map s.heap

variable (s : Machine κ) (c : κ) (call : UdpCall)

theorem goto_goto (pc pc' : Pc) : (s.goto c pc).goto c pc'=s.goto c pc' := by
  simp [goto]

theorem stepAt_goto (old : Pc) {pc : Pc} (h : pc≠.idle) :
    (s.goto c old).stepAt c pc=s.stepAt c pc := by
  cases pc with
  | idle => exact absurd rfl h
  | sampled call now | found call now id | current call now id =>
    simp only [stepAt,goto_goto]
    rfl
  | expired call now id seen => exact goto_goto { s with live := none } c _ _
  | stale call now id | seen call id => exact goto_goto (s.store id _) c _ _
  | missing call now =>
    simp only [stepAt,insert]
    split_ifs
    · simp [goto,store]
    · exact goto_goto _ c _ _

theorem run_step {pc : Pc} (h : pc≠.idle) (n : Nat) :
    run apply (s.goto c pc) (replicate (n+1) (.step c)) =
      run apply (s.stepAt c pc) (replicate n (.step c)) := by
  have happly : (s.goto c pc).apply (.step c)=s.stepAt c pc := by
    rw [← stepAt_goto s c pc h]
    simp [apply,goto]
  rw [replicate_succ,run,foldl_cons,happly]
  rfl

theorem run_idle (n : Nat) :
    run apply (s.goto c .idle) (replicate n (.step c))=s.goto c .idle := by
  have happly : (s.goto c .idle).apply (.step c)=s.goto c .idle := by
    simp [apply,goto,stepAt]
  induction n with
  | zero => rfl
  | succ n ih =>
    rw [replicate_succ,run,foldl_cons,happly]
    exact ih

theorem run_missing {s : Machine κ} (hlive : s.live=none) (now : UInt64) (n : Nat) :
    (run apply (s.goto c (.missing call now)) (replicate (n+1) (.step c))).entry =
      if call.fits then some (newEntry call now) else none := by
  rw [run_step s c (by simp),stepAt,run_idle]
  unfold insert
  split_ifs
  · simp [entry,goto,store]
  · simp [entry,goto,hlive]

theorem run_current (now : UInt64) (id n : Nat) :
    run apply (s.goto c (.current call now id)) (replicate (n+3) (.step c)) =
      (s.store id (((s.heap id).touch now).publish call.generation call.args)).goto c .idle := by
  rw [run_step s c (by simp),stepAt,ConnState.touch]
  split_ifs
  · rw [run_step s c (by simp),stepAt,run_step _ c (by simp),stepAt,run_idle]
    simp [store]
  · rw [run_step s c (by simp),stepAt,run_idle]

variable {s c}

/-- A call that no other CPU interrupts is `__mark_udp_seen`, wherever the others are. -/
theorem run_alone (hidle : s.cpu c=.idle) (call : UdpCall) :
    (run apply s (.start c call::replicate 5 (.step c))).entry =
      markUdpSeen call.generation s.clock call.fits call.isWanIngressDirection call.args s.entry := by
  have hstart : s.apply (.start c call)=s.goto c (.sampled call s.clock) := by
    simp [apply,hidle]
  rw [run,foldl_cons,hstart,← run,run_step s c (by simp)]
  cases hlive : s.live with
  | none =>
    simp only [stepAt,hlive]
    rw [run_missing c call hlive]
    simp [markUdpSeen,entry,hlive,newEntry]
  | some id =>
    simp only [stepAt,hlive]
    rw [run_step s c (by simp),stepAt]
    by_cases hexpired : udpConnStateExpired (s.heap id) s.clock=true
    · rw [if_pos hexpired,run_step s c (by simp),stepAt,run_missing c call rfl]
      simp [markUdpSeen,entry,hlive,Option.filter,hexpired,newEntry]
    · rw [if_neg hexpired,run_current]
      simp [markUdpSeen,entry,hlive,Option.filter,hexpired,store,goto]

end Alone

def Fresh (s : Machine κ) (id : Nat) : Prop := s.live=some id ∧
    s.clock.toNat<(s.heap id).lastSeenNs.toNat+udpConnStateTimeoutNs.toNat

def FindsExpired (s : Machine κ) (e : Event κ) (id : Nat) : Prop :=
  ∃ c call now,e=.step c ∧ s.cpu c=.found call now id ∧ udpConnStateExpired (s.heap id) now=true

/-- An event leaves an entry and its routing decision in place. -/
structure Keeps (s : Machine κ) (e : Event κ) (id : Nat) : Prop where
  notExpired : ¬s.FindsExpired e id
  live : (s.apply e).live=some id
  decision : (s.heap id).decision.isSome=true → ((s.apply e).heap id).decision.isSome=true

def FreshKept (s : Machine κ) (e : Event κ) : Prop := ∀ id,s.Fresh id → s.Keeps e id

/-- The others do not disturb the step of a CPU: the entry that it tests was not stored after it
read the clock, the one that it deletes is still the one it tested, and where it inserts there is
none. -/
def Undisturbed (s : Machine κ) : Event κ → Prop
  | .tick _ => True
  | .start _ _ => True
  | .step c =>
    match s.cpu c with
    | .found _ now id => (s.heap id).lastSeenNs.toNat≤now.toNat
    | .expired _ _ id seen =>
      ∀ other,s.live=some other → other=id ∧ (s.heap id).lastSeenNs=seen
    | .missing call _ => call.fits=true → s.live=none
    | _ => True

def Pc.Timed (clock : UInt64) : Pc → Prop
  | .idle => True
  | .sampled _ now => now.toNat ≤ clock.toNat
  | .found _ now _ => now.toNat ≤ clock.toNat
  | .expired _ now _ seen =>
    now.toNat ≤ clock.toNat ∧ seen.toNat+udpConnStateTimeoutNs.toNat<now.toNat
  | .current _ now _ => now.toNat ≤ clock.toNat
  | .stale _ now _ => now.toNat ≤ clock.toNat
  | .seen _ _ => True
  | .missing _ now => now.toNat ≤ clock.toNat

def Timed (s : Machine κ) : Prop := ∀ c,Pc.Timed s.clock (s.cpu c)

theorem Pc.Timed.mono {clock later : UInt64} (hle : clock.toNat≤later.toNat) {pc : Pc}
    (h : Pc.Timed clock pc) : Pc.Timed later pc := by
  cases pc <;> simp only [Pc.Timed] at h ⊢ <;> omega

theorem expired_iff {s : ConnState} {now : UInt64} (h : s.lastSeenNs.toNat≤now.toNat) :
    udpConnStateExpired s now=true ↔ s.lastSeenNs.toNat+udpConnStateTimeoutNs.toNat<now.toNat := by
  have hsub : (now-s.lastSeenNs).toNat=now.toNat-s.lastSeenNs.toNat :=
    UInt64.toNat_sub_of_le _ _ (UInt64.le_iff_toNat_le.mpr h)
  rw [udpConnStateExpired,decide_eq_true_iff,gt_iff_lt,UInt64.lt_iff_toNat_lt,hsub]
  omega

variable {s : Machine κ} {c : κ}

theorem Timed.goto (h : s.Timed) {pc : Pc} (hpc : Pc.Timed s.clock pc) : (s.goto c pc).Timed := by
  intro c'
  by_cases hc : c'=c
  · subst hc
    simpa [Machine.goto] using hpc
  · simpa [Machine.goto,hc] using h c'

theorem Timed.stepAt (h : s.Timed) (hu : s.Undisturbed (.step c)) :
    (s.stepAt c (s.cpu c)).Timed := by
  have hc := h c
  simp only [Undisturbed] at hu
  cases hpc : s.cpu c with
  | idle => exact h
  | sampled call now =>
    rw [hpc] at hc
    simp only [Machine.stepAt]
    cases s.live with
    | none => exact h.goto hc
    | some id => exact h.goto hc
  | found call now id =>
    rw [hpc] at hc hu
    simp only [Machine.stepAt]
    split_ifs with hexpired
    · exact h.goto ⟨hc,(expired_iff hu).mp hexpired⟩
    · exact h.goto hc
  | expired call now id seen =>
    rw [hpc] at hc
    exact Timed.goto (s := { s with live := none }) h hc.1
  | current call now id =>
    rw [hpc] at hc
    simp only [Machine.stepAt]
    split_ifs
    · exact h.goto hc
    · exact h.goto trivial
  | stale call now id | seen call id => exact Timed.goto (s := s.store id _) h trivial
  | missing call now =>
    have hinsert : (s.insert call now).Timed := by
      intro c'
      rw [(s.insert_frame call now).1,(s.insert_frame call now).2]
      exact h c'
    exact hinsert.goto trivial

theorem Timed.apply (h : s.Timed) {e : Event κ} (hu : s.Undisturbed e) : (s.apply e).Timed := by
  cases e with
  | tick now =>
    intro c
    refine Pc.Timed.mono ?_ (h c)
    simp only [Machine.apply]
    split_ifs with hle
    · exact UInt64.le_iff_toNat_le.mp hle
    · exact Nat.le_refl _
  | start c call =>
    simp only [Machine.apply]
    cases s.cpu c with
    | idle => exact h.goto (Nat.le_refl _)
    | _ => exact h
  | step c => exact h.stepAt hu

theorem decision_publish {entry : ConnState} (h : entry.decision.isSome=true)
    (generation : UInt16) (args : ConntrackArgs) :
    (entry.publish generation args).decision.isSome=true := by
  unfold ConnState.publish
  cases args.routing with
  | none => exact h
  | some r => rfl

omit [DecidableEq κ] in
theorem not_findsExpired {id : Nat}
    (h : ∀ call now,s.cpu c=.found call now id → udpConnStateExpired (s.heap id) now=false) :
    ¬s.FindsExpired (.step c) id := by
  intro hfinds
  obtain ⟨c',call,now,he,hfound,hexpired⟩ := hfinds
  cases he
  rw [h call now hfound] at hexpired
  nomatch hexpired

theorem keeps_goto {id : Nat} {pc : Pc}
    (happly : s.apply (.step c)=s.goto c pc) (hlive : s.live=some id)
    (hfound : ¬s.FindsExpired (.step c) id) : s.Keeps (.step c) id where
  notExpired := hfound
  live := by
    rw [happly]
    exact hlive
  decision := by
    intro hsome
    rw [happly]
    exact hsome

theorem keeps_store {id other : Nat} {entry : ConnState} {pc : Pc}
    (happly : s.apply (.step c)=(s.store other entry).goto c pc) (hlive : s.live=some id)
    (hfound : ¬s.FindsExpired (.step c) id)
    (hdecision : (s.heap other).decision.isSome=true → entry.decision.isSome=true) :
    s.Keeps (.step c) id where
  notExpired := hfound
  live := by
    rw [happly]
    exact hlive
  decision := by
    intro hsome
    rw [happly]
    by_cases hid : id=other
    · subst hid
      simpa [goto,store] using hdecision hsome
    · simpa [goto,store,hid] using hsome

omit [DecidableEq κ] in
theorem Timed.found_not_expired (h : s.Timed) {id : Nat} {call : UdpCall}
    {now : UInt64} (hu : s.Undisturbed (.step c)) (hpc : s.cpu c=.found call now id)
    (hfresh : s.Fresh id) : udpConnStateExpired (s.heap id) now=false := by
  have hc := h c
  simp only [Undisturbed,hpc] at hu
  simp only [hpc,Pc.Timed] at hc
  have hclock := hfresh.2
  rw [← Bool.not_eq_true,expired_iff hu]
  omega

theorem Timed.step_keeps (h : s.Timed) (hu : s.Undisturbed (.step c))
    {id : Nat} (hfresh : s.Fresh id) : s.Keeps (.step c) id := by
  have hlive := hfresh.1
  have hfound : ¬s.FindsExpired (.step c) id :=
    not_findsExpired fun call now hpc => h.found_not_expired hu hpc hfresh
  have happly : s.apply (.step c)=s.stepAt c (s.cpu c) := rfl
  cases hpc : s.cpu c with
  | idle =>
    rw [hpc] at happly
    refine ⟨hfound,?_,?_⟩
    · rw [happly]
      exact hlive
    · rw [happly]
      exact fun hsome => hsome
  | sampled call now =>
    simp only [hpc,Machine.stepAt,hlive] at happly
    exact keeps_goto happly hlive hfound
  | found call now other | current call now other =>
    simp only [hpc,Machine.stepAt] at happly
    split_ifs at happly
    all_goals exact keeps_goto happly hlive hfound
  | expired call now other seen =>
    -- the entry that was tested is the one of the flow, and it is too old to be fresh
    have hc := h c
    simp only [Undisturbed,hpc] at hu
    simp only [hpc,Pc.Timed] at hc
    obtain ⟨hid,hseen⟩ := hu id hlive
    have hclock := hfresh.2
    rw [hid,hseen] at hclock
    omega
  | stale call now other =>
    rw [hpc] at happly
    exact keeps_store happly hlive hfound fun hsome => hsome
  | seen call other =>
    rw [hpc] at happly
    exact keeps_store happly hlive hfound fun hsome => decision_publish hsome _ _
  | missing call now =>
    simp only [Undisturbed,hpc] at hu
    cases hfits : call.fits with
    | true =>
      rw [hu hfits] at hlive
      nomatch hlive
    | false =>
      simp only [hpc,Machine.stepAt,Machine.insert,hfits,Bool.false_eq_true,if_false] at happly
      exact keeps_goto happly hlive hfound

theorem Timed.freshKept (h : s.Timed) {e : Event κ} (hu : s.Undisturbed e) : s.FreshKept e := by
  intro id hfresh
  cases e with
  | tick now =>
    refine ⟨?_,hfresh.1,fun hsome => hsome⟩
    intro hfinds
    obtain ⟨c,call,now,he,-⟩ := hfinds
    nomatch he
  | start c call =>
    have hframe : (s.apply (.start c call)).live=s.live ∧
        (s.apply (.start c call)).heap=s.heap := by
      simp only [Machine.apply]
      cases s.cpu c <;> exact ⟨rfl,rfl⟩
    refine ⟨?_,hframe.1.trans hfresh.1,?_⟩
    · intro hfinds
      obtain ⟨c',call',now,he,-⟩ := hfinds
      nomatch he
    · rw [hframe.2]
      exact fun hsome => hsome
  | step c => exact h.step_keeps hu hfresh

/-- Along every run of CPUs that do not disturb each other, an entry seen less than the timeout ago
is not taken for expired, and stays where it is with its decision. -/
theorem freshKept_of_undisturbed {s : Machine κ} (hidle : ∀ c,s.cpu c=.idle)
    {es : List (Event κ)} (h : Along apply Undisturbed s es) : Along apply FreshKept s es := by
  have hs : s.Timed := fun c => by
    rw [hidle c]
    trivial
  exact h.imp Timed (fun _ _ ht hu => ⟨ht.freshKept hu,ht.apply hu⟩) hs

def boot : Machine Bool :=
  ⟨0,fun _ => ConnState.fresh false 0 (ConntrackArgs.refresh 0),0,none,fun _ => .idle⟩

def routedCall : UdpCall := ⟨false,⟨some (⟨2,0,false⟩,1),none,0,none,0⟩,1,true⟩

def refreshCall : UdpCall := ⟨false,ConntrackArgs.refresh 0,1,true⟩

/-- There is an entry, and one CPU stands in a call that has found it. -/
def busy : Machine Bool := run apply boot [.tick 1000000000,.start true routedCall,.step true,
  .step true,.tick 3000000000,.start false refreshCall,.step false]

theorem run_alone_busy : busy.cpu false=.found refreshCall 3000000000 0 ∧
    busy.entry.map ConnState.lastSeenNs=some 1000000000 ∧
    (run apply busy (.start true refreshCall::replicate 5 (.step true))).entry.map
      (fun s => (s.lastSeenNs,s.decision))=some (3000000000,some ⟨2,0,false⟩) := by
  rw [run_alone (s := busy) rfl refreshCall]
  exact ⟨rfl,by decide +kernel,by decide +kernel⟩

def inTurn : List (Event Bool) :=
  [.tick 1000000000,.start true routedCall,.step true,.step true,.tick 3000000000,
    .start false refreshCall,.step false,.step false,.step false,.step false,.step false]

theorem freshKept_in_turn : (∀ c,boot.cpu c=.idle) ∧ Along apply Undisturbed boot inTurn ∧
      Along apply FreshKept boot inTurn := by
  have hidle : ∀ c,boot.cpu c=.idle := fun _ => rfl
  have h : Along apply Undisturbed boot inTurn :=
    ⟨True.intro,True.intro,True.intro,fun _ => rfl,True.intro,True.intro,True.intro,
      Nat.le_of_ble_eq_true rfl,True.intro,True.intro,True.intro,True.intro⟩
  exact ⟨hidle,h,freshKept_of_undisturbed hidle h⟩

/-- One CPU reads the clock, and the other one stores the time a second later before the first looks
the entry up. -/
def overtaken : List (Event Bool) :=
  [.tick 1000000000,.start true routedCall,.step true,.step true,.tick 3000000000,
    .start false refreshCall,.tick 4000000000,.start true refreshCall,.step true,.step true,
    .step true,.step true,.step false]

/-- The difference of the times wraps around, and the entry that was just refreshed is deleted with
its routing decision. -/
theorem overtaken_deletes_fresh : ¬Along apply FreshKept boot (overtaken++[.step false]) ∧
      (run apply boot overtaken).entry.map ConnState.decision=some (some ⟨2,0,false⟩) ∧
      (run apply boot overtaken).entry.map ConnState.lastSeenNs=some 4000000000 ∧
      (run apply boot overtaken).clock=4000000000 ∧
      (run apply boot (overtaken++[.step false,.step false])).entry=none := by
  refine ⟨fun h => ?_,by decide +kernel,by decide +kernel,by decide +kernel,by decide +kernel⟩
  have hkept := h.last 0 ⟨by decide +kernel,by decide +kernel⟩
  exact hkept.notExpired ⟨false,refreshCall,3000000000,rfl,rfl,by decide +kernel⟩

end Machine

end DaeRs.Datapath.UdpRace
