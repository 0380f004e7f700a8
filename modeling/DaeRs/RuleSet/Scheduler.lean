import DaeRs.Lib.RustTime
import DaeRs.Config.Period
import DaeRs.RuleSet.Store

/-! When the scheduler runs the updates of the rule sets. -/

namespace DaeRs.RuleSet.Scheduler

open RustTime Option

def parsePeriod (spec : String) : Except String Duration :=
  (Config.parsePeriod spec).map fun secs => Duration.fromSecs (UInt64.ofNat secs)

variable {period : Duration}

theorem parsePeriod_pos {spec : String} (h : parsePeriod spec=.ok period) : 0<period.nanos := by
  obtain ⟨secs,hsecs,rfl⟩ := Fallible.map_ok_iff.1 h
  obtain ⟨hpos,hlt⟩ := Config.parsePeriod_pos_lt hsecs
  have hnat : (UInt64.ofNat secs).toNat=secs := UInt64.toNat_ofNat_of_lt' hlt
  show 0<(UInt64.ofNat secs).toNat*10^9
  rw [hnat]
  omega

inductive TriggerKind where
  | time (hh mm : Nat)
  | period (period : Duration)
  deriving DecidableEq

structure Entry where
  name : String
  kind : TriggerKind
  next : Instant
  deriving DecidableEq

structure Clock where
  wall : DateTime
  mono : Instant
  deriving DecidableEq

def TriggerKind.ofUpdate : Option Config.RuleSetUpdate → Option TriggerKind
  | some (.time t) => (Config.parseTime t).toOption.map fun p => .time p.1 p.2
  | some (.period p) => (parsePeriod p).toOption.map .period
  | none => none

def Entry.ofConfig (cfg : Config.RuleSetConfig) (now : Instant) : Option Entry :=
  (TriggerKind.ofUpdate cfg.update).map fun kind => ⟨cfg.name,kind,now⟩

theorem Entry.period_pos {cfg : Config.RuleSetConfig} {now : Instant} {entry : Entry}
    (h : Entry.ofConfig cfg now=some entry)
    (hkind : entry.kind=.period period) : 0<period.nanos := by
  obtain ⟨kind,hofUpdate,rfl⟩ := map_eq_some_iff.1 h
  cases hkind
  unfold TriggerKind.ofUpdate at hofUpdate
  split at hofUpdate
  · obtain ⟨p,-,hp⟩ := map_eq_some_iff.1 hofUpdate
    nomatch hp
  · next spec hspec =>
    obtain ⟨d,hd,hperiod⟩ := Fallible.exists_ok_of_map hofUpdate
    cases hperiod
    exact parsePeriod_pos hd
  · nomatch hofUpdate

/-- The local time zone: how far ahead of UTC a date's local time is, and the only date of a local
time (`and_local_timezone(Local).single()`). -/
structure Zone where
  offset : DateTime → Int
  single : Int → Option DateTime

def nextTimeTrigger (zone : Zone) (now : DateTime) (hh mm : Nat) : Option DateTime :=
  if hh<24 ∧ mm<60 then
    let day : Nat := 86400*10^9
    let naive := (now.nanos+zone.offset now)/day*day+((hh*3600+mm*60)*10^9 : Nat)
    ((zone.single naive).or (DateTime.ofNanos naive)).bind fun target =>
      if now.nanos<target.nanos then some target else DateTime.ofNanos (target.nanos+day)
  else none

def nextPeriodPoint (lastSuccess : Instant) (period : Duration) (now : Instant) :
    Option Instant :=
  let elapsed := now.saturatingDurationSince lastSuccess
  let step := if period.isZero then 1 else elapsed.nanos/period.nanos+1
  lastSuccess.add (period.saturatingMul (UInt32.ofNat (min step (2^32-1))))

def localToInstant (now : Clock) (dt : DateTime) : Option Instant :=
  now.mono.add (dt.stdUntil now.wall)

section Schedule

variable (zone : Zone) (parseFromRfc3339 : String → Option DateTime)

def persistedUpdate (files : String → RuleSetFiles) (name : String) : Option DateTime :=
  (((readMeta name (files name)).toOption.bind id).bind (·.lastUpdated)).bind parseFromRfc3339

/-- The first trigger of an entry; `lastSuccess` has the updates of this process. -/
def initialNext (files : String → RuleSetFiles) (lastSuccess : String → Option Instant)
    (entry : Entry) (now : Clock) : Option Instant :=
  match entry.kind with
  | .time hh mm => (nextTimeTrigger zone now.wall hh mm).bind (localToInstant now)
  | .period period =>
    match lastSuccess entry.name with
    | some t => nextPeriodPoint t period now.mono
    | none =>
      let base := (persistedUpdate parseFromRfc3339 files entry.name).getD now.wall
      (localToInstant now base).bind fun t => nextPeriodPoint t period now.mono

def startEntries (files : String → RuleSetFiles) (now : Clock) :
    List Config.RuleSetConfig → Option (List Entry)
  | [] => some []
  | cfg::cfgs =>
    match Entry.ofConfig cfg now.mono with
    | none => startEntries files now cfgs
    | some entry =>
      (initialNext zone parseFromRfc3339 files (fun _ => none) entry now).bind fun next =>
        (startEntries files now cfgs).map ({ entry with next := next }::·)

/-- A due entry is updated, and scheduled again by what the clocks show after it. -/
def processEntry (lastSuccess : String → Option Instant) (entry : Entry) (now : Instant)
    (after : Clock) (ok : Bool) : Option (Entry×(String → Option Instant)) :=
  let lastSuccess := if ok then Function.update lastSuccess entry.name (some now) else lastSuccess
  let next := match entry.kind with
    | .time hh mm => (nextTimeTrigger zone after.wall hh mm).bind (localToInstant after)
    | .period period => nextPeriodPoint ((lastSuccess entry.name).getD now) period now
  next.map fun next => ({ entry with next := next },lastSuccess)

end Schedule

theorem nextPeriodPoint_eq {last now : Instant} (hpos : 0<period.nanos) :
    nextPeriodPoint last period now=last.add (period.saturatingMul
      (UInt32.ofNat (min (periodSteps last.nanos period.nanos now.nanos) (2^32-1)))) := by
  have hzero : period.isZero=false := beq_false_of_ne (by omega)
  unfold nextPeriodPoint
  rw [hzero]
  rfl

theorem saturatingMul_eq_iff (hpos : 0<period.nanos) (n : Nat) :
    (period.saturatingMul (UInt32.ofNat (min n (2^32-1)))).nanos=n*period.nanos ↔
      n<2^32 ∧ n*period.nanos<2^64*10^9 := by
  have hlt : min n (2^32-1)<2^32 := by omega
  have hfactor : (UInt32.ofNat (min n (2^32-1))).toNat=min n (2^32-1) :=
    UInt32.toNat_ofNat_of_lt' hlt
  rw [Duration.saturatingMul_nanos,hfactor,Nat.mul_comm period.nanos]
  by_cases hn : n<2^32
  · have hmin : min n (2^32-1)=n := by omega
    rw [hmin]
    split_ifs <;> omega
  · -- the factor is cut to the largest one, and the product is smaller
    have hless : min n (2^32-1)*period.nanos<n*period.nanos :=
      Nat.mul_lt_mul_of_pos_right (by omega) hpos
    split_ifs <;> omega

/-- The next point is found exactly if its number of periods is a `u32` and it is an instant. -/
theorem nextPeriodPoint_next_iff {last now : Instant}
    (hpos : 0<period.nanos) (hle : last.nanos≤now.nanos) :
    (∃ r,nextPeriodPoint last period now=some r ∧
      IsLeast (periodPoints last.nanos period.nanos now.nanos) r.nanos) ↔
    periodSteps last.nanos period.nanos now.nanos<2^32 ∧
      last.nanos+(periodSteps last.nanos period.nanos now.nanos*period.nanos : Nat) <
        ((2^63*10^9 : Nat) : Int) := by
  have hleast := isLeast_periodPoints hpos hle
  have hge := last.ge
  rw [nextPeriodPoint_eq hpos]
  generalize periodSteps last.nanos period.nanos now.nanos=n at hleast ⊢
  have hexact := saturatingMul_eq_iff hpos n
  generalize period.saturatingMul (UInt32.ofNat (min n (2^32-1)))=d at hexact ⊢
  have hunique (r : Instant) : IsLeast (periodPoints last.nanos period.nanos now.nanos) r.nanos ↔
      r.nanos=last.nanos+(n*period.nanos : Nat) := by
    constructor
    · intro hr
      exact hr.unique hleast
    · intro hr
      rw [hr]
      exact hleast
  simp only [hunique]
  rw [Instant.exists_add_iff]
  generalize n*period.nanos=m at hexact ⊢
  constructor
  · intro h
    obtain ⟨hsum,hlt⟩ := h
    exact ⟨(hexact.1 (by omega)).1,hlt⟩
  · intro h
    obtain ⟨hn,hlt⟩ := h
    have hd := hexact.2 ⟨hn,by omega⟩
    exact ⟨by omega,hlt⟩

theorem nextPeriodPoint_now_iff {now r : Instant} (hpos : 0<period.nanos) :
    nextPeriodPoint now period now=some r ↔ r.nanos=now.nanos+period.nanos := by
  have hsteps : periodSteps now.nanos period.nanos now.nanos=1 := by
    rw [periodSteps,Int.sub_self,Int.toNat_zero,Nat.zero_div]
  have hone : (period.saturatingMul (UInt32.ofNat (min 1 (2^32-1)))).nanos=1*period.nanos :=
    (saturatingMul_eq_iff hpos 1).2 ⟨by omega,by rw [Nat.one_mul]; exact period.lt⟩
  rw [nextPeriodPoint_eq hpos,hsteps,Instant.add_eq_some_iff,hone,Nat.one_mul]

/-- The next point of an accepted period is found unless the number of periods is no `u32` or the
point no instant. -/
theorem nextPeriodPoint_isLeast_iff {spec : String} {period : Duration}
    (hperiod : parsePeriod spec=.ok period) {last now : Instant} (hle : last.nanos≤now.nanos) :
    (∃ r,nextPeriodPoint last period now=some r ∧
      IsLeast (periodPoints last.nanos period.nanos now.nanos) r.nanos) ↔
    periodSteps last.nanos period.nanos now.nanos<2^32 ∧
      last.nanos+(periodSteps last.nanos period.nanos now.nanos*period.nanos : Nat) <
        ((2^63*10^9 : Nat) : Int) :=
  nextPeriodPoint_next_iff (parsePeriod_pos hperiod) hle

theorem nextPeriodPoint_isLeast_threeHours : ∃ r,nextPeriodPoint (⟨0,by decide,by decide⟩ : Instant)
      (Duration.fromSecs 10800) ⟨10800*1000000000,by decide,by decide⟩=some r ∧
      IsLeast (periodPoints 0 (10800*10^9) (10800*1000000000)) r.nanos :=
  (nextPeriodPoint_isLeast_iff (show parsePeriod "3h" = .ok _ from rfl) (by decide)).2
    ⟨by decide,by decide⟩

/-- A period can be accepted that leads behind the last instant. -/
theorem nextPeriodPoint_overflows :
    parsePeriod "307445734561825860m" = .ok (Duration.fromSecs 18446744073709551600) ∧
      ∀ now : Instant,0≤now.nanos →
        nextPeriodPoint now (Duration.fromSecs 18446744073709551600) now=none := by
  have hperiod : parsePeriod "307445734561825860m" =
      .ok (Duration.fromSecs 18446744073709551600) := rfl
  refine ⟨hperiod,fun now hnow => Option.eq_none_iff_forall_ne_some.2 fun r hr => ?_⟩
  have hnanos : (Duration.fromSecs 18446744073709551600).nanos=18446744073709551600000000000 := rfl
  rw [nextPeriodPoint_now_iff (parsePeriod_pos hperiod),hnanos] at hr
  have hlt := r.lt
  omega

theorem localToInstant_past {now : Clock} {dt : DateTime} (hle : dt.nanos≤now.wall.nanos) :
    localToInstant now dt=some now.mono := by
  have hzero : (dt.nanos-now.wall.nanos).toNat=0 := by omega
  refine Instant.add_eq_some_iff.2 ?_
  show now.mono.nanos=now.mono.nanos+((dt.nanos-now.wall.nanos).toNat : Nat)
  rw [hzero]
  omega

section Restart

variable {zone : Zone} {parseFromRfc3339 : String → Option DateTime}
  {files : String → RuleSetFiles} {entry : Entry} {period : Duration} {now : Clock}

theorem initialNext_restart (hkind : entry.kind=.period period)
    (hle : ∀ t,persistedUpdate parseFromRfc3339 files entry.name=some t →
      t.nanos≤now.wall.nanos) :
    initialNext zone parseFromRfc3339 files (fun _ => none) entry now =
      nextPeriodPoint now.mono period now.mono := by
  have hbase : ((persistedUpdate parseFromRfc3339 files entry.name).getD now.wall).nanos ≤
      now.wall.nanos := by
    cases hpersisted : persistedUpdate parseFromRfc3339 files entry.name with
    | none => exact Int.le_refl _
    | some t => exact hle t hpersisted
  unfold initialNext
  rw [hkind]
  show (localToInstant now _).bind _=_
  rw [localToInstant_past hbase]
  rfl

theorem persistedUpdate_eq_some {name s : String} {m : RuleSetMeta} {t : DateTime}
    (hmeta : readMeta name (files name)=.ok (some m)) (hs : m.lastUpdated=some s)
    (ht : parseFromRfc3339 s=some t) : persistedUpdate parseFromRfc3339 files name=some t := by
  unfold persistedUpdate
  rw [hmeta]
  show (m.lastUpdated.bind parseFromRfc3339)=some t
  rw [hs,bind_some,ht]

theorem period_after_now_iff {t now : Int} {period : Nat} (hle : t≤now) :
    now+(period : Nat)=t+(periodSteps t period now*period : Nat) ↔ period ∣ (now-t).toNat := by
  have hdiv := Nat.div_add_mod (now-t).toNat period
  have hmul : periodSteps t period now*period =period*((now-t).toNat/period)+period := by
    rw [periodSteps,Nat.add_mul,Nat.one_mul,Nat.mul_comm]
  rw [Nat.dvd_iff_mod_eq_zero]
  omega

/-- After a restart the first update is at the next point of the period from the last one exactly if
the restart is at such a point (and the point an instant). -/
theorem initialNext_isLeast_iff {cfg : Config.RuleSetConfig} {created : Instant}
    (hentry : Entry.ofConfig cfg created=some entry) (hkind : entry.kind=.period period)
    {m : RuleSetMeta} {s : String} {t : DateTime}
    (hmeta : readMeta entry.name (files entry.name)=.ok (some m))
    (hs : m.lastUpdated=some s) (ht : parseFromRfc3339 s=some t)
    (hle : t.nanos≤now.wall.nanos) :
    (∃ r,initialNext zone parseFromRfc3339 files (fun _ => none) entry now=some r ∧
      IsLeast (periodPoints t.nanos period.nanos now.wall.nanos)
        (now.wall.nanos+(r.nanos-now.mono.nanos))) ↔
    period.nanos ∣ (now.wall.nanos-t.nanos).toNat ∧
      now.mono.nanos+period.nanos<((2^63*10^9 : Nat) : Int) := by
  have hpos := Entry.period_pos hentry hkind
  have hleast := isLeast_periodPoints hpos hle
  have hpersisted := persistedUpdate_eq_some hmeta hs ht
  have hpast (u : DateTime)
      (hu : persistedUpdate parseFromRfc3339 files entry.name=some u) :
      u.nanos≤now.wall.nanos := by
    rw [hpersisted] at hu
    cases hu
    exact hle
  rw [initialNext_restart hkind hpast,← period_after_now_iff hle]
  constructor
  · intro h
    obtain ⟨r,hr,hpoint⟩ := h
    rw [nextPeriodPoint_now_iff hpos] at hr
    have heq := hpoint.unique hleast
    have hlt := r.lt
    exact ⟨by omega,by omega⟩
  · intro h
    obtain ⟨heq,hlt⟩ := h
    obtain ⟨r,hr,hnanos⟩ := (Instant.exists_add_iff (t := now.mono) (d := period)).2 ⟨rfl,hlt⟩
    refine ⟨r,(nextPeriodPoint_now_iff hpos).2 hnanos,?_⟩
    have hwall : now.wall.nanos+(r.nanos-now.mono.nanos) =
        t.nanos+(periodSteps t.nanos period.nanos now.wall.nanos*period.nanos : Nat) := by
      omega
    rw [hwall]
    exact hleast

end Restart

theorem initialNext_isLeast_at_point :
    let cfg : Config.RuleSetConfig := ⟨"cn", "https://example.org/cn.txt",some (.period "3h")⟩
    let m : RuleSetMeta := ⟨"cn",cfg.url,.domainList,some "2026-01-01T00:00:00Z",none,none,none,
      0,.ready⟩
    let t : DateTime := ⟨1767225600*1000000000,by decide,by decide⟩
    let now : Clock := ⟨⟨1767236400*1000000000,by decide,by decide⟩,
      ⟨3600*1000000000,by decide,by decide⟩⟩
    let period := Duration.fromSecs 10800
    let entry : Entry := ⟨"cn",.period period,now.mono⟩
    ∃ r,initialNext ⟨fun _ => 0,fun _ => none⟩ (fun _ => some t)
        (fun _ => ⟨.missing,.missing,.content (.ok m)⟩) (fun _ => none) entry now=some r ∧
      IsLeast (periodPoints t.nanos period.nanos now.wall.nanos)
        (now.wall.nanos+(r.nanos-now.mono.nanos)) := by
  intro cfg m t now period entry
  have hentry : Entry.ofConfig cfg now.mono=some entry := rfl
  exact (initialNext_isLeast_iff hentry (m := m) (s := "2026-01-01T00:00:00Z") rfl rfl rfl rfl
    (by decide)).2 ⟨by decide +kernel,by decide⟩

/-- An hour after an update every three hours, a restart postpones the next one by an hour. -/
theorem initialNext_postponed :
    ∃ (files : String → RuleSetFiles) (entry : Entry) (m : RuleSetMeta) (t : DateTime)
      (last : Instant) (now : Clock),
      Entry.ofConfig ⟨"cn", "https://example.org/cn.txt",some (.period "3h")⟩ now.mono =some entry ∧
      readMeta entry.name (files entry.name)=.ok (some m) ∧
      m.lastUpdated=some "2026-01-01T00:00:00Z" ∧
      t.nanos<now.wall.nanos ∧
      now.wall.nanos-t.nanos=now.mono.nanos-last.nanos ∧
      t.nanos+10800*1000000000∈periodPoints t.nanos (10800*1000000000) now.wall.nanos ∧
      (∃ r,initialNext ⟨fun _ => 0,fun _ => none⟩ (fun _ => some t) files
          (fun _ => some last) entry now=some r ∧
        now.wall.nanos+(r.nanos-now.mono.nanos)=t.nanos+10800*1000000000) ∧
      ∃ r,initialNext ⟨fun _ => 0,fun _ => none⟩ (fun _ => some t) files
          (fun _ => none) entry now=some r ∧
        now.wall.nanos+(r.nanos-now.mono.nanos)=t.nanos+14400*1000000000 := by
  refine ⟨fun _ => ⟨.missing,.missing,.content (.ok ⟨"cn", "https://example.org/cn.txt",
    .domainList,some "2026-01-01T00:00:00Z",none,none,none,0,.ready⟩)⟩,_,_,
    ⟨1767225600*1000000000,by decide,by decide⟩,⟨0,by decide,by decide⟩,
    ⟨⟨1767229200*1000000000,by decide,by decide⟩,⟨3600*1000000000,by decide,by decide⟩⟩,
    rfl,rfl,rfl,by decide,by decide,⟨1,Nat.le_refl 1,by decide,by decide⟩,
    ⟨⟨10800*1000000000,by decide,by decide⟩,by decide +kernel,by decide⟩,
    ⟨⟨14400*1000000000,by decide,by decide⟩,by decide +kernel,by decide⟩⟩

section Loop

variable {zone : Zone} {parseFromRfc3339 : String → Option DateTime}
  {files : String → RuleSetFiles} {now : Clock}

theorem startEntries_spec {cfgs : List Config.RuleSetConfig} : ∀ {entries : List Entry},
    startEntries zone parseFromRfc3339 files now cfgs=some entries → ∀ entry∈entries,
      initialNext zone parseFromRfc3339 files (fun _ => none) entry now=some entry.next ∧
      ∃ cfg,Entry.ofConfig cfg now.mono=some { entry with next := now.mono } := by
  induction cfgs with
  | nil =>
    intro entries h
    cases h
    exact fun entry hmem => nomatch hmem
  | cons cfg cfgs ih =>
    intro entries h entry hmem
    rw [startEntries] at h
    split at h
    · exact ih h entry hmem
    · next first hfirst =>
      obtain ⟨next,hnext,hrest⟩ := bind_eq_some_iff.1 h
      obtain ⟨rest,hstart,rfl⟩ := map_eq_some_iff.1 hrest
      cases hmem with
      | head =>
        refine ⟨hnext,cfg,?_⟩
        obtain ⟨kind,hkind,rfl⟩ := map_eq_some_iff.1 hfirst
        exact hfirst
      | tail _ hmem => exact ih hstart entry hmem

/-- No entry with a period is due before the process has run for the whole of it: one restarted more
often never updates the rule set. -/
theorem startEntries_period_away {cfgs : List Config.RuleSetConfig} {entries : List Entry}
    (h : startEntries zone parseFromRfc3339 files now cfgs=some entries)
    (hle : ∀ name t,persistedUpdate parseFromRfc3339 files name=some t →
      t.nanos≤now.wall.nanos) {entry : Entry} (hmem : entry∈entries) {period : Duration}
    (hkind : entry.kind=.period period) :
    entry.next.nanos=now.mono.nanos+period.nanos := by
  obtain ⟨hnext,cfg,hofConfig⟩ := startEntries_spec h entry hmem
  have hpos := Entry.period_pos hofConfig hkind
  rw [initialNext_restart hkind (hle entry.name),nextPeriodPoint_now_iff hpos] at hnext
  exact hnext

/-- The last update was three hours ago, and the next one is an hour away. -/
theorem startEntries_period_away_overdue :
    let files : String → RuleSetFiles := fun _ => ⟨.missing,.missing,.content (.ok ⟨"cn",
      "https://example.org/cn.txt",.domainList,some "2026-01-01T00:00:00Z",none,none,none,0,.ready⟩)⟩
    let updated : DateTime := ⟨1767225600*1000000000,by decide,by decide⟩
    let now : Clock := ⟨⟨1767236400*1000000000,by decide,by decide⟩,⟨5,by decide,by decide⟩⟩
    ∃ entry,startEntries ⟨fun _ => 0,fun _ => none⟩ (fun _ => some updated) files now
        [⟨"cn", "https://example.org/cn.txt",some (.period "1h")⟩]=some [entry] ∧
      persistedUpdate (fun _ => some updated) files "cn"=some updated ∧
      updated.nanos+(3600*10^9 : Nat)<now.wall.nanos ∧
      entry.next.nanos=now.mono.nanos+(3600*10^9 : Nat) := by
  intro files updated now
  refine ⟨⟨"cn",.period (Duration.fromSecs 3600),⟨5+3600*10^9,by decide,by decide⟩⟩,?h,rfl,by decide,
    startEntries_period_away ?h (fun name t ht => ?_) List.mem_cons_self rfl⟩
  · decide +kernel
  · cases ht
    decide

/-- After a failed update the next one is at the next point from the last success, if it is found. -/
theorem processEntry_failed_iff {lastSuccess : String → Option Instant} {entry : Entry}
    {due last : Instant} {period : Duration} (hkind : entry.kind=.period period)
    (hlast : lastSuccess entry.name=some last) (hpos : 0<period.nanos)
    (hle : last.nanos≤due.nanos) :
    (∃ entry',processEntry zone lastSuccess entry due now false=some (entry',lastSuccess) ∧
      IsLeast (periodPoints last.nanos period.nanos due.nanos) entry'.next.nanos) ↔
    periodSteps last.nanos period.nanos due.nanos<2^32 ∧
      last.nanos+(periodSteps last.nanos period.nanos due.nanos*period.nanos : Nat) <
        ((2^63*10^9 : Nat) : Int) := by
  have hprocess : processEntry zone lastSuccess entry due now false =
      (nextPeriodPoint last period due).map fun next => ({ entry with next := next },lastSuccess) := by
    simp [processEntry,hkind,hlast]
  rw [← nextPeriodPoint_next_iff hpos hle,hprocess]
  simp

end Loop

section TimeOfDay

/-- Of all dates, this one alone has the local time. -/
def Zone.Only (zone : Zone) (naive : Int) (t : DateTime) : Prop :=
  t.nanos+zone.offset t=naive ∧ ∀ u : DateTime,u.nanos+zone.offset u=naive → u.nanos=t.nanos

/-- `single` gives the only date that has a local time. -/
def Zone.Lawful (zone : Zone) : Prop := ∀ naive t,zone.single naive=some t ↔ zone.Only naive t

/-- The clock on the wall shows `hh:mm`. -/
def Zone.Shows (zone : Zone) (hh mm : Nat) (t : DateTime) : Prop :=
  (t.nanos+zone.offset t)%(86400*10^9 : Nat)=((hh*3600+mm*60)*10^9 : Nat)

end TimeOfDay

end DaeRs.RuleSet.Scheduler
