import DaeRs.Control.Clock
import DaeRs.Control.RawBpf
import DaeRs.Datapath.Hooks
import DaeRs.Datapath.Redirect

/-! The janitors of `conn_state_map`, `redirect_track` and `cookie_pid_map`. The three maps are of a
type whose entries are only scanned key by key, by raw calls. -/

namespace DaeRs.Datapath

open Octets

def TcpState.code : TcpState → UInt8
  | active => 0
  | closing => 1

def ConnState.bytes (s : ConnState) : List UInt8 :=
  [s.isWanIngressDirection.toUInt8,s.state.code,0,0,0,0,0,0] ++(toLE 8 s.lastSeenNs.toNat ++
    (toLE 4 s.routing.mark.toNat++[s.routing.outbound,s.routing.must.toUInt8,s.routing.dscp,
      s.routing.hasRouting.toUInt8] ++
    (toBE 6 s.mac.toNat++[0,0])++toBE 16 s.pname.toNat++toLE 4 s.pid.toNat ++
    [s.routingEpochSlot,0]++toLE 2 s.datapathGeneration.toNat))

def RedirectEntry.bytes (e : RedirectEntry) : List UInt8 :=
  (toLE 4 e.ifindex.toNat++toBE 6 e.smac.toNat++toBE 6 e.dmac.toNat ++
    [e.fromWan.toUInt8,0,0,0,0,0,0,0])++toLE 8 e.lastSeenNs.toNat

structure ProcInfo extends PidPname where
  lastSeenNs : UInt64
  deriving DecidableEq

def ProcInfo.bytes (p : ProcInfo) : List UInt8 :=
  toLE 8 p.lastSeenNs.toNat++(toLE 4 p.pid.toNat++toBE 16 p.pname.toNat++[0,0,0,0])

end DaeRs.Datapath

namespace DaeRs.Control

open Octets Bpf Datapath List

def TuplesKey.bytes (key : TuplesKey) : List UInt8 :=
  (toBE 16 key.sip.toNat++toBE 16 key.dip.toNat++toLE 2 key.sport.toNat ++
    toLE 2 key.dport.toNat)++[key.l4proto,0,0,0]

def u64At (val : List UInt8) (off : Nat) : UInt64 := UInt64.ofNat (ofLE (slice val off 8))

namespace Janitor

def tcpClosingTimeoutNs : Nat := 10000000000
def udpTimeoutNs : Nat := 120000000000
def tcpActivePressureTimeoutNs : Nat := 600000000000
def redirectTrackTimeoutNs : Nat := 300000000000
def cookiePidMapTimeoutNs : Nat := 300000000000

def connStateExpired (inPressure : Bool) (key val : List UInt8) (nowNs : UInt64) : Bool :=
  if val.length<16 then false
  else
    let state := val.getD 1 0
    let l4proto := key.getD 36 0
    let idleNs := saturatingAge nowNs (u64At val 8)
    if state=TcpState.closing.code then decide (idleNs > tcpClosingTimeoutNs)
    else if state=TcpState.active.code ∧ l4proto=ipprotoTcp then
      inPressure && decide (idleNs > tcpActivePressureTimeoutNs)
    else decide (idleNs > udpTimeoutNs)

/-- The form of the other two predicates: a time at some offset, and a limit. -/
def agedOut (size off limit : Nat) (val : List UInt8) (nowNs : UInt64) : Bool :=
  if val.length < size then false else decide (saturatingAge nowNs (u64At val off) > limit)

def redirectTrackExpired (_ : List UInt8) : List UInt8 → UInt64 → Bool :=
  agedOut 32 24 redirectTrackTimeoutNs

def cookiePidExpired (_ : List UInt8) : List UInt8 → UInt64 → Bool :=
  agedOut 8 0 cookiePidMapTimeoutNs

abbrev RawEntry := List UInt8×List UInt8

/-- The types of map that are scanned. -/
inductive MapType where
  | hash
  | lruHash
  deriving DecidableEq

/-- What a round meets: the clocks, the raw calls and the number of rounds of their loops, the maps'
descriptors, what a batch lookup gives, and the keys whose deletion succeeds. -/
structure Round where
  now : Moment
  calls : RawBpf
  rounds : Nat
  connStateMap : Option UInt32
  redirectTrack : Option UInt32
  cookiePidMap : Option UInt32
  batch : Option (List RawEntry)
  deletes : List UInt8 → Bool

/-- The entries that `janitor_scan_and_delete` deletes. Only a map of another type is looked up in
batches. -/
def scanAndDelete (r : Round) (fd : UInt32) (mapType : MapType) (keySize valueSize : Nat)
    (isExpired : List UInt8 → List UInt8 → UInt64 → Bool) : List RawEntry :=
  let perKey := r.calls.perKeyScanMap fd keySize valueSize r.rounds
  let visited := if mapType≠.lruHash then r.batch.getD perKey else perKey
  (visited.filter fun e => isExpired e.1 e.2 r.now.nowNs).filter fun e => r.deletes e.1

/-- The three scans; none takes place while no object is loaded. -/
def scanConnState (inPressure : Bool) (r : Round) : Option (List RawEntry) :=
  r.connStateMap.map fun fd => scanAndDelete r fd .lruHash 40 56 (connStateExpired inPressure)

def scanRedirectTrack (r : Round) : Option (List RawEntry) :=
  r.redirectTrack.map fun fd => scanAndDelete r fd .lruHash 32 32 redirectTrackExpired

def scanCookiePidMap (r : Round) : Option (List RawEntry) :=
  r.cookiePidMap.map fun fd => scanAndDelete r fd .lruHash 8 32 cookiePidExpired

structure TrackedFlow where
  created : Nat
  lastActive : Nat

abbrev Tracker := List (TuplesKey×TrackedFlow)

def minRetainSecs : Nat := 10
def maxRetainSecs : Nat := 300

def cleanupExpired (now : Nat) (tracker : Tracker) : List TuplesKey×Tracker :=
  let isOver := fun p : TuplesKey×TrackedFlow =>
    decide (now-p.2.created > maxRetainSecs) || decide (now-p.2.lastActive > minRetainSecs)
  ((tracker.filter isOver).map Prod.fst,tracker.filter fun p => !isOver p)

/-- What the janitors keep between rounds. -/
structure State where
  inPressure : Bool
  pressureRounds : Nat
  tracker : Tracker

/-- Nothing but the janitor uses the tracker, so that no flow is ever retained. -/
def State.init : State := ⟨false,0,[]⟩

section Pressure

variable (maxEntries : Nat)

/-- `usage > PRESSURE_ENTER_USAGE`; the quotients are far enough apart for `f64`. -/
def isHigh (count : Nat) : Bool := decide (10*count > 7*maxEntries)

def isLow (count : Nat) : Bool := decide (2*count < maxEntries)

def pressureExitRounds : Nat := 3

def detectPressure (s : State) (count : Nat) : State :=
  if s.inPressure then
    if isLow maxEntries count then
      { s with
        pressureRounds := s.pressureRounds+1
        inPressure := decide (s.pressureRounds+1<pressureExitRounds) }
    else { s with pressureRounds := 0 }
  else if isHigh maxEntries count then { s with inPressure := true,pressureRounds := 0 }
  else s

/-- A round of the `conn_state` janitor: the flows that the tracker gives up, the entries that the
scan deletes, and the state for the next round. -/
def round (s : State) (r : Round) : List TuplesKey×List RawEntry×State :=
  let (released,tracker) := cleanupExpired (r.now.ktime.toNat/10^9) s.tracker
  let s := { s with tracker }
  match r.connStateMap,scanConnState s.inPressure r with
  | some fd,some deleted =>
    (released,deleted,detectPressure maxEntries s (r.calls.countMapEntries fd r.rounds))
  | _,_ => (released,[],s)

def run (rs : List Round) : State := rs.foldl (fun s r => (round maxEntries s r).2.2) State.init

end Pressure

/-- What the janitors promise of a round with entries deleted at `d`: none before its timeout is
over by the kernel's clock, and that of an active TCP connection only in pressure mode. -/
structure KeepsTo (maxEntries : Nat) (rs : List Round) (r : Round) (d : Moment) : Prop where
  released : (round maxEntries (run maxEntries rs) r).1=[]
  conn : ∀ key s,
    (TuplesKey.bytes key,ConnState.bytes s)∈(round maxEntries (run maxEntries rs) r).2.1 →
    match s.state with
    | .closing => kernelAge d s.lastSeenNs > tcpClosingTimeoutNs
    | .active =>
      if key.l4proto=ipprotoTcp then (run maxEntries rs).inPressure=true
      else kernelAge d s.lastSeenNs > udpTimeoutNs
  redirect : ∀ key e,(key,RedirectEntry.bytes e)∈(scanRedirectTrack r).getD [] →
    kernelAge d e.lastSeenNs > redirectTrackTimeoutNs
  cookie : ∀ key p,(key,ProcInfo.bytes p)∈(scanCookiePidMap r).getD [] →
    kernelAge d p.lastSeenNs > cookiePidMapTimeoutNs

section Run

variable (r : Round)

/-- A scan of a map of this type comes to no entry. -/
theorem scanAndDelete_lruHash (fd : UInt32) (keySize valueSize : Nat)
    (isExpired : List UInt8 → List UInt8 → UInt64 → Bool) :
    scanAndDelete r fd .lruHash keySize valueSize isExpired=[] := by
  simp [scanAndDelete,RawBpf.perKeyScanMap_nil]

theorem scanRedirectTrack_nil : (scanRedirectTrack r).getD []=[] := by
  unfold scanRedirectTrack
  cases r.redirectTrack with
  | none => rfl
  | some fd => exact scanAndDelete_lruHash r fd _ _ _

theorem scanCookiePidMap_nil : (scanCookiePidMap r).getD []=[] := by
  unfold scanCookiePidMap
  cases r.cookiePidMap with
  | none => rfl
  | some fd => exact scanAndDelete_lruHash r fd _ _ _

theorem detectPressure_zero (maxEntries : Nat) :
    detectPressure maxEntries State.init 0=State.init := by
  simp [detectPressure,State.init,isHigh]

theorem round_init (maxEntries : Nat) :
    round maxEntries State.init r=([],[],State.init) := by
  have htracker : cleanupExpired (r.now.ktime.toNat/10^9) State.init.tracker=([],[]) := rfl
  rw [round,htracker]
  dsimp only
  unfold scanConnState
  cases r.connStateMap with
  | none => rfl
  | some fd =>
    dsimp only [Option.map_some]
    rw [scanAndDelete_lruHash,RawBpf.countMapEntries_zero]
    exact congrArg (([],[],·)) (detectPressure_zero maxEntries)

theorem run_init (maxEntries : Nat) (rs : List Round) : run maxEntries rs=State.init := by
  induction rs using reverseRecOn with
  | nil => rfl
  | append_singleton rs r ih =>
    have hlast : run maxEntries (rs++[r])=(round maxEntries (run maxEntries rs) r).2.2 := by
      rw [run,foldl_append]
      rfl
    rw [hlast,ih,round_init]

/-- In every run, whatever the clocks show, every entry is kept to its timeout: the first raw call
of each scan fails, so nothing is deleted and pressure mode is never entered. -/
theorem janitors_keep_to (maxEntries : Nat) (rs : List Round) (d : Moment) :
    KeepsTo maxEntries rs r d ∧ (round maxEntries (run maxEntries rs) r).2.1=[] ∧
      (scanRedirectTrack r).getD []=[] ∧ (scanCookiePidMap r).getD []=[] ∧
      (run maxEntries rs).inPressure=false := by
  have hround := round_init r maxEntries
  have hrun := run_init maxEntries rs
  refine ⟨⟨?_,?_,?_,?_⟩,?_,scanRedirectTrack_nil r,scanCookiePidMap_nil r,?_⟩
  · rw [hrun,hround]
  · intro key s hmem
    rw [hrun,hround] at hmem
    cases hmem
  · intro key e hmem
    rw [scanRedirectTrack_nil] at hmem
    cases hmem
  · intro key p hmem
    rw [scanCookiePidMap_nil] at hmem
    cases hmem
  · rw [hrun,hround]
  · rw [hrun]
    rfl

end Run

end Janitor

end DaeRs.Control
