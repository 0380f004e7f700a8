import DaeRs.Control.Kernel
import DaeRs.Control.RawBpf
import DaeRs.Routing.Matcher
import DaeRs.Routing.Readings

/-! Connections as the kernel and the handoff consumer decide them, while the DNS forwarder
answers queries. -/

namespace DaeRs.Control

open Net RuleSet Bpf Routing Config Option Function

/-- `struct tuples_key`; the ports are in network order. -/
structure TuplesKey where
  sip : Bytes16
  dip : Bytes16
  sport : UInt16
  dport : UInt16
  l4proto : UInt8
  deriving DecidableEq

/-- `struct routing_handoff_entry`, with what the consumer reads of the routing result. -/
structure RoutingHandoffEntry where
  lastSeenNs : UInt64
  pname : Bytes16
  dscp : UInt8
  deriving DecidableEq

def entryTimeoutNs : Nat := 30000000000

def ipFromTuplesKey (addr : Bytes16) : IpAddr :=
  if addr.toNat >>> 32=0xffff then .v4 (BitVec.ofNat 32 addr.toNat) else .v6 addr

def buildRoutingParams (key : TuplesKey) (entry : RoutingHandoffEntry) : RoutingParams where
  srcIp := some (ipFromTuplesKey key.sip)
  dstIp := some (ipFromTuplesKey key.dip)
  srcPort := some key.sport
  dstPort := some key.dport
  l4proto := some key.l4proto
  -- no domain is available from the handoff
  domain := none
  processName := if entry.pname≠0 then some (pnameStr entry.pname) else none
  dscp := some entry.dscp

/-- The consumer's clock counts from the epoch and the kernel's from boot. -/
def RoutingHandoffEntry.stale (entry : RoutingHandoffEntry) (nowNs : UInt64) : Bool :=
  decide (nowNs.toNat-entry.lastSeenNs.toNat > entryTimeoutNs)

def tuplesKey (args : RouteArgs) : TuplesKey := ⟨args.saddr,args.daddr,args.source,args.dest,
    if args.l4protoType=l4ProtoTcp then 6 else 17⟩

def handoffEntry (ktimeNs : UInt64) (args : RouteArgs) : RoutingHandoffEntry :=
  ⟨ktimeNs,if args.isWan then args.pname else 0,args.dscp⟩

def needsControlPlane (args : RouteArgs) (r : RouteResult) : Bool :=
  if args.isWan then
    !(decide (r.outbound=Outbound.direct) && decide (r.mark=0)) &&
      !decide (r.outbound=Outbound.block)
  else !decide (r.outbound=Outbound.direct) && !decide (r.outbound=Outbound.block)

/-- The results that are cached in `conn_state_map`, by hook. -/
def cachesRouting (args : RouteArgs) (r : RouteResult) : Bool :=
  !args.isWan || !decide (r.outbound=Outbound.direct) || !decide (r.mark=0) || r.must

/-- `get_routing_handoff_entries`: no call fills the buffers that keys and entries are read from. -/
def getRoutingHandoffEntries {α : Type} (zeroed : α) (calls : RawBpf) (fd : UInt32) (rounds : Nat) :
    List (TuplesKey×α) :=
  (calls.perKeyScanMap fd 48 48 rounds).map fun _ => (⟨0,0,0,0,0⟩,zeroed)

theorem getRoutingHandoffEntries_nil {α : Type} (zeroed : α) (calls : RawBpf) (fd : UInt32)
    (rounds : Nat) : getRoutingHandoffEntries zeroed calls fd rounds=[] := by
  rw [getRoutingHandoffEntries,RawBpf.perKeyScanMap_nil]
  rfl

/-- The name that an address was answered for. -/
structure Answered where
  qname : String
  expiresNs : UInt64
  deriving DecidableEq

/-- The kernel's maps, and the name last answered with each address. -/
structure Plane where
  maps : Maps
  handoffMap : TuplesKey → Option RoutingHandoffEntry
  connState : TuplesKey → Option RouteResult
  answered : Bytes16 → Option Answered

inductive Event where
  | answer (qname : String) (addrs : List IpAddr) (expiresNs : UInt64)
  | connect (ktimeNs : UInt64) (alive : Bool) (args : RouteArgs)
  | poll (calls : RawBpf) (fd : UInt32) (rounds : Nat) (nowNs : UInt64)

namespace Plane

def start (m : Maps) : Plane := ⟨m,fun _ => none,fun _ => none,fun _ => none⟩

def connect (s : Plane) (ktimeNs : UInt64) (alive : Bool) (args : RouteArgs) : Plane :=
  match decodeRoute (route s.maps args) with
  | none => s
  | some r =>
    { s with
      connState :=
        if cachesRouting args r then update s.connState (tuplesKey args) (some r)
        else s.connState
      handoffMap :=
        if needsControlPlane args r && alive then
          update s.handoffMap (tuplesKey args) (some (handoffEntry ktimeNs args))
        else s.handoffMap }

/-- The consumer's decision on an entry. The deletion that follows is a raw call of the command that
loads a program. -/
def commit (env : Env) (matcher : RoutingMatcher) (nowNs : UInt64) (s : Plane)
    (e : TuplesKey×RoutingHandoffEntry) : Plane :=
  if e.2.stale nowNs then s
  else
    let r := matcher.matchRouting env (buildRoutingParams e.1 e.2)
    { s with connState := update s.connState e.1 (some r) }

def step (env : Env) (matcher : RoutingMatcher) (s : Plane) : Event → Plane
  -- `resolve` fills the forwarder's own caches; no map of the kernel is written
  | .answer qname addrs expiresNs =>
    { s with answered := fun addr =>
        if addr∈addrs.map IpAddr.mapped then some ⟨qname,expiresNs⟩ else s.answered addr }
  | .connect ktimeNs alive args => s.connect ktimeNs alive args
  | .poll calls fd rounds nowNs =>
    (getRoutingHandoffEntries ⟨0,0,0⟩ calls fd rounds).foldl (commit env matcher nowNs) s

def run (env : Env) (matcher : RoutingMatcher) (s : Plane) (events : List Event) : Plane :=
  events.foldl (step env matcher) s

def decision (s : Plane) (args : RouteArgs) : Option RouteResult :=
  (decodeRoute (route s.maps args)).map fun r => (s.connState (tuplesKey args)).getD r

end Plane

def Event.opens (key : TuplesKey) : Event → Bool
  | .connect _ _ args => decide (tuplesKey args=key)
  | _ => false

section Run

variable (env : Env) (matcher : RoutingMatcher)

theorem step_poll (s : Plane) (calls : RawBpf) (fd : UInt32) (rounds : Nat) (nowNs : UInt64) :
    s.step env matcher (.poll calls fd rounds nowNs)=s := by
  rw [Plane.step,getRoutingHandoffEntries_nil]
  rfl

variable {key : TuplesKey}

theorem step_other (s : Plane) {e : Event} (h : e.opens key=false) :
    (s.step env matcher e).connState key=s.connState key := by
  cases e with
  | answer => rfl
  | poll => rw [step_poll]
  | connect ktimeNs alive args =>
    have hne : tuplesKey args≠key := by simpa [Event.opens] using h
    simp only [Plane.step,Plane.connect]
    split
    · rfl
    · dsimp only
      split_ifs
      · exact update_of_ne hne.symm _ _
      · rfl

end Run

/-- A process whose descriptors other than the standard streams are maps. -/
def someCalls : RawBpf where
  isMap fd := decide (2<fd)
  succeeds cmd attr := decide (2<attrFd attr) && decide (cmd≤4)
  behind := []
  address _ := 64
  stdin := rfl
  map_command _ _ _ h := (Bool.and_eq_true_iff.mp h).1

end DaeRs.Control
