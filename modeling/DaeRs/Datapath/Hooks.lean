import DaeRs.Datapath.ConnTrack
import DaeRs.Datapath.Transport

/-! The programs on the LAN and WAN interfaces: what they do with a packet, and what they keep of
its flow. -/

namespace DaeRs.Datapath

open Bpf Net Control

/-- `PARAM`, which user space sets at load. -/
structure DaeParam where
  controlPlanePid : UInt32
  daeSocketMark : UInt32
  datapathGeneration : UInt16
  deriving DecidableEq

/-- What the programs read of the kernel: the parameters, the routing maps and
`outbound_connectivity_map`. -/
structure Kernel where
  param : DaeParam
  maps : Maps
  connectivity : Nat → Option UInt32

structure PidPname where
  pid : UInt32
  pname : Bytes16
  deriving DecidableEq

/-- A parsed packet with what the helpers return for it: the socket's entry in `cookie_pid_map`, the
time at the lookup and after it, whether `conn_state_map` and `routing_handoff_map` have room,
whether a socket other than the program's own has the destination, and whether the packet can be
prepared for the control plane. -/
structure Arrival where
  pkt : ParsedPacket
  transport : pkt.l4proto=ipprotoTcp ∨ pkt.l4proto=ipprotoUdp
  tuples_eq : ∃ iph ipv6h,pkt.tuples=getTuples iph ipv6h pkt.tcph pkt.udph pkt.l4proto
  protocol : UInt16
  linkHLen : Nat
  ingressIfindex : UInt32
  ifindex : UInt32
  mark : UInt32
  cookiePid : Option PidPname
  nowNs : UInt64
  laterNs : UInt64
  fits : Bool
  localSocket : Bool
  prepared : Bool
  handed : Bool

theorem parsePacket_getTuples {skb : Skb} {linkHLen : Nat} {pkt : ParsedPacket}
    (h : parsePacket skb linkHLen=.ok pkt) :
    ∃ iph ipv6h,pkt.tuples=getTuples iph ipv6h pkt.tcph pkt.udph pkt.l4proto := by
  unfold parsePacket at h
  dsimp only at h
  split_ifs at h
  cases h
  exact ⟨_,_,rfl⟩

def Arrival.receive (a : Arrival) (skb : Skb) : Option Arrival :=
  match h : parsePacket skb a.linkHLen with
  | .ok pkt => some { a with
      pkt,transport := parsePacket_l4proto h,tuples_eq := parsePacket_getTuples h }
  | .error _ => none

structure HandoffEntry extends RoutingHandoffEntry where
  mark : UInt32
  must : Bool
  outbound : UInt8
  mac : Mac
  pid : UInt32
  routingEpochSlot : UInt8
  datapathGeneration : UInt16
  deriving DecidableEq

/-- The code that a program returns; a packet that passes may have its mark set before. -/
inductive TcAct where
  | ok (mark : Option UInt32)
  | shot
  | pipe
  | redirect
  deriving DecidableEq

/-- The decision that a packet is handled by: that of the entry, or one made for it. -/
inductive Decided where
  | none
  | cached (r : RouteResult)
  | routed (r : RouteResult)
  deriving DecidableEq

/-- What becomes of a packet, and what is published for it. -/
structure Verdict where
  act : TcAct
  handoff : Option HandoffEntry
  deriving DecidableEq

def Verdict.pass (mark : Option UInt32) : Verdict := ⟨.ok mark,none⟩
def Verdict.shot : Verdict := ⟨.shot,none⟩

/-- The whole effect of a program: the flow's entry afterwards, and the packet. -/
structure Outcome extends Verdict where
  entry : Option ConnState
  decided : Decided
  deriving DecidableEq

namespace Arrival

variable (a : Arrival)

def isTcp : Bool := decide (a.pkt.l4proto=ipprotoTcp)

def routeArgs (isWan : Bool) : RouteArgs where
  l4protoType := if a.isTcp then l4ProtoTcp else l4ProtoUdp
  ipversionType := if a.protocol=htons ethPIp then ipVersion4 else ipVersion6
  pname := if isWan then (a.cookiePid.map PidPname.pname).getD 0 else 0
  dscp := a.pkt.tuples.dscp
  isWan
  source := if a.isTcp then a.pkt.tcph.source else a.pkt.udph.source
  dest := if a.isTcp then a.pkt.tcph.dest else a.pkt.udph.dest
  saddr := a.pkt.tuples.five.sip
  daddr := a.pkt.tuples.five.dip
  -- only the TCP path of the WAN hook asks for an Ethernet header
  mac := if isWan && a.isTcp && decide (a.linkHLen≠ethHlen) then 0
    else a.pkt.ethh.hSource.setWidth 128

def wanTcpMac : Mac := if a.linkHLen=ethHlen then a.pkt.ethh.hSource else 0

end Arrival

def routingEpochSlotFromRouteResult (r : Int) : UInt8 :=
  routingEpochSlotSanitize (UInt8.ofNat (r.toNat >>> routingEpochSlotResultShift &&& 3))

section Programs

variable (k : Kernel) (a : Arrival) (entry : Option ConnState)

def routed (isWan : Bool) : Option (RouteResult×UInt8) :=
  let r := route k.maps (a.routeArgs isWan)
  (decodeRoute r).map (·,routingEpochSlotFromRouteResult r)

def pidIsControlPlane : Bool :=
  match a.cookiePid with
  | some p => decide (k.param.controlPlanePid≠0) && decide (p.pid=k.param.controlPlanePid)
  | none =>
    (decide (k.param.daeSocketMark≠0) && decide (a.mark=k.param.daeSocketMark)) ||
      decide (a.mark &&& 0x100=0x100)

def wanOutboundIsAlive (outbound : UInt8) : Bool :=
  let domainIdx := if a.isTcp then 0 else 2
  let ipIdx := if a.protocol=htons ethPIp then 0 else 1
  !decide (k.connectivity (outbound.toNat*6+domainIdx*2+ipIdx)=some 0)

variable (r : RouteResult)

def wanEgressNeedsControlPlane : Bool := !(decide (r.outbound=Outbound.direct) && decide (r.mark=0))

def refreshReversed : Outcome where
  act := .pipe
  handoff := none
  entry :=
    if a.isTcp then
      markTcpSeen k.param.datapathGeneration a.nowNs a.fits true a.pkt.tcph (.refresh 0) entry
    else markUdpSeen k.param.datapathGeneration a.nowNs a.fits true (.refresh 0) entry
  decided := .none

def redirectLanPacketToControlPlane (routing : RoutingMeta) (slot : UInt8) (generation : UInt16) :
    Verdict :=
  if !a.prepared then .shot
  else ⟨.redirect,if a.handed then some {
    lastSeenNs := a.laterNs
    pname := 0
    dscp := routing.dscp
    mark := routing.mark
    must := routing.must
    outbound := routing.outbound
    mac := a.pkt.ethh.hSource
    pid := 0
    routingEpochSlot := routingEpochSlotSanitize slot
    datapathGeneration := generation } else none⟩

def lanCached (s : ConnState) : Verdict :=
  if s.routing.outbound=Outbound.direct then .pass (some s.routing.mark)
  else if s.routing.outbound=Outbound.block then .shot
  else redirectLanPacketToControlPlane a s.routing s.routingEpochSlot s.datapathGeneration

def lanRoute : Outcome :=
  match routed k a false with
  | none => { Verdict.shot with entry,decided := .none }
  | some (r,slot) =>
    let entry := entry.map fun s => { s with
      mac := a.pkt.ethh.hSource
      routingEpochSlot := slot
      datapathGeneration := k.param.datapathGeneration
      routing := buildRoutingMeta r a.pkt.tuples.dscp }
    let verdict : Verdict :=
      -- fail closed when the connection cannot be tracked
      if a.isTcp && entry.isNone then
        if r.outbound=Outbound.direct ∧ r.mark=0 then .pass (some r.mark) else .shot
      else if r.outbound=Outbound.direct then .pass (some r.mark)
      else if r.outbound=Outbound.block then .shot
      else if !wanOutboundIsAlive k a r.outbound then .shot
      else redirectLanPacketToControlPlane a (buildRoutingMeta r a.pkt.tuples.dscp) slot
        k.param.datapathGeneration
    { verdict with entry,decided := .routed r }

def lanIngressTcp : Outcome :=
  let entry :=
    markTcpSeen k.param.datapathGeneration a.nowNs a.fits false a.pkt.tcph (.refresh 0) entry
  match entry with
  | none => { Verdict.pass none with entry,decided := .none }
  | some s =>
    if !s.routing.hasRouting then { Verdict.pass none with entry,decided := .none }
    else { lanCached a s with entry,decided := .cached s.routing.result }

def lanIngressUdp : Outcome :=
  let entry :=
    markUdpSeen k.param.datapathGeneration a.nowNs a.fits false (.refresh a.pkt.tuples.dscp) entry
  let lookup :=
    if a.localSocket then { Verdict.pass none with entry,decided := .none }
    else lanRoute k a entry
  match entry with
  | none => lookup
  | some s =>
    -- the reply to a flow that came in from the WAN
    if s.isWanIngressDirection then { Verdict.pass none with entry,decided := .none }
    else if s.routing.hasRouting then
      let proxied := !(decide (s.routing.outbound=Outbound.direct) ||
        decide (s.routing.outbound=Outbound.block))
      let entry := if proxied then some { s with lastSeenNs := a.laterNs } else some s
      { lanCached a s with entry,decided := .cached s.routing.result }
    else lookup

def doTproxyLanIngress : Outcome :=
  if a.isTcp then
    if !isNewTcpConnection a.pkt.tcph then lanIngressTcp k a entry
    else lanRoute k a (markTcpSeen k.param.datapathGeneration a.nowNs a.fits false a.pkt.tcph
      (.refresh a.pkt.tuples.dscp) entry)
  else lanIngressUdp k a entry

def wanHandoff (mac : Mac) (pname : Bytes16) (pid : UInt32) (slot : UInt8)
    (generation : UInt16) : HandoffEntry where
  lastSeenNs := a.laterNs
  pname
  dscp := a.pkt.tuples.dscp
  mark := r.mark
  must := r.must
  outbound := r.outbound
  mac
  pid
  routingEpochSlot := routingEpochSlotSanitize slot
  datapathGeneration := generation

/-- The end of `do_tproxy_wan_egress_tcp`; the handoff is best-effort. -/
def wanTcpVerdict (handoff : HandoffEntry) : Verdict :=
  if !wanEgressNeedsControlPlane r then .pass (some r.mark)
  else if r.outbound=Outbound.block then .shot
  else if !wanOutboundIsAlive k a r.outbound then .shot
  else ⟨if a.prepared then .redirect else .shot,if a.handed then some handoff else none⟩

/-- The WAN hook does not store the decision that changes nothing. -/
def isPlainDirect : Bool := decide (r.outbound=Outbound.direct) && decide (r.mark=0) && !r.must

def doTproxyWanEgressTcp : Outcome :=
  if isNewTcpConnection a.pkt.tcph then
    if pidIsControlPlane k a then { Verdict.pass none with entry,decided := .none }
    else match routed k a true with
    | none => { Verdict.shot with entry,decided := .none }
    | some (r,slot) =>
      let args : ConntrackArgs := {
        routing := if isPlainDirect r then none else some (r,slot)
        mac := some a.wanTcpMac
        dscp := a.pkt.tuples.dscp
        pname := a.cookiePid.map PidPname.pname
        pid := (a.cookiePid.map PidPname.pid).getD 0 }
      let entry := markTcpSeen k.param.datapathGeneration a.nowNs a.fits false a.pkt.tcph args entry
      let verdict : Verdict :=
        if entry.isNone then
          if r.outbound=Outbound.direct ∧ r.mark=0 then .pass none else .shot
        else wanTcpVerdict k a r (wanHandoff a r a.wanTcpMac (args.pname.getD 0) args.pid slot
          k.param.datapathGeneration)
      { verdict with entry,decided := .routed r }
  else
    let entry :=
      markTcpSeen k.param.datapathGeneration a.nowNs a.fits false a.pkt.tcph (.refresh 0) entry
    match entry with
    | none => { Verdict.pass none with entry,decided := .none }
    | some s =>
      if !s.routing.hasRouting then { Verdict.pass none with entry,decided := .none }
      else
        let verdict := wanTcpVerdict k a s.routing.result (wanHandoff a s.routing.result s.mac
          s.pname s.pid (routingEpochSlotSanitize s.routingEpochSlot) s.datapathGeneration)
        { verdict with entry,decided := .cached s.routing.result }

/-- `do_tproxy_wan_egress_udp` from `fast_path_skip_routing` on. -/
def wanUdpFinish (cached : Bool) (r : RouteResult) (mac : Mac) (pname : Bytes16) (pid : UInt32)
    (slot : UInt8) (generation : UInt16) : Outcome :=
  let entry := entry.map fun s =>
    let s := if isPlainDirect r then s else { s with
      mac
      pname := (a.cookiePid.map PidPname.pname).getD s.pname
      pid := (a.cookiePid.map PidPname.pid).getD s.pid
      routingEpochSlot := slot
      datapathGeneration := generation
      routing := buildRoutingMeta r a.pkt.tuples.dscp }
    { s with lastSeenNs := a.laterNs }
  let verdict : Verdict :=
    if !wanEgressNeedsControlPlane r then .pass none
    else if r.outbound=Outbound.block then .shot
    else if !cached && !wanOutboundIsAlive k a r.outbound then .shot
    -- the handoff is mandatory without an entry
    else if !a.handed && entry.isNone then .shot
    else ⟨if a.prepared then .redirect else .shot,
      if a.handed then some (wanHandoff a r mac pname pid slot generation) else none⟩
  { verdict with entry,decided := if cached then .cached r else .routed r }

def doTproxyWanEgressUdp : Outcome :=
  if pidIsControlPlane k a then { Verdict.pass none with entry,decided := .none }
  else
    let entry := markUdpSeen k.param.datapathGeneration a.nowNs a.fits false (.refresh 0) entry
    let route :=
      match routed k a true with
      | none => { Verdict.shot with entry,decided := .none }
      | some (r,slot) => wanUdpFinish k a entry false r a.pkt.ethh.hSource
          ((a.cookiePid.map PidPname.pname).getD 0) ((a.cookiePid.map PidPname.pid).getD 0) slot
          k.param.datapathGeneration
    match entry with
    | none => route
    | some s =>
      if s.isWanIngressDirection then { Verdict.pass none with entry,decided := .none }
      else if s.routing.hasRouting then
        wanUdpFinish k a entry true s.routing.result s.mac s.pname s.pid
          (routingEpochSlotSanitize s.routingEpochSlot) s.datapathGeneration
      else route

/-- What holds at the end of each way holds of the program: the control plane's own packet, the
reply to a flow from the WAN, a stored decision, and what `route` returns. -/
theorem doTproxyWanEgressUdp_cases {P : Outcome → Prop} {k : Kernel} {a : Arrival}
    {entry mark : Option ConnState}
    (hmark : markUdpSeen k.param.datapathGeneration a.nowNs a.fits false (.refresh 0) entry=mark)
    (hown : pidIsControlPlane k a=true → P { Verdict.pass none with entry,decided := .none })
    (hreply : ∀ s,mark=some s → s.isWanIngressDirection=true →
      P { Verdict.pass none with entry := mark,decided := .none })
    (hcached : pidIsControlPlane k a=false → ∀ s,mark=some s →
      s.isWanIngressDirection=false → s.routing.hasRouting=true →
      P (wanUdpFinish k a mark true s.routing.result s.mac s.pname s.pid
        (routingEpochSlotSanitize s.routingEpochSlot) s.datapathGeneration))
    (hshot : routed k a true=none →
      (∀ s,mark=some s → s.isWanIngressDirection=false ∧ s.routing.hasRouting=false) →
      P { Verdict.shot with entry := mark,decided := .none })
    (hrouted : ∀ r slot,routed k a true=some (r,slot) →
      (∀ s,mark=some s → s.isWanIngressDirection=false ∧ s.routing.hasRouting=false) →
      P (wanUdpFinish k a mark false r a.pkt.ethh.hSource
        ((a.cookiePid.map PidPname.pname).getD 0) ((a.cookiePid.map PidPname.pid).getD 0) slot
        k.param.datapathGeneration)) :
    P (doTproxyWanEgressUdp k a entry) := by
  unfold doTproxyWanEgressUdp
  by_cases hpid : pidIsControlPlane k a=true
  · rw [if_pos hpid]
    exact hown hpid
  rw [if_neg hpid,hmark]
  have hpid' : pidIsControlPlane k a=false := by simpa using hpid
  cases mark with
  | none =>
    cases hr : routed k a true with
    | none => exact hshot hr nofun
    | some res => exact hrouted res.1 res.2 hr nofun
  | some s =>
    dsimp only
    by_cases hdirection : s.isWanIngressDirection=true
    · rw [if_pos hdirection]
      exact hreply s rfl hdirection
    rw [if_neg hdirection]
    by_cases hrouting : s.routing.hasRouting=true
    · rw [if_pos hrouting]
      exact hcached hpid' s rfl (by simpa using hdirection) hrouting
    rw [if_neg hrouting]
    have hnew : ∀ s',some s=some s' →
        s'.isWanIngressDirection=false ∧ s'.routing.hasRouting=false := by
      rintro s' ⟨⟩
      exact ⟨by simpa using hdirection,by simpa using hrouting⟩
    cases hr : routed k a true with
    | none => exact hshot hr hnew
    | some res => exact hrouted res.1 res.2 hr hnew

def Arrival.forwarded : Bool := decide (a.ingressIfindex≠0) && decide (a.ingressIfindex≠a.ifindex)

def doTproxyWanEgress : Outcome :=
  if a.forwarded then { Verdict.pass none with entry,decided := .none }
  else if a.isTcp then doTproxyWanEgressTcp k a entry
  else doTproxyWanEgressUdp k a entry

end Programs

/-- The four programs that `tc` attaches. -/
inductive Hook where
  | lanEgress
  | lanIngress
  | wanEgress
  | wanIngress
  deriving DecidableEq

namespace Hook

def key (h : Hook) (a : Arrival) : TuplesKey :=
  match h with
  | lanEgress | wanIngress => copyReversedTuples a.pkt.tuples.five
  | lanIngress | wanEgress => a.pkt.tuples.five

def handle (h : Hook) (k : Kernel) (a : Arrival) (entry : Option ConnState) : Outcome :=
  match h with
  | lanEgress | wanIngress => refreshReversed k a entry
  | lanIngress => doTproxyLanIngress k a entry
  | wanEgress => doTproxyWanEgress k a entry

def routesSyn (h : Hook) (k : Kernel) (a : Arrival) : Option RouteResult :=
  match h with
  | lanEgress | wanIngress => none
  | lanIngress => (routed k a false).map Prod.fst
  | wanEgress =>
    if a.forwarded || pidIsControlPlane k a then none else (routed k a true).map Prod.fst

end Hook

end DaeRs.Datapath
