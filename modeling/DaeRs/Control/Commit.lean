import DaeRs.Control.Clock
import DaeRs.Datapath.Lifecycle
import DaeRs.Datapath.Reuse

/-! The handoff consumer: what it makes of the entries that the hooks publish. -/

namespace DaeRs.Control

open Net RuleSet Bpf Routing Datapath Option

def buildConnState (entry : HandoffEntry) (decision : RouteResult) : ConnState where
  -- by the source, entries are only produced by the WAN hook
  isWanIngressDirection := true
  state := .active
  lastSeenNs := entry.lastSeenNs
  routing := buildRoutingMeta decision entry.dscp
  mac := entry.mac
  pname := entry.pname
  pid := entry.pid
  routingEpochSlot := 0
  datapathGeneration := 0

/-- The entries of the maps, and the decisions that the consumer has made for flows. -/
structure Consumer where
  conn : ConnStateMap
  handoff : TuplesKey → Option HandoffEntry
  committed : List (TuplesKey×RouteResult)

/-- A packet at a hook or a deletion, or a round of the consumer: its raw calls, its time, and the
flows whose update of `conn_state_map` succeeds. -/
inductive HandoffEvent where
  | flow (e : FlowEvent)
  | poll (calls : RawBpf) (fd : UInt32) (rounds : Nat) (nowNs : UInt64) (stores : TuplesKey → Bool)

namespace Consumer

section Poll

variable (env : Env) (matcher : RoutingMatcher)

/-- What the round makes of an entry. -/
def commit (nowNs : UInt64) (stores : TuplesKey → Bool) (s : Consumer)
    (p : TuplesKey×HandoffEntry) : Consumer :=
  if p.2.stale nowNs then s
  else
    let r := matcher.matchRouting env (buildRoutingParams p.1 p.2.toRoutingHandoffEntry)
    if stores p.1 then
      { s with
        conn := Function.update s.conn p.1 (some (buildConnState p.2 r))
        committed := (p.1,r)::s.committed }
    else s

def step (s : Consumer) : HandoffEvent → Consumer
  | .flow (.packet h k a) =>
    { s with
      conn := (FlowEvent.packet h k a).step s.conn
      handoff := match (h.handle k a (s.conn (h.key a))).handoff with
        | some e => Function.update s.handoff (h.key a) (some e)
        | none => s.handoff }
  | .flow (.delete key) => { s with conn := (FlowEvent.delete key).step s.conn }
  | .poll calls fd rounds nowNs stores =>
    (getRoutingHandoffEntries ⟨⟨0,0,0⟩,0,false,0,0,0,0,0⟩ calls fd rounds).foldl
      (commit env matcher nowNs stores) s

def init : Consumer := ⟨fun _ => none,fun _ => none,[]⟩

def run (es : List HandoffEvent) : Consumer := es.foldl (step env matcher) init

end Poll

end Consumer

theorem handoff_hook {h : Hook} {k : Kernel} {a : Arrival} {entry : Option ConnState}
    {e : HandoffEntry} (hpub : (h.handle k a entry).handoff=some e) :
    h=.lanIngress ∨ h=.wanEgress := by
  cases h with
  | lanEgress | wanIngress => cases hpub
  | lanIngress => exact .inl rfl
  | wanEgress => exact .inr rfl

/-- The parameters have the addresses of the flow, those of IPv4 as such. -/
structure SameAddresses (args : RouteArgs) (params : RoutingParams) : Prop where
  src : params.srcIp.map IpAddr.mapped=some args.saddr
  dst : params.dstIp.map IpAddr.mapped=some args.daddr
  srcV4 : ∀ ip,args.saddr=(IpAddr.v4 ip).mapped → params.srcIp=some (.v4 ip)
  dstV4 : ∀ ip,args.daddr=(IpAddr.v4 ip).mapped → params.dstIp=some (.v4 ip)

def SamePorts (args : RouteArgs) (params : RoutingParams) : Prop :=
  params.srcPort=some args.hSport ∧ params.dstPort=some args.hDport

/-- A rule on the protocol is evaluated as the kernel evaluates it. -/
def SameL4Proto (env : Env) (x : RoutingMatcher) (args : RouteArgs) (params : RoutingParams)
    (mask : UInt8) : Prop :=
  ∀ ms : MatchSet,ms.value=.l4Proto mask → ∀ m slot index ctx,
    routeEvalMatch m slot args index ms ctx=ctx.good (x.evalMatch env params ms)

def Palindromic (port : UInt16) : Prop := port.toNat/2^8=port.toNat%2^8

theorem ntohs_toNat (x : UInt16) : (ntohs x).toNat=x.toNat%2^8*2^8+x.toNat/2^8 := by
  have hlt : x.toNat<2^16 := x.toNat_lt
  have hhigh : x.toNat/2^8<2^8 := by omega
  have hshift : (x <<< 8).toNat=x.toNat%2^8*2^8 := by
    rw [UInt16.toNat_shiftLeft,Nat.shiftLeft_eq]
    have h8 : (8 : UInt16).toNat%16=8 := rfl
    rw [h8]
    omega
  have hright : (x >>> 8).toNat=x.toNat/2^8 := by
    rw [UInt16.toNat_shiftRight,Nat.shiftRight_eq_div_pow]
    rfl
  rw [ntohs,UInt16.toNat_or,hshift,hright,Nat.or_comm,← Nat.shiftLeft_eq,
    ← Nat.shiftLeft_add_eq_or_of_lt hhigh]

theorem ntohs_eq_self_iff (x : UInt16) : ntohs x=x ↔ Palindromic x := by
  have hlt : x.toNat<2^16 := x.toNat_lt
  rw [← UInt16.toNat_inj,ntohs_toNat,Palindromic]
  omega

theorem ipFromTuplesKey_mapped (addr : Bytes16) : (ipFromTuplesKey addr).mapped=addr := by
  unfold ipFromTuplesKey
  split_ifs with hv4
  · apply BitVec.eq_of_toNat_eq
    rw [IpAddr.mapped_v4_toNat,BitVec.toNat_ofNat]
    rw [Nat.shiftRight_eq_div_pow] at hv4
    omega
  · rfl

theorem ipFromTuplesKey_v4 (ip : Ipv4Addr) : ipFromTuplesKey (IpAddr.v4 ip).mapped=.v4 ip := by
  have hlt := ip.isLt
  have hv4 : (IpAddr.v4 ip).mapped.toNat >>> 32=0xffff := by
    rw [IpAddr.mapped_v4_toNat,Nat.shiftRight_eq_div_pow]
    omega
  rw [ipFromTuplesKey,if_pos hv4,IpAddr.ofNat_mapped_v4]

theorem routeArgs_tuplesKey (a : Arrival) (isWan : Bool) :
    tuplesKey (a.routeArgs isWan)=a.pkt.tuples.five := by
  obtain ⟨iph,ipv6h,heq⟩ := a.tuples_eq
  rw [heq]
  have hother : ipprotoUdp≠ipprotoTcp := by decide
  have hmask : l4ProtoUdp≠l4ProtoTcp := by decide
  rcases a.transport with htcp | hudp
  · have htrue : a.isTcp=true := by simp [Arrival.isTcp,htcp]
    simp only [tuplesKey,Arrival.routeArgs,htrue,heq,getTuples,htcp,if_true]
    rfl
  · have hfalse : a.isTcp=false := by simp [Arrival.isTcp,hudp,hother]
    simp only [tuplesKey,Arrival.routeArgs,hfalse,heq,getTuples,hudp,hother,hmask,
      Bool.false_eq_true,if_false]
    rfl

section Flow

variable {h : Hook} {k : Kernel} {a : Arrival} {entry : Option ConnState} {e : HandoffEntry}

theorem sameAddresses_handed (args : RouteArgs) (e : RoutingHandoffEntry) :
    SameAddresses args (buildRoutingParams (tuplesKey args) e) where
  src := congrArg some (ipFromTuplesKey_mapped args.saddr)
  dst := congrArg some (ipFromTuplesKey_mapped args.daddr)
  srcV4 ip hip := by
    rw [buildRoutingParams,tuplesKey,hip,ipFromTuplesKey_v4]
  dstV4 ip hip := by
    rw [buildRoutingParams,tuplesKey,hip,ipFromTuplesKey_v4]

theorem samePorts_handed_iff (args : RouteArgs) (e : RoutingHandoffEntry) :
    SamePorts args (buildRoutingParams (tuplesKey args) e) ↔
      Palindromic args.source ∧ Palindromic args.dest := by
  rw [← ntohs_eq_self_iff,← ntohs_eq_self_iff,SamePorts,buildRoutingParams,tuplesKey,
    RouteArgs.hSport,RouteArgs.hDport,some_inj,some_inj]
  exact ⟨fun ⟨hs,hd⟩ => ⟨hs.symm,hd.symm⟩,fun ⟨hs,hd⟩ => ⟨hs.symm,hd.symm⟩⟩

theorem lt_four_iff (mask : UInt8) : mask<4 ↔ mask=0 ∨ mask=1 ∨ mask=2 ∨ mask=3 := by
  simp only [← UInt8.toNat_inj,UInt8.lt_iff_toNat_lt]
  have h4 : (4 : UInt8).toNat=4 := rfl
  have h0 : (0 : UInt8).toNat=0 := rfl
  have h1 : (1 : UInt8).toNat=1 := rfl
  have h2 : (2 : UInt8).toNat=2 := rfl
  have h3 : (3 : UInt8).toNat=3 := rfl
  omega

theorem l4protoMask_lt (values : List String) : l4protoMask values<4 := by
  have hor : ∀ proto : UInt8,proto<4 → proto ||| 1<4 ∧ proto ||| 2<4 := by
    intro proto hlt
    rcases (lt_four_iff proto).mp hlt with rfl | rfl | rfl | rfl <;> decide
  unfold l4protoMask
  refine List.foldlRecOn (motive := (·<4)) values _ (by decide) ?_
  intro proto hlt val _
  split
  · exact (hor proto hlt).1
  · exact (hor proto hlt).2
  · exact hlt

/-- The mask of TCP or UDP and the number of the protocol share a bit with the same rules only where
a rule asks for both or for none. -/
theorem sameL4Proto_handed_iff (env : Env) (x : RoutingMatcher) {args : RouteArgs}
    (hargs : args.l4protoType=l4ProtoTcp ∨ args.l4protoType=l4ProtoUdp)
    (e : RoutingHandoffEntry) {mask : UInt8} (hmask : mask<4) :
    SameL4Proto env x args (buildRoutingParams (tuplesKey args) e) mask ↔ mask=0 ∨ mask=3 := by
  have hgood : ∀ b b' : Bool,(∀ ctx : RouteCtx,ctx.good b=ctx.good b') ↔ b=b' := by
    intro b b'
    constructor
    · intro hctx
      have hstart := hctx RouteCtx.start
      revert hstart
      cases b <;> cases b' <;> decide
    · intro hb ctx
      rw [hb]
  have heval : ∀ ms : MatchSet,ms.value=.l4Proto mask →
      x.evalMatch env (buildRoutingParams (tuplesKey args) e) ms =
        decide ((if args.l4protoType=l4ProtoTcp then (6 : UInt8) else 17) &&& mask≠0) := by
    intro ms hms
    simp only [RoutingMatcher.evalMatch,hms,buildRoutingParams,tuplesKey,any_some]
  have hkernel : ∀ (ms : MatchSet),ms.value=.l4Proto mask → ∀ m slot index ctx,
      routeEvalMatch m slot args index ms ctx =ctx.good (decide (args.l4protoType &&& mask≠0)) := by
    intro ms hms m slot index ctx
    simp only [routeEvalMatch,hms]
  have hbits : ∀ mask : UInt8,mask<4 →
      ((decide (l4ProtoTcp &&& mask≠0)=decide ((6 : UInt8) &&& mask≠0) ↔
          mask=0 ∨ mask=3) ∧
        (decide (l4ProtoUdp &&& mask≠0)=decide ((17 : UInt8) &&& mask≠0) ↔
          mask=0 ∨ mask=3)) := by
    intro mask hlt
    rcases (lt_four_iff mask).mp hlt with rfl | rfl | rfl | rfl <;> decide
  constructor
  · intro hsame
    have hms : (MatchSet.mk (.l4Proto mask) false 0 false 0).value=.l4Proto mask := rfl
    have hall := hsame _ hms ⟨fun _ => .zeroed,fun _ => 0,0,fun _ => none,fun _ => none⟩ 0 0
    rw [heval _ hms] at hall
    have heq := (hgood _ _).mp fun ctx => (hkernel _ hms _ _ _ ctx).symm.trans (hall ctx)
    rcases hargs with htcp | hudp
    · rw [htcp,if_pos rfl] at heq
      exact (hbits mask hmask).1.mp heq
    · rw [hudp,if_neg (by decide)] at heq
      exact (hbits mask hmask).2.mp heq
  · intro hrule ms hms m slot index ctx
    rw [hkernel ms hms,heval ms hms]
    congr 1
    rcases hargs with htcp | hudp
    · rw [htcp,if_pos rfl]
      exact (hbits mask hmask).1.mpr hrule
    · rw [hudp,if_neg (by decide)]
      exact (hbits mask hmask).2.mpr hrule

/-- What the consumer reads of a published flow: always its addresses; the ports, and a rule on the
protocol, exactly when both ports read the same in either byte order and the rule asks for both
protocols or for none. -/
theorem handed_flow_iff (hpub : (h.handle k a entry).handoff=some e) (env : Env)
    (x : RoutingMatcher) (values : List String) :
    let args := a.routeArgs (decide (h=.wanEgress))
    let params := buildRoutingParams (h.key a) e.toRoutingHandoffEntry
    let mask := l4protoMask values
    SameAddresses args params ∧ (SamePorts args params ∧ SameL4Proto env x args params mask ↔
        (Palindromic args.source ∧ Palindromic args.dest) ∧ (mask=0 ∨ mask=3)) := by
  intro args params mask
  have hkey : h.key a=tuplesKey args := by
    rw [routeArgs_tuplesKey]
    rcases handoff_hook hpub with rfl | rfl <;> rfl
  have hargs : args.l4protoType=l4ProtoTcp ∨ args.l4protoType=l4ProtoUdp := by
    by_cases htcp : a.isTcp=true
    · exact .inl (if_pos htcp)
    · exact .inr (if_neg htcp)
  have hparams : params=buildRoutingParams (tuplesKey args) e.toRoutingHandoffEntry := by
    rw [← hkey]
  rw [hparams,samePorts_handed_iff,sameL4Proto_handed_iff env x hargs _ (l4protoMask_lt values)]
  exact ⟨sameAddresses_handed args _,Iff.rfl⟩

end Flow

def proxyMatcher : RoutingMatcher := ⟨[],[],[],2,0,false⟩

theorem handed_flow_palindromic : ∃ e,
    let a := tcpArrival { tcpHeader true false false with source := 0x5050,dest := 0x0101 } 5 1
    (Hook.wanEgress.handle proxyKernel a none).handoff=some e ∧
      SamePorts (a.routeArgs true) (buildRoutingParams (Hook.wanEgress.key a) e.toRoutingHandoffEntry) ∧
      SameL4Proto .empty proxyMatcher (a.routeArgs true)
        (buildRoutingParams (Hook.wanEgress.key a) e.toRoutingHandoffEntry)
        (l4protoMask ["tcp", "udp"]) := by
  have hsome : (Hook.wanEgress.handle proxyKernel
      (tcpArrival { tcpHeader true false false with source := 0x5050,dest := 0x0101 } 5 1)
      none).handoff.isSome=true := by
    decide +kernel
  obtain ⟨e,he⟩ := Option.isSome_iff_exists.mp hsome
  refine ⟨e,he,(handed_flow_iff he .empty proxyMatcher ["tcp", "udp"]).2.mpr ?_⟩
  exact ⟨⟨rfl,rfl⟩,.inr (by decide +kernel)⟩

/-- A connection to port 443: the consumer reads port 47873, and finds that it is not TCP. -/
theorem handed_flow_misread :
    let a := tcpArrival (tcpHeader true false false) 5 1
    let args := a.routeArgs true
    let ms : MatchSet := ⟨.l4Proto (l4protoMask ["tcp"]),false,2,false,0⟩
    (Hook.wanEgress.handle proxyKernel a none).handoff.map (fun e =>
      let params := buildRoutingParams (Hook.wanEgress.key a) e.toRoutingHandoffEntry
      (params.dstPort,args.hDport,proxyMatcher.evalMatch .empty params ms,
        decide (routeEvalMatch loadedMaps 0 args 0 ms .start=RouteCtx.start.good true))) =
      some (some 47873,443,false,true) := by
  decide +kernel

namespace Consumer

variable (env : Env) (x : RoutingMatcher)

theorem step_poll (s : Consumer) (calls : RawBpf) (fd : UInt32) (rounds : Nat) (nowNs : UInt64)
    (stores : TuplesKey → Bool) : s.step env x (.poll calls fd rounds nowNs stores)=s := by
  rw [step,getRoutingHandoffEntries_nil]
  rfl

theorem run_concat (es : List HandoffEvent) (e : HandoffEvent) :
    run env x (es++[e])=(run env x es).step env x e := List.foldl_concat ..

theorem run_committed (es : List HandoffEvent) : (run env x es).committed=[] := by
  induction es using List.reverseRecOn with
  | nil => rfl
  | append_singleton es e ih =>
    rw [run_concat]
    cases e with
    | poll => rw [step_poll,ih]
    | flow e => cases e <;> exact ih

end Consumer

/-- In every run of packets and rounds of the consumer, whatever is published and whenever it is
polled, no decision is committed for any flow. -/
theorem published_never_committed (env : Env) (x : RoutingMatcher) (es : List HandoffEvent)
    (key : TuplesKey) : ¬∃ r,(key,r)∈(Consumer.run env x es).committed := by
  rintro ⟨r,hr⟩
  rw [Consumer.run_committed] at hr
  cases hr

/-- The wall clock is at the time since boot: the entry that the WAN hook has published is there and
a tenth of a second old, and the consumer does not see it. -/
theorem published_unread :
    let a := tcpArrival (tcpHeader true false false) 5 3600000000000
    let polled : Moment := ⟨3600100000000,0⟩
    let s := Consumer.run .empty proxyMatcher [.flow (.packet .wanEgress proxyKernel a),
      .poll someCalls 7 9 polled.nowNs fun _ => true]
    (s.handoff tcpFlow).map (fun e => (kernelAge polled e.lastSeenNs,e.stale polled.nowNs)) =
      some (100000000,false) ∧ s.committed=[] := by
  decide +kernel

/-- What becomes of a packet by the outbound of a decision other than direct: it is dropped if
blocked, and else goes to the control plane, if it can. -/
def Handled (r : RouteResult) (act : TcAct) : Prop :=
  if r.outbound=Outbound.block then act=.shot else act=.redirect ∨ act=.shot

/-- The event neither removes the entry of the flow nor is a packet that finds it expired or opens a
new connection. -/
def Continues (key : TuplesKey) (entry : Option ConnState) : FlowEvent → Prop
  | .packet h _ a => h.key a=key → ∀ s,entry=some s → a.finds s=true
  | .delete k => k≠key

def RunContinues (key : TuplesKey) : ConnStateMap → List FlowEvent → Prop
  | _,[] => True
  | m,e::es => Continues key (m key) e ∧ RunContinues key (e.step m) es

section Committed

variable {h : Hook} {k : Kernel} {a : Arrival} {s : ConnState}

theorem carriesOut_handled (hh : h=.lanIngress ∨ h=.wanEgress) {r : RouteResult}
    (hout : r.outbound≠Outbound.direct) : Handled r (h.carriesOut k a r) := by
  have hneeds : wanEgressNeedsControlPlane r=true := by simp [wanEgressNeedsControlPlane,hout]
  unfold Handled Hook.carriesOut
  rcases hh with rfl | rfl
  · by_cases hblock : r.outbound=Outbound.block
    · simp only [if_neg hout,if_pos hblock]
    · simp only [if_neg hout,if_neg hblock]
      split_ifs
      · exact .inl rfl
      · exact .inr rfl
  · simp only [hneeds,Bool.not_true,Bool.false_eq_true,if_false]
    by_cases hblock : r.outbound=Outbound.block
    · simp only [if_pos hblock]
    · simp only [if_neg hblock]
      split_ifs
      · exact .inr rfl
      · exact .inl rfl
      · exact .inr rfl

theorem handle_udp_reversed (hudp : a.isTcp=false) (hfinds : a.finds s=true)
    (hdirection : s.isWanIngressDirection=true) :
    (∃ s',(h.handle k a (some s)).entry=some s' ∧ s.Kept s') ∧
      (h=.lanIngress ∨ h=.wanEgress → (h.handle k a (some s)).act=.ok none ∧
        (h.handle k a (some s)).decided=.none) := by
  have hreversed : ∃ s',(refreshReversed k a (some s)).entry=some s' ∧ s.Kept s' := by
    obtain ⟨s',hkept,heq⟩ := udp_found k.param.datapathGeneration true 0 hudp hfinds
    refine ⟨s',?_,hkept⟩
    simp only [refreshReversed,hudp,Bool.false_eq_true,if_false,heq]
  cases h with
  | lanEgress | wanIngress => exact ⟨hreversed,by simp⟩
  | lanIngress =>
    obtain ⟨s',hkept,heq⟩ :=
      udp_found k.param.datapathGeneration false a.pkt.tuples.dscp hudp hfinds
    have hlan : Hook.lanIngress.handle k a (some s) =
        { Verdict.pass none with entry := some s',decided := .none } := by
      simp only [Hook.handle,doTproxyLanIngress,hudp,lanIngressUdp,heq,hkept.direction,
        hdirection,Bool.false_eq_true,if_false,if_true]
    rw [hlan]
    exact ⟨⟨s',rfl,hkept⟩,fun _ => ⟨rfl,rfl⟩⟩
  | wanEgress =>
    rw [Hook.handle,doTproxyWanEgress]
    by_cases hforwarded : a.forwarded=true
    · rw [if_pos hforwarded]
      exact ⟨⟨s,rfl,rfl,rfl⟩,fun _ => ⟨rfl,rfl⟩⟩
    · rw [if_neg hforwarded,if_neg (by simp [hudp]),doTproxyWanEgressUdp]
      by_cases hpid : pidIsControlPlane k a=true
      · rw [if_pos hpid]
        exact ⟨⟨s,rfl,rfl,rfl⟩,fun _ => ⟨rfl,rfl⟩⟩
      · obtain ⟨s',hkept,heq⟩ := udp_found k.param.datapathGeneration false 0 hudp hfinds
        rw [if_neg hpid]
        simp only [heq,hkept.direction,hdirection,if_true]
        exact ⟨⟨s',rfl,hkept⟩,fun _ => ⟨rfl,trivial⟩⟩

theorem handle_tcp_kept (htcp : a.isTcp=true) (hfinds : a.finds s=true) :
    ∃ s',(h.handle k a (some s)).entry=some s' ∧ s.Kept s' := by
  obtain ⟨hsyn,s₁,hkept₁,heq₁⟩ := tcp_found k.param.datapathGeneration true 0 htcp hfinds
  obtain ⟨-,s₂,hkept₂,heq₂⟩ := tcp_found k.param.datapathGeneration false 0 htcp hfinds
  have hreversed : (refreshReversed k a (some s)).entry=some s₁ := by
    simp only [refreshReversed,htcp,if_true,heq₁]
  cases h with
  | lanEgress | wanIngress => exact ⟨s₁,hreversed,hkept₁⟩
  | lanIngress =>
    refine ⟨s₂,?_,hkept₂⟩
    rw [Hook.handle,doTproxyLanIngress,if_pos htcp,hsyn,Bool.not_false,if_pos rfl,
      lanIngressTcp_entry,heq₂]
  | wanEgress =>
    rw [Hook.handle,doTproxyWanEgress]
    by_cases hforwarded : a.forwarded=true
    · rw [if_pos hforwarded]
      exact ⟨s,rfl,rfl,rfl⟩
    · rw [if_neg hforwarded,if_pos htcp,wanEgressTcp_entry hsyn,heq₂]
      exact ⟨s₂,rfl,hkept₂⟩

end Committed

def udpArrival (nowNs : UInt64) : Arrival where
  pkt :=
    let c := ParseTransportCtx.zero
    let udph : Udphdr := ⟨htons 49152,htons 53,htons 108,0⟩
    ⟨⟨0,0,htons ethPIp⟩,getTuples ⟨4,5,0,0,ipprotoUdp,0x0a000001,0x01010101⟩ c.ipv6h c.tcph
      udph ipprotoUdp,c.tcph,udph,ipprotoUdp,0⟩
  transport := .inr rfl
  tuples_eq := ⟨_,_,rfl⟩
  protocol := htons ethPIp
  linkHLen := 0
  ingressIfindex := 0
  ifindex := 2
  mark := 0
  cookiePid := some ⟨5,0⟩
  nowNs
  laterNs := nowNs
  fits := true
  localSocket := false
  prepared := true
  handed := true

end DaeRs.Control
