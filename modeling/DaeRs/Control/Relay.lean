import DaeRs.Control.Group
import DaeRs.Control.Handoff

/-! The flows that the TProxy listeners relay, and the nodes they are dialled through. -/

namespace DaeRs.Control

open Net RuleSet Bpf Routing Config List Option

inductive Dialer where
  | node (node : OutboundNodeConfig)
  | legacy
  | group (g : GroupDialer)

/-- Where a connection is opened to. -/
inductive Endpoint where
  | node (node : OutboundNodeConfig)
  | legacy
  deriving DecidableEq

section Start

variable (env : Env) (b : Builders) (outbounds : OutboundsConfig)

def buildOutboundDialer : Except Error Dialer :=
  match outbounds.nodes with
  | node::_ => (fun _ => .node node) <$> b.buildDialer node
  | [] => (fun _ => .legacy) <$> b.legacyDialer

def startTproxy : Except Error Dialer := do
  let dialer ← buildOutboundDialer b outbounds
  match outbounds.groups with
  | [] => pure dialer
  | defaultGroup::_ =>
    match buildOutboundGroupDialers env b outbounds defaultGroup.name with
    | some g => pure (.group g)
    | none => pure dialer

end Start

namespace Dialer

variable (a : Attempts)

def answers (name : String) (endpoint : Endpoint) : Option Endpoint :=
  (a.latency name).map fun _ => endpoint

def dial : Dialer → Dialer×Option Endpoint
  | .node n => (.node n,answers a n.name (.node n))
  | .legacy => (.legacy,answers a "" .legacy)
  | .group g =>
    let (g,opened) := g.tryDial a
    (.group g,opened.map .node)

def udpDial : Dialer → Dialer×Option Endpoint
  | .node n => (.node n,answers a n.name (.node n))
  | .legacy => (.legacy,answers a "" .legacy)
  | .group g =>
    let (g,opened) := g.tryUdpDial a
    (.group g,opened.map .node)

def endpoints : Dialer → List Endpoint
  | .node n => [.node n]
  | .legacy => [.legacy]
  | .group g => g.members.map .node

theorem mem_answers {a : Attempts} {name : String} {endpoint e : Endpoint}
    (h : answers a name endpoint=some e) : e=endpoint := by
  obtain ⟨_,-,he⟩ := map_eq_some_iff.mp h
  exact he.symm

theorem dial_endpoints (d : Dialer) :
    (d.dial a).1.endpoints=d.endpoints ∧ ∀ e,(d.dial a).2=some e → e∈d.endpoints := by
  cases d with
  | node n | legacy => exact ⟨rfl,fun e h => by simp [endpoints,mem_answers h]⟩
  | group g =>
    obtain ⟨hmembers,hnode⟩ := g.tryNodes_spec a
    refine ⟨congrArg (List.map Endpoint.node) hmembers,fun e h => ?_⟩
    obtain ⟨node,hopened,rfl⟩ := map_eq_some_iff.mp h
    exact mem_map_of_mem (hnode node hopened)

theorem udpDial_eq_dial (d : Dialer) : d.udpDial a=d.dial a := by
  cases d <;> rfl

end Dialer

/-- The listeners' dialer, the UDP flows that have a session, and what was opened for which flow. -/
structure Relay where
  maps : Maps
  dialer : Dialer
  udpFlows : TuplesKey → Bool
  opened : List (RouteArgs×Endpoint)

/-- A packet with the attempts of its dial, or a flow's end. -/
inductive RelayEvent where
  | packet (alive : Bool) (args : RouteArgs) (a : Attempts)
  | removed (key : TuplesKey)

namespace Relay

def start (m : Maps) (dialer : Dialer) : Relay := ⟨m,dialer,fun _ => false,[]⟩

def record (s : Relay) (args : RouteArgs) (dialled : Dialer×Option Endpoint) : Relay :=
  { s with dialer := dialled.1,opened := s.opened++(dialled.2.map fun e => (args,e)).toList }

def handleConnection (s : Relay) (args : RouteArgs) (a : Attempts) : Relay :=
  s.record args (s.dialer.dial a)

def relayDatagram (s : Relay) (args : RouteArgs) (a : Attempts) : Relay :=
  if s.udpFlows (tuplesKey args) then s
  else
    let dialled := s.dialer.udpDial a
    { s.record args dialled with
      udpFlows := Function.update s.udpFlows (tuplesKey args) dialled.2.isSome }

def step (s : Relay) : RelayEvent → Relay
  | .packet alive args a =>
    match decodeRoute (route s.maps args) with
    | none => s
    | some r =>
      if needsControlPlane args r && alive then
        if args.l4protoType=l4ProtoTcp then s.handleConnection args a
        else s.relayDatagram args a
      else s
  | .removed key => { s with udpFlows := Function.update s.udpFlows key false }

def run (s : Relay) (events : List RelayEvent) : Relay := events.foldl step s

/-- A relay over the maps `m` whose dialer has the endpoints `es`: every connection was opened
through one of them, for a flow that the kernel redirects. -/
structure Inv (m : Maps) (es : List Endpoint) (s : Relay) : Prop where
  maps : s.maps=m
  dialer : s.dialer.endpoints=es
  opened : ∀ c∈s.opened,c.2∈es ∧ ∃ r,decodeRoute (route m c.1)=some r ∧ needsControlPlane c.1 r=true

variable {m : Maps} {es : List Endpoint} {s : Relay}

theorem Inv.record (h : Inv m es s) {args : RouteArgs} {r : RouteResult}
    (hr : decodeRoute (route m args)=some r) (hneeds : needsControlPlane args r=true)
    {dialled : Dialer×Option Endpoint} (hd : dialled.1.endpoints=s.dialer.endpoints)
    (he : ∀ e,dialled.2=some e → e∈s.dialer.endpoints) :
    Inv m es (s.record args dialled) where
  maps := h.maps
  dialer := hd.trans h.dialer
  opened c hc := by
    rcases mem_append.mp hc with hc | hc
    · exact h.opened c hc
    · obtain ⟨e,hopened,rfl⟩ := map_eq_some_iff.mp (mem_toList.mp hc)
      exact ⟨h.dialer ▸ he e hopened,r,hr,hneeds⟩

theorem Inv.step (h : Inv m es s) (e : RelayEvent) : Inv m es (s.step e) := by
  cases e with
  | removed key => exact ⟨h.maps,h.dialer,h.opened⟩
  | packet alive args a =>
    simp only [Relay.step]
    split
    · exact h
    · next r hr =>
      rw [h.maps] at hr
      obtain ⟨hd,he⟩ := s.dialer.dial_endpoints a
      split_ifs with hredirect htcp
      · have hneeds := (Bool.and_eq_true_iff.mp hredirect).1
        exact h.record hr hneeds hd he
      · have hneeds := (Bool.and_eq_true_iff.mp hredirect).1
        unfold relayDatagram
        split_ifs
        · exact h
        · rw [Dialer.udpDial_eq_dial]
          have hrec := h.record hr hneeds hd he
          exact ⟨hrec.maps,hrec.dialer,hrec.opened⟩
      · exact h

theorem Inv.run (h : Inv m es s) (events : List RelayEvent) : Inv m es (s.run events) := by
  induction events generalizing s with
  | nil => exact h
  | cons e events ih => exact ih (h.step e)

end Relay

/-- A node that the default group (of the first group's name) resolves to and that can be built;
without one, the first node, or the legacy proxy. -/
def DefaultEndpoint (env : Env) (b : Builders) (outbounds : OutboundsConfig) (e : Endpoint) :
    Prop :=
  (∃ first∈outbounds.groups.head?,∃ g∈outbounds.groups,g.name=first.name ∧
    ∃ node∈resolveGroupNodes env g outbounds.nodes,b.builds node=true ∧ e=.node node) ∨
  ((∀ first∈outbounds.groups.head?,∀ g∈outbounds.groups,g.name=first.name →
      ∀ node∈resolveGroupNodes env g outbounds.nodes,b.builds node=false) ∧
    e=(outbounds.nodes.head?.map Endpoint.node).getD .legacy)

section Default

variable {env : Env} {b : Builders} {outbounds : OutboundsConfig}

theorem buildOutboundDialer_endpoints {d : Dialer} (h : buildOutboundDialer b outbounds=.ok d) :
    d.endpoints=[(outbounds.nodes.head?.map Endpoint.node).getD .legacy] := by
  unfold buildOutboundDialer at h
  split at h
  · next node rest hnodes =>
    obtain ⟨_,-,rfl⟩ := Fallible.map_ok_iff.mp h
    rw [hnodes]
    rfl
  · next hnodes =>
    obtain ⟨_,-,rfl⟩ := Fallible.map_ok_iff.mp h
    rw [hnodes]
    rfl

theorem startTproxy_endpoints {d : Dialer} (h : startTproxy env b outbounds=.ok d) {e : Endpoint}
    (he : e∈d.endpoints) : DefaultEndpoint env b outbounds e := by
  obtain ⟨single,hsingle,h⟩ := Fallible.bind_ok_iff.mp h
  have hends := buildOutboundDialer_endpoints hsingle
  cases hgroups : outbounds.groups with
  | nil =>
    rw [hgroups] at h
    cases h
    rw [hends,mem_singleton] at he
    refine .inr ⟨?_,he⟩
    simp [hgroups]
  | cons first rest =>
    rw [hgroups] at h
    have hspec := buildOutboundGroupDialers_spec env b outbounds first.name
    have hhead : outbounds.groups.head?=some first := by simp [hgroups]
    dsimp only at h
    split at h
    · next g hg =>
      cases h
      rw [hg] at hspec
      obtain ⟨group,hgroup,hname,hdialer⟩ := hspec
      obtain ⟨node,hnode,rfl⟩ := mem_map.mp he
      obtain ⟨hresolved,hbuilds⟩ := groupDialer_members hdialer hnode
      exact .inl ⟨first,hhead,group,hgroup,hname,node,hresolved,hbuilds,rfl⟩
    · next hg =>
      cases h
      rw [hg] at hspec
      rw [hends,mem_singleton] at he
      refine .inr ⟨?_,he⟩
      intro first' hfirst group hgroup hname
      cases Option.some.inj (hhead.symm.trans hfirst)
      exact groupDialer_eq_none.mp (hspec group hgroup hname)

theorem foldl_insert_mem {α : Type} (name : α → String) {l : List α} {a : α} (ha : a∈l)
    (m : OutboundIdMap) :
    (l.foldl (fun m a => OutboundIdMap.insert m (name a) Outbound.controlPlaneRouting) m)
      (name a)=some Outbound.controlPlaneRouting := by
  -- a later element of the name inserts the same id
  induction l using reverseRecOn with
  | nil => cases ha
  | append_singleton rest last ih =>
    rw [foldl_append,foldl_cons,foldl_nil,OutboundIdMap.insert]
    split_ifs with hname
    · rfl
    · rcases mem_append.mp ha with ha | ha
      · exact ih ha
      · rw [mem_singleton.mp ha] at hname
        exact absurd rfl hname

theorem group_outbound_id {g : OutboundGroupConfig} (hg : g∈outbounds.groups) :
    buildOutboundIdMap outbounds g.name=some Outbound.controlPlaneRouting :=
  foldl_insert_mem (fun g : OutboundGroupConfig => g.name) hg _

/-- Every connection that a run opens is for a flow that the chain redirects, and goes through the
default group, whichever group the deciding rule names. -/
theorem flows_dialled_default {cache : Option RuleSetCache} {routing : RoutingConfig}
    {ips : List IpAddr} {t : Compilation} {m m' : Maps} {slot : Nat} {dialer : Dialer}
    (h : compileTrace env cache routing outbounds ips=.ok t) (hm : Fresh m slot)
    (hw : writeCompiled t.routing slot m=.ok m')
    (hstart : startTproxy env b outbounds=.ok dialer) (events : List RelayEvent) :
    (∀ g∈outbounds.groups,buildOutboundIdMap outbounds g.name=some Outbound.controlPlaneRouting) ∧
    ∀ c∈((Relay.start m' dialer).run events).opened,
      DefaultEndpoint env b outbounds c.2 ∧
      ∃ r,itemsAction c.1 (programItems env cache (buildOutboundIdMap outbounds) ips t.program) =
        some r ∧ needsControlPlane c.1 r=true := by
  refine ⟨fun g hg => group_outbound_id hg,fun c hc => ?_⟩
  have hinit : Relay.Inv m' dialer.endpoints (Relay.start m' dialer) :=
    ⟨rfl,rfl,fun _ h => by cases h⟩
  obtain ⟨hend,r,hr,hneeds⟩ := (hinit.run events).opened c hc
  rw [route_written hm (compileTrace_spec h) hw] at hr
  exact ⟨startTproxy_endpoints hstart hend,r,hr,hneeds⟩

end Default

def anyBuilders : Builders := ⟨fun _ => .ok (),.ok ()⟩

def promptAttempts : Attempts := ⟨0,⟨id,fun _ => .refl _⟩,fun _ => 0,fun _ => some 1,0⟩

def hongkong : OutboundNodeConfig := ⟨"hongkong", "socks5", "192.0.2.1:1080"⟩

def tokyo : OutboundNodeConfig := ⟨"tokyo", "socks5", "192.0.2.2:1080"⟩

def groupOf (name : String) (node : OutboundNodeConfig) : OutboundGroupConfig :=
  ⟨name,.auto,none,none,[.list [node.name]]⟩

def hkAndJp : OutboundsConfig := ⟨[hongkong,tokyo],[groupOf "hk" hongkong,groupOf "jp" tokyo]⟩

theorem flows_dialled_two : ∃ t m' dialer,
    compileTrace Env.empty none ⟨[⟨"dport(443)", "proxy(jp)"⟩], "direct"⟩ hkAndJp []=.ok t ∧
    writeCompiled t.routing 0 loadedMaps=.ok m' ∧
    startTproxy Env.empty anyBuilders hkAndJp=.ok dialer ∧
    ∀ events,∀ c∈((Relay.start m' dialer).run events).opened,c.2=.node hongkong := by
  have hrun : (compileTrace Env.empty none ⟨[⟨"dport(443)", "proxy(jp)"⟩], "direct"⟩ hkAndJp
      []).toOption.map (fun _ => ())=some () := by
    decide +kernel
  obtain ⟨t,ht,-⟩ := Fallible.exists_ok_of_map hrun
  obtain ⟨m',hw⟩ := writeCompiled_ok t.routing (by decide : 0 < routingEpochSlotNum) loadedMaps
  have hstart : startTproxy Env.empty anyBuilders hkAndJp =
      .ok (.group ⟨"hk",[.new hongkong],.fixed,none⟩) := by
    rfl
  refine ⟨t,m',_,ht,hw,hstart,fun events c hc => ?_⟩
  have hdefault := ((flows_dialled_default ht (loadedMaps_fresh 0) hw hstart events).2 c hc).1
  rcases hdefault with ⟨first,hfirst,g,hg,hname,node,hnode,-,he⟩ | ⟨-,he⟩
  · have hresolved : resolveGroupNodes Env.empty (groupOf "hk" hongkong) hkAndJp.nodes =
        [hongkong] := by
      decide +kernel
    cases hfirst
    rcases List.mem_pair.mp hg with rfl | rfl
    · rw [hresolved,List.mem_singleton] at hnode
      rw [he,hnode]
    · nomatch hname
  · exact he

/-- A flow that the rule gives to the second group is dialled through the first one's node. -/
theorem second_group_not_dialled :
    let outbounds : OutboundsConfig := ⟨[hongkong,tokyo],[groupOf "hk" hongkong,groupOf "jp" tokyo]⟩
    resolveGroupNodes Env.empty (groupOf "jp" tokyo) outbounds.nodes=[tokyo] ∧
    ((compileTrace Env.empty none ⟨[⟨"dport(443)", "proxy(jp)"⟩], "direct"⟩ outbounds
        []).toOption.bind fun t =>
      (writeCompiled t.routing 0 loadedMaps).toOption.bind fun m =>
        (startTproxy Env.empty anyBuilders outbounds).toOption.map fun dialer =>
          ((Relay.start m dialer).run [.packet true httpsArgs promptAttempts]).opened) =
      some [(httpsArgs,.node hongkong)] := by
  decide +kernel

end DaeRs.Control
