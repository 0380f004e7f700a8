import DaeRs.Bpf.MatchSet

/-! `route()` of `tproxy.c`: the walk over the active epoch slot of `routing_map`. -/

namespace DaeRs.Bpf

structure LpmKey where
  prefixlen : Nat
  data : Bytes16
  deriving DecidableEq

/-- A stored prefix covers a key that is at least as long and agrees on the prefix's bits. -/
def LpmKey.covers (p k : LpmKey) : Bool := decide (p.prefixlen≤k.prefixlen) &&
    decide (p.data.toNat >>> (128-p.prefixlen)=k.data.toNat >>> (128-p.prefixlen))

/-- An LPM trie, by its documented lookup: it succeeds when some stored prefix covers the key. -/
abbrev LpmTrie := List LpmKey

def LpmTrie.lookup (t : LpmTrie) (k : LpmKey) : Bool := t.any (fun p => p.covers k)

abbrev DomainRouting := Nat → UInt32

/-- The maps that `route` reads. Array maps are total: their elements always exist. -/
structure Maps where
  routingMap : Nat → MatchSet
  routingMetaMap : Nat → Nat
  activeRoutingEpochMap : Nat
  lpmArrayMap : Nat → Option LpmTrie
  domainRoutingMap : Nat×Bytes16 → Option DomainRouting

def ntohs (x : UInt16) : UInt16 := x >>> 8 ||| x <<< 8

/-- The arguments of `route`: `flag[0]`, `flag[1]`, `flag[2..5]`, `flag[6]`, `flag[7]`, the ports in
network order, and the addresses. -/
structure RouteArgs where
  l4protoType : UInt8
  ipversionType : UInt8
  pname : Bytes16
  dscp : UInt8
  isWan : Bool
  source : UInt16
  dest : UInt16
  saddr : Bytes16
  daddr : Bytes16
  mac : Bytes16
  deriving DecidableEq

namespace RouteArgs

def hSport (a : RouteArgs) : UInt16 := ntohs a.source
def hDport (a : RouteArgs) : UInt16 := ntohs a.dest

end RouteArgs

def eperm : Int := 1
def enoexec : Int := 8
def efault : Int := 14
def einval : Int := 22

def routeStateBadRule : UInt8 := (1 : UInt8) <<< 0
def routeStateGoodSubrule : UInt8 := (1 : UInt8) <<< 1
def routeStateMust : UInt8 := (1 : UInt8) <<< 2

/-- The part of `struct route_ctx` that the walk changes; `domainWord` is the cached word of the
domain bitmap with its index. -/
structure RouteCtx where
  result : Int
  domainWord : Option (Nat×UInt32)
  routeState : UInt8
  deriving DecidableEq

abbrev CbResult := RouteCtx×Bool

def RouteCtx.fail (ctx : RouteCtx) (errno : Int) : CbResult := ({ ctx with result := -errno },true)

def RouteCtx.good (ctx : RouteCtx) (hit : Bool) : CbResult :=
  (if hit then { ctx with routeState := ctx.routeState ||| routeStateGoodSubrule } else ctx,false)

variable (m : Maps) (slot : Nat)

def routeMatchLpm (index : UInt32) (key : LpmKey) (ctx : RouteCtx) :
    CbResult :=
  if slot≥routingEpochSlotNum ∨ index.toNat≥maxMatchSetLen then ctx.fail efault
  else
    match m.lpmArrayMap (slot*maxMatchSetLen+index.toNat) with
    | none => ctx.fail efault
    | some lpm => ctx.good (lpm.lookup key)

def domainBits (daddr : Bytes16) (wordIdx : Nat) : UInt32 :=
  match m.domainRoutingMap (slot,daddr) with
  | some bitmap => bitmap wordIdx
  | none => 0

def wordBits (cached : Option (Nat×UInt32)) (wordIdx : Nat) (refreshed : UInt32) : UInt32 :=
  match cached with
  | some (idx,bits) => if idx≠wordIdx then refreshed else bits
  | none => refreshed

def routeMatchDomainSet (daddr : Bytes16) (index : Nat) (ctx : RouteCtx) : CbResult :=
  if index≥maxMatchSetLen then ctx.fail efault
  else
    let wordIdx := index >>> 5
    let bits := wordBits ctx.domainWord wordIdx (domainBits m slot daddr wordIdx)
    { ctx with domainWord := some (wordIdx,bits) }.good (bits.toNat.testBit (index%32))

def hostKey (addr : Bytes16) : LpmKey := ⟨128,addr⟩

def routeEvalMatch (args : RouteArgs) (index : Nat) (ms : MatchSet) (ctx : RouteCtx) : CbResult :=
  match ms.value with
  | .mac i => routeMatchLpm m slot i (hostKey args.mac) ctx
  | .ipSet i => routeMatchLpm m slot i (hostKey args.daddr) ctx
  | .sourceIpSet i => routeMatchLpm m slot i (hostKey args.saddr) ctx
  | .port r => ctx.good (decide (args.hDport≥r.portStart) && decide (args.hDport ≤ r.portEnd))
  | .sourcePort r =>
    ctx.good (decide (args.hSport≥r.portStart) && decide (args.hSport ≤ r.portEnd))
  | .l4Proto mask => ctx.good (decide (args.l4protoType &&& mask≠0))
  | .ipVersion mask => ctx.good (decide (args.ipversionType &&& mask≠0))
  | .domainSet _ => routeMatchDomainSet m slot args.daddr index ctx
  | .processName pname => ctx.good (args.isWan && decide (pname=args.pname))
  | .dscp dscp => ctx.good (decide (args.dscp=dscp))
  | .fallback => ctx.good true
  | .mustRules | .upstream _ | .qtype _ => ctx.fail einval

def packResult (outbound : UInt8) (mark : UInt32) (must : Bool) : Nat :=
  outbound.toNat ||| mark.toNat <<< 8 ||| must.toNat <<< 40

def routeFinalizeMatch (ms : MatchSet) (ctx : RouteCtx) : CbResult :=
  let ctx :=
    if ms.outbound≠Outbound.logicalOr then
      let state :=
        if decide (ctx.routeState &&& routeStateGoodSubrule≠0)=ms.not then
          ctx.routeState ||| routeStateBadRule
        else ctx.routeState
      { ctx with routeState := state &&& ~~~routeStateGoodSubrule }
    else ctx
  if ms.outbound &&& Outbound.logicalMask≠Outbound.logicalMask then
    if ctx.routeState &&& routeStateBadRule=0 then
      if ms.outbound=Outbound.mustRules then
        let state := ctx.routeState ||| routeStateMust
        ({ ctx with routeState := state &&& ~~~routeStateBadRule },false)
      else
        let must := decide (ctx.routeState &&& routeStateMust≠0) || ms.must
        ({ ctx with result := packResult ms.outbound ms.mark must },true)
    else ({ ctx with routeState := ctx.routeState &&& ~~~routeStateBadRule },false)
  else (ctx,false)

/-- The body of `route_loop_cb` once the entry is found, for any way to evaluate one entry. -/
def routeVisit (eval : Nat → MatchSet → RouteCtx → CbResult) (index : Nat) (ms : MatchSet)
    (ctx : RouteCtx) : CbResult :=
  if ctx.routeState &&& (routeStateBadRule ||| routeStateGoodSubrule)=0 then
    match eval index ms ctx with
    | (ctx,true) => (ctx,true)
    | (ctx,false) => routeFinalizeMatch ms ctx
  else routeFinalizeMatch ms ctx

def routeLoopCb (eval : Nat → MatchSet → RouteCtx → CbResult)
    (index : Nat) (ctx : RouteCtx) : CbResult :=
  if index≥maxMatchSetLen then ctx.fail efault
  else if slot≥routingEpochSlotNum then ctx.fail efault
  else routeVisit eval index (m.routingMap (slot*maxMatchSetLen+index)) ctx

/-- `bpf_loop`: at most `n` calls of the callback from `index` on, up to the first that returns 1. -/
def bpfLoop (cb : Nat → RouteCtx → CbResult) : Nat → Nat → RouteCtx → RouteCtx
  | 0,_,ctx => ctx
  | n+1,index,ctx =>
    match cb index ctx with
    | (ctx,true) => ctx
    | (ctx,false) => bpfLoop cb n (index+1) ctx

def RouteCtx.start : RouteCtx := ⟨-enoexec,none,0⟩

def activeRulesLen : Nat :=
  if m.routingMetaMap slot ≤ maxMatchSetLen then m.routingMetaMap slot else maxMatchSetLen

def routingEpochSlotResultShift : Nat := 41

def route (args : RouteArgs) : Int :=
  let slot := m.activeRoutingEpochMap
  if slot≥routingEpochSlotNum then -efault
  else
    let ctx := bpfLoop (routeLoopCb m slot (routeEvalMatch m slot args))
      (activeRulesLen m slot) 0 RouteCtx.start
    if ctx.result≥0 then
      ((ctx.result.toNat ||| (slot+1) <<< routingEpochSlotResultShift : Nat) : Int)
    else -eperm

def decodeRoute (r : Int) : Option RouteResult :=
  if r<0 then none
  else
    let n := r.toNat
    some ⟨UInt8.ofNat (n &&& 0xff),UInt32.ofNat (n >>> 8),decide (n >>> 40 &&& 1≠0)⟩

end DaeRs.Bpf
