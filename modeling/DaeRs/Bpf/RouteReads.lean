import DaeRs.Bpf.Route
import DaeRs.Lib.Interleave

/-! `route()` as the sequence of map accesses it makes. -/

namespace DaeRs.Bpf

open Interleave

/-- One element of a map that `route` looks up. An inner trie is filled before it is inserted and
never changed afterwards, so it is read as a whole. -/
inductive MapLoc where
  | activeEpoch
  | ruleCount (slot : Nat)
  | rule (key : Nat)
  | trie (key : Nat)
  | domain (slot : Nat) (ip : Bytes16)

def MapLoc.Val : MapLoc → Type
  | .activeEpoch => Nat
  | .ruleCount _ => Nat
  | .rule _ => MatchSet
  | .trie _ => Option LpmTrie
  | .domain _ _ => Option DomainRouting

def Maps.get (m : Maps) : (l : MapLoc) → l.Val
  | .activeEpoch => m.activeRoutingEpochMap
  | .ruleCount slot => m.routingMetaMap slot
  | .rule key => m.routingMap key
  | .trie key => m.lpmArrayMap key
  | .domain slot ip => m.domainRoutingMap (slot,ip)

def InSlot (slot : Nat) : MapLoc → Prop
  | .activeEpoch => False
  | .ruleCount s => s=slot
  | .rule key => key/maxMatchSetLen=slot
  | .trie key => key/maxMatchSetLen=slot
  | .domain s _ => s=slot

abbrev Walk := Reader MapLoc MapLoc.Val

namespace Walk

variable (slot : Nat)

def ruleCount : Walk Nat := .read (.ruleCount slot) .done
def rule (key : Nat) : Walk MatchSet := .read (.rule key) .done
def trie (key : Nat) : Walk (Option LpmTrie) := .read (.trie key) .done
def domain (ip : Bytes16) : Walk (Option DomainRouting) := .read (.domain slot ip) .done

def routeMatchLpm (index : UInt32) (key : LpmKey) (ctx : RouteCtx) :
    Walk CbResult :=
  if slot≥routingEpochSlotNum ∨ index.toNat≥maxMatchSetLen then pure (ctx.fail efault)
  else do
    match ← trie (slot*maxMatchSetLen+index.toNat) with
    | none => pure (ctx.fail efault)
    | some lpm => pure (ctx.good (lpm.lookup key))

def domainBits (daddr : Bytes16) (wordIdx : Nat) : Walk UInt32 := do
  match ← domain slot daddr with
  | some bitmap => pure (bitmap wordIdx)
  | none => pure 0

def wordBits (cached : Option (Nat×UInt32)) (wordIdx : Nat) (refresh : Walk UInt32) :
    Walk UInt32 :=
  match cached with
  | some (idx,bits) => if idx≠wordIdx then refresh else pure bits
  | none => refresh

def routeMatchDomainSet (daddr : Bytes16) (index : Nat) (ctx : RouteCtx) :
    Walk CbResult :=
  if index≥maxMatchSetLen then pure (ctx.fail efault)
  else do
    let wordIdx := index >>> 5
    let bits ← wordBits ctx.domainWord wordIdx (domainBits slot daddr wordIdx)
    pure ({ ctx with domainWord := some (wordIdx,bits) }.good (bits.toNat.testBit (index%32)))

def routeEvalMatch (args : RouteArgs) (index : Nat) (ms : MatchSet)
    (ctx : RouteCtx) : Walk CbResult :=
  match ms.value with
  | .mac i => routeMatchLpm slot i (hostKey args.mac) ctx
  | .ipSet i => routeMatchLpm slot i (hostKey args.daddr) ctx
  | .sourceIpSet i => routeMatchLpm slot i (hostKey args.saddr) ctx
  | .port r =>
    pure (ctx.good (decide (args.hDport≥r.portStart) && decide (args.hDport ≤ r.portEnd)))
  | .sourcePort r =>
    pure (ctx.good (decide (args.hSport≥r.portStart) && decide (args.hSport ≤ r.portEnd)))
  | .l4Proto mask => pure (ctx.good (decide (args.l4protoType &&& mask≠0)))
  | .ipVersion mask => pure (ctx.good (decide (args.ipversionType &&& mask≠0)))
  | .domainSet _ => routeMatchDomainSet slot args.daddr index ctx
  | .processName pname => pure (ctx.good (args.isWan && decide (pname=args.pname)))
  | .dscp dscp => pure (ctx.good (decide (args.dscp=dscp)))
  | .fallback => pure (ctx.good true)
  | .mustRules | .upstream _ | .qtype _ => pure (ctx.fail einval)

def routeVisit (eval : Nat → MatchSet → RouteCtx → Walk CbResult) (index : Nat) (ms : MatchSet)
    (ctx : RouteCtx) : Walk CbResult :=
  if ctx.routeState &&& (routeStateBadRule ||| routeStateGoodSubrule)=0 then do
    match ← eval index ms ctx with
    | (ctx,true) => pure (ctx,true)
    | (ctx,false) => pure (routeFinalizeMatch ms ctx)
  else pure (routeFinalizeMatch ms ctx)

def routeLoopCb (eval : Nat → MatchSet → RouteCtx → Walk CbResult) (index : Nat)
    (ctx : RouteCtx) : Walk CbResult :=
  if index≥maxMatchSetLen then pure (ctx.fail efault)
  else if slot≥routingEpochSlotNum then pure (ctx.fail efault)
  else do
    let ms ← rule (slot*maxMatchSetLen+index)
    routeVisit eval index ms ctx

def bpfLoop (cb : Nat → RouteCtx → Walk CbResult) : Nat → Nat → RouteCtx → Walk RouteCtx
  | 0,_,ctx => pure ctx
  | n+1,index,ctx => do
    match ← cb index ctx with
    | (ctx,true) => pure ctx
    | (ctx,false) => bpfLoop cb n (index+1) ctx

def activeRulesLen : Walk Nat := do
  let len ← ruleCount slot
  if len ≤ maxMatchSetLen then ruleCount slot else pure maxMatchSetLen

def inSlot (args : RouteArgs) (slot : Nat) : Walk Int :=
  if slot≥routingEpochSlotNum then pure (-efault)
  else do
    let len ← activeRulesLen slot
    let ctx ← bpfLoop (routeLoopCb slot (routeEvalMatch slot args)) len 0 RouteCtx.start
    pure (if ctx.result≥0 then
      ((ctx.result.toNat ||| (slot+1) <<< routingEpochSlotResultShift : Nat) : Int)
    else -eperm)

def route (args : RouteArgs) : Walk Int := .read .activeEpoch (inSlot args)

section Within

variable {slot : Nat}

theorem slotKey_div {index : Nat} (h : index < maxMatchSetLen) :
    (slot*maxMatchSetLen+index)/maxMatchSetLen=slot := by
  rw [Nat.mul_comm,Nat.mul_add_div (by decide),Nat.div_eq_of_lt h,Nat.add_zero]

theorem routeMatchLpm_within (index : UInt32) (key : LpmKey) (ctx : RouteCtx) :
    (routeMatchLpm slot index key ctx).Within (InSlot slot) := by
  unfold routeMatchLpm
  split_ifs with h
  · trivial
  · apply Reader.within_bind
    · exact ⟨slotKey_div (by omega),fun _ => trivial⟩
    · intro o
      cases o <;> trivial

theorem wordBits_within {P : MapLoc → Prop} {refresh : Walk UInt32} (h : refresh.Within P)
    (cached : Option (Nat×UInt32)) (wordIdx : Nat) :
    (wordBits cached wordIdx refresh).Within P := by
  unfold wordBits
  split
  · split_ifs
    · exact h
    · trivial
  · exact h

theorem routeMatchDomainSet_within (daddr : Bytes16) (index : Nat) (ctx : RouteCtx) :
    (routeMatchDomainSet slot daddr index ctx).Within (InSlot slot) := by
  have hbits : ∀ wordIdx,(domainBits slot daddr wordIdx).Within (InSlot slot) := by
    intro wordIdx
    apply Reader.within_bind
    · exact ⟨rfl,fun _ => trivial⟩
    · intro o
      cases o <;> trivial
  unfold routeMatchDomainSet
  split_ifs
  · trivial
  · apply Reader.within_bind (wordBits_within (hbits _) _ _)
    intro bits
    trivial

theorem routeEvalMatch_within (args : RouteArgs) (index : Nat) (ms : MatchSet) (ctx : RouteCtx) :
    (routeEvalMatch slot args index ms ctx).Within (InSlot slot) := by
  unfold routeEvalMatch
  cases ms.value with
  | mac i | ipSet i | sourceIpSet i => exact routeMatchLpm_within i _ ctx
  | domainSet k => exact routeMatchDomainSet_within _ index ctx
  | _ => trivial

theorem routeLoopCb_within (args : RouteArgs) (index : Nat) (ctx : RouteCtx) :
    (routeLoopCb slot (routeEvalMatch slot args) index ctx).Within (InSlot slot) := by
  unfold routeLoopCb
  split_ifs with hindex hslot
  · trivial
  · trivial
  · apply Reader.within_bind
    · exact ⟨slotKey_div (by omega),fun _ => trivial⟩
    · intro ms
      unfold routeVisit
      split_ifs
      · apply Reader.within_bind (routeEvalMatch_within args index ms ctx)
        rintro ⟨ctx',stop⟩
        cases stop <;> trivial
      · trivial

theorem bpfLoop_within {P : MapLoc → Prop} {cb : Nat → RouteCtx → Walk CbResult}
    (h : ∀ index ctx,(cb index ctx).Within P) (n index : Nat) (ctx : RouteCtx) :
    (bpfLoop cb n index ctx).Within P := by
  induction n generalizing index ctx with
  | zero => trivial
  | succ n ih =>
    apply Reader.within_bind (h index ctx)
    rintro ⟨ctx',stop⟩
    cases stop with
    | true => trivial
    | false => exact ih (index+1) ctx'

theorem inSlot_within (args : RouteArgs) (slot : Nat) :
    (inSlot args slot).Within (InSlot slot) := by
  unfold inSlot
  split_ifs
  · trivial
  · apply Reader.within_bind
    · have hcount : (ruleCount slot).Within (InSlot slot) := ⟨rfl,fun _ => trivial⟩
      apply Reader.within_bind hcount
      intro len
      split_ifs
      · exact hcount
      · trivial
    · intro len
      apply Reader.within_bind (bpfLoop_within (routeLoopCb_within args) len 0 _)
      intro ctx
      trivial

end Within

section Eval

variable (m : Maps) (slot : Nat) (args : RouteArgs)

theorem routeMatchLpm_eval (index : UInt32) (key : LpmKey) (ctx : RouteCtx) :
    (routeMatchLpm slot index key ctx).eval Maps.get m=Bpf.routeMatchLpm m slot index key ctx := by
  unfold routeMatchLpm Bpf.routeMatchLpm
  split_ifs
  · rfl
  · rw [Reader.eval_bind]
    show Reader.eval Maps.get m (match m.lpmArrayMap (slot*maxMatchSetLen+index.toNat) with
      | none => pure (ctx.fail efault)
      | some lpm => pure (ctx.good (lpm.lookup key)))=_
    cases m.lpmArrayMap (slot*maxMatchSetLen+index.toNat) <;> rfl

theorem wordBits_eval (cached : Option (Nat×UInt32)) (wordIdx : Nat) (refresh : Walk UInt32) :
    (wordBits cached wordIdx refresh).eval Maps.get m =
      Bpf.wordBits cached wordIdx (refresh.eval Maps.get m) := by
  cases cached with
  | none => rfl
  | some word =>
    by_cases h : word.1≠wordIdx
    · simp [wordBits,Bpf.wordBits,h]
    · simp [wordBits,Bpf.wordBits,not_not.mp h]

theorem domainBits_eval (daddr : Bytes16) (wordIdx : Nat) :
    (domainBits slot daddr wordIdx).eval Maps.get m=Bpf.domainBits m slot daddr wordIdx := by
  unfold domainBits Bpf.domainBits
  rw [Reader.eval_bind]
  show Reader.eval Maps.get m (match m.domainRoutingMap (slot,daddr) with
    | some bitmap => pure (bitmap wordIdx)
    | none => pure 0)=_
  cases m.domainRoutingMap (slot,daddr) <;> rfl

theorem routeMatchDomainSet_eval (daddr : Bytes16) (index : Nat) (ctx : RouteCtx) :
    (routeMatchDomainSet slot daddr index ctx).eval Maps.get m =
      Bpf.routeMatchDomainSet m slot daddr index ctx := by
  unfold routeMatchDomainSet Bpf.routeMatchDomainSet
  split_ifs
  · rfl
  · rw [Reader.eval_bind,wordBits_eval,domainBits_eval]
    rfl

theorem routeEvalMatch_eval (index : Nat) (ms : MatchSet) (ctx : RouteCtx) :
    (routeEvalMatch slot args index ms ctx).eval Maps.get m =
      Bpf.routeEvalMatch m slot args index ms ctx := by
  unfold routeEvalMatch Bpf.routeEvalMatch
  cases ms.value with
  | mac i | ipSet i | sourceIpSet i => exact routeMatchLpm_eval m slot i _ ctx
  | domainSet k => exact routeMatchDomainSet_eval m slot _ index ctx
  | _ => rfl

theorem routeLoopCb_eval (index : Nat) (ctx : RouteCtx) :
    (routeLoopCb slot (routeEvalMatch slot args) index ctx).eval Maps.get m =
      Bpf.routeLoopCb m slot (Bpf.routeEvalMatch m slot args) index ctx := by
  unfold routeLoopCb Bpf.routeLoopCb
  split_ifs
  · rfl
  · rfl
  · rw [Reader.eval_bind]
    show (routeVisit (routeEvalMatch slot args) index
      (m.routingMap (slot*maxMatchSetLen+index)) ctx).eval Maps.get m=_
    unfold routeVisit Bpf.routeVisit
    split_ifs
    · rw [Reader.eval_bind,routeEvalMatch_eval]
      rcases Bpf.routeEvalMatch m slot args index _ ctx with ⟨ctx',stop⟩
      cases stop <;> rfl
    · rfl

theorem bpfLoop_eval {cb : Nat → RouteCtx → Walk CbResult} {cb' : Nat → RouteCtx → CbResult}
    (h : ∀ index ctx,(cb index ctx).eval Maps.get m=cb' index ctx) (n index : Nat)
    (ctx : RouteCtx) : (bpfLoop cb n index ctx).eval Maps.get m=Bpf.bpfLoop cb' n index ctx := by
  induction n generalizing index ctx with
  | zero => rfl
  | succ n ih =>
    rw [bpfLoop,Bpf.bpfLoop,Reader.eval_bind,h]
    rcases cb' index ctx with ⟨ctx',stop⟩
    cases stop with
    | true => rfl
    | false => exact ih (index+1) ctx'

/-- On maps that nobody writes to the accesses add up to `route`. -/
theorem route_eval : (route args).eval Maps.get m=Bpf.route m args := by
  have hlen : (activeRulesLen m.activeRoutingEpochMap).eval Maps.get m =
      Bpf.activeRulesLen m m.activeRoutingEpochMap := by
    unfold activeRulesLen Bpf.activeRulesLen
    rw [Reader.eval_bind]
    show Reader.eval Maps.get m (if m.routingMetaMap m.activeRoutingEpochMap ≤ maxMatchSetLen then
      ruleCount m.activeRoutingEpochMap else pure maxMatchSetLen)=_
    split_ifs <;> rfl
  show (inSlot args m.activeRoutingEpochMap).eval Maps.get m=_
  unfold inSlot Bpf.route
  by_cases hslot : m.activeRoutingEpochMap≥routingEpochSlotNum
  · rw [if_pos hslot,if_pos hslot]
    rfl
  · rw [if_neg hslot,if_neg hslot,Reader.eval_bind,hlen,Reader.eval_bind,
      bpfLoop_eval m (routeLoopCb_eval m m.activeRoutingEpochMap args)]
    rfl

end Eval

end Walk

end DaeRs.Bpf
