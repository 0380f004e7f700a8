import DaeRs.Bpf.Route
import Mathlib.Tactic.NormNum

namespace DaeRs.Bpf

open Chain List

def stateOf (good bad must : Bool) : UInt8 :=
  (if bad then routeStateBadRule else 0) ||| (if good then routeStateGoodSubrule else 0) |||
    (if must then routeStateMust else 0)

variable (g : Bool) (b : Bool) (m : Bool)

theorem stateOf_skip :
    stateOf g b m &&& (routeStateBadRule ||| routeStateGoodSubrule)=0 ↔ (g || b)=false := by
  revert g b m
  decide

theorem stateOf_setGood : stateOf g b m ||| routeStateGoodSubrule=stateOf true b m := by
  revert g b m
  decide

theorem stateOf_setBad : stateOf g b m ||| routeStateBadRule=stateOf g true m := by
  revert g b m
  decide

theorem stateOf_setMust : stateOf g b m ||| routeStateMust=stateOf g b true := by
  revert g b m
  decide

theorem stateOf_clearGood : stateOf g b m &&& ~~~routeStateGoodSubrule=stateOf false b m := by
  revert g b m
  decide

theorem stateOf_clearBad : stateOf g b m &&& ~~~routeStateBadRule=stateOf g false m := by
  revert g b m
  decide

theorem stateOf_good : decide (stateOf g b m &&& routeStateGoodSubrule≠0)=g := by
  revert g b m
  decide

theorem stateOf_bad : stateOf g b m &&& routeStateBadRule=0 ↔ b=false := by
  revert g b m
  decide

theorem stateOf_must : decide (stateOf g b m &&& routeStateMust≠0)=m := by
  revert g b m
  decide

/-- What a holding rule's tail does: a `MUST_RULES` tail raises the must flag and the walk goes on,
any other tail is the decision. -/
def tailHit (must : Bool) (ms : MatchSet) : Bool ⊕ RouteResult :=
  if ms.outbound=Outbound.mustRules then .inl true
  else .inr ⟨ms.outbound,ms.mark,must || ms.must⟩

/-- The chain that an array is: its entries with their positions, and a test for each. -/
def entryReader (eval : Nat → MatchSet → Except Int Bool) : Reader (MatchSet×Nat) Int where
  link e := e.1.link
  neg e := e.1.not
  eval e := eval e.2 e.1

def entryHit (must : Bool) (e : MatchSet×Nat) : Bool ⊕ RouteResult := tailHit must e.1

theorem routeFinalizeMatch_flags (ms : MatchSet) (ctx : RouteCtx) (g b m : Bool)
    (hs : ctx.routeState=stateOf g b m) :
    let bad := b || g==ms.not
    routeFinalizeMatch ms ctx =
      match ms.link with
      | .or => (ctx,false)
      | .and => ({ ctx with routeState := stateOf false bad m },false)
      | .stop =>
        if bad then ({ ctx with routeState := stateOf false false m },false)
        else match tailHit m ms with
          | .inl m' => ({ ctx with routeState := stateOf false false m' },false)
          | .inr r => ({ ctx with routeState := stateOf false false m,
                                  result := packResult r.outbound r.mark r.must },true) := by
  intro bad
  have hclosed : (if decide (ctx.routeState &&& routeStateGoodSubrule≠0)=ms.not then
      ctx.routeState ||| routeStateBadRule else ctx.routeState) &&& ~~~routeStateGoodSubrule =
        stateOf false bad m := by
    rw [hs,stateOf_good]
    by_cases h : g=ms.not
    · rw [if_pos h,stateOf_setBad,stateOf_clearGood]
      simp [bad,h]
    · have hne : (g==ms.not)=false := by simpa using h
      rw [if_neg h,stateOf_clearGood]
      simp [bad,hne]
  unfold routeFinalizeMatch
  cases hk : ms.link with
  | or =>
    have hor := ms.link_eq_or.mp hk
    simp [hor,Outbound.logicalOr,Outbound.logicalMask]
  | and =>
    have hne : ms.outbound≠Outbound.logicalOr := by
      intro h
      rw [ms.link_eq_or.mpr h] at hk
      cases hk
    have hmask : ¬(ms.outbound &&& Outbound.logicalMask≠Outbound.logicalMask) := by
      rw [← ms.link_stop_iff_mask,hk]
      simp
    simp only [if_pos hne,if_neg hmask,hclosed]
  | stop =>
    have hne := (ms.link_eq_stop.mp hk).1
    have hmask := ms.link_stop_iff_mask.mp hk
    simp only [if_pos hne,if_pos hmask,hclosed,stateOf_bad,stateOf_must,stateOf_setMust,
      stateOf_clearBad,tailHit]
    cases bad with
    | true => simp
    | false =>
      by_cases hm : ms.outbound=Outbound.mustRules
      · simp [hm]
      · simp [hm]

/-- `eval` sets the good flag as `e` says, and otherwise only moves the cached word within `Inv`. -/
def Follows (eval : Nat → MatchSet → RouteCtx → CbResult) (e : Nat → MatchSet → Except Int Bool)
    (Inv : Option (Nat×UInt32) → Prop) : Prop :=
  ∀ i ms ctx,Inv ctx.domainWord → ∃ w,Inv w ∧ eval i ms ctx =
      match e i ms with
      | .ok hit => RouteCtx.good { ctx with domainWord := w } hit
      | .error n => RouteCtx.fail { ctx with domainWord := w } n

def CbAgrees (Inv : Option (Nat×UInt32) → Prop) (result : Int) (out : CbResult) :
    Except Int (Reader.Walk Bool ⊕ RouteResult) → Prop
  | .error n => out.2=true ∧ out.1.result=-n
  | .ok (.inr r) => out.2=true ∧ out.1.result=packResult r.outbound r.mark r.must
  | .ok (.inl w) => out.2=false ∧ out.1.result=result ∧ Inv out.1.domainWord ∧
      out.1.routeState=stateOf w.good w.bad w.acc

theorem routeVisit_agrees {eval : Nat → MatchSet → RouteCtx → CbResult}
    {e : Nat → MatchSet → Except Int Bool} {Inv : Option (Nat×UInt32) → Prop}
    (hf : Follows eval e Inv) (i : Nat) (ms : MatchSet) (ctx : RouteCtx) (w : Reader.Walk Bool)
    (hw : Inv ctx.domainWord) (hs : ctx.routeState=stateOf w.good w.bad w.acc) :
    CbAgrees Inv ctx.result (routeVisit eval i ms ctx)
      ((entryReader e).step entryHit w (ms,i)) := by
  have hfin : ∀ (c : RouteCtx) (good : Bool),c.result=ctx.result → Inv c.domainWord →
      c.routeState=stateOf good w.bad w.acc →
      (entryReader e).test w.good w.bad (ms,i)=.ok good →
      CbAgrees Inv ctx.result (routeFinalizeMatch ms c)
        ((entryReader e).step entryHit w (ms,i)) := by
    intro c good hres hinv hstate htest
    rw [routeFinalizeMatch_flags ms c good w.bad w.acc hstate]
    cases hk : ms.link with
    | or =>
      rw [Reader.step_or _ hk htest]
      exact ⟨rfl,hres,hinv,hstate⟩
    | and =>
      rw [Reader.step_and _ hk htest]
      exact ⟨rfl,hres,hinv,rfl⟩
    | stop =>
      rcases hbad : (w.bad || good==ms.not) with _ | _
      · rw [Reader.step_stop_hit _ hk htest hbad,entryHit]
        cases tailHit w.acc ms with
        | inl m => exact ⟨rfl,hres,hinv,rfl⟩
        | inr r => exact ⟨rfl,rfl⟩
      · rw [Reader.step_stop_bad _ hk htest hbad]
        exact ⟨rfl,hres,hinv,rfl⟩
  unfold routeVisit
  by_cases hskip : (w.good || w.bad)=false
  · rw [hs,if_pos ((stateOf_skip _ _ _).mpr hskip)]
    obtain ⟨word,hinv,heval⟩ := hf i ms ctx hw
    have hflags : w.good=false ∧ w.bad=false := by simpa using hskip
    have htest : (entryReader e).test w.good w.bad (ms,i)=e i ms := by
      simp [Reader.test,hskip,entryReader]
    cases hres : e i ms with
    | error n =>
      simp only [heval,hres,RouteCtx.fail,Reader.step,htest,Fallible.error_bind]
      exact ⟨rfl,rfl⟩
    | ok hit =>
      rw [heval]
      simp only [hres,RouteCtx.good]
      apply hfin _ hit
      · cases hit <;> rfl
      · cases hit <;> exact hinv
      · cases hit with
        | true => simp only [if_true,hs,stateOf_setGood]
        | false => simp only [Bool.false_eq_true,if_false,hs,hflags.1]
      · rw [htest,hres]
  · have hskip' : (w.good || w.bad)=true := eq_true_of_ne_false hskip
    rw [hs,if_neg (fun h => hskip ((stateOf_skip _ _ _).mp h))]
    apply hfin ctx w.good rfl hw hs
    simp [Reader.test,hskip',pure,Except.pure]

def routeWalk (eval : Nat → MatchSet → RouteCtx → CbResult) : Nat → List MatchSet → RouteCtx →
    RouteCtx
  | _,[],ctx => ctx
  | i,ms::rest,ctx =>
    match routeVisit eval i ms ctx with
    | (ctx,true) => ctx
    | (ctx,false) => routeWalk eval (i+1) rest ctx

def walkResult : Except Int (Bool ⊕ RouteResult) → Int
  | .error n => -n
  | .ok (.inl _) => -enoexec
  | .ok (.inr r) => packResult r.outbound r.mark r.must

theorem routeWalk_run {eval : Nat → MatchSet → RouteCtx → CbResult}
    {e : Nat → MatchSet → Except Int Bool} {Inv : Option (Nat×UInt32) → Prop}
    (hf : Follows eval e Inv) (l : List MatchSet) (i : Nat) (ctx : RouteCtx)
    (w : Reader.Walk Bool) (hw : Inv ctx.domainWord)
    (hs : ctx.routeState=stateOf w.good w.bad w.acc) (hr : ctx.result=-enoexec) :
    (routeWalk eval i l ctx).result =walkResult ((entryReader e).run entryHit w (l.zipIdx i)) := by
  induction l generalizing i ctx w with
  | nil => simpa [routeWalk,Reader.run,walkResult,pure,Except.pure] using hr
  | cons ms rest ih =>
    have hv := routeVisit_agrees hf i ms ctx w hw hs
    rw [routeWalk,zipIdx_cons,Reader.run]
    rcases hout : routeVisit eval i ms ctx with ⟨c,stop⟩
    rw [hout] at hv
    rcases hstep : (entryReader e).step entryHit w (ms,i) with n | w' | r
    · rw [hstep] at hv
      obtain ⟨rfl,hc⟩ := hv
      exact hc
    · rw [hstep] at hv
      obtain ⟨rfl,hres,hinv,hstate⟩ := hv
      exact ih (i+1) c w' hinv hstate (hres.trans hr)
    · rw [hstep] at hv
      obtain ⟨rfl,hc⟩ := hv
      exact hc

theorem packResult_eq (o : UInt8) (mark : UInt32) (must : Bool) :
    packResult o mark must=o.toNat+mark.toNat*2^8+must.toNat*2^40 := by
  have ho : o.toNat<2^8 := o.toNat_lt
  have hm : mark.toNat<2^32 := mark.toNat_lt
  have h1 : o.toNat ||| mark.toNat <<< 8=mark.toNat <<< 8+o.toNat := by
    rw [Nat.or_comm,Nat.shiftLeft_add_eq_or_of_lt ho]
  have hlt : mark.toNat <<< 8+o.toNat<2^40 := by
    rw [Nat.shiftLeft_eq]
    omega
  rw [packResult,h1,Nat.or_comm,← Nat.shiftLeft_add_eq_or_of_lt hlt,Nat.shiftLeft_eq,
    Nat.shiftLeft_eq]
  omega

theorem pack_fields (o : UInt8) (mark : UInt32) (must : Bool) {epoch n : Nat}
    (hn : packResult o mark must+epoch*2^41=n) : n &&& 0xff=o.toNat ∧
      (n >>> 8)%2^32=mark.toNat ∧ n >>> 40 &&& 1=must.toNat ∧ n >>> 41=epoch := by
  have ho : o.toNat<2^8 := o.toNat_lt
  have hm : mark.toNat<2^32 := mark.toNat_lt
  have hb : must.toNat≤1 := by cases must <;> decide
  rw [packResult_eq] at hn
  rw [show (0xff : Nat)=2^8-1 from rfl,Nat.and_two_pow_sub_one_eq_mod,Nat.and_one_is_mod]
  simp only [Nat.shiftRight_eq_div_pow]
  omega

theorem decode_pack (o : UInt8) (mark : UInt32) (must : Bool) (epoch : Nat) :
    decodeRoute ((packResult o mark must+epoch*2^41 : Nat) : Int)=some ⟨o,mark,must⟩ := by
  generalize hn : packResult o mark must+epoch*2^41=n
  obtain ⟨h1,h2,h3,-⟩ := pack_fields o mark must hn
  have h2' : UInt32.ofNat (n >>> 8)=mark := by
    apply UInt32.toNat_inj.mp
    simpa using h2
  have hneg : ¬((n : Int)<0) := by omega
  simp only [decodeRoute,if_neg hneg,Int.toNat_natCast,h1,h2',h3]
  cases must <;> simp

def holdingTails (holds : List (MatchSet×Nat) → Bool) (rules : List (List (MatchSet×Nat))) :
    List MatchSet :=
  (rules.filter holds).filterMap (fun r => r.getLast?.map Prod.fst)

def isMustRules (ms : MatchSet) : Bool := ms.outbound==Outbound.mustRules

def firstAction (tails : List MatchSet) : Option RouteResult :=
  match tails.dropWhile isMustRules with
  | [] => none
  | t::_ => some ⟨t.outbound,t.mark,t.must || !(tails.takeWhile isMustRules).isEmpty⟩

variable (truth : Nat → Bool)

def denote (entries : List MatchSet) : Option RouteResult :=
  let R := entryReader fun i _ => .ok (truth i)
  firstAction (holdingTails (R.ruleHolds fun e => truth e.2) (R.rules entries.zipIdx))

theorem tailHit_must {must : Bool} {ms : MatchSet} (h : isMustRules ms=true) :
    tailHit must ms=.inl true := by
  have h' : ms.outbound=Outbound.mustRules := by simpa [isMustRules] using h
  simp [tailHit,h']

theorem tailHit_action {must : Bool} {ms : MatchSet} (h : isMustRules ms=false) :
    tailHit must ms=.inr ⟨ms.outbound,ms.mark,must || ms.must⟩ := by
  have h' : ms.outbound≠Outbound.mustRules := by simpa [isMustRules] using h
  simp [tailHit,h']

def hitResult (must : Bool) (tails : List MatchSet) : Option RouteResult :=
  (firstAction tails).map fun r => { r with must := r.must || must }

theorem firstHit_tails (holds : List (MatchSet×Nat) → Bool)
    (rules : List (List (MatchSet×Nat))) (must : Bool) :
    (Reader.firstHit holds entryHit id must rules).getRight? =
      hitResult must (holdingTails holds rules) := by
  induction rules generalizing must with
  | nil => rfl
  | cons r rs ih =>
    rw [Reader.firstHit]
    cases hr : holds r with
    | false =>
      have hskip : holdingTails holds (r::rs)=holdingTails holds rs := by
        simp [holdingTails,hr]
      rw [hskip]
      exact ih must
    | true =>
      cases hl : r.getLast? with
      | none =>
        have hskip : holdingTails holds (r::rs)=holdingTails holds rs := by
          simp [holdingTails,hr,hl]
        rw [hskip]
        exact ih must
      | some t =>
        have hcons : holdingTails holds (r::rs)=t.1::holdingTails holds rs := by
          simp [holdingTails,hr,hl]
        simp only [hcons,entryHit]
        rcases ht : isMustRules t.1 with _ | _
        · simp [tailHit_action ht,hitResult,firstAction,ht,Bool.or_comm]
        · rw [tailHit_must ht]
          refine (ih true).trans ?_
          simp only [hitResult,firstAction,dropWhile_cons_of_pos ht,takeWhile_cons_of_pos ht]
          cases (holdingTails holds rs).dropWhile isMustRules <;> simp

def outcome : Except Int (Bool ⊕ RouteResult) → Option RouteResult
  | .ok (.inr r) => some r
  | _ => none

theorem decode_walkResult (out : Except Int (Bool ⊕ RouteResult))
    (herr : ∀ n,out=.error n → 0<n) : decodeRoute (walkResult out)=outcome out := by
  rcases out with n | m | r
  · have hn := herr n rfl
    have hneg : walkResult (.error n)<0 := by
      simp only [walkResult]
      omega
    simp [decodeRoute,hneg,outcome]
  · rfl
  · have := decode_pack r.outbound r.mark r.must 0
    simpa [walkResult,outcome] using this

theorem outcome_ok (s : Bool ⊕ RouteResult) : outcome (.ok s)=s.getRight? := by
  cases s <;> rfl

def truthEval : Nat → MatchSet → RouteCtx → CbResult := fun i _ ctx => ctx.good (truth i)

theorem truthEval_follows : Follows (truthEval truth) (fun i _ => .ok (truth i)) fun _ => True :=
  fun _ _ ctx _ => ⟨ctx.domainWord,trivial,rfl⟩

theorem routeWalk_truth (entries : List MatchSet) :
    decodeRoute (routeWalk (truthEval truth) 0 entries RouteCtx.start).result =
      denote truth entries := by
  have hwalk := routeWalk_run (truthEval_follows truth) entries 0 RouteCtx.start
    ⟨false,false,false⟩ trivial rfl rfl
  have hrun := Reader.run_ok (entryReader fun i _ => .ok (truth i)) (fun e => truth e.2) entryHit
    false (fun e (_ : e∈entries.zipIdx) => rfl)
  rw [hrun] at hwalk
  rw [hwalk,decode_walkResult _ (by simp)]
  simp only [outcome_ok,firstHit_tails,hitResult,denote,Bool.or_false]
  cases firstAction _ <;> rfl

theorem bpfLoop_eq_routeWalk (m : Maps) (slot : Nat) (hslot : slot < routingEpochSlotNum)
    (eval : Nat → MatchSet → RouteCtx → CbResult) (l : List MatchSet) (i : Nat) (ctx : RouteCtx)
    (hlen : i+l.length ≤ maxMatchSetLen)
    (hl : ∀ j (h : j<l.length),m.routingMap (slot*maxMatchSetLen+(i+j))=l[j]) :
    bpfLoop (routeLoopCb m slot eval) l.length i ctx=routeWalk eval i l ctx := by
  induction l generalizing i ctx with
  | nil => rfl
  | cons ms rest ih =>
    have hcb : routeLoopCb m slot eval i ctx=routeVisit eval i ms ctx := by
      have hi : ¬i≥maxMatchSetLen := by
        simp only [length_cons] at hlen
        omega
      have h0 := hl 0 (by simp)
      rw [routeLoopCb,if_neg hi,if_neg (by omega)]
      exact congrArg (fun e => routeVisit eval i e ctx) h0
    have hrest : ∀ j (h : j < rest.length),
        m.routingMap (slot*maxMatchSetLen+(i+1+j))=rest[j] := by
      intro j hj
      have := hl (j+1) (by simpa using hj)
      simpa [Nat.add_assoc,Nat.add_comm 1 j] using this
    have ih' := fun c => ih (i+1) c (by simp only [length_cons] at hlen; omega) hrest
    rw [length_cons,bpfLoop,routeWalk,hcb]
    rcases routeVisit eval i ms ctx with ⟨c,_ | _⟩
    · exact ih' c
    · rfl

/-- The kernel walk computes the denotational semantics: over an array of any length, and over the
slot of `routing_map` that holds the array. -/
theorem route_walk_denotes (truth : Nat → Bool) (entries : List MatchSet) :
    decodeRoute (routeWalk (truthEval truth) 0 entries RouteCtx.start).result =
        denote truth entries ∧
      ∀ (m : Maps) (slot : Nat),slot < routingEpochSlotNum → entries.length ≤ maxMatchSetLen →
        (∀ j (h : j<entries.length),m.routingMap (slot*maxMatchSetLen+j)=entries[j]) →
        decodeRoute (bpfLoop (routeLoopCb m slot (truthEval truth)) entries.length 0
          RouteCtx.start).result=denote truth entries := by
  refine ⟨routeWalk_truth truth entries,?_⟩
  intro m slot hslot hlen hmap
  rw [bpfLoop_eq_routeWalk m slot hslot _ entries 0 _ (by omega) (by simpa using hmap)]
  exact routeWalk_truth truth entries

theorem route_walk_denotes_and_rule :
    let entries : List MatchSet := [⟨.port ⟨443,443⟩,false,Outbound.logicalAnd,false,0⟩,
       ⟨.l4Proto 2,true,Outbound.block,false,7⟩,
       ⟨.fallback,false,Outbound.direct,false,0⟩]
    let m : Maps := ⟨fun k => entries.getD (k-1024) .zeroed,fun _ => 3,1,fun _ => none,
      fun _ => none⟩
    let truth : Nat → Bool := fun i => i != 1
    decodeRoute (bpfLoop (routeLoopCb m 1 (truthEval truth)) entries.length 0
      RouteCtx.start).result=some ⟨Outbound.block,7,false⟩ := by
  intro entries m truth
  exact ((route_walk_denotes truth entries).2 m 1 (by decide) (by decide) (by decide)).trans
    (by decide)

end DaeRs.Bpf
