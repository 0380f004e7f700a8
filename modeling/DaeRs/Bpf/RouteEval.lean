import DaeRs.Bpf.RouteSpec

namespace DaeRs.Bpf

open Chain

variable (m : Maps)

def lpmEval (slot : Nat) (index : UInt32) (addr : Bytes16) : Except Int Bool :=
  if slot≥routingEpochSlotNum ∨ index.toNat≥maxMatchSetLen then .error efault
  else
    match m.lpmArrayMap (slot*maxMatchSetLen+index.toNat) with
    | none => .error efault
    | some lpm => .ok (lpm.lookup (hostKey addr))

def plainEval (args : RouteArgs) : MatchValue → Except Int Bool
  | .port r => .ok (decide (args.hDport≥r.portStart) && decide (args.hDport ≤ r.portEnd))
  | .sourcePort r => .ok (decide (args.hSport≥r.portStart) && decide (args.hSport ≤ r.portEnd))
  | .l4Proto mask => .ok (decide (args.l4protoType &&& mask≠0))
  | .ipVersion mask => .ok (decide (args.ipversionType &&& mask≠0))
  | .processName pname => .ok (args.isWan && decide (pname=args.pname))
  | .dscp dscp => .ok (decide (args.dscp=dscp))
  | .fallback => .ok true
  | _ => .error einval

def entryEval (slot : Nat) (args : RouteArgs) (index : Nat) (ms : MatchSet) :
    Except Int Bool :=
  match ms.value with
  | .mac i => lpmEval m slot i args.mac
  | .ipSet i => lpmEval m slot i args.daddr
  | .sourceIpSet i => lpmEval m slot i args.saddr
  | .domainSet _ =>
    if index≥maxMatchSetLen then .error efault
    else .ok ((domainBits m slot args.daddr (index >>> 5)).toNat.testBit (index%32))
  | v => plainEval args v

variable {slot : Nat}

def WordCached (slot : Nat) (daddr : Bytes16) (w : Option (Nat×UInt32)) : Prop :=
  ∀ idx bits,w=some (idx,bits) → bits=domainBits m slot daddr idx

theorem routeMatchLpm_eq (slot : Nat) (i : UInt32) (addr : Bytes16) (ctx : RouteCtx) :
    routeMatchLpm m slot i (hostKey addr) ctx =
      match lpmEval m slot i addr with
      | .ok hit => ctx.good hit
      | .error n => ctx.fail n := by
  unfold routeMatchLpm lpmEval
  split_ifs
  · rfl
  · cases m.lpmArrayMap (slot*maxMatchSetLen+i.toNat) <;> rfl

theorem routeMatchDomainSet_eq {m : Maps} {daddr : Bytes16} {ctx : RouteCtx}
    (hw : WordCached m slot daddr ctx.domainWord) {i : Nat} (hi : ¬i≥maxMatchSetLen) :
    routeMatchDomainSet m slot daddr i ctx =
      RouteCtx.good { ctx with domainWord := some (i >>> 5,domainBits m slot daddr (i >>> 5)) }
        ((domainBits m slot daddr (i >>> 5)).toNat.testBit (i%32)) := by
  have hbits : wordBits ctx.domainWord (i >>> 5) (domainBits m slot daddr (i >>> 5)) =
      domainBits m slot daddr (i >>> 5) := by
    rcases hd : ctx.domainWord with _ | ⟨idx,bits⟩
    · rfl
    · by_cases h : idx=i >>> 5
      · simp [wordBits,h,hw idx bits hd]
      · simp [wordBits,h]
  unfold routeMatchDomainSet
  simp only [if_neg hi,hbits]

theorem routeEvalMatch_follows (slot : Nat) (args : RouteArgs) :
    Follows (routeEvalMatch m slot args) (entryEval m slot args)
      (WordCached m slot args.daddr) := by
  intro i ms ctx hw
  have hkeep : WordCached m slot args.daddr ctx.domainWord := hw
  unfold routeEvalMatch entryEval
  cases ms.value with
  | mac k => exact ⟨_,hkeep,routeMatchLpm_eq m slot k args.mac ctx⟩
  | ipSet k => exact ⟨_,hkeep,routeMatchLpm_eq m slot k args.daddr ctx⟩
  | sourceIpSet k => exact ⟨_,hkeep,routeMatchLpm_eq m slot k args.saddr ctx⟩
  | domainSet k =>
    by_cases hi : i≥maxMatchSetLen
    · refine ⟨_,hkeep,?_⟩
      simp only [routeMatchDomainSet,if_pos hi]
    · refine ⟨some (i >>> 5,domainBits m slot args.daddr (i >>> 5)),?_,?_⟩
      · rintro idx bits ⟨⟩
        rfl
      · simp only [routeMatchDomainSet_eq hw hi,if_neg hi]
  | _ => exact ⟨_,hkeep,rfl⟩

theorem plainEval_error {args : RouteArgs} {v : MatchValue} {n : Int}
    (h : plainEval args v=.error n) : 0<n := by
  have hn : n=einval := by
    cases v <;> cases h <;> rfl
  rw [hn]
  decide

theorem entryEval_error {m : Maps} {args : RouteArgs} {i : Nat} {ms : MatchSet}
    {n : Int} (h : entryEval m slot args i ms=.error n) : 0<n := by
  have hlpm : ∀ k addr,lpmEval m slot k addr=.error n → 0<n := by
    intro k addr h
    unfold lpmEval at h
    split_ifs at h
    · cases h
      decide
    · split at h
      · cases h
        decide
      · cases h
  unfold entryEval at h
  split at h
  · exact hlpm _ _ h
  · exact hlpm _ _ h
  · exact hlpm _ _ h
  · split_ifs at h
    cases h
    decide
  · exact plainEval_error h

def arrayAction (eval : Nat → MatchSet → Except Int Bool) (entries : List MatchSet) :
    Option RouteResult :=
  let R := entryReader eval
  outcome (Reader.scan R.rule entryHit id false (R.rules entries.zipIdx))

theorem decode_run (slot : Nat) (args : RouteArgs) (entries : List MatchSet) :
    decodeRoute (walkResult ((entryReader (entryEval m slot args)).run entryHit
      ⟨false,false,false⟩ entries.zipIdx))=arrayAction (entryEval m slot args) entries := by
  rw [decode_walkResult,Reader.run_eq_scan]
  · rfl
  · intro n hn
    obtain ⟨e,-,he⟩ := Reader.run_error _ hn
    exact entryEval_error he

variable {entries : List MatchSet}

theorem arrayAction_congr {eval eval' : Nat → MatchSet → Except Int Bool}
    (h : ∀ e∈entries.zipIdx,eval e.2 e.1=eval' e.2 e.1) :
    arrayAction eval entries=arrayAction eval' entries := by
  have halike : List.Forall₂ (Reader.Alike (entryReader eval) (entryReader eval') entryHit
      entryHit) entries.zipIdx entries.zipIdx := by
    rw [List.forall₂_same]
    exact fun e he => ⟨rfl,rfl,h e he,fun _ => rfl⟩
  rw [arrayAction,arrayAction,← Reader.run_eq_scan,Reader.run_alike halike,Reader.run_eq_scan]

/-- The slot holds the entries, from its start. -/
structure Holds (m : Maps) (slot : Nat) (entries : List MatchSet) : Prop where
  active : m.activeRoutingEpochMap=slot
  slot_lt : slot < routingEpochSlotNum
  len : m.routingMetaMap slot=entries.length
  len_le : entries.length ≤ maxMatchSetLen
  entry : ∀ j (h : j<entries.length),m.routingMap (slot*maxMatchSetLen+j)=entries[j]

theorem bpfLoop_result {m : Maps} (h : Holds m slot entries) (args : RouteArgs) :
    (bpfLoop (routeLoopCb m slot (routeEvalMatch m slot args)) (activeRulesLen m slot) 0
        RouteCtx.start).result =
      walkResult ((entryReader (entryEval m slot args)).run entryHit ⟨false,false,false⟩
        entries.zipIdx) := by
  have hlen : activeRulesLen m slot=entries.length := by
    have hle : m.routingMetaMap slot ≤ maxMatchSetLen := h.len.trans_le h.len_le
    rw [activeRulesLen,if_pos hle,h.len]
  rw [hlen,bpfLoop_eq_routeWalk m slot h.slot_lt _ entries 0 _ (by have := h.len_le; omega)
    (by simpa using h.entry)]
  exact routeWalk_run (routeEvalMatch_follows m slot args) entries 0 RouteCtx.start
    ⟨false,false,false⟩ (by rintro _ _ ⟨⟩) rfl rfl

/-- `route` decides as the scan of the active slot's rules does. -/
theorem route_eq_arrayAction {m : Maps} (h : Holds m slot entries) (args : RouteArgs) :
    decodeRoute (route m args)=arrayAction (entryEval m slot args) entries := by
  have hslot := h.slot_lt
  have herr : ∀ n,(entryReader (entryEval m slot args)).run entryHit ⟨false,false,false⟩
      entries.zipIdx=.error n → 0<n := by
    intro n hn
    obtain ⟨e,-,he⟩ := Reader.run_error _ hn
    exact entryEval_error he
  rw [← decode_run,route,h.active,if_neg (by omega)]
  simp only [bpfLoop_result h]
  rcases hrun : (entryReader (entryEval m slot args)).run entryHit ⟨false,false,false⟩
    entries.zipIdx with n | b | r
  · have hneg : walkResult (.error n)<0 := by
      have := herr n hrun
      simp only [walkResult]
      omega
    have hge : ¬walkResult (.error n)≥0 := by omega
    rw [if_neg hge]
    simp [decodeRoute,hneg,eperm]
  · rfl
  · have hpack : packResult r.outbound r.mark r.must<2^41 := by
      have ho : r.outbound.toNat<2^8 := r.outbound.toNat_lt
      have hm : r.mark.toNat<2^32 := r.mark.toNat_lt
      have hb : r.must.toNat≤1 := by cases r.must <;> decide
      rw [packResult_eq]
      omega
    have hor : packResult r.outbound r.mark r.must ||| (slot+1) <<< routingEpochSlotResultShift =
        packResult r.outbound r.mark r.must+(slot+1)*2^41 := by
      rw [Nat.or_comm,routingEpochSlotResultShift,← Nat.shiftLeft_add_eq_or_of_lt hpack,
        Nat.shiftLeft_eq,Nat.add_comm]
    have h0 := decode_pack r.outbound r.mark r.must 0
    rw [Nat.zero_mul,Nat.add_zero] at h0
    rw [if_pos (by simp [walkResult])]
    simp only [walkResult,Int.toNat_natCast,hor,decode_pack,h0]

end DaeRs.Bpf
