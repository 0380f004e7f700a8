import DaeRs.Control.Compliance

/-! When the kernel reaches a decision on every packet. -/

namespace DaeRs.Control

open Chain Net RuleSet Bpf Routing Config List

def rejected : MatchValue → Bool
  | .mustRules | .upstream _ | .qtype _ => true
  | _ => false

def rejectedCond : Cond → Prop
  | .plain v => rejected v=true
  | _ => False

def trieless : Cond → Prop
  | .dip cidrs | .sip cidrs | .mac cidrs => cidrs=[]
  | _ => False

section Conditions

variable {env : Env} {cache : Option RuleSetCache} {f : Function} {kind : FunctionKind}

theorem condEval_ok {c : Cond} (hplain : ∀ v,c=.plain v → isPlain v=true)
    (hrej : ¬rejectedCond c) (htrie : ¬trieless c) (args : RouteArgs) :
    condEval args c=.ok (condTruth args c) := by
  cases c with
  | domain k => rfl
  | dip cidrs | sip cidrs | mac cidrs =>
    have hne : cidrs≠[] := htrie
    rw [condTruth,condEval,if_neg hne]
    rfl
  | plain v =>
    have hp := hplain v rfl
    cases v <;> first | rfl | exact absurd rfl hrej | cases hp

theorem groupConds_rejected {vs : List String} (hvs : vs≠[]) (k : Nat) :
    (∃ c∈groupConds env cache f vs k kind,rejectedCond c) ↔ kind=.qtype ∨ kind=.upstream := by
  cases kind with
  | mac =>
    simp only [groupConds]
    split_ifs <;> simp [rejectedCond]
  | upstream =>
    obtain ⟨v,vs,rfl⟩ := exists_cons_of_ne_nil hvs
    simp [groupConds,rejectedCond,rejected]
  | _ => simp [groupConds,rejectedCond,rejected]

theorem groupConds_trieless (vs : List String) (k : Nat) :
    (∃ c∈groupConds env cache f vs k kind,trieless c) ↔
      (kind=.dip ∨ kind=.sip) ∧ f.cidrs env cache=[] := by
  cases kind with
  | mac =>
    simp only [groupConds]
    split_ifs with hempty
    · simp
    · simpa [trieless] using hempty
  | _ => simp [groupConds,trieless]

end Conditions

def ruleChain (env : Env) (cache : Option RuleSetCache) (idMap : OutboundIdMap)
    (ips : List IpAddr) (program : NormalizedProgram) : List Item :=
  proxyItems ips++rulesItems env cache idMap program.rules 0

section Decision

variable {env : Env} {cache : Option RuleSetCache} {routing : RoutingConfig}
  {outbounds : OutboundsConfig} {ips : List IpAddr} {t : Compilation} {m m' : Maps} {slot : Nat}

theorem fallbackItem_link (fallback : Routing.Outbound) :
    (fallbackItem (buildOutboundIdMap outbounds) fallback).link=.stop := by
  have hterm : (fallbackItem (buildOutboundIdMap outbounds) fallback).outbound ≠
      Outbound.logicalOr ∧ (fallbackItem (buildOutboundIdMap outbounds) fallback).outbound ≠
        Outbound.logicalAnd := by
    cases hmap : buildOutboundIdMap outbounds fallback.name with
    | none =>
      simp only [fallbackItem,hmap]
      decide
    | some id =>
      simp only [fallbackItem,hmap]
      exact buildOutboundIdMap_terminal outbounds hmap
  exact link_stop rfl hterm

theorem isSome_continueWith {next : Bool → Bool ⊕ RouteResult} {r : Bool ⊕ RouteResult} {b : Bool}
    (hnext : ∀ s,(next s).getRight?.isSome=b) :
    (Reader.continueWith next r).getRight?.isSome=(r.getRight?.isSome || b) := by
  cases r with
  | inl s => exact hnext s
  | inr a => rfl

variable {idMap : OutboundIdMap} {program : NormalizedProgram}

/-- Without rejected types and missing tries, a packet is decided by a finished rule, or by the
fallback when the conditions left open before it hold. -/
theorem itemsAction_isSome {args : RouteArgs} (hid : idMap=buildOutboundIdMap outbounds)
    (hok : ∀ item∈programItems env cache idMap ips program,
      condEval args item.cond=.ok (itemTruth args item)) :
    (itemsAction args (programItems env cache idMap ips program)).isSome=true ↔
      (itemsAction args ((itemReader args).settled (ruleChain env cache idMap ips program))).isSome =
          true ∨
        ((fallbackItem idMap program.fallback).outbound≠Outbound.mustRules ∧
          (itemReader args).allClauses (itemTruth args)
            ((itemReader args).unfinished (ruleChain env cache idMap ips program) ++
              [fallbackItem idMap program.fallback])=true) := by
  subst hid
  have hread : ∀ items,(∀ item∈items,condEval args item.cond=.ok (itemTruth args item)) →
      itemsAction args items=(Reader.firstHit ((itemReader args).ruleHolds (itemTruth args))
        itemHit id false ((itemReader args).rules items)).getRight? := by
    intro items hitems
    rw [itemsAction,← Reader.run_eq_scan,
      (itemReader args).run_ok (itemTruth args) itemHit false hitems,outcome_ok]
  have hlink : (itemReader args).link
      (fallbackItem (buildOutboundIdMap outbounds) program.fallback)=.stop :=
    fallbackItem_link program.fallback
  have hchain : programItems env cache (buildOutboundIdMap outbounds) ips program =
      ruleChain env cache (buildOutboundIdMap outbounds) ips program ++
        [fallbackItem (buildOutboundIdMap outbounds) program.fallback] := rfl
  have hsettled : ∀ item∈(itemReader args).settled
      (ruleChain env cache (buildOutboundIdMap outbounds) ips program),
      condEval args item.cond=.ok (itemTruth args item) := by
    intro item hitem
    apply hok
    rw [hchain]
    have hkept := rdropWhile_prefix (fun a => (itemReader args).link a != .stop)
      (ruleChain env cache (buildOutboundIdMap outbounds) ips program)
    exact mem_append_left _ (hkept.subset hitem)
  rw [hread _ hok,hread _ hsettled,hchain,Reader.firstHit_stop _ _ _ _ hlink,
    isSome_continueWith (b := decide ((fallbackItem (buildOutboundIdMap outbounds)
      program.fallback).outbound≠Outbound.mustRules) && (itemReader args).allClauses
        (itemTruth args) ((itemReader args).unfinished (ruleChain env cache
          (buildOutboundIdMap outbounds) ips program) ++
            [fallbackItem (buildOutboundIdMap outbounds) program.fallback]))]
  · simp
  · intro s
    unfold itemHit
    split_ifs with hall hmust
    · simp [hmust]
    · simp [hmust,hall]
    · simp [hall]

theorem forall₂_exists_iff {α β : Type} {R : α → β → Prop} {P : α → Prop} {Q : β → Prop}
    {as : List α} {bs : List β} (h : List.Forall₂ R as bs) (hR : ∀ a b,R a b → (P a ↔ Q b)) :
    (∃ a∈as,P a) ↔ ∃ b∈bs,Q b := by
  constructor
  · rintro ⟨a,ha,hP⟩
    obtain ⟨b,hb,hab⟩ := forall₂_mem_right h.flip ha
    exact ⟨b,hb,(hR a b hab).mp hP⟩
  · rintro ⟨b,hb,hQ⟩
    obtain ⟨a,ha,hab⟩ := forall₂_mem_right h hb
    exact ⟨a,ha,(hR a b hab).mpr hQ⟩

theorem rejected_iff {tries : List (List IpNet)} {c : Cond} {v : MatchValue}
    (h : CondValue tries c v) : rejected v=true ↔ rejectedCond c := by
  cases c with
  | domain k =>
    have hv : v=.domainSet (UInt32.ofNat k) := h
    simp [hv,rejected,rejectedCond]
  | dip cidrs | sip cidrs | mac cidrs =>
    obtain ⟨i,rfl,-⟩ := h
    simp [rejected,rejectedCond]
  | plain w =>
    have hv : v=w := h
    rw [hv]
    rfl

theorem trie_missing_iff (hm : Fresh m slot) (hc : Compiled env cache routing outbounds ips t)
    (hw : Written m t.routing slot m') {c : Cond} {v : MatchValue}
    (h : CondValue t.routing.lpmTries c v) (hplain : ∀ w,c=.plain w → isPlain w=true) :
    (∃ i,lpmIndex v=some i ∧ m'.lpmArrayMap (slot*maxMatchSetLen+i.toNat)=none) ↔ trieless c := by
  have hlpm : ∀ {j : Nat} {cidrs : List IpNet},t.routing.lpmTries[j]?=some cidrs →
      (m'.lpmArrayMap (slot*maxMatchSetLen+(UInt32.ofNat j).toNat)=none ↔ cidrs=[]) := by
    intro j cidrs hj
    have hlt := (List.getElem?_eq_some_iff.mp hj).1
    have hbound : j < maxMatchSetLen := hlt.trans hc.tries_lt
    have hget : t.routing.lpmTries.getD j []=cidrs := by simp [hj]
    rw [hc.index_toNat hj,hw.lpm j hbound,hget,hm.lpm j hbound]
    split_ifs with hnil <;> simp [hnil]
  cases c with
  | domain k =>
    have hv : v=.domainSet (UInt32.ofNat k) := h
    simp [hv,lpmIndex,trieless]
  | dip cidrs | sip cidrs | mac cidrs =>
    obtain ⟨j,rfl,hj⟩ := h
    simp only [lpmIndex,Option.some.injEq,exists_eq_left',hlpm hj]
    rfl
  | plain w =>
    have hv : v=w := h
    have hp := hplain w rfl
    have hnone : lpmIndex w=none := by
      cases w <;> first | rfl | cases hp
    simp [hv,hnone,trieless]

theorem proxyItems_tried {item : Item} (h : item∈proxyItems ips) :
    ¬rejectedCond item.cond ∧ ¬trieless item.cond := by
  unfold proxyItems at h
  split_ifs at h with hne
  · cases h
  · simp only [mem_cons,not_mem_nil,or_false] at h
    rcases h with rfl | rfl
    · exact ⟨id,by simpa [trieless] using hne⟩
    · exact ⟨by simp [rejectedCond,rejected],id⟩

theorem no_rejected_iff :
    (∀ item∈programItems env cache idMap ips program,¬rejectedCond item.cond) ↔
      ∀ rule∈program.rules,∀ f∈rule.andFunctions,
        f.kind=some .qtype ∨ f.kind=some .upstream → f.groups=[] := by
  refine (no_item_iff (R := fun _ => True) (by simp [rejectedCond,rejected])
    (fun _ hitem => (proxyItems_tried hitem).1) fun f _ _ hvs k =>
      (groupConds_rejected (f.groups_nonempty hvs) k).trans (and_iff_left trivial).symm).trans ?_
  simp only [not_true_eq_false,ne_eq,imp_false,Decidable.not_not]

theorem no_trieless_iff : (∀ item∈programItems env cache idMap ips program,¬trieless item.cond) ↔
      ∀ rule∈program.rules,∀ f∈rule.andFunctions,
        f.kind=some .dip ∨ f.kind=some .sip → f.groups≠[] → f.cidrs env cache≠[] :=
  no_item_iff id (fun _ hitem => (proxyItems_tried hitem).2) fun _ _ vs _ k =>
    groupConds_trieless vs k

end Decision

/-- After a configuration is written to a fresh slot, no entry has a rejected type, no trie is
missing and every packet of a class gets a decision, exactly when no `qtype` or `upstream` function
has parameters, no `dip` or `sip` list is empty, and each packet that no finished rule decides
passes the conditions left open before a fallback that is not `MUST_RULES`. -/
theorem written_decides_iff {env : Env} {cache : Option RuleSetCache} {routing : RoutingConfig}
    {outbounds : OutboundsConfig} {ips : List IpAddr} {t : Compilation} {m m' : Maps} {slot : Nat}
    (h : compileTrace env cache routing outbounds ips=.ok t) (hm : Fresh m slot)
    (hw : writeCompiled t.routing slot m=.ok m') (packets : RouteArgs → Prop) :
    ((∀ ms∈t.routing.matchSets,rejected ms.value=false) ∧
      (∀ ms∈t.routing.matchSets,∀ i,lpmIndex ms.value=some i →
        m'.lpmArrayMap (slot*maxMatchSetLen+i.toNat)≠none) ∧
      ∀ args,packets args → (decodeRoute (route m' args)).isSome=true) ↔
    ((∀ rule∈t.program.rules,∀ f∈rule.andFunctions,
        f.kind=some .qtype ∨ f.kind=some .upstream → f.groups=[]) ∧
      (∀ rule∈t.program.rules,∀ f∈rule.andFunctions,
        f.kind=some .dip ∨ f.kind=some .sip → f.groups≠[] → f.cidrs env cache≠[]) ∧
      ∀ args,packets args → (itemsAction args ((itemReader args).settled (ruleChain env cache
          (buildOutboundIdMap outbounds) ips t.program))).isSome=true ∨
        ((fallbackItem (buildOutboundIdMap outbounds) t.program.fallback).outbound ≠
            Outbound.mustRules ∧
          (itemReader args).allClauses (itemTruth args)
            ((itemReader args).unfinished (ruleChain env cache (buildOutboundIdMap outbounds) ips
                t.program) ++
              [fallbackItem (buildOutboundIdMap outbounds) t.program.fallback])=true)) := by
  have hc := compileTrace_spec h
  have hwritten := writeCompiled_spec hw (by rw [hc.matchSets]; simp) hc.matchSets_le
  have hplain : ∀ item∈programItems env cache (buildOutboundIdMap outbounds) ips t.program,
      ∀ v,item.cond=.plain v → isPlain v=true :=
    fun item hitem v hv => programItems_plain hitem hv
  have hrep := (List.forall₂_and_left _ _).mpr ⟨hplain,hc.represent⟩
  have hrej : (∀ ms∈t.routing.matchSets,rejected ms.value=false) ↔
      ∀ item∈programItems env cache (buildOutboundIdMap outbounds) ips t.program,
        ¬rejectedCond item.cond := by
    have hiff := forall₂_exists_iff hrep fun item ms hr => (rejected_iff hr.2.value).symm
    simpa using (not_congr hiff).symm
  have htrie : (∀ ms∈t.routing.matchSets,∀ i,lpmIndex ms.value=some i →
        m'.lpmArrayMap (slot*maxMatchSetLen+i.toNat)≠none) ↔
      ∀ item∈programItems env cache (buildOutboundIdMap outbounds) ips t.program,
        ¬trieless item.cond := by
    have hiff := forall₂_exists_iff hrep fun item ms hr =>
      (trie_missing_iff hm hc hwritten hr.2.value hr.1).symm
    simpa using (not_congr hiff).symm
  rw [hrej,htrie,no_rejected_iff,no_trieless_iff]
  refine and_congr_right fun hno => and_congr_right fun hnonempty =>
    forall₂_congr fun args _ => ?_
  rw [route_written hm hc hw args]
  refine itemsAction_isSome rfl fun item hitem => ?_
  exact condEval_ok (hplain item hitem) (no_rejected_iff.mpr hno item hitem)
    (no_trieless_iff.mpr hnonempty item hitem) args

theorem allClauses_fallback (args : RouteArgs) (idMap : OutboundIdMap)
    (fallback : Routing.Outbound) :
    (itemReader args).allClauses (itemTruth args) [fallbackItem idMap fallback]=true := by
  rw [Reader.allClauses,Reader.clauses,cutAfter_singleton]
  rfl

theorem written_decides_address : ∃ t m',
    compileTrace Env.empty none ⟨[⟨"dip(1.2.3.4)", "block"⟩], "direct"⟩ ⟨[],[]⟩ []=.ok t ∧
    writeCompiled t.routing 0 loadedMaps=.ok m' ∧
    ∀ args,(decodeRoute (route m' args)).isSome=true := by
  have hrun : (compileTrace Env.empty none ⟨[⟨"dip(1.2.3.4)", "block"⟩], "direct"⟩ ⟨[],[]⟩
      []).toOption.map Compilation.program =
        some ⟨[⟨[⟨"dip",false,["1.2.3.4"]⟩],⟨"block",0,false⟩⟩],⟨"direct",0,false⟩⟩ := by
    decide +kernel
  obtain ⟨t,ht,hprogram⟩ := Fallible.exists_ok_of_map hrun
  obtain ⟨m',hw⟩ := writeCompiled_ok t.routing (by decide : 0 < routingEpochSlotNum) loadedMaps
  refine ⟨t,m',ht,hw,?_⟩
  have hlinks : (ruleChain Env.empty none (buildOutboundIdMap ⟨[],[]⟩) [] t.program).map
      Item.link=[.stop] := by
    rw [hprogram]
    decide +kernel
  obtain ⟨item,hchain,hlink⟩ := List.map_eq_singleton_iff.mp hlinks
  have hcidrs : Function.cidrs Env.empty none ⟨"dip",false,["1.2.3.4"]⟩≠[] := by
    decide +kernel
  intro args
  refine ((written_decides_iff ht (loadedMaps_fresh 0) hw fun _ => True).mpr
    ⟨?_,?_,fun args _ => .inr ⟨?_,?_⟩⟩).2.2 args trivial
  · rw [hprogram]
    decide +kernel
  · rw [hprogram]
    simp only [List.mem_singleton,forall_eq]
    exact fun _ _ => hcidrs
  · rw [hprogram]
    decide +kernel
  · have hopen : (itemReader args).unfinished [item]=[] := by
      simp [Reader.unfinished,itemReader,hlink,List.rtakeWhile]
    rw [hchain,hopen]
    exact allClauses_fallback args _ _

/-- Accepted configurations without a decision: a rejected type, a `MUST_RULES` fallback, a
condition joined to the fallback, and an address set without prefixes. -/
theorem written_undecided : (∀ routing∈([⟨[⟨"qtype(1)", "block"⟩], "direct"⟩,⟨[], "must"⟩,
        ⟨[⟨"l4proto(udp) && dport()", "block"⟩], "direct"⟩] : List RoutingConfig),
      ((compileTrace Env.empty none routing ⟨[],[]⟩ []).toOption.bind fun t =>
        (writeCompiled t.routing 0 loadedMaps).toOption.map fun m =>
          decodeRoute (route m httpsArgs))=some none) ∧
    ((compileTrace Env.empty (some ⟨fun _ => some [],fun _ => none⟩)
        ⟨[⟨"dip(set:empty)", "block"⟩], "direct"⟩ ⟨[],[]⟩ []).toOption.bind fun t =>
      (writeCompiled t.routing 0 loadedMaps).toOption.map fun m =>
        decodeRoute (route m httpsArgs))=some none := by
  decide +kernel

end DaeRs.Control
