import DaeRs.Routing.Layout
import DaeRs.Control.Ebpf

/-! The kernel's decision on a configuration that the control plane has written. -/

namespace DaeRs.Control

open Chain Net RuleSet Bpf Routing Config List

/-- The slot has no tries and no domain entries. -/
structure Fresh (m : Maps) (slot : Nat) : Prop where
  lpm : ∀ i < maxMatchSetLen,m.lpmArrayMap (slot*maxMatchSetLen+i)=none
  domain : ∀ ip,m.domainRoutingMap (slot,ip)=none

theorem loadedMaps_fresh (slot : Nat) : Fresh loadedMaps slot := ⟨fun _ _ => rfl,fun _ => rfl⟩

variable {env : Env} {cache : Option RuleSetCache} {routing : RoutingConfig}
  {outbounds : OutboundsConfig} {ips : List IpAddr} {t : Compilation}
  {m m' : Maps} {slot : Nat}

theorem lpmEval_written (hm : Fresh m slot) (hw : Written m t.routing slot m')
    (hc : Compiled env cache routing outbounds ips t) {i : Nat} {cidrs : List IpNet}
    (hi : t.routing.lpmTries[i]?=some cidrs) (addr : Bytes16) :
    lpmEval m' slot (UInt32.ofNat i) addr =
      if cidrs=[] then .error efault else .ok (cidrs.any (·.covers addr)) := by
  have hlt := (List.getElem?_eq_some_iff.mp hi).1
  have hidx : (UInt32.ofNat i).toNat=i := hc.index_toNat hi
  have hbound : i < maxMatchSetLen := hlt.trans hc.tries_lt
  have hslot := hw.holds.slot_lt
  have hget : t.routing.lpmTries.getD i []=cidrs := by simp [hi]
  rw [lpmEval,hidx,if_neg (by omega),hw.lpm i hbound,hget,hm.lpm i hbound]
  split_ifs with hnil
  · rfl
  · have hlookup : (lpmTrie cidrs).lookup (hostKey addr)=cidrs.any (·.covers addr) := by
      rw [Bool.eq_iff_iff,lpmTrie_lookup,any_eq_true]
    rw [← hlookup]

theorem entryEval_written (hm : Fresh m slot) (hw : Written m t.routing slot m')
    (hc : Compiled env cache routing outbounds ips t) (args : RouteArgs) {item : Item}
    {ms : MatchSet} (h : Represents t.routing.lpmTries item ms)
    (hplain : ∀ v,item.cond=.plain v → isPlain v=true) {i : Nat} (hi : i < maxMatchSetLen) :
    entryEval m' slot args i ms=condEval args item.cond := by
  have hv := h.value
  cases hcond : item.cond with
  | domain k =>
    rw [hcond] at hv
    have hbits : domainBits m' slot args.daddr (i >>> 5)=0 := by
      rw [domainBits,hw.domain,hm.domain]
    have hval : ms.value=.domainSet (UInt32.ofNat k) := hv
    rw [entryEval,hval,condEval]
    simp [Nat.not_le.mpr hi,hbits]
  | dip cidrs =>
    rw [hcond] at hv
    obtain ⟨j,hval,hj⟩ := hv
    rw [entryEval,hval,condEval]
    exact lpmEval_written hm hw hc hj args.daddr
  | sip cidrs =>
    rw [hcond] at hv
    obtain ⟨j,hval,hj⟩ := hv
    rw [entryEval,hval,condEval]
    exact lpmEval_written hm hw hc hj args.saddr
  | mac cidrs =>
    rw [hcond] at hv
    obtain ⟨j,hval,hj⟩ := hv
    rw [entryEval,hval,condEval]
    exact lpmEval_written hm hw hc hj args.mac
  | plain v =>
    rw [hcond] at hv
    have hval : ms.value=v := hv
    have hp := hplain v hcond
    rw [entryEval,hval,condEval]
    cases v <;> first | rfl | cases hp

theorem route_written (hm : Fresh m slot) (hc : Compiled env cache routing outbounds ips t)
    (hw : writeCompiled t.routing slot m=.ok m') (args : RouteArgs) :
    decodeRoute (route m' args) =
      itemsAction args (programItems env cache (buildOutboundIdMap outbounds) ips t.program) := by
  have hne : t.routing.matchSets≠[] := by
    rw [hc.matchSets]
    simp
  have hwritten := writeCompiled_spec hw hne hc.matchSets_le
  have hplain : ∀ item∈programItems env cache (buildOutboundIdMap outbounds) ips t.program,
      ∀ v,item.cond=.plain v → isPlain v=true :=
    fun item hitem v hv => programItems_plain hitem hv
  have hpos : ∀ e∈t.routing.matchSets.zipIdx,e.2 < maxMatchSetLen := fun e he =>
    lt_of_lt_of_le (by simpa using snd_lt_add_of_mem_zipIdx he) hc.matchSets_le
  have hrep := hc.represent
  rw [← zipIdx_map_fst 0 t.routing.matchSets,forall₂_map_right_iff] at hrep
  have halike : List.Forall₂ (Reader.Alike (itemReader args)
      (entryReader (entryEval m' slot args)) itemHit entryHit)
      (programItems env cache (buildOutboundIdMap outbounds) ips t.program)
      t.routing.matchSets.zipIdx := by
    have hboth := ((forall₂_and_left _ _).mpr ⟨hpos,
      ((forall₂_and_left _ _).mpr ⟨hplain,hrep⟩).flip⟩).flip
    refine hboth.imp fun item e h => ?_
    obtain ⟨hi,hp,hr⟩ := h
    refine ⟨?_,hr.not.symm,(entryEval_written hm hwritten hc args hr hp hi).symm,fun s => ?_⟩
    · simp only [itemReader,entryReader,Item.link,MatchSet.link,hr.outbound]
    · simp only [itemHit,entryHit,tailHit,hr.outbound,hr.mark,hr.must]
  rw [route_eq_arrayAction hwritten.holds,arrayAction,← Reader.run_eq_scan,
    ← Reader.run_alike halike,Reader.run_eq_scan,itemsAction]

end DaeRs.Control
