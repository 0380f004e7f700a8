import DaeRs.Datapath.Hooks

/-! The 64 bits of the result of `route`: what is packed into them, and what the programs unpack.
`>>` keeps the sign of a `__s64`. -/

namespace DaeRs.Datapath

open Bpf

/-- The result of `route_finalize_match`. -/
def packMatch (outbound : UInt8) (mark : UInt32) (must : Bool) : BitVec 64 :=
  outbound.toBitVec.setWidth 64 ||| mark.toBitVec.setWidth 64 <<< 8 |||
    (BitVec.ofBool must).setWidth 64 <<< 40

def routingEpochSlotEncode (slot : UInt32) : UInt8 :=
  if slot.toNat≥routingEpochSlotNum then 0 else (slot+1).toUInt8

/-- The result of `route`, for a result of `route_finalize_match`. -/
def packRoute (result : BitVec 64) (slot : UInt32) : BitVec 64 :=
  result ||| (routingEpochSlotEncode slot).toBitVec.setWidth 64 <<< routingEpochSlotResultShift

section Unpack

variable (r : BitVec 64)

def unpackOutbound : UInt8 := ⟨(r &&& 0xff).setWidth 8⟩
def unpackMark : UInt32 := ⟨(r.sshiftRight 8).setWidth 32⟩
def unpackMust : BitVec 64 := r.sshiftRight 40 &&& 1

def unpackSlot : UInt8 :=
  routingEpochSlotSanitize ⟨(r >>> routingEpochSlotResultShift &&& 3).setWidth 8⟩

/-- `do_tproxy_lan_ingress`: `must` is a byte. -/
def unpackLanIngress : UInt8×UInt32×UInt8×UInt8 :=
  (unpackOutbound r,unpackMark r,⟨(unpackMust r).setWidth 8⟩,unpackSlot r)

/-- In `do_tproxy_wan_egress_tcp` and `do_tproxy_wan_egress_udp`, `must` is a `bool`. -/
def unpackWanEgressTcp : UInt8×UInt32×Bool×UInt8 :=
  (unpackOutbound r,unpackMark r,decide (unpackMust r≠0),unpackSlot r)

def unpackWanEgressUdp : UInt8×UInt32×Bool×UInt8 :=
  (unpackOutbound r,unpackMark r,decide (unpackMust r≠0),unpackSlot r)

end Unpack

theorem toNat_field {w : Nat} (x : BitVec w) {k : Nat} (h : w+k≤64) :
    (x.setWidth 64 <<< k).toNat=x.toNat <<< k := by
  have hlt : x.toNat*2^k<2^64 := by
    calc x.toNat*2^k < 2^w*2^k := Nat.mul_lt_mul_of_pos_right x.isLt (Nat.two_pow_pos k)
      _ = 2^(w+k) := (Nat.pow_add ..).symm
      _ ≤ 2^64 := Nat.pow_le_pow_right (by decide) h
  have hx : x.toNat%2^64=x.toNat :=
    Nat.mod_eq_of_lt (x.isLt.trans_le (Nat.pow_le_pow_right (by decide) (by omega)))
  rw [BitVec.toNat_shiftLeft,BitVec.toNat_setWidth,hx,Nat.shiftLeft_eq,Nat.mod_eq_of_lt hlt]

variable (outbound : UInt8) (mark : UInt32) (must : Bool) {slot : UInt32}

theorem toNat_packMatch : (packMatch outbound mark must).toNat=packResult outbound mark must := by
  have ho := toNat_field outbound.toBitVec (k := 0) (by decide)
  rw [packMatch,BitVec.toNat_or,BitVec.toNat_or,toNat_field _ (by decide),toNat_field _ (by decide)]
  rw [BitVec.shiftLeft_zero] at ho
  rw [ho]
  cases must <;> rfl

theorem routingEpochSlotEncode_of_lt (hslot : slot.toNat<routingEpochSlotNum) :
    (routingEpochSlotEncode slot).toNat=slot.toNat+1 := by
  have htwo : slot.toNat<2 := hslot
  rw [routingEpochSlotEncode,if_neg (Nat.not_le.2 hslot),UInt32.toNat_toUInt8,UInt32.toNat_add]
  change (slot.toNat+1)%2^32%2^8=_
  omega

theorem toNat_packRoute (hslot : slot.toNat<routingEpochSlotNum) :
    (packRoute (packMatch outbound mark must) slot).toNat =
      packResult outbound mark must+(slot.toNat+1)*2^41 := by
  have hlt : packResult outbound mark must<2^41 := by
    have ho : outbound.toNat<2^8 := outbound.toNat_lt
    have hm : mark.toNat<2^32 := mark.toNat_lt
    have hb : must.toNat≤1 := by cases must <;> decide
    rw [packResult_eq]
    omega
  rw [packRoute,BitVec.toNat_or,toNat_packMatch,toNat_field _ (by decide),UInt8.toNat_toBitVec,
    routingEpochSlotEncode_of_lt hslot,Nat.or_comm,routingEpochSlotResultShift,
    ← Nat.shiftLeft_add_eq_or_of_lt hlt,Nat.shiftLeft_eq,Nat.add_comm]

/-- Every program gets back what was packed, the slot as its encoding, and a decision is no error. -/
theorem route_result_unpacked (hslot : slot.toNat<routingEpochSlotNum) :
    let r := packRoute (packMatch outbound mark must) slot
    0≤r.toInt ∧ unpackLanIngress r=(outbound,mark,must.toUInt8,slot.toUInt8+1) ∧
      unpackWanEgressTcp r=(outbound,mark,must,slot.toUInt8+1) ∧
      unpackWanEgressUdp r=(outbound,mark,must,slot.toUInt8+1) ∧
      decodeRoute r.toInt=some ⟨outbound,mark,must⟩ := by
  intro r
  have htwo : slot.toNat<2 := hslot
  have hr := toNat_packRoute outbound mark must hslot
  obtain ⟨h1,h2,h3,h4⟩ := pack_fields outbound mark must hr.symm
  have hsmall : 2*r.toNat<2^64 := by
    rw [Nat.shiftRight_eq_div_pow] at h4
    change r.toNat/2^41=_ at h4
    omega
  have hint : r.toInt=r.toNat := BitVec.toInt_eq_toNat_of_lt hsmall
  have hshift (k : Nat) : (r.sshiftRight k).toNat=r.toNat >>> k := by
    rw [BitVec.sshiftRight_eq_of_msb_false (BitVec.msb_eq_false_iff_two_mul_lt.2 hsmall),
      BitVec.toNat_ushiftRight]
  have hout : unpackOutbound r=outbound := by
    apply UInt8.toNat_inj.1
    change ((r &&& 0xff).setWidth 8).toNat=_
    rw [BitVec.toNat_setWidth,BitVec.toNat_and]
    exact (congrArg (· %2^8) h1).trans (Nat.mod_eq_of_lt outbound.toNat_lt)
  have hmark : unpackMark r=mark := by
    apply UInt32.toNat_inj.1
    change ((r.sshiftRight 8).setWidth 32).toNat=_
    rw [BitVec.toNat_setWidth,hshift]
    exact h2
  have hmust : unpackMust r=must.toNat := by
    apply BitVec.eq_of_toNat_eq
    rw [unpackMust,BitVec.toNat_and,hshift]
    refine h3.trans ?_
    cases must <;> rfl
  have hslot' : unpackSlot r=slot.toUInt8+1 := by
    have hbits : r >>> routingEpochSlotResultShift=BitVec.ofNat 64 (slot.toNat+1) := by
      apply BitVec.eq_of_toNat_eq
      rw [BitVec.toNat_ushiftRight,BitVec.toNat_ofNat,Nat.mod_eq_of_lt (by omega)]
      exact h4
    have hcases : slot=0 ∨ slot=1 := by
      simp only [← UInt32.toNat_inj]
      change slot.toNat=0 ∨ slot.toNat=1
      omega
    rw [unpackSlot,hbits]
    rcases hcases with rfl | rfl <;> rfl
  have hwan : unpackWanEgressTcp r=(outbound,mark,must,slot.toUInt8+1) := by
    rw [unpackWanEgressTcp,hout,hmark,hmust,hslot']
    cases must <;> rfl
  refine ⟨by omega,?_,hwan,hwan,?_⟩
  · rw [unpackLanIngress,hout,hmark,hmust,hslot']
    cases must <;> rfl
  · rw [hint,hr]
    exact decode_pack _ _ _ _

theorem route_result_unpacked_full :
    unpackWanEgressTcp (packRoute (packMatch 255 0xffffffff true) 1)=(255,0xffffffff,true,2) :=
  (route_result_unpacked 255 0xffffffff true (by decide)).2.2.1

end DaeRs.Datapath
