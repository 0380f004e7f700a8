import DaeRs.Lib.Chain

/-! The routing entries shared by the control plane and `tproxy.c`. -/

namespace DaeRs.Bpf

def maxMatchSetLen : Nat := 32*32

def routingEpochSlotNum : Nat := 2

def maxLpmNum : Nat := routingEpochSlotNum*maxMatchSetLen+8

namespace Outbound

def direct : UInt8 := 0x0
def block : UInt8 := 0x1
def mustRules : UInt8 := 0xFC
def controlPlaneRouting : UInt8 := 0xFD
def logicalOr : UInt8 := 0xFE
def logicalAnd : UInt8 := 0xFF
def logicalMask : UInt8 := 0xFE

end Outbound

def l4ProtoTcp : UInt8 := 1
def l4ProtoUdp : UInt8 := 2
def ipVersion4 : UInt8 := 1
def ipVersion6 : UInt8 := 2

abbrev Bytes16 := BitVec 128

structure PortRange where
  portStart : UInt16
  portEnd : UInt16
  deriving DecidableEq

/-- `enum MatchType` with the member of the `match_set` union that the type selects. -/
inductive MatchValue where
  | domainSet (index : UInt32)
  | ipSet (index : UInt32)
  | sourceIpSet (index : UInt32)
  | port (range : PortRange)
  | sourcePort (range : PortRange)
  | l4Proto (mask : UInt8)
  | ipVersion (mask : UInt8)
  | mac (index : UInt32)
  | processName (pname : Bytes16)
  | dscp (dscp : UInt8)
  | fallback
  | mustRules
  | upstream (name : Bytes16)
  | qtype (qtype : UInt32)
  deriving DecidableEq

/-- `struct match_set`, an entry of the rule array. -/
structure MatchSet where
  value : MatchValue
  not : Bool
  outbound : UInt8
  must : Bool
  mark : UInt32
  deriving DecidableEq

namespace MatchSet

def zeroed : MatchSet := ⟨.domainSet 0,false,0,false,0⟩

def link (ms : MatchSet) : Chain.Link :=
  if ms.outbound=Outbound.logicalOr then .or
  else if ms.outbound=Outbound.logicalAnd then .and
  else .stop

theorem link_eq_or (ms : MatchSet) : ms.link=.or ↔ ms.outbound=Outbound.logicalOr := by
  unfold link
  split_ifs <;> simp_all

theorem link_eq_stop (ms : MatchSet) :
    ms.link=.stop ↔ ms.outbound≠Outbound.logicalOr ∧ ms.outbound≠Outbound.logicalAnd := by
  unfold link
  split_ifs <;> simp_all

end MatchSet

theorem logicalMask_iff (x : UInt8) : x &&& Outbound.logicalMask=Outbound.logicalMask ↔
      x=Outbound.logicalOr ∨ x=Outbound.logicalAnd := by
  revert x
  have h : ∀ b : BitVec 8,UInt8.ofBitVec b &&& Outbound.logicalMask=Outbound.logicalMask ↔
      UInt8.ofBitVec b=Outbound.logicalOr ∨ UInt8.ofBitVec b=Outbound.logicalAnd := by
    decide
  exact fun x => h x.toBitVec

theorem MatchSet.link_stop_iff_mask (ms : MatchSet) :
    ms.link=.stop ↔ ms.outbound &&& Outbound.logicalMask≠Outbound.logicalMask := by
  rw [link_eq_stop,ne_eq (_ &&& _),logicalMask_iff,not_or]

/-- What `route` packs into its result. -/
structure RouteResult where
  outbound : UInt8
  mark : UInt32
  must : Bool
  deriving DecidableEq

end DaeRs.Bpf
