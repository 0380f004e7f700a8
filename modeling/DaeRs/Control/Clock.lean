import Mathlib.Algebra.Order.Ring.Nat

/-! The kernel's clock and the one that user space reads. -/

namespace DaeRs.Control

/-- A moment on the machine's clocks: what `bpf_ktime_get_ns` returns, and when the machine was
booted by the wall clock, in nanoseconds from the epoch. -/
structure Moment where
  ktime : UInt64
  bootAt : Int
  deriving DecidableEq

namespace Moment

def sinceEpoch (t : Moment) : Int := t.bootAt+t.ktime.toNat

/-- `SystemTime::now().duration_since(UNIX_EPOCH).unwrap_or_default().as_nanos() as u64`. -/
def nowNs (t : Moment) : UInt64 :=
  if t.sinceEpoch<0 then 0 else UInt64.ofNat t.sinceEpoch.toNat

end Moment

def saturatingAge (nowNs lastSeenNs : UInt64) : Nat := nowNs.toNat-lastSeenNs.toNat

def kernelAge (t : Moment) (lastSeenNs : UInt64) : Nat := t.ktime.toNat-lastSeenNs.toNat

end DaeRs.Control
