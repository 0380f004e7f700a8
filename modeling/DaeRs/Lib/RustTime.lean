import Mathlib.Algebra.Order.Ring.Nat
import Mathlib.Algebra.Order.Ring.Int
import Mathlib.Order.Bounds.Basic

/-! The durations, instants and dates that Rust programs compute with, all in nanoseconds, and the
points of a period. A computation that panics gives `none`. -/

namespace RustTime

structure Duration where
  nanos : Nat
  lt : nanos<2^64*10^9
  deriving DecidableEq

namespace Duration

theorem max_lt : 2^64*10^9-1<2^64*10^9 := by omega

theorem fromSecs_lt (secs : UInt64) : secs.toNat*10^9<2^64*10^9 := by
  have hlt := secs.toNat_lt
  omega

def max : Duration := ⟨2^64*10^9-1,max_lt⟩

def fromSecs (secs : UInt64) : Duration := ⟨secs.toNat*10^9,fromSecs_lt secs⟩

def isZero (d : Duration) : Bool := d.nanos==0

def saturatingMul (d : Duration) (k : UInt32) : Duration :=
  if h : d.nanos*k.toNat<2^64*10^9 then ⟨d.nanos*k.toNat,h⟩ else max

theorem saturatingMul_nanos (d : Duration) (k : UInt32) : (d.saturatingMul k).nanos =
      if d.nanos*k.toNat<2^64*10^9 then d.nanos*k.toNat else 2^64*10^9-1 := by
  unfold saturatingMul
  split_ifs <;> rfl

end Duration

structure Instant where
  nanos : Int
  ge : -((2^63*10^9 : Nat) : Int)≤nanos
  lt : nanos<((2^63*10^9 : Nat) : Int)
  deriving DecidableEq

namespace Instant

theorem ext_nanos {t u : Instant} (h : t.nanos=u.nanos) : t=u := by
  cases t
  cases u
  cases h
  rfl

theorem add_ge (t : Instant) (d : Duration) : -((2^63*10^9 : Nat) : Int)≤t.nanos+d.nanos := by
  have hge := t.ge
  omega

theorem since_lt (now earlier : Instant) : (now.nanos-earlier.nanos).toNat<2^64*10^9 := by
  have hnow := now.lt
  have hearlier := earlier.ge
  omega

/-- `+`, which panics if the sum is no instant. -/
def add (t : Instant) (d : Duration) : Option Instant :=
  if h : t.nanos+d.nanos<((2^63*10^9 : Nat) : Int) then
    some ⟨t.nanos+d.nanos,t.add_ge d,h⟩
  else none

def saturatingDurationSince (now earlier : Instant) : Duration :=
  ⟨(now.nanos-earlier.nanos).toNat,now.since_lt earlier⟩

theorem add_eq_some_iff {t r : Instant} {d : Duration} :
    t.add d=some r ↔ r.nanos=t.nanos+d.nanos := by
  unfold add
  split_ifs with h
  · constructor
    · intro heq
      rw [← Option.some.inj heq]
    · intro hr
      exact congrArg some (ext_nanos hr.symm)
  · constructor
    · intro heq
      nomatch heq
    · intro hr
      have hlt := r.lt
      omega

theorem exists_add_iff {t : Instant} {d : Duration} {x : Int} : (∃ r,t.add d=some r ∧ r.nanos=x) ↔
      x=t.nanos+d.nanos ∧ x<((2^63*10^9 : Nat) : Int) := by
  constructor
  · intro h
    obtain ⟨r,hr,rfl⟩ := h
    exact ⟨add_eq_some_iff.1 hr,r.lt⟩
  · intro h
    obtain ⟨rfl,hlt⟩ := h
    exact ⟨⟨_,t.add_ge d,hlt⟩,add_eq_some_iff.2 rfl,rfl⟩

end Instant

/-- `DateTime` of `chrono`, counted from the epoch. -/
structure DateTime where
  nanos : Int
  ge : -((8334601228800*10^9 : Nat) : Int)≤nanos
  lt : nanos<((8210266876800*10^9 : Nat) : Int)
  deriving DecidableEq

namespace DateTime

theorem until_lt (t now : DateTime) : (t.nanos-now.nanos).toNat<2^64*10^9 := by
  have ht := t.lt
  have hnow := now.ge
  omega

def ofNanos (n : Int) : Option DateTime :=
  if h : -((8334601228800*10^9 : Nat) : Int)≤n ∧ n<((8210266876800*10^9 : Nat) : Int) then
    some ⟨n,h.1,h.2⟩
  else none

def stdUntil (t now : DateTime) : Duration := ⟨(t.nanos-now.nanos).toNat,t.until_lt now⟩

end DateTime

def periodPoints (base : Int) (period : Nat) (now : Int) : Set Int :=
  {t | ∃ k : Nat,1≤k ∧ t=base+(k*period : Nat) ∧ now<t}

def periodSteps (base : Int) (period : Nat) (now : Int) : Nat := (now-base).toNat/period+1

theorem isLeast_periodPoints {base now : Int} {period : Nat} (hpos : 0<period) (hle : base≤now) :
    IsLeast (periodPoints base period now)
      (base+(periodSteps base period now*period : Nat)) := by
  have hdiv := Nat.div_add_mod (now-base).toNat period
  have hmod := Nat.mod_lt (now-base).toNat hpos
  have hsteps : periodSteps base period now*period =period*((now-base).toNat/period)+period := by
    rw [periodSteps,Nat.add_mul,Nat.one_mul,Nat.mul_comm]
  refine ⟨⟨periodSteps base period now,Nat.le_add_left 1 _,rfl,by omega⟩,?_⟩
  intro t h
  obtain ⟨k,-,rfl,hk⟩ := h
  -- a point with fewer periods is not later than `now`
  have hkmul : (now-base).toNat<k*period := by omega
  have hsteps_le : periodSteps base period now≤k := (Nat.div_lt_iff_lt_mul hpos).2 hkmul
  have hmul := Nat.mul_le_mul_right period hsteps_le
  omega

end RustTime
