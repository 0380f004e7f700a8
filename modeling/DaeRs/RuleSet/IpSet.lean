import DaeRs.Net.Addr
import DaeRs.Lib.Ranges

/-! `CompiledIpSet`: merged address ranges per family, searched by bisection. -/

namespace DaeRs.RuleSet

open Net Bpf Ranges List

variable (checks : Bool)

/-- `1 << n` on a `w`-bit integer: past the width it panics when overflow is checked, and the
shift count wraps when it is not. -/
def shlOne (w n : Nat) : Option Nat :=
  if n<w then some (2^n) else if checks then none else some (2^(n%w))

def rangeEnd {w : Nat} (n : Prefix w) : Option Nat :=
  let hostBits := w-n.prefixLen
  if hostBits=0 then some n.network
  else (shlOne checks w hostBits).map fun one => (n.network+(one-1))%2^w

def ipv4RangeEnd (n : Prefix 32) : Option Nat := rangeEnd checks n

def ipv6RangeEnd (n : Prefix 128) : Option Nat := rangeEnd checks n

structure CompiledIpSet where
  v4 : List (Nat×Nat)
  v6 : List (Nat×Nat)
  deriving DecidableEq

namespace CompiledIpSet

def collect (checks : Bool) : List IpNet → Option (List (Nat×Nat)×List (Nat×Nat))
  | [] => some ([],[])
  | .v4 n::nets => do
    let last ← ipv4RangeEnd checks n
    let (v4,v6) ← collect checks nets
    pure ((n.network,last)::v4,v6)
  | .v6 n::nets => do
    let last ← ipv6RangeEnd checks n
    let (v4,v6) ← collect checks nets
    pure (v4,(n.network,last)::v6)

/-- `CompiledIpSet::compile`, for a build with or without overflow checks; `none` is a panic. -/
def compile (checks : Bool) (nets : List IpNet) : Option CompiledIpSet := do
  let (v4,v6) ← collect checks nets
  pure ⟨mergeRanges v4,mergeRanges v6⟩

def contains (s : CompiledIpSet) : IpAddr → Bool
  | .v4 ip => containsInRanges s.v4 ip.toNat
  | .v6 ip => containsInRanges s.v6 ip.toNat

end CompiledIpSet

theorem rangeEnd_pos {w : Nat} (n : Prefix w) (h : 0<n.prefixLen) :
    rangeEnd checks n=some (n.network+(2^n.hostBits-1)) := by
  have hle := n.prefixLen_le
  have hlt := n.network_lt
  unfold rangeEnd
  by_cases h0 : w-n.prefixLen=0
  · simp [h0,Prefix.hostBits]
  · have hsh : w-n.prefixLen<w := by omega
    simp only [if_neg h0,shlOne,if_pos hsh,Option.map_some]
    rw [← Prefix.hostBits,Nat.mod_eq_of_lt hlt]

theorem rangeEnd_zero {w : Nat} (hw : 0<w) (checks : Bool) (n : Prefix w) (h : n.prefixLen=0) :
    rangeEnd checks n=(if checks then none else some 0) ∧ n.network=0 := by
  have hnet : n.network=0 := by
    have hbits : n.hostBits=w := by rw [Prefix.hostBits,h,Nat.sub_zero]
    rw [Prefix.network,hbits,Nat.div_eq_of_lt n.addr.isLt,Nat.zero_mul]
  have hw0 : w≠0 := by omega
  refine ⟨?_,hnet⟩
  cases checks <;> simp [rangeEnd,h,hw0,shlOne,hnet]

def isZero : IpAddr → Bool
  | .v4 ip => decide (ip.toNat=0)
  | .v6 ip => decide (ip.toNat=0)

/-- What the compiled ranges keep of a prefix: all of it, or the zero address when its length is
zero. -/
def keeps (n : IpNet) (ip : IpAddr) : Bool := n.contains ip && (decide (0<n.prefixLen) || isZero ip)

theorem rangeEnd_range {w : Nat} (hw : 0<w) {checks : Bool} {n : Prefix w} {last : Nat}
    (h : rangeEnd checks n=some last) :
    n.network≤last ∧ ∀ ip : BitVec w,(n.network ≤ ip.toNat ∧ ip.toNat≤last) ↔
      (n.contains ip && (decide (0<n.prefixLen) || decide (ip.toNat=0)))=true := by
  rcases Nat.eq_zero_or_pos n.prefixLen with h0 | hpos
  · obtain ⟨hend,hnet⟩ := rangeEnd_zero hw checks n h0
    rw [hend] at h
    cases checks with
    | true => cases h
    | false =>
      cases h
      refine ⟨by rw [hnet],fun ip => ?_⟩
      have hbits : n.hostBits=w := by rw [Prefix.hostBits,h0,Nat.sub_zero]
      have hall : n.contains ip=true := by
        rw [Prefix.contains,hbits,Nat.div_eq_of_lt ip.isLt,Nat.div_eq_of_lt n.addr.isLt]
        rfl
      simp [hall,hnet,h0]
  · rw [rangeEnd_pos checks n hpos] at h
    cases h
    refine ⟨Nat.le_add_right _ _,fun ip => ?_⟩
    rw [← n.contains_iff_range ip]
    simp [hpos]

theorem rangeEnd_isSome {w : Nat} (hw : 0<w) (checks : Bool) (n : Prefix w) :
    (rangeEnd checks n).isSome=true ↔ (checks=true → 0<n.prefixLen) := by
  rcases Nat.eq_zero_or_pos n.prefixLen with h0 | hpos
  · rw [(rangeEnd_zero hw checks n h0).1,h0]
    cases checks <;> simp
  · rw [rangeEnd_pos checks n hpos]
    simp [hpos]

theorem collect_isSome (nets : List IpNet) : (CompiledIpSet.collect checks nets).isSome=true ↔
      (checks=true → ∀ n∈nets,0<n.prefixLen) := by
  induction nets with
  | nil => simp [CompiledIpSet.collect]
  | cons n nets ih =>
    cases n with
    | v4 n =>
      have hn : _ ↔ (checks=true → 0<(IpNet.v4 n).prefixLen) := rangeEnd_isSome (by decide) checks n
      simp only [CompiledIpSet.collect,ipv4RangeEnd,forall_mem_cons]
      rw [forall_and,← hn,← ih]
      cases rangeEnd checks n <;> cases CompiledIpSet.collect checks nets <;> simp
    | v6 n =>
      have hn : _ ↔ (checks=true → 0<(IpNet.v6 n).prefixLen) := rangeEnd_isSome (by decide) checks n
      simp only [CompiledIpSet.collect,ipv6RangeEnd,forall_mem_cons]
      rw [forall_and,← hn,← ih]
      cases rangeEnd checks n <;> cases CompiledIpSet.collect checks nets <;> simp

/-- The collected ranges are non-empty and cover what the prefixes keep. -/
structure Collected (nets : List IpNet) (v4 v6 : List (Nat×Nat)) : Prop where
  ordered4 : ∀ r∈v4,r.1 ≤ r.2
  ordered6 : ∀ r∈v6,r.1 ≤ r.2
  covers4 : ∀ ip : Ipv4Addr,(∃ r∈v4,r.1 ≤ ip.toNat ∧ ip.toNat ≤ r.2) ↔
    ∃ n∈nets,keeps n (.v4 ip)=true
  covers6 : ∀ ip : Ipv6Addr,(∃ r∈v6,r.1 ≤ ip.toNat ∧ ip.toNat ≤ r.2) ↔
    ∃ n∈nets,keeps n (.v6 ip)=true

theorem collect_collected {checks : Bool} {nets : List IpNet} {v4 v6 : List (Nat×Nat)}
    (h : CompiledIpSet.collect checks nets=some (v4,v6)) : Collected nets v4 v6 := by
  induction nets generalizing v4 v6 with
  | nil =>
    cases h
    exact ⟨by simp,by simp,by simp,by simp⟩
  | cons n nets ih =>
    cases n with
    | v4 n =>
      simp only [CompiledIpSet.collect,ipv4RangeEnd,Option.bind_eq_bind,
        Option.bind_eq_some_iff,Option.pure_def,Option.some.injEq,Prod.mk.injEq] at h
      obtain ⟨last,hlast,⟨w4,w6⟩,hrest,rfl,rfl⟩ := h
      obtain ⟨hle,hmem⟩ := rangeEnd_range (by decide) hlast
      have hc := ih hrest
      refine ⟨?_,hc.ordered6,fun ip => ?_,fun ip => ?_⟩
      · simpa using ⟨hle,fun a b hab => hc.ordered4 (a,b) hab⟩
      · rw [exists_mem_cons_iff,exists_mem_cons_iff,hmem ip,hc.covers4 ip]
        rfl
      · rw [exists_mem_cons_iff,hc.covers6 ip]
        simp [keeps,IpNet.contains]
    | v6 n =>
      simp only [CompiledIpSet.collect,ipv6RangeEnd,Option.bind_eq_bind,
        Option.bind_eq_some_iff,Option.pure_def,Option.some.injEq,Prod.mk.injEq] at h
      obtain ⟨last,hlast,⟨w4,w6⟩,hrest,rfl,rfl⟩ := h
      obtain ⟨hle,hmem⟩ := rangeEnd_range (by decide) hlast
      have hc := ih hrest
      refine ⟨hc.ordered4,?_,fun ip => ?_,fun ip => ?_⟩
      · simpa using ⟨hle,fun a b hab => hc.ordered6 (a,b) hab⟩
      · rw [exists_mem_cons_iff,hc.covers4 ip]
        simp [keeps,IpNet.contains]
      · rw [exists_mem_cons_iff,exists_mem_cons_iff,hmem ip,hc.covers6 ip]
        rfl

theorem compile_contains {checks : Bool} {nets : List IpNet} {s : CompiledIpSet}
    (h : CompiledIpSet.compile checks nets=some s) (ip : IpAddr) :
    s.contains ip=true ↔ ∃ n∈nets,keeps n ip=true := by
  simp only [CompiledIpSet.compile,Option.bind_eq_bind,Option.bind_eq_some_iff,Option.pure_def,
    Option.some.injEq] at h
  obtain ⟨⟨v4,v6⟩,hcol,rfl⟩ := h
  have hc := collect_collected hcol
  cases ip with
  | v4 ip => exact (containsInRanges_mergeRanges hc.ordered4 _).trans (hc.covers4 ip)
  | v6 ip => exact (containsInRanges_mergeRanges hc.ordered6 _).trans (hc.covers6 ip)

theorem compile_isSome (nets : List IpNet) : (∃ s,CompiledIpSet.compile checks nets=some s) ↔
      (checks=true → ∀ n∈nets,0<n.prefixLen) := by
  rw [← collect_isSome,CompiledIpSet.compile]
  cases CompiledIpSet.collect checks nets <;> simp

theorem keeps_of_pos {n : IpNet} (h : 0<n.prefixLen) (ip : IpAddr) : keeps n ip=n.contains ip := by
  simp [keeps,h]

/-- Compiling overflows nowhere and the set contains just the addresses of the networks, if and only
if no network of the list has prefix length zero. -/
theorem compile_exact_iff_positive (checks : Bool) (nets : List IpNet) (ip : IpAddr) :
    ((∃ s,CompiledIpSet.compile true nets=some s) ∧
      ∃ s,CompiledIpSet.compile checks nets=some s ∧
        (s.contains ip=true ↔ ∃ n∈nets,n.contains ip=true)) ↔
      ∀ n∈nets,0<n.prefixLen := by
  constructor
  · rintro ⟨hsome,-⟩
    exact (compile_isSome true nets).mp hsome rfl
  · intro hpos
    refine ⟨(compile_isSome true nets).mpr fun _ => hpos,?_⟩
    obtain ⟨s,hs⟩ := (compile_isSome checks nets).mpr fun _ => hpos
    refine ⟨s,hs,?_⟩
    rw [compile_contains hs ip]
    constructor
    · rintro ⟨n,hn,hk⟩
      exact ⟨n,hn,by rwa [keeps_of_pos (hpos n hn)] at hk⟩
    · rintro ⟨n,hn,hc⟩
      exact ⟨n,hn,by rwa [keeps_of_pos (hpos n hn)]⟩

/-- `0.0.0.0/0`: a checked build panics on the shift, an unchecked one keeps the zero address
only, so `1.2.3.4` is not contained. -/
theorem compile_default_route_overflows :
    let nets : List IpNet := [.v4 ⟨0,0,by decide⟩]
    let ip : IpAddr := .v4 0x01020304
    (∃ n∈nets,n.contains ip=true) ∧ CompiledIpSet.compile true nets=none ∧
      (CompiledIpSet.compile false nets).map (·.contains ip)=some false := by
  refine ⟨⟨_,List.mem_singleton.mpr rfl,by decide⟩,by decide,by decide⟩

def lpmTrie (cidrs : List IpNet) : LpmTrie :=
  (cidrsToCidrEntries cidrs).map fun e => ⟨e.2.prefixLen,e.2.ip⟩

theorem lpmTrie_lookup (cidrs : List IpNet) (ip : Bytes16) :
    (lpmTrie cidrs).lookup (hostKey ip)=true ↔ ∃ n∈cidrs,n.covers ip=true := by
  have hkeys : lpmTrie cidrs=cidrs.map IpNet.lpmKey := by
    rw [lpmTrie,cidrsToCidrEntries,map_map,← zipIdx_map_fst 0 cidrs,map_map]
    simp [Function.comp_def,IpNet.lpmKey]
  rw [LpmTrie.lookup,hkeys,any_map,any_eq_true]
  rfl

theorem keeps_covers {n : IpNet} {ip : IpAddr} (h : keeps n ip=true) : n.covers ip.mapped=true := by
  have hc : n.contains ip=true := by
    simp only [keeps,Bool.and_eq_true] at h
    exact h.1
  have hs : n.sameFamily ip=true := by
    cases n <;> cases ip <;> first | rfl | cases hc
  rw [covers_eq_contains hs,hc]

theorem contains_of_covers {n : IpNet} {ip : IpAddr} (hs : n.sameFamily ip=true)
    (h : n.covers ip.mapped=true) : n.contains ip=true := by
  rwa [← covers_eq_contains hs]

/-- Kernel lookup and compiled set agree on an address exactly when compiling does not panic and
every address that only a prefix of the other family, or of length zero, covers is kept by one of
its own. -/
theorem lpm_lookup_iff_contains (checks : Bool) (nets : List IpNet) (ip : IpAddr) :
    (∃ s,CompiledIpSet.compile checks nets=some s ∧
        ((lpmTrie nets).lookup (hostKey ip.mapped)=true ↔ s.contains ip=true)) ↔
      (checks=true → ∀ n∈nets,0<n.prefixLen) ∧ ((∃ n∈nets,n.covers ip.mapped=true ∧
            (n.sameFamily ip=false ∨ n.prefixLen=0 ∧ isZero ip=false)) →
          ∃ n∈nets,n.contains ip=true ∧ (0<n.prefixLen ∨ isZero ip=true)) := by
  have hkeeps : (∃ n∈nets,n.contains ip=true ∧ (0<n.prefixLen ∨ isZero ip=true)) ↔
      ∃ n∈nets,keeps n ip=true := by
    simp [keeps]
  rw [hkeeps]
  constructor
  · rintro ⟨s,hs,hiff⟩
    refine ⟨(compile_isSome checks nets).mp ⟨s,hs⟩,?_⟩
    rintro ⟨n,hn,hcov,-⟩
    rw [← compile_contains hs ip,← hiff,lpmTrie_lookup]
    exact ⟨n,hn,hcov⟩
  · rintro ⟨hpos,hstray⟩
    obtain ⟨s,hs⟩ := (compile_isSome checks nets).mpr hpos
    refine ⟨s,hs,?_⟩
    rw [lpmTrie_lookup,compile_contains hs ip]
    constructor
    · rintro ⟨n,hn,hcov⟩
      by_cases hown : n.sameFamily ip=true ∧ (0<n.prefixLen ∨ isZero ip=true)
      · have hc := contains_of_covers hown.1 hcov
        exact ⟨n,hn,by simpa [keeps,hc] using hown.2⟩
      · apply hstray
        refine ⟨n,hn,hcov,?_⟩
        by_cases hf : n.sameFamily ip=true
        · right
          have hnot : ¬(0<n.prefixLen ∨ isZero ip=true) := fun h => hown ⟨hf,h⟩
          rw [not_or] at hnot
          exact ⟨by omega,by simpa using hnot.2⟩
        · exact .inl (by simpa using hf)
    · rintro ⟨n,hn,hk⟩
      exact ⟨n,hn,keeps_covers hk⟩

/-- `0.0.0.0/0` and `1.2.3.4`: the trie matches, the compiled set does not, and a checked build
panics. -/
theorem default_route_not_contained :
    let nets : List IpNet := [.v4 ⟨0,0,by decide⟩]
    let ip : IpAddr := .v4 0x01020304
    (lpmTrie nets).lookup (hostKey ip.mapped)=true ∧
      (∃ s,CompiledIpSet.compile false nets=some s ∧ s.contains ip=false) ∧
      CompiledIpSet.compile true nets=none := by
  refine ⟨by decide,⟨⟨[(0,0)],[]⟩,by decide,by decide⟩,by decide⟩

/-- Merged ranges are separated and of the same union, however ranges with the same start are
sorted, and the search on separated ranges finds what lies in one. -/
theorem merge_and_search {T : Type} [LinearOrder T] {l : List (T×T)} (hl : ∀ r∈l,r.1 ≤ r.2) :
    Separated (mergeRanges l) ∧ (∀ x,(∃ r∈mergeRanges l,r.1≤x ∧ x ≤ r.2) ↔ ∃ r∈l,r.1≤x ∧ x ≤ r.2) ∧
      (∀ s : List (T×T),s.Perm l → s.Pairwise (fun a b => a.1≤b.1) →
        Separated (s.foldl mergeStep []).reverse ∧ ∀ x,
          (∃ r∈(s.foldl mergeStep []).reverse,r.1≤x ∧ x ≤ r.2) ↔ ∃ r∈l,r.1≤x ∧ x ≤ r.2) ∧
      ∀ m : List (T×T),Separated m → ∀ x,
        containsInRanges m x=true ↔ ∃ r∈m,r.1≤x ∧ x ≤ r.2 := by
  obtain ⟨hsep,hcov⟩ := mergeRanges_spec hl
  refine ⟨hsep,hcov,fun s hperm hs => sweep_spec hl hperm hs,fun m hm x => ?_⟩
  rw [containsInRanges_eq_any hm,any_eq_true]
  simp [inRange]

theorem merge_and_search_bytes : (∃ r∈mergeRanges [(250,255),(1,6),(1,4)],r.1≤5 ∧ 5 ≤ r.2) ↔
      ∃ r∈[(250,255),(1,6),(1,4)],r.1≤5 ∧ 5 ≤ r.2 :=
  (merge_and_search (by simp)).2.1 5

end DaeRs.RuleSet
