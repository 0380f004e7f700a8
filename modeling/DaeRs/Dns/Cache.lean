import DaeRs.Dns.Message

/-! `DnsCache`: responses by question, for as long as their TTL allows. -/

namespace DaeRs.Dns

/-- What a response is stored under. -/
structure CacheKey where
  qname : String
  qtype : UInt16
  hasEdns : Bool
  doBit : Bool
  deriving DecidableEq

def DnsQuery.key (q : DnsQuery) : CacheKey := ⟨q.qname,q.qtype,q.hasEdns,q.doBit⟩

/-- What is stored is left open, so that a response can carry more than its bytes. -/
structure CacheEntry (ρ : Type) where
  response : ρ
  expires : Nat

/-- The entries of the `HashMap`; times are in nanoseconds. -/
structure DnsCache (ρ : Type) where
  entries : List (CacheKey×CacheEntry ρ)

namespace DnsCache

variable {ρ : Type}

def maxEntries : Nat := 2048

def new : DnsCache ρ := ⟨[]⟩

def get (c : DnsCache ρ) (now : Nat) (key : CacheKey) : Option ρ :=
  match c.entries.find? fun e => e.1=key with
  | some e => if now<e.2.expires then some e.2.response else none
  | none => none

def makeRoom (c : DnsCache ρ) (now : Nat) : List (CacheKey×CacheEntry ρ) :=
  if c.entries.length≥maxEntries then
    let live := c.entries.filter fun e => now<e.2.expires
    if live.length≥maxEntries then [] else live
  else c.entries

def insert (c : DnsCache ρ) (now : Nat) (key : CacheKey) (response : ρ) (ttl : Nat) :
    DnsCache ρ :=
  if ttl=0 then c
  else ⟨(key,⟨response,now+ttl*10^9⟩)::(c.makeRoom now).filter fun e => e.1≠key⟩

theorem get_mem {c : DnsCache ρ} {now : Nat} {key : CacheKey} {r : ρ}
    (h : c.get now key=some r) : ∃ e∈c.entries,e.1=key ∧ e.2.response=r := by
  unfold get at h
  cases hfind : c.entries.find? fun e => e.1=key with
  | none => simp [hfind] at h
  | some e =>
    simp only [hfind] at h
    split_ifs at h
    refine ⟨e,List.mem_of_find?_eq_some hfind,?_,Option.some.inj h⟩
    simpa using List.find?_some hfind

theorem mem_makeRoom {c : DnsCache ρ} {now : Nat} {e : CacheKey×CacheEntry ρ}
    (h : e∈c.makeRoom now) : e∈c.entries := by
  unfold makeRoom at h
  by_cases hfull : c.entries.length≥maxEntries
  · rw [if_pos hfull] at h
    dsimp only at h
    split_ifs at h
    · cases h
    · exact List.mem_of_mem_filter h
  · rw [if_neg hfull] at h
    exact h

theorem mem_insert {c : DnsCache ρ} {now ttl : Nat} {key : CacheKey} {r : ρ}
    {e : CacheKey×CacheEntry ρ} (h : e∈(c.insert now key r ttl).entries) :
    e∈c.entries ∨ e.1=key ∧ e.2.response=r := by
  unfold insert at h
  by_cases hzero : ttl=0
  · rw [if_pos hzero] at h
    exact .inl h
  · rw [if_neg hzero] at h
    rcases List.mem_cons.mp h with rfl | hold
    · exact .inr ⟨rfl,rfl⟩
    · exact .inl (mem_makeRoom (List.mem_of_mem_filter hold))

end DnsCache

end DaeRs.Dns
