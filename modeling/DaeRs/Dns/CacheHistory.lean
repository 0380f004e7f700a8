import DaeRs.Dns.Cache
import DaeRs.Lib.Runs

/-! `DnsCache` against the history of its insertions: what a lookup finds is what was last stored
under the key and has neither expired nor been evicted since, and there is never too much of it. -/

namespace DaeRs.Dns

open Runs List Option

/-- An insertion and when it was made. -/
structure Insertion (ρ : Type) where
  time : Nat
  key : CacheKey
  response : ρ
  ttl : Nat
  deriving DecidableEq

def Insertion.expires {ρ : Type} (i : Insertion ρ) : Nat := i.time+i.ttl*10^9

def Insertion.entry {ρ : Type} (i : Insertion ρ) : CacheEntry ρ := ⟨i.response,i.expires⟩

inductive CacheCall (ρ : Type) where
  | insert (i : Insertion ρ)
  | get (time : Nat) (key : CacheKey)

namespace DnsCache

variable {ρ : Type}

def live (c : DnsCache ρ) (now : Nat) : List (CacheKey×CacheEntry ρ) :=
  c.entries.filter fun e => now<e.2.expires

/-- Storing something at `now` drops what expires at a time: the cache is full, and either this has
expired or too much has not. -/
def evicts (c : DnsCache ρ) (now expires : Nat) : Bool :=
  decide (maxEntries ≤ c.entries.length ∧ (expires≤now ∨ maxEntries≤(c.live now).length))

def call (c : DnsCache ρ) : CacheCall ρ → DnsCache ρ
  | .insert i => c.insert i.time i.key i.response i.ttl
  | .get _ _ => c

end DnsCache

/-- A cache with the latest insertion under each key, as long as it is not evicted. -/
structure History (ρ : Type) where
  cache : DnsCache ρ
  latest : CacheKey → Option (Insertion ρ)

namespace History

variable {ρ : Type}

def new : History ρ := ⟨DnsCache.new,fun _ => none⟩

def store (h : History ρ) (i : Insertion ρ) (key : CacheKey) : Option (Insertion ρ) :=
  if key=i.key then some i
  else (h.latest key).filter fun old => !h.cache.evicts i.time old.expires

def call (counts : Insertion ρ → Bool) (h : History ρ) : CacheCall ρ → History ρ
  | .insert i => ⟨h.cache.call (.insert i),if counts i then h.store i else h.latest⟩
  | .get time key => ⟨h.cache.call (.get time key),h.latest⟩

def cacheable (i : Insertion ρ) : Bool := decide (i.ttl≠0)

/-- A lookup finds just the response of the latest insertion under the key, while it is fresh. -/
def Fresh (h : History ρ) : Prop := ∀ now key response,h.cache.get now key=some response ↔
    ∃ i,h.latest key=some i ∧ now < i.expires ∧ i.response=response

end History

namespace DnsCache

variable {ρ : Type}

def lookup (entries : List (CacheKey×CacheEntry ρ)) (key : CacheKey) : Option (CacheEntry ρ) :=
  (entries.find? fun e => e.1=key).map (·.2)

variable (c : DnsCache ρ)

theorem get_eq (now : Nat) (key : CacheKey) :
    c.get now key=((lookup c.entries key).filter fun e => now<e.expires).map (·.response) := by
  unfold get lookup
  cases c.entries.find? fun e => e.1=key with
  | none => rfl
  | some e =>
    by_cases h : now<e.2.expires <;> simp [h,Option.filter]

theorem lookup_cons (e : CacheKey×CacheEntry ρ) (entries : List (CacheKey×CacheEntry ρ))
    (key : CacheKey) :
    lookup (e::entries) key=if e.1=key then some e.2 else lookup entries key := by
  unfold lookup
  split_ifs with h <;> simp [h]

variable {entries : List (CacheKey×CacheEntry ρ)}

theorem lookup_eq_none {key : CacheKey} (h : key∉entries.map (·.1)) : lookup entries key=none := by
  unfold lookup
  rw [map_eq_none_iff,find?_eq_none]
  intro e he heq
  exact h (mem_map.mpr ⟨e,he,of_decide_eq_true heq⟩)

theorem lookup_filter (h : (entries.map (·.1)).Nodup)
    (keep : CacheEntry ρ → Bool) (key : CacheKey) :
    lookup (entries.filter fun e => keep e.2) key=(lookup entries key).filter keep := by
  induction entries with
  | nil => rfl
  | cons e rest ih =>
    rw [map_cons,nodup_cons] at h
    rw [filter_cons,lookup_cons]
    by_cases hkey : e.1=key
    · have hrest : lookup (rest.filter fun e => keep e.2) key=none := by
        rw [ih h.2,lookup_eq_none (hkey ▸ h.1)]
        rfl
      cases hkeep : keep e.2 <;> simp [hkey,hkeep,hrest,lookup_cons,Option.filter]
    · cases keep e.2 <;> simp [hkey,ih h.2,lookup_cons]

theorem lookup_filter_ne {key other : CacheKey}
    (h : other≠key) : lookup (entries.filter fun e => e.1≠key) other=lookup entries other := by
  induction entries with
  | nil => rfl
  | cons e rest ih =>
    rw [filter_cons,lookup_cons]
    by_cases hkey : e.1=key
    · have hother : e.1≠other := fun heq => h (heq.symm.trans hkey)
      rw [if_neg (by simpa using hkey),if_neg hother,ih]
    · rw [if_pos (by simpa using hkey),lookup_cons,ih]

theorem lookup_makeRoom {c : DnsCache ρ} (h : (c.entries.map (·.1)).Nodup) (now : Nat)
    (key : CacheKey) :
    lookup (c.makeRoom now) key =
      (lookup c.entries key).filter fun e => !c.evicts now e.expires := by
  unfold makeRoom evicts
  by_cases hfull : maxEntries ≤ c.entries.length
  · rw [if_pos hfull]
    by_cases hlive : maxEntries≤(c.live now).length
    · have hempty : lookup ([] : List (CacheKey×CacheEntry ρ)) key=none := rfl
      rw [live] at hlive
      dsimp only
      rw [if_pos hlive,hempty,live]
      cases lookup c.entries key <;> simp [hfull,hlive]
    · have hkeep : (fun e : CacheEntry ρ => !decide (maxEntries ≤ c.entries.length ∧
          (e.expires≤now ∨ maxEntries≤(c.live now).length))) =
            fun e => decide (now<e.expires) := by
        funext e
        rw [Bool.eq_iff_iff]
        simp [hfull,hlive]
      rw [hkeep]
      rw [live] at hlive
      dsimp only
      rw [if_neg hlive]
      exact lookup_filter h (fun e => decide (now<e.expires)) key
  · rw [if_neg hfull]
    cases lookup c.entries key <;> simp [hfull,Option.filter]

theorem makeRoom_length (now : Nat) : (c.makeRoom now).length < maxEntries := by
  unfold makeRoom
  by_cases hfull : maxEntries ≤ c.entries.length
  · rw [if_pos hfull]
    dsimp only
    split_ifs with hlive
    · exact Nat.zero_lt_of_lt (Nat.lt_succ_self 2047)
    · exact Nat.lt_of_not_le hlive
  · rw [if_neg hfull]
    exact Nat.lt_of_not_le hfull

theorem makeRoom_sublist (now : Nat) : (c.makeRoom now).Sublist c.entries := by
  unfold makeRoom
  by_cases hfull : maxEntries ≤ c.entries.length
  · rw [if_pos hfull]
    dsimp only
    split_ifs
    · exact nil_sublist _
    · exact filter_sublist
  · rw [if_neg hfull]

theorem insert_entries {i : Insertion ρ} (h : i.ttl≠0) : (c.call (.insert i)).entries =
      (i.key,i.entry)::(c.makeRoom i.time).filter fun e => e.1≠i.key := by
  simp only [call,insert,if_neg h]
  rfl

theorem insert_zero {i : Insertion ρ} (h : i.ttl=0) : c.call (.insert i)=c := by
  simp only [call,insert,if_pos h]

end DnsCache

namespace History

variable {ρ : Type}

/-- The cache holds the latest insertions, one entry each, and no more than there is room for. -/
structure Stored (h : History ρ) : Prop where
  keys : (h.cache.entries.map (·.1)).Nodup
  room : h.cache.entries.length≤DnsCache.maxEntries
  latest : ∀ key,DnsCache.lookup h.cache.entries key=(h.latest key).map Insertion.entry

theorem stored_new : (new : History ρ).Stored where
  keys := nodup_nil
  room := Nat.zero_le _
  latest := fun _ => rfl

theorem Stored.insert {h : History ρ} (hs : h.Stored) {i : Insertion ρ} (hi : i.ttl≠0) :
    (⟨h.cache.call (.insert i),h.store i⟩ : History ρ).Stored where
  keys := by
    rw [DnsCache.insert_entries _ hi,map_cons,nodup_cons]
    have hsub := (filter_sublist (p := fun e => decide (e.1≠i.key))).trans
      (h.cache.makeRoom_sublist i.time)
    refine ⟨?_,hs.keys.sublist (hsub.map _)⟩
    intro hmem
    obtain ⟨e,he,hkey⟩ := mem_map.mp hmem
    exact of_decide_eq_true (mem_filter.mp he).2 hkey
  room := by
    rw [DnsCache.insert_entries _ hi,length_cons]
    have hfilter := length_filter_le (fun e => decide (e.1≠i.key)) (h.cache.makeRoom i.time)
    have hroom := h.cache.makeRoom_length i.time
    omega
  latest := by
    intro key
    change _=(h.store i key).map Insertion.entry
    rw [DnsCache.insert_entries _ hi,DnsCache.lookup_cons,store]
    by_cases hkey : key=i.key
    · rw [if_pos hkey.symm,if_pos hkey,map_some]
    · rw [if_neg (Ne.symm hkey),if_neg hkey,DnsCache.lookup_filter_ne hkey,
        DnsCache.lookup_makeRoom hs.keys,hs.latest key]
      cases h.latest key with
      | none => rfl
      | some old =>
        simp only [map_some,filter_some,Insertion.entry]
        split_ifs <;> rfl

theorem Stored.call {h : History ρ} (hs : h.Stored) (c : CacheCall ρ) :
    (h.call cacheable c).Stored := by
  cases c with
  | get time key => exact hs
  | insert i =>
    by_cases hi : i.ttl=0
    · have hcount : cacheable i=false := by simp [cacheable,hi]
      simp only [History.call,hcount,Bool.false_eq_true,if_false,DnsCache.insert_zero _ hi]
      exact hs
    · have hcount : cacheable i=true := by simp [cacheable,hi]
      simp only [History.call,hcount,if_true]
      exact hs.insert hi

theorem Stored.fresh {h : History ρ} (hs : h.Stored) : h.Fresh := by
  intro now key response
  rw [DnsCache.get_eq,hs.latest key]
  cases h.latest key with
  | none => simp
  | some i =>
    simp only [map_some,Option.some.injEq,exists_eq_left']
    by_cases hnow : now < i.expires <;> simp [Insertion.entry,hnow]

/-- After any calls the cache holds no more than its maximum, and a lookup finds just the response
last inserted with a lifetime under that key, unless evicted or expired. -/
theorem bounded_and_fresh (calls : List (CacheCall ρ)) :
    (run (call cacheable) new calls).cache.entries.length≤DnsCache.maxEntries ∧
      (run (call cacheable) (new : History ρ) calls).Fresh := by
  have h : (run (call cacheable) (new : History ρ) calls).Stored :=
    run_invariant (fun _ c hs => hs.call c) stored_new calls
  exact ⟨h.room,h.fresh⟩

/-- An insertion without a lifetime is no insertion: the response before it is still found. -/
theorem zero_ttl_keeps_response : ¬(run (call fun _ => true) (new : History String)
        [.insert ⟨0,⟨"a.example",1,false,false⟩, "old",300⟩,
          .insert ⟨1,⟨"a.example",1,false,false⟩, "new",0⟩]).Fresh := by
  intro h
  have hget : (run (call fun _ => true) (new : History String)
      [.insert ⟨0,⟨"a.example",1,false,false⟩, "old",300⟩,
        .insert ⟨1,⟨"a.example",1,false,false⟩, "new",0⟩]).cache.get 2
          ⟨"a.example",1,false,false⟩=some "old" := by decide +kernel
  have hlatest : (run (call fun _ => true) (new : History String)
      [.insert ⟨0,⟨"a.example",1,false,false⟩, "old",300⟩,
        .insert ⟨1,⟨"a.example",1,false,false⟩, "new",0⟩]).latest
          ⟨"a.example",1,false,false⟩ =
            some ⟨1,⟨"a.example",1,false,false⟩, "new",0⟩ := by decide +kernel
  obtain ⟨i,hi,-,hresponse⟩ := (h 2 ⟨"a.example",1,false,false⟩ "old").mp hget
  rw [hlatest,Option.some.injEq] at hi
  rw [← hi] at hresponse
  exact absurd hresponse (by decide)

end History

end DaeRs.Dns
