import DaeRs.Dns.Wire

/-! How long a response may be cached: what the parsers find in any bytes, and in a message. -/

namespace DaeRs.Dns

open Checked Octets List

namespace Message

def answersStart (m : Message) : Nat := dnsHeaderLen+(m.questions.flatMap WireQuestion.wire).length

def authorityStart (m : Message) : Nat :=
  m.answersStart+(m.answers.flatMap ResourceRecord.wire).length

theorem sections_at (m : Message) : At m.wire dnsHeaderLen (m.questions.flatMap WireQuestion.wire) ∧
      At m.wire m.answersStart (m.answers.flatMap ResourceRecord.wire) ∧
      At m.wire m.authorityStart (m.authority.flatMap ResourceRecord.wire) := by
  have h := at_drop_zero m.wire
  obtain ⟨-,h⟩ := at_append.mp h
  obtain ⟨hquestions,h⟩ := at_append.mp h
  obtain ⟨hanswers,h⟩ := at_append.mp h
  obtain ⟨hauthority,-⟩ := at_append.mp h
  rw [header_length] at hquestions hanswers hauthority
  simp only [Nat.zero_add] at hquestions hanswers hauthority
  exact ⟨hquestions,hanswers,hauthority⟩

end Message

section Answers

variable {buf : List UInt8} {pos : Nat}

theorem section_cons {r : ResourceRecord} {rest : List ResourceRecord}
    (h : At buf pos ((r::rest).flatMap ResourceRecord.wire)) :
    At buf pos r.wire ∧ At buf (pos+r.name.wire.length+10+r.rdata.length)
        (rest.flatMap ResourceRecord.wire) := by
  rw [flatMap_cons,at_append,r.wire_length] at h
  exact ⟨h.1,by simpa only [← Nat.add_assoc] using h.2⟩

theorem answersMinTtl_at {records : List ResourceRecord} (minTtl : Nat)
    (h : At buf pos (records.flatMap ResourceRecord.wire)) :
    Returns (answersMinTtl buf records.length pos (some minTtl))
      (some ((records.map (·.ttl.toNat)).foldl min minTtl)) := by
  induction records generalizing pos minTtl with
  | nil => rfl
  | cons r rest ih =>
    obtain ⟨hr,hrest⟩ := section_cons h
    rw [length_cons,answersMinTtl,(recordAt_at hr).bind_eq]
    exact ih (min minTtl r.ttl.toNat) hrest

theorem answersMinTtl_none {r : ResourceRecord} {rest : List ResourceRecord}
    (h : At buf pos ((r::rest).flatMap ResourceRecord.wire)) :
    Returns (answersMinTtl buf (r::rest).length pos none)
      ((r::rest).map (·.ttl.toNat)).min? := by
  obtain ⟨hr,hrest⟩ := section_cons h
  rw [length_cons,answersMinTtl,(recordAt_at hr).bind_eq]
  exact answersMinTtl_at r.ttl.toNat hrest

end Answers

section Authority

variable {buf : List UInt8} {pos : Nat}

theorem Soa.wire_length (s : Soa) : 22 ≤ s.wire.length := by
  have hmname := s.mname.wire_length_pos
  have hrname := s.rname.wire_length_pos
  simp only [wire,length_append,toBE_length]
  omega

theorem Soa.minimum_at {s : Soa} (h : At buf pos s.wire) :
    Returns (numAt buf (pos+s.wire.length-4) 4) s.minimum.toNat := by
  have hlength : s.wire.length=s.mname.wire.length+s.rname.wire.length+20 := by
    simp only [wire,length_append,toBE_length]
    omega
  rw [hlength]
  simp only [wire,at_append,toBE_length] at h
  obtain ⟨-,-,-,-,-,-,h⟩ := h
  have hpos : pos+(s.mname.wire.length+s.rname.wire.length+20)-4 =
      pos+s.mname.wire.length+s.rname.wire.length+4+4+4+4 := by omega
  rw [hpos]
  exact h.returns_toBE (by omega) (uint32_lt_bytes _)

theorem parseNegativeTtl_at {records : List ResourceRecord} {r : ResourceRecord} {s : Soa}
    (h : At buf pos (records.flatMap ResourceRecord.wire))
    (hfirst : records.find? (fun r => r.rtype.toNat=typeSoa)=some r) (hs : r.rdata=s.wire) :
    Returns (parseNegativeTtl buf records.length pos)
      (min (min r.ttl.toNat s.minimum.toNat) negativeTtlCapSecs) := by
  induction records generalizing pos with
  | nil => nomatch hfirst
  | cons first rest ih =>
    obtain ⟨hr,hrest⟩ := section_cons h
    rw [length_cons,parseNegativeTtl,(recordAt_at hr).bind_eq]
    by_cases hsoa : first.rtype.toNat=typeSoa
    · rw [find?_cons_of_pos (by simpa using hsoa),Option.some.injEq] at hfirst
      subst hfirst
      have hlength := s.wire_length
      have hdata : At buf (pos+first.name.wire.length+10) s.wire := by
        simp only [ResourceRecord.wire,at_append,toBE_length,hs] at hr
        obtain ⟨-,-,-,-,-,h⟩ := hr
        simpa only [Nat.add_assoc] using h
      have hminimum := Soa.minimum_at hdata
      simp only [Record.stop,hs]
      rw [if_pos hsoa,if_neg (by omega),hminimum.bind_eq]
      rfl
    · rw [find?_cons_of_neg (by simpa using hsoa)] at hfirst
      rw [if_neg hsoa]
      exact ih hrest hfirst

end Authority

theorem parseResponseMinTtl_wire {m : Message} (hresponse : m.IsResponse) {ttl : Nat}
    (hmin : (m.answers.map (·.ttl.toNat)).min?=some ttl) :
    Returns (parseResponseMinTtl m.wire) ttl := by
  obtain ⟨hheader,-,hflags,hqdcount,hancount,hnscount,-⟩ := m.header_at
  obtain ⟨hquestions,hanswers,-⟩ := m.sections_at
  rw [parseResponseMinTtl,if_neg (by omega),hflags.bind_eq,if_neg hresponse,hqdcount.bind_eq,
    hancount.bind_eq,hnscount.bind_eq,(skipQuestions_at hquestions).bind_eq]
  cases hlist : m.answers with
  | nil =>
    rw [hlist] at hmin
    nomatch hmin
  | cons r rest =>
    rw [hlist] at hmin hanswers
    have hreads := answersMinTtl_none hanswers
    rw [hmin] at hreads
    rw [if_neg (by simp)]
    exact hreads.bind_eq

/-- No parser reads outside its bytes or runs on for ever. The TTL of a response is the minimum of
the answers' TTLs; the negative one is the first SOA record's TTL or minimum field, whichever is
less, and no more than an hour. -/
theorem parsers_spec :
    (∀ (buf : List UInt8) (pos count : Nat),Sound (parseDnsQuery buf) (fun _ => True) ∧
      Sound (parseEdns buf pos) (fun _ => True) ∧ Sound (parseResponseMinTtl buf) (fun _ => True) ∧
      Sound (parseNegativeTtl buf count pos) (fun _ => True) ∧
      Sound (skipName buf pos) (fun _ => True)) ∧
    (∀ m : Message,m.IsResponse → ∀ ttl,(m.answers.map (·.ttl.toNat)).min?=some ttl →
      Returns (parseResponseMinTtl m.wire) ttl) ∧
    (∀ (m : Message) (r : ResourceRecord) (s : Soa),
      m.authority.find? (fun r => r.rtype.toNat=typeSoa)=some r → r.rdata=s.wire →
      Returns (parseNegativeTtl m.wire m.authority.length m.authorityStart)
        (min (min r.ttl.toNat s.minimum.toNat) negativeTtlCapSecs)) := by
  refine ⟨fun buf pos count => ?_,fun m hresponse ttl => parseResponseMinTtl_wire hresponse,
    fun m r s => parseNegativeTtl_at m.sections_at.2.2⟩
  exact ⟨parseDnsQuery_sound buf,parseEdns_sound pos,parseResponseMinTtl_sound buf,
    parseNegativeTtl_sound count pos,(skipName_sound pos).mono fun _ _ => trivial⟩

def rootName : WireName := ⟨[],none⟩

def daySoa : Soa := ⟨rootName,rootName,1,7200,3600,604800,86400⟩

theorem daySoa_wire_lt : daySoa.wire.length<256^2 := by decide

def dayRecord : ResourceRecord := ⟨rootName,6,1,86400,daySoa.wire,daySoa_wire_lt⟩

def dayResponse : Message where
  id := 1
  flags := 0x8183
  questions := [⟨rootName,1,1⟩]
  answers := []
  authority := [dayRecord]
  additional := []
  questions_lt := one_lt_count
  answers_lt := zero_lt_count
  authority_lt := one_lt_count
  additional_lt := zero_lt_count

/-- The lifetime of a negative response is capped. -/
theorem negative_ttl_capped :
    dayResponse.authority.find? (fun r => r.rtype.toNat=typeSoa)=some dayRecord ∧
      dayRecord.rdata=daySoa.wire ∧ min dayRecord.ttl.toNat daySoa.minimum.toNat=86400 ∧
      Returns (parseNegativeTtl dayResponse.wire dayResponse.authority.length
        dayResponse.authorityStart) 3600 ∧
      Returns (parseResponseMinTtl dayResponse.wire) 3600 := by
  exact ⟨rfl,rfl,rfl,rfl,rfl⟩

end DaeRs.Dns
