import DaeRs.Dns.Question
import DaeRs.Dns.Wire

/-! `build_error_response`: when the answer to a query that is not forwarded is a message. -/

namespace DaeRs.Dns

open Checked Octets List

variable (query : List UInt8)

def errorFlags (rcode : UInt8) : Nat :=
  let rd := if query.length≥4 ∧ query.getD 2 0 &&& 0x01≠0 then 0x0100 else 0
  0x8000 ||| rd ||| (rcode.toNat &&& 0x000F)

def buildErrorResponse (rcode : UInt8) : List UInt8 :=
  (if query.length≥2 then query.take 2 else [0,0])++(toBE 2 (errorFlags query rcode) ++
    ([0,1,0,0,0,0,0,0] ++(if query.length > dnsHeaderLen then query.drop dnsHeaderLen else [])))

/-- All the bytes belong to the sections that the header counts, of a response with the id and the
question of the query. -/
def AnswersQuery (response : List UInt8) : Prop :=
  ∃ m : Message,m.wire=response ∧ m.IsResponse ∧ Returns (numAt query 0 2) m.id.toNat ∧
    ∃ q,m.questions=[q] ∧ At query dnsHeaderLen q.wire

def EndsWithQuestion : Prop :=
  ∃ labels stop,Returns (queryLabels query (query.length+1) dnsHeaderLen) (labels,stop) ∧
    stop+4=query.length

section Names

variable {buf : List UInt8}

theorem queryLabels_wire {fuel pos stop : Nat} {labels : List String}
    (h : Returns (queryLabels buf fuel pos) (labels,stop)) :
    ∃ name : WireName,At buf pos name.wire ∧ stop=pos+name.wire.length := by
  replace h := readsLabels_of_returns h
  induction h with
  | root _ hlen => exact ⟨⟨[],none⟩,(at_of_returns_numAt hlen).1,rfl⟩
  | @label _ pos len _ bytes _ _ _ hlen hzero hcond hread _ _ ih =>
    obtain ⟨hbyte,-⟩ := at_of_returns_numAt hlen
    obtain ⟨hbytes,hlength⟩ := at_of_returns_bytesAt hread
    obtain ⟨name,hname,hstop⟩ := ih
    let first : Label := ⟨bytes,by omega,by omega⟩
    have hfirst : At buf pos first.wire := by
      subst hlength
      exact at_append.mpr ⟨hbyte,hbytes⟩
    have hwire : (⟨first::name.labels,name.pointer⟩ : WireName).wire=first.wire++name.wire :=
      append_assoc _ _ _
    have hfirst_length : first.wire.length=1+len := by
      rw [← hlength,Nat.add_comm]
      rfl
    refine ⟨⟨first::name.labels,name.pointer⟩,?_,?_⟩
    · rw [hwire,at_append,hfirst_length,← Nat.add_assoc]
      exact ⟨hfirst,hname⟩
    · rw [hwire,length_append,hfirst_length,hstop]
      omega

end Names

section Reply

theorem toNat_ofNat_uint16 {k : Nat} (h : k<256^2) : (UInt16.ofNat k).toNat=k := by
  rw [UInt16.toNat_ofNat']
  exact Nat.mod_eq_of_lt h

variable {query : List UInt8} {rcode : UInt8}

theorem errorFlags_lt (query : List UInt8) (rcode : UInt8) : errorFlags query rcode<256^2 := by
  have hrcode : rcode.toNat &&& 0x000F<2^16 := Nat.lt_of_le_of_lt Nat.and_le_right (by decide)
  unfold errorFlags
  apply Nat.or_lt_two_pow _ hrcode
  split_ifs <;> decide

theorem errorFlags_response (query : List UInt8) (rcode : UInt8) :
    errorFlags query rcode &&& 0x8000≠0 := by
  unfold errorFlags
  dsimp only
  rw [Nat.or_assoc,Nat.and_or_distrib_right]
  intro h
  exact absurd (Nat.or_eq_zero_iff.mp h).1 (by decide)

def errorHeader (query : List UInt8) (rcode : UInt8) : List UInt8 :=
  query.take 2++(toBE 2 (errorFlags query rcode) ++(toBE 2 1++(toBE 2 0++(toBE 2 0++toBE 2 0))))

theorem errorHeader_length (h : dnsHeaderLen≤query.length) (rcode : UInt8) :
    (errorHeader query rcode).length=12 := by
  have htwo : 2≤query.length := Nat.le_trans (by decide) h
  simp [errorHeader,htwo]

theorem buildErrorResponse_eq (h : dnsHeaderLen≤query.length) (rcode : UInt8) :
    buildErrorResponse query rcode=errorHeader query rcode++query.drop dnsHeaderLen := by
  have htwo : query.length≥2 := Nat.le_trans (by decide) h
  have hdrop : (if query.length > dnsHeaderLen then query.drop dnsHeaderLen else []) =
      query.drop dnsHeaderLen := by
    split_ifs with hlong
    · rfl
    · rw [drop_of_length_le (Nat.not_lt.mp hlong)]
  rw [buildErrorResponse,if_pos htwo,hdrop,errorHeader]
  simp only [append_assoc]
  rfl

theorem counts_of_header {m : Message} (h : m.header=errorHeader query rcode)
    (hlength : dnsHeaderLen≤query.length) :
    m.answers=[] ∧ m.authority=[] ∧ m.additional=[] := by
  have htwo : 2≤query.length := Nat.le_trans (by decide) hlength
  obtain ⟨-,h⟩ := append_inj h (by simp [htwo])
  obtain ⟨-,h⟩ := append_inj h (by simp)
  obtain ⟨-,h⟩ := append_inj h (by simp)
  obtain ⟨hanswers,h⟩ := append_inj h (by simp)
  obtain ⟨hauthority,hadditional⟩ := append_inj h (by simp)
  exact ⟨length_eq_zero_iff.mp (toBE_inj m.answers_lt (by decide) hanswers),
    length_eq_zero_iff.mp (toBE_inj m.authority_lt (by decide) hauthority),
    length_eq_zero_iff.mp (toBE_inj m.additional_lt (by decide) hadditional)⟩

theorem parseDnsQuery_returns {q : DnsQuery} (h : Returns (parseDnsQuery query) q) :
    dnsHeaderLen≤query.length ∧ ∃ labels stop,
      Returns (queryLabels query (query.length+1) dnsHeaderLen) (labels,stop) ∧
        stop+4≤query.length := by
  obtain ⟨hheader,h⟩ := returns_ite_failure.1 h
  obtain ⟨id,-,h⟩ := returns_bind.1 h
  obtain ⟨qdcount,-,h⟩ := returns_bind.1 h
  obtain ⟨-,h⟩ := returns_ite_failure.1 h
  obtain ⟨⟨labels,stop⟩,hlabels,h⟩ := returns_bind.1 h
  obtain ⟨hfixed,-⟩ := returns_ite_failure.1 h
  exact ⟨Nat.not_lt.mp hheader,labels,stop,hlabels,Nat.not_lt.mp hfixed⟩

theorem EndsWithQuestion.of_answers {q : DnsQuery} (hq : Returns (parseDnsQuery query) q)
    (h : AnswersQuery query (buildErrorResponse query rcode)) : EndsWithQuestion query := by
  obtain ⟨hheader,labels,stop,hlabels,-⟩ := parseDnsQuery_returns hq
  obtain ⟨m,hwire,-,-,question,hquestions,-⟩ := h
  rw [buildErrorResponse_eq hheader rcode] at hwire
  obtain ⟨hsame,hsections⟩ := append_inj hwire
    (by rw [m.header_length,errorHeader_length hheader])
  obtain ⟨hanswers,hauthority,hadditional⟩ := counts_of_header hsame hheader
  simp only [hquestions,hanswers,hauthority,hadditional,flatMap_cons,flatMap_nil,
    append_nil] at hsections
  have hat : At query dnsHeaderLen question.wire := by
    simp [At,hsections]
  -- both readers stop behind the name
  have hstop := (queryLabels_skipName hlabels).unique (skipName_at (at_append.mp hat).1)
  have hlength := congrArg List.length hsections
  rw [question.wire_length,length_drop] at hlength
  exact ⟨labels,stop,hlabels,by omega⟩

theorem EndsWithQuestion.question (h : EndsWithQuestion query) :
    ∃ question : WireQuestion,query.drop dnsHeaderLen=question.wire := by
  obtain ⟨labels,stop,hlabels,hend⟩ := h
  obtain ⟨name,hname,hstop⟩ := queryLabels_wire hlabels
  obtain ⟨qtype,hqtype⟩ := returns_numAt query stop 2 (by omega)
  obtain ⟨qclass,hqclass⟩ := returns_numAt query (stop+2) 2 (by omega)
  obtain ⟨hqtype,hqtype_lt⟩ := at_of_returns_numAt hqtype
  obtain ⟨hqclass,hqclass_lt⟩ := at_of_returns_numAt hqclass
  let question : WireQuestion := ⟨name,UInt16.ofNat qtype,UInt16.ofNat qclass⟩
  have hwire : question.wire=name.wire++(toBE 2 qtype++toBE 2 qclass) := by
    simp only [question,WireQuestion.wire,toNat_ofNat_uint16 hqtype_lt,
      toNat_ofNat_uint16 hqclass_lt]
  have hat : At query dnsHeaderLen question.wire := by
    rw [hwire,at_append,at_append,← hstop,toBE_length]
    exact ⟨hname,hqtype,hqclass⟩
  refine ⟨question,(List.IsPrefix.eq_of_length hat ?_).symm⟩
  rw [question.wire_length,length_drop]
  have hquestion : question.name=name := rfl
  rw [hquestion]
  omega

def errorMessage (id : Nat) (flags : Nat) (question : WireQuestion) : Message where
  id := UInt16.ofNat id
  flags := UInt16.ofNat flags
  questions := [question]
  answers := []
  authority := []
  additional := []
  questions_lt := one_lt_count
  answers_lt := zero_lt_count
  authority_lt := zero_lt_count
  additional_lt := zero_lt_count

theorem answersQuery_of_endsWithQuestion (hheader : dnsHeaderLen≤query.length)
    (h : EndsWithQuestion query) : AnswersQuery query (buildErrorResponse query rcode) := by
  obtain ⟨question,hquestion⟩ := h.question
  have htwo : 0+2≤query.length := Nat.le_trans (by decide) hheader
  obtain ⟨id,hid⟩ := returns_numAt query 0 2 htwo
  obtain ⟨hat,hid_lt⟩ := at_of_returns_numAt hid
  have hflags := errorFlags_lt query rcode
  have htake : query.take 2=toBE 2 id := by
    have htake := prefix_iff_eq_take.mp hat
    rw [toBE_length,drop_zero] at htake
    exact htake.symm
  refine ⟨errorMessage id (errorFlags query rcode) question,?_,?_,?_,question,rfl,?_⟩
  · rw [buildErrorResponse_eq hheader,hquestion,errorHeader,htake]
    simp only [Message.wire,Message.header,errorMessage,toNat_ofNat_uint16 hid_lt,
      toNat_ofNat_uint16 hflags,flatMap_cons,flatMap_nil,append_nil]
    rfl
  · rw [Message.IsResponse,errorMessage,toNat_ofNat_uint16 hflags]
    exact errorFlags_response query rcode
  · rw [errorMessage,toNat_ofNat_uint16 hid_lt]
    exact hid
  · simp [At,hquestion]

/-- The reply to an accepted query is a message just if nothing follows the query's first question:
what follows is echoed too, but not counted. -/
theorem answersQuery_iff {q : DnsQuery} (hq : Returns (parseDnsQuery query) q) (rcode : UInt8) :
    AnswersQuery query (buildErrorResponse query rcode) ↔ EndsWithQuestion query :=
  ⟨EndsWithQuestion.of_answers hq,answersQuery_of_endsWithQuestion (parseDnsQuery_returns hq).1⟩

def plainQuery : List UInt8 := [0x12,0x34,1,0,0,1,0,0,0,0,0,0,1,0x61,0,0,1,0,1]

def ednsQuery : List UInt8 := [0x12,0x34,1,0,0,1,0,0,0,0,0,1,1,0x61,0,0,1,0,1,
    0,0,41,0x10,0,0,0,0x80,0,0,0]

theorem plainQuery_answered : Returns (parseDnsQuery plainQuery) ⟨0x1234, "a",1,false,false⟩ ∧
      AnswersQuery plainQuery (buildErrorResponse plainQuery 2) := by
  have hq : Returns (parseDnsQuery plainQuery) ⟨0x1234, "a",1,false,false⟩ := by
    unfold Returns
    decide +kernel
  have hlabels : Returns (queryLabels plainQuery (plainQuery.length+1) dnsHeaderLen) (["a"],15) := by
    unfold Returns
    decide +kernel
  exact ⟨hq,(answersQuery_iff hq 2).mpr ⟨["a"],15,hlabels,rfl⟩⟩

/-- The OPT record of a query is left behind the question of the reply, which counts none. -/
theorem ednsQuery_not_answered : Returns (parseDnsQuery ednsQuery) ⟨0x1234, "a",1,true,true⟩ ∧
      ¬AnswersQuery ednsQuery (buildErrorResponse ednsQuery 2) := by
  have hq : Returns (parseDnsQuery ednsQuery) ⟨0x1234, "a",1,true,true⟩ := by
    unfold Returns
    decide +kernel
  have hlabels : Returns (queryLabels ednsQuery (ednsQuery.length+1) dnsHeaderLen) (["a"],15) := by
    unfold Returns
    decide +kernel
  refine ⟨hq,fun h => ?_⟩
  obtain ⟨labels,stop,hother,hend⟩ := EndsWithQuestion.of_answers hq h
  cases hother.unique hlabels
  exact absurd hend (by decide)

end Reply

end DaeRs.Dns
