import DaeRs.Dns.Session

/-! What a query asks, and what the key of the cache keeps of it. -/

namespace DaeRs.Dns

open Checked RustStr Forwarder List String

/-- What a query asks: names are compared without regard to case. -/
structure Question where
  labels : List String
  qtype : UInt16
  qclass : UInt16
  dnssecOk : Bool
  deriving DecidableEq

section Format

variable (buf : List UInt8)

def skipRecords : Nat → Nat → Parse Nat
  | 0,pos => pure pos
  | n+1,pos => do
    let r ← recordAt buf pos
    skipRecords n r.stop

def recordsDo : Nat → Nat → Parse Bool
  | 0,_ => pure false
  | n+1,pos => do
    let r ← recordAt buf pos
    if r.rtype=typeOpt then pure (r.ttl/2^8%2^8 &&& 0x80 != 0)
    else recordsDo n r.stop

/-- The DO bit in the additional section, which starts behind the other sections. -/
def additionalDo : Parse Bool := do
  let qdcount ← numAt buf 4 2
  let ancount ← numAt buf 6 2
  let nscount ← numAt buf 8 2
  let arcount ← numAt buf 10 2
  let pos ← skipQuestions buf qdcount dnsHeaderLen
  let pos ← skipRecords buf (ancount+nscount) pos
  recordsDo buf arcount pos

def question : Parse Question := do
  let (labels,pos) ← queryLabels buf (buf.length+1) dnsHeaderLen
  let qtype ← numAt buf pos 2
  let qclass ← numAt buf (pos+2) 2
  let dnssecOk ← OptionT.mk ((additionalDo buf).run.map fun o => some (o.getD false))
  pure ⟨labels,UInt16.ofNat qtype,UInt16.ofNat qclass,dnssecOk⟩

/-- A query as it is usually sent: one question, additional records as the header counts them, and
nothing else. -/
structure Plain : Prop where
  qdcount : Returns (numAt buf 4 2) 1
  ancount : Returns (numAt buf 6 2) 0
  nscount : Returns (numAt buf 8 2) 0
  additional : ∃ arcount pos,Returns (numAt buf 10 2) arcount ∧
    Returns (skipQuestions buf 1 dnsHeaderLen) pos ∧ Returns (skipRecords buf arcount pos) buf.length

end Format

section Reading

variable {buf : List UInt8}

/-- A name as `queryLabels` goes through it: label by label, up to the root. -/
inductive ReadsLabels (buf : List UInt8) : Nat → Nat → List String → Nat → Prop
  | root {fuel pos : Nat} (hpos : ¬pos≥buf.length) (hlen : Returns (numAt buf pos 1) 0) :
      ReadsLabels buf (fuel+1) pos [] (pos+1)
  | label {fuel pos len stop : Nat} {bytes : List UInt8} {label : String} {labels : List String}
      (hpos : ¬pos≥buf.length) (hlen : Returns (numAt buf pos 1) len) (hzero : len≠0)
      (hcond : ¬(len &&& 0xC0=0xC0 ∨ len > 63 ∨ pos+1+len > buf.length))
      (hbytes : Returns (bytesAt buf (pos+1) len) bytes)
      (hlabel : fromUTF8? ⟨bytes.toArray⟩=some label)
      (hrest : ReadsLabels buf fuel (pos+1+len) labels stop) :
      ReadsLabels buf (fuel+1) pos (toAsciiLowercase label::labels) stop

variable {labels : List String} {fuel pos stop : Nat}

theorem readsLabels_of_returns (h : Returns (queryLabels buf fuel pos) (labels,stop)) :
    ReadsLabels buf fuel pos labels stop := by
  induction fuel generalizing pos labels with
  | zero => cases h
  | succ fuel ih =>
    obtain ⟨hpos,h⟩ := returns_ite_failure.1 h
    obtain ⟨len,hlen,h⟩ := returns_bind.1 h
    by_cases hzero : len=0
    · rw [if_pos hzero] at h
      cases returns_pure.1 h
      exact .root hpos (hzero ▸ hlen)
    rw [if_neg hzero] at h
    obtain ⟨hcond,h⟩ := returns_ite_failure.1 h
    obtain ⟨bytes,hbytes,h⟩ := returns_bind.1 h
    cases hlabel : fromUTF8? ⟨bytes.toArray⟩ with
    | none =>
      simp only [hlabel] at h
      exact absurd h not_returns_failure
    | some label =>
      simp only [hlabel] at h
      obtain ⟨⟨rest,stop'⟩,hrest,h⟩ := returns_bind.1 h
      cases returns_pure.1 h
      exact .label hpos hlen hzero hcond hbytes hlabel (ih hrest)

theorem queryLabels_skipName (h : Returns (queryLabels buf fuel pos) (labels,stop)) :
    Returns (skipNameLoop buf fuel pos) stop := by
  replace h := readsLabels_of_returns h
  induction h with
  | root hpos hlen => exact returns_ite_failure.2 ⟨hpos,returns_bind.2 ⟨0,hlen,returns_pure.2 rfl⟩⟩
  | label hpos hlen hzero hcond _ _ _ ih =>
    refine returns_ite_failure.2 ⟨hpos,returns_bind.2 ⟨_,hlen,?_⟩⟩
    rw [if_neg hzero,if_neg fun hptr => hcond (.inl hptr)]
    exact returns_ite_failure.2 ⟨fun hlong => hcond (.inr hlong),ih⟩

theorem bytes_eq_nil {bytes : List UInt8} {label : String}
    (h : fromUTF8? ⟨bytes.toArray⟩=some label) (hempty : toAsciiLowercase label = "") :
    bytes=[] := by
  have hlabel : label = "" := by
    rw [← toList_inj] at hempty ⊢
    simpa [toAsciiLowercase] using hempty
  rw [hlabel,fromUTF8?] at h
  split_ifs at h with hvalid
  have hdata : bytes.toArray=#[] := congrArg (fun s => s.toByteArray.data) (Option.some.inj h)
  simpa using hdata

theorem queryLabels_ne_empty
    (h : Returns (queryLabels buf fuel pos) (labels,stop)) : ∀ label∈labels,label ≠ "" := by
  replace h := readsLabels_of_returns h
  induction h with
  | root => simp
  | label _ _ hzero _ hbytes hlabel _ ih =>
    intro l hl
    rcases mem_cons.mp hl with rfl | hl
    · intro hempty
      obtain ⟨hbound,hslice⟩ := returns_bytesAt.1 hbytes
      rw [bytes_eq_nil hlabel hempty,Octets.slice] at hslice
      have hlength := congrArg List.length hslice
      simp only [length_take,length_drop,length_nil] at hlength
      omega
    · exact ih l hl

theorem optDoBit_eq_recordsDo (fuel : Nat) {n pos : Nat}
    (hend : Returns (skipRecords buf n pos) buf.length)
    (hfuel : buf.length<fuel+pos) :
    ∃ o b,(optDoBit buf fuel pos).run=.ok o ∧ Returns (recordsDo buf n pos) b ∧ o.getD false=b := by
  induction n generalizing fuel pos with
  | zero =>
    cases returns_pure.1 hend
    cases fuel with
    | zero => omega
    | succ fuel =>
      refine ⟨none,false,?_,returns_pure.2 rfl,rfl⟩
      rw [optDoBit,if_pos (by omega)]
      rfl
  | succ n ih =>
    obtain ⟨r,hr,hrest⟩ := returns_bind.1 hend
    obtain ⟨hdata,hstop⟩ := (recordAt_sound pos).returns hr
    have hlength : r.rdata ≤ r.stop := Nat.le_add_right _ _
    cases fuel with
    | zero => omega
    | succ fuel =>
      rw [optDoBit,if_neg (by omega),hr.bind_eq,recordsDo,hr.bind_eq]
      by_cases hopt : r.rtype=typeOpt
      · rw [if_pos hopt,if_pos hopt]
        exact ⟨_,_,rfl,rfl,rfl⟩
      · rw [if_neg hopt,if_neg hopt]
        exact ih fuel hrest (by omega)

theorem skipRecords_sound (n pos : Nat) : Sound (skipRecords buf n pos) fun _ => True := by
  induction n generalizing pos with
  | zero => exact sound_pure trivial
  | succ n ih => exact sound_bind (recordAt_sound pos) fun r _ => ih _

theorem recordsDo_sound (n pos : Nat) : Sound (recordsDo buf n pos) fun _ => True := by
  induction n generalizing pos with
  | zero => exact sound_pure trivial
  | succ n ih =>
    refine sound_bind (recordAt_sound pos) fun r _ => ?_
    exact sound_ite (fun _ => sound_pure trivial) fun _ => ih _

theorem additionalDo_sound (h : dnsHeaderLen≤buf.length) :
    Sound (additionalDo buf) fun _ => True := by
  rw [dnsHeaderLen] at h
  refine sound_bind (sound_numAt (by omega)) fun qdcount _ => ?_
  refine sound_bind (sound_numAt (by omega)) fun ancount _ => ?_
  refine sound_bind (sound_numAt (by omega)) fun nscount _ => ?_
  refine sound_bind (sound_numAt (by omega)) fun arcount _ => ?_
  refine sound_bind (skipQuestions_sound _ _) fun pos _ => ?_
  exact sound_bind (skipRecords_sound _ _) fun pos _ => recordsDo_sound _ _

theorem plain_additionalDo (h : Plain buf) : ∃ pos arcount,
    Returns (skipQuestions buf 1 dnsHeaderLen) pos ∧
      Returns (skipRecords buf arcount pos) buf.length ∧
      additionalDo buf=recordsDo buf arcount pos := by
  obtain ⟨arcount,pos,har,hpos,hend⟩ := h.additional
  refine ⟨pos,arcount,hpos,hend,?_⟩
  have hnone : Returns (skipRecords buf (0+0) pos) pos := returns_pure.2 rfl
  rw [additionalDo,h.qdcount.bind_eq,h.ancount.bind_eq,h.nscount.bind_eq,har.bind_eq,
    hpos.bind_eq,hnone.bind_eq]

end Reading

/-- What the parser of queries keeps of a question. -/
structure Asked.Asks (q : Asked) (x : Question) : Prop where
  reads : Returns (question q.query) x
  qname : q.parsed.qname = ".".intercalate x.labels
  qtype : q.parsed.qtype=x.qtype
  labels : ∀ label∈x.labels,label ≠ ""
  doBit : Plain q.query → q.parsed.doBit=x.dnssecOk

theorem Asked.asks (q : Asked) : ∃ x,q.Asks x := by
  have hparse : Returns (parseDnsQuery q.query) q.parsed := q.parses
  obtain ⟨hheader,hparse⟩ := returns_ite_failure.1 hparse
  obtain ⟨id,-,hparse⟩ := returns_bind.1 hparse
  obtain ⟨qdcount,-,hparse⟩ := returns_bind.1 hparse
  obtain ⟨-,hparse⟩ := returns_ite_failure.1 hparse
  obtain ⟨⟨labels,pos⟩,hlabels,hparse⟩ := returns_bind.1 hparse
  obtain ⟨hfixed,hparse⟩ := returns_ite_failure.1 hparse
  obtain ⟨qtype,hqtype,hparse⟩ := returns_bind.1 hparse
  obtain ⟨⟨hasEdns,doBit⟩,hedns,hparse⟩ := returns_bind.1 hparse
  have hparsed := returns_pure.1 hparse
  obtain ⟨qclass,hqclass⟩ := returns_numAt q.query (pos+2) 2 (by omega)
  obtain ⟨o,ho,-⟩ := additionalDo_sound (Nat.not_lt.mp hheader)
  refine ⟨⟨labels,UInt16.ofNat qtype,UInt16.ofNat qclass,o.getD false⟩,?_,?_,?_,?_,?_⟩
  · refine returns_bind.2 ⟨_,hlabels,returns_bind.2 ⟨_,hqtype,returns_bind.2 ⟨_,hqclass,?_⟩⟩⟩
    refine returns_bind.2 ⟨o.getD false,?_,returns_pure.2 rfl⟩
    rw [Returns,OptionT.run_mk,ho]
    rfl
  · rw [← hparsed]
  · rw [← hparsed]
  · exact queryLabels_ne_empty hlabels
  · intro hplain
    obtain ⟨pos',arcount,hpos',hend,heq⟩ := plain_additionalDo hplain
    obtain ⟨stop,hstop,hpos'⟩ := returns_bind.1 hpos'
    obtain ⟨-,hpos'⟩ := returns_ite_failure.1 hpos'
    cases returns_pure.1 hpos'
    cases hstop.unique (queryLabels_skipName hlabels)
    obtain ⟨o',b,ho',hb,hob⟩ := optDoBit_eq_recordsDo (q.query.length+1) hend (by omega)
    rw [Returns,parseEdns,OptionT.run_mk,ho'] at hedns
    rw [heq,hb] at ho
    cases ho
    cases hedns
    rw [← hparsed]
    exact hob

theorem labels_eq_iff {ls ls' : List String} (h : ".".intercalate ls = ".".intercalate ls') :
    ls=ls' ↔ ls.map String.length=ls'.map String.length := by
  refine ⟨fun heq => by rw [heq],fun hlength => ?_⟩
  rw [← toList_inj,toList_intercalate,toList_intercalate] at h
  have hchars := intercalate_inj h (by simpa [Function.comp_def,length_toList] using hlength)
  exact map_injective_iff.mpr (fun _ _ => toList_inj.1) hchars

theorem splitOn_name {ls : List String} (hls : ls≠[]) (hdots : ∀ l∈ls, '.' ∉ l.toList) :
    (".".intercalate ls).toList.splitOn '.' = ls.map toList := by
  rw [toList_intercalate]
  apply splitOn_intercalate
  · intro l hl
    obtain ⟨s,hs,rfl⟩ := mem_map.mp hl
    exact hdots s hs
  · simpa using hls

theorem name_ne_empty {ls : List String} (hls : ls≠[]) (hempty : ∀ l∈ls,l ≠ "")
    (hdots : ∀ l∈ls, '.' ∉ l.toList) : ".".intercalate ls ≠ "" := by
  intro hname
  have hsplit := splitOn_name hls hdots
  rw [hname] at hsplit
  have hone : ls.map toList=[[]] := hsplit.symm
  obtain ⟨l,hl,hnil⟩ := map_eq_singleton_iff.mp hone
  exact hempty l (by simp [hl]) (toList_inj.1 hnil)

theorem labels_eq_of_no_dots {ls ls' : List String} (h : ".".intercalate ls = ".".intercalate ls')
    (hempty : ∀ l∈ls,l ≠ "") (hempty' : ∀ l∈ls',l ≠ "")
    (hdots : ∀ l∈ls, '.' ∉ l.toList) (hdots' : ∀ l∈ls', '.' ∉ l.toList) : ls=ls' := by
  by_cases hls : ls=[]
  · by_cases hls' : ls'=[]
    · rw [hls,hls']
    · rw [hls] at h
      exact absurd h.symm (name_ne_empty hls' hempty' hdots')
  · by_cases hls' : ls'=[]
    · rw [hls'] at h
      exact absurd h (name_ne_empty hls hempty hdots)
    · have hchars : ls.map toList=ls'.map toList := by
        rw [← splitOn_name hls hdots,← splitOn_name hls' hdots',h]
      exact map_injective_iff.mpr (fun _ _ => toList_inj.1) hchars

/-- A response that `resolve` stores for a query. -/
structure Store where
  asked : Asked
  response : List UInt8
  now : Nat

def Store.reply (s : Store) : Reply := ⟨s.response,s.asked.query⟩

def storeAll (g : Group) : List Store → DnsCache Reply
  | [] => .new
  | s::stores => cacheStore g (storeAll g stores) s.asked s.now s.reply

theorem ttl_length {response : List UInt8} {ttl : Nat}
    (h : Returns (parseResponseMinTtl response) ttl) : dnsHeaderLen ≤ response.length :=
  Nat.not_lt.mp (returns_ite_failure.1 h).1

theorem mem_storeAll {g : Group} {stores : List Store} {e : CacheKey×CacheEntry Reply}
    (he : e∈(storeAll g stores).entries) :
    ∃ s∈stores,e.1=s.asked.parsed.key ∧ e.2.response=s.reply ∧
      dnsHeaderLen ≤ s.response.length := by
  induction stores with
  | nil => cases he
  | cons s stores ih =>
    have hold (he : e∈(storeAll g stores).entries) : ∃ s'∈s::stores,
        e.1=s'.asked.parsed.key ∧ e.2.response=s'.reply ∧ dnsHeaderLen ≤ s'.response.length := by
      obtain ⟨s',hs',hrest⟩ := ih he
      exact ⟨s',mem_cons_of_mem s hs',hrest⟩
    rw [storeAll,cacheStore] at he
    split_ifs at he
    · exact hold he
    split at he
    · rename_i ttl httl
      rcases DnsCache.mem_insert he with he | ⟨hkey,hresponse⟩
      · exact hold he
      · exact ⟨s,mem_cons_self,hkey,hresponse,ttl_length httl⟩
    · exact hold he

theorem rewriteResponseId_parts {response : List UInt8} (h : dnsHeaderLen ≤ response.length)
    (id : UInt16) :
    (rewriteResponseId response id).take 2 =[UInt8.ofNat (id.toNat/2^8),UInt8.ofNat id.toNat] ∧
      (rewriteResponseId response id).drop 2=response.drop 2 := by
  rw [dnsHeaderLen] at h
  rw [rewriteResponseId,if_pos (by omega)]
  exact ⟨rfl,rfl⟩

/-- What is served for a query was stored for one with the same key, and only its id is replaced.
That query asked the same exactly when class, division into labels and DO bit are the same; the
division is if no label has a dot, the DO bit if both queries are plain. -/
theorem served_question_iff (g : Group) (stores : List Store) (q : Asked) (now : Nat) {r : Reply}
    (hserved : cachedLookup g (storeAll g stores) q now=some r) :
    ∃ s∈stores,r.origin=s.asked.query ∧
      r.payload.take 2=[UInt8.ofNat (q.parsed.id.toNat/2^8),UInt8.ofNat q.parsed.id.toNat] ∧
      r.payload.drop 2=s.response.drop 2 ∧
      ∃ x y,Returns (question s.asked.query) x ∧ Returns (question q.query) y ∧
        (x=y ↔ x.qclass=y.qclass ∧ x.dnssecOk=y.dnssecOk ∧
          x.labels.map String.length=y.labels.map String.length) ∧
        ((∀ l∈x.labels++y.labels, '.' ∉ l.toList) → x.labels=y.labels) ∧
        (Plain s.asked.query → Plain q.query → x.dnssecOk=y.dnssecOk) := by
  unfold cachedLookup at hserved
  split_ifs at hserved
  obtain ⟨r',hget,rfl⟩ := Option.map_eq_some_iff.mp hserved
  obtain ⟨e,he,hkey,hresponse⟩ := DnsCache.get_mem hget
  obtain ⟨s,hs,hkey',hstored,hlength⟩ := mem_storeAll he
  have hsame : s.asked.parsed.key=q.parsed.key := hkey'.symm.trans hkey
  obtain ⟨hqname,hqtype,-,hdo⟩ := CacheKey.mk.inj hsame
  rw [← hresponse,hstored]
  obtain ⟨hid,hrest⟩ := rewriteResponseId_parts hlength q.parsed.id
  obtain ⟨x,hx⟩ := s.asked.asks
  obtain ⟨y,hy⟩ := q.asks
  have hname : ".".intercalate x.labels = ".".intercalate y.labels := by
    rw [← hx.qname,hqname,hy.qname]
  have htype : x.qtype=y.qtype := by rw [← hx.qtype,hqtype,hy.qtype]
  refine ⟨s,hs,rfl,hid,hrest,x,y,hx.reads,hy.reads,?_,?_,?_⟩
  · rw [← labels_eq_iff hname]
    constructor
    · rintro rfl
      exact ⟨rfl,rfl,rfl⟩
    · rintro ⟨hclass,hdnssec,hlabels⟩
      cases x
      cases y
      simp only at htype hclass hdnssec hlabels
      rw [htype,hclass,hdnssec,hlabels]
  · intro hdots
    exact labels_eq_of_no_dots hname hx.labels hy.labels
      (fun l hl => hdots l (List.mem_append_left _ hl))
      (fun l hl => hdots l (List.mem_append_right _ hl))
  · intro hplain hplain'
    rw [← hx.doBit hplain,hdo,hy.doBit hplain']

def nameQuery (id : UInt8) (name : List UInt8) (qclass : UInt8) : List UInt8 :=
  [0,id,1,0,0,1,0,0,0,0,0,0]++name++[0,1,0,qclass]

def nameResponse (id : UInt8) (name : List UInt8) (qclass : UInt8) : List UInt8 :=
  [0,id,0x81,0x80,0,1,0,1,0,0,0,0]++name++[0,1,0,qclass] ++
    [0xC0,0x0C,0,1,0,qclass,0,0,1,44,0,4,192,0,2,1]

def twoLabels : List UInt8 := [1,97,1,98,0]

def oneLabel : List UInt8 := [3,97,46,98,0]

def twoLabelsAsked : Asked := ⟨nameQuery 1 twoLabels 1,⟨1, "a.b",1,false,false⟩,by decide +kernel⟩

def twoLabelsAskedAgain : Asked :=
  ⟨nameQuery 2 twoLabels 1,⟨2, "a.b",1,false,false⟩,by decide +kernel⟩

theorem served_same_question :
    let s : Store := ⟨twoLabelsAsked,nameResponse 1 twoLabels 1,0⟩
    ∃ r,cachedLookup dnsGroup (storeAll dnsGroup [s]) twoLabelsAskedAgain 1=some r ∧
      r.payload.drop 2=(nameResponse 1 twoLabels 1).drop 2 := by
  intro s
  have hsome :
      (cachedLookup dnsGroup (storeAll dnsGroup [s]) twoLabelsAskedAgain 1).isSome=true := by
    decide +kernel
  obtain ⟨r,hr⟩ := Option.isSome_iff_exists.mp hsome
  obtain ⟨s',hs',-,-,hrest,-⟩ := served_question_iff dnsGroup [s] twoLabelsAskedAgain 1 hr
  rw [List.mem_singleton.mp hs'] at hrest
  exact ⟨r,hr,hrest⟩

def servedFor (query response later : List UInt8) : Option (List UInt8) := do
  let q ← Asked.of query
  let q' ← Asked.of later
  let r ← cachedLookup dnsGroup (storeAll dnsGroup [⟨q,response,0⟩]) q' 1
  pure r.payload

/-- The address of the name with the label `a.b` is served for the name with the labels `a` and `b`,
and also for another class. -/
theorem served_other_question :
    servedFor (nameQuery 1 oneLabel 1) (nameResponse 1 oneLabel 1) (nameQuery 2 twoLabels 1) =
        some (nameResponse 2 oneLabel 1) ∧
      servedFor (nameQuery 1 twoLabels 1) (nameResponse 1 twoLabels 1) (nameQuery 2 twoLabels 3) =
        some (nameResponse 2 twoLabels 1) ∧
      (question (nameQuery 1 oneLabel 1)).run.toOption =some (some ⟨["a.b"],1,1,false⟩) ∧
      (question (nameQuery 2 twoLabels 1)).run.toOption =some (some ⟨["a", "b"],1,1,false⟩) ∧
      (question (nameQuery 2 twoLabels 3)).run.toOption =some (some ⟨["a", "b"],1,3,false⟩) := by
  decide +kernel

end DaeRs.Dns
