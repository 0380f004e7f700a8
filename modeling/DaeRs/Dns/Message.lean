import DaeRs.Lib.Checked
import DaeRs.Lib.RustStr

/-! The parts of DNS messages that the forwarder reads. -/

namespace DaeRs.Dns

open Checked RustStr

def dnsHeaderLen : Nat := 12

structure DnsQuery where
  id : UInt16
  qname : String
  qtype : UInt16
  hasEdns : Bool
  doBit : Bool
  deriving DecidableEq

section Parsers

variable (buf : List UInt8)

def skipNameLoop : Nat → Nat → Parse Nat
  | 0,_ => fault .endless
  | fuel+1,pos =>
    if pos≥buf.length then failure
    else do
      let len ← numAt buf pos 1
      if len=0 then pure (pos+1)
      else if len &&& 0xC0=0xC0 then pure (pos+2)
      else if len > 63 ∨ pos+1+len > buf.length then failure
      else skipNameLoop fuel (pos+1+len)

def skipName (pos : Nat) : Parse Nat := skipNameLoop buf (buf.length+1) pos

def queryLabels : Nat → Nat → Parse (List String×Nat)
  | 0,_ => fault .endless
  | fuel+1,pos =>
    if pos≥buf.length then failure
    else do
      let len ← numAt buf pos 1
      if len=0 then pure ([],pos+1)
      else if len &&& 0xC0=0xC0 ∨ len > 63 ∨ pos+1+len > buf.length then failure
      else do
        let bytes ← bytesAt buf (pos+1) len
        match String.fromUTF8? ⟨bytes.toArray⟩ with
        | none => failure
        | some label => do
          let (labels,pos) ← queryLabels fuel (pos+1+len)
          pure (toAsciiLowercase label::labels,pos)

structure Record where
  rtype : Nat
  ttl : Nat
  rdata : Nat
  rdlength : Nat

def Record.stop (r : Record) : Nat := r.rdata+r.rdlength

def recordAt (pos : Nat) : Parse Record := do
  let pos ← skipName buf pos
  if pos+10 > buf.length then failure
  else do
    let rtype ← numAt buf pos 2
    let ttl ← numAt buf (pos+4) 4
    let rdlength ← numAt buf (pos+8) 2
    if pos+10+rdlength > buf.length then failure
    else pure ⟨rtype,ttl,pos+10,rdlength⟩

def typeOpt : Nat := 41

def optDoBit : Nat → Nat → Parse Bool
  | 0,_ => fault .endless
  | fuel+1,pos =>
    if pos+11 > buf.length then failure
    else do
      let r ← recordAt buf pos
      -- the third byte of the TTL
      if r.rtype=typeOpt then pure (r.ttl/2^8%2^8 &&& 0x80 != 0)
      else optDoBit fuel r.stop

def parseEdns (pos : Nat) : Parse (Bool×Bool) :=
  OptionT.mk ((optDoBit buf (buf.length+1) pos).run.map fun o =>
    some (o.isSome,o.getD false))

def parseDnsQuery : Parse DnsQuery :=
  if buf.length<dnsHeaderLen then failure
  else do
    let id ← numAt buf 0 2
    let qdcount ← numAt buf 4 2
    if qdcount=0 then failure
    else do
      let (labels,pos) ← queryLabels buf (buf.length+1) dnsHeaderLen
      if pos+4 > buf.length then failure
      else do
        let qtype ← numAt buf pos 2
        let (hasEdns,doBit) ← parseEdns buf (pos+4)
        pure ⟨UInt16.ofNat id, ".".intercalate labels,UInt16.ofNat qtype,hasEdns,doBit⟩

def skipQuestions : Nat → Nat → Parse Nat
  | 0,pos => pure pos
  | n+1,pos => do
    let pos ← skipName buf pos
    if pos+4 > buf.length then failure else skipQuestions n (pos+4)

def answersMinTtl : Nat → Nat → Option Nat → Parse (Option Nat)
  | 0,_,minTtl => pure minTtl
  | n+1,pos,minTtl => do
    let r ← recordAt buf pos
    answersMinTtl n r.stop (some (minTtl.elim r.ttl fun m => min m r.ttl))

def typeSoa : Nat := 6
def negativeTtlCapSecs : Nat := 3600

def parseNegativeTtl : Nat → Nat → Parse Nat
  | 0,_ => pure 0
  | n+1,pos => do
    let r ← recordAt buf pos
    if r.rtype=typeSoa then
      if r.rdlength<22 then failure
      else do
        let minimum ← numAt buf (r.stop-4) 4
        pure (min (min r.ttl minimum) negativeTtlCapSecs)
    else parseNegativeTtl n r.stop

def parseResponseMinTtl : Parse Nat :=
  if buf.length<dnsHeaderLen then failure
  else do
    let flags ← numAt buf 2 2
    if flags &&& 0x8000=0 then failure
    else do
      let qdcount ← numAt buf 4 2
      let ancount ← numAt buf 6 2
      let nscount ← numAt buf 8 2
      let pos ← skipQuestions buf qdcount dnsHeaderLen
      if ancount=0 then
        let rcode := flags &&& 0x000F
        if rcode≠0 ∧ rcode≠3 then pure 0 else parseNegativeTtl buf nscount pos
      else do
        match ← answersMinTtl buf ancount pos none with
        | some ttl => pure ttl
        | none => failure

end Parsers

def rewriteResponseId (response : List UInt8) (id : UInt16) : List UInt8 :=
  if response.length≥2 then
    UInt8.ofNat (id.toNat/2^8)::UInt8.ofNat id.toNat::response.drop 2
  else response

section Sound

variable {buf : List UInt8}

theorem skipNameLoop_sound {fuel pos : Nat} (hfuel : 0<fuel) (h : buf.length<fuel+pos) :
    Sound (skipNameLoop buf fuel pos) fun stop => pos < stop := by
  induction fuel generalizing pos with
  | zero => exact absurd hfuel (Nat.lt_irrefl 0)
  | succ fuel ih =>
    refine sound_ite (fun _ => sound_failure) fun hpos => ?_
    refine sound_bind (sound_numAt (by omega)) fun len _ => ?_
    refine sound_ite (fun _ => sound_pure (by omega)) fun hlen => ?_
    refine sound_ite (fun _ => sound_pure (by omega)) fun _ => ?_
    refine sound_ite (fun _ => sound_failure) fun _ => ?_
    have hrest : Sound (skipNameLoop buf fuel (pos+1+len)) fun stop => pos+1+len < stop :=
      ih (by omega) (by omega)
    exact hrest.mono fun stop hstop => by omega

theorem skipName_sound (pos : Nat) : Sound (skipName buf pos) fun stop => pos < stop :=
  skipNameLoop_sound (by omega) (by omega)

theorem queryLabels_sound {fuel pos : Nat} (hfuel : 0<fuel) (h : buf.length<fuel+pos) :
    Sound (queryLabels buf fuel pos) fun _ => True := by
  induction fuel generalizing pos with
  | zero => exact absurd hfuel (Nat.lt_irrefl 0)
  | succ fuel ih =>
    refine sound_ite (fun _ => sound_failure) fun hpos => ?_
    refine sound_bind (sound_numAt (by omega)) fun len _ => ?_
    refine sound_ite (fun _ => sound_pure trivial) fun hlen => ?_
    refine sound_ite (fun _ => sound_failure) fun hend => ?_
    refine sound_bind (sound_bytesAt (by omega)) fun bytes _ => ?_
    cases String.fromUTF8? ⟨bytes.toArray⟩ with
    | none => exact sound_failure
    | some label =>
      exact sound_bind (ih (by omega) (by omega)) fun _ _ => sound_pure trivial

theorem recordAt_sound (pos : Nat) :
    Sound (recordAt buf pos) fun r => pos+10 < r.rdata ∧ r.stop≤buf.length := by
  refine sound_bind (skipName_sound pos) fun stop hstop => ?_
  refine sound_ite (fun _ => sound_failure) fun hfixed => ?_
  refine sound_bind (sound_numAt (by omega)) fun rtype _ => ?_
  refine sound_bind (sound_numAt (by omega)) fun ttl _ => ?_
  refine sound_bind (sound_numAt (by omega)) fun rdlength _ => ?_
  refine sound_ite (fun _ => sound_failure) fun hdata => sound_pure ⟨?_,?_⟩
  · exact Nat.add_lt_add_right hstop 10
  · exact Nat.not_lt.mp hdata

theorem optDoBit_sound {fuel pos : Nat} (hfuel : 0<fuel) (h : buf.length<fuel+pos) :
    Sound (optDoBit buf fuel pos) fun _ => True := by
  induction fuel generalizing pos with
  | zero => exact absurd hfuel (Nat.lt_irrefl 0)
  | succ fuel ih =>
    refine sound_ite (fun _ => sound_failure) fun hpos => ?_
    refine sound_bind (recordAt_sound pos) fun r hr => ?_
    refine sound_ite (fun _ => sound_pure trivial) fun _ => ?_
    have hstop : r.rdata ≤ r.stop := Nat.le_add_right _ _
    exact ih (by omega) (by omega)

theorem parseEdns_sound (pos : Nat) : Sound (parseEdns buf pos) fun _ => True := by
  have hloop : Sound (optDoBit buf (buf.length+1) pos) fun _ => True :=
    optDoBit_sound (by omega) (by omega)
  obtain ⟨o,ho,-⟩ := hloop
  refine ⟨some (o.isSome,o.getD false),?_,fun _ _ => trivial⟩
  rw [parseEdns,OptionT.run_mk,ho]
  rfl

theorem parseDnsQuery_sound (buf : List UInt8) : Sound (parseDnsQuery buf) fun _ => True := by
  refine sound_ite (fun _ => sound_failure) fun hheader => ?_
  rw [dnsHeaderLen] at hheader
  refine sound_bind (sound_numAt (by omega)) fun id _ => ?_
  refine sound_bind (sound_numAt (by omega)) fun qdcount _ => ?_
  refine sound_ite (fun _ => sound_failure) fun _ => ?_
  refine sound_bind (queryLabels_sound (by omega) (by omega)) fun labels _ => ?_
  refine sound_ite (fun _ => sound_failure) fun hfixed => ?_
  refine sound_bind (sound_numAt (by omega)) fun qtype _ => ?_
  exact sound_bind (parseEdns_sound _) fun edns _ => sound_pure trivial

theorem skipQuestions_sound (n pos : Nat) : Sound (skipQuestions buf n pos) fun _ => True := by
  induction n generalizing pos with
  | zero => exact sound_pure trivial
  | succ n ih =>
    refine sound_bind (skipName_sound pos) fun stop _ => ?_
    exact sound_ite (fun _ => sound_failure) fun _ => ih _

theorem answersMinTtl_sound (n pos : Nat) (minTtl : Option Nat) :
    Sound (answersMinTtl buf n pos minTtl) fun _ => True := by
  induction n generalizing pos minTtl with
  | zero => exact sound_pure trivial
  | succ n ih => exact sound_bind (recordAt_sound pos) fun r _ => ih _ _

theorem parseNegativeTtl_sound (n pos : Nat) :
    Sound (parseNegativeTtl buf n pos) fun _ => True := by
  induction n generalizing pos with
  | zero => exact sound_pure trivial
  | succ n ih =>
    refine sound_bind (recordAt_sound pos) fun r hr => ?_
    refine sound_ite (fun _ => ?_) fun _ => ih _
    refine sound_ite (fun _ => sound_failure) fun hlen => ?_
    have hstop : r.stop=r.rdata+r.rdlength := rfl
    exact sound_bind (sound_numAt (by omega)) fun minimum _ => sound_pure trivial

theorem parseResponseMinTtl_sound (buf : List UInt8) :
    Sound (parseResponseMinTtl buf) fun _ => True := by
  refine sound_ite (fun _ => sound_failure) fun hheader => ?_
  rw [dnsHeaderLen] at hheader
  refine sound_bind (sound_numAt (by omega)) fun flags _ => ?_
  refine sound_ite (fun _ => sound_failure) fun _ => ?_
  refine sound_bind (sound_numAt (by omega)) fun qdcount _ => ?_
  refine sound_bind (sound_numAt (by omega)) fun ancount _ => ?_
  refine sound_bind (sound_numAt (by omega)) fun nscount _ => ?_
  refine sound_bind (skipQuestions_sound _ _) fun pos _ => ?_
  refine sound_ite (fun _ => ?_) fun _ => ?_
  · exact sound_ite (fun _ => sound_pure trivial) fun _ => parseNegativeTtl_sound _ _
  · refine sound_bind (answersMinTtl_sound _ _ _) fun minTtl _ => ?_
    cases minTtl with
    | none => exact sound_failure
    | some ttl => exact sound_pure trivial

end Sound

end DaeRs.Dns
