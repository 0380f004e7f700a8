import DaeRs.Lib.Runs
import DaeRs.Protocols.Shadowsocks
import DaeRs.Protocols.Vmess.Reading

/-! What the transport is given by the encrypted streams, and what their callers are told. -/

namespace DaeRs.Protocols

open AsyncIo Runs List

variable {σ ρ : Type}

def Taken.Calm : Taken → Prop
  | .pending => True
  | .bytes n => 0<n
  | .err _ => False

/-- No answer of the transport is an error. -/
structure Turn.Calm (t : Turn ρ) : Prop where
  writes : ∀ taken∈t.answers.writes,taken.Calm
  flush : ∀ e,t.answers.flush≠.err e

/-- A `poll_write` that was pending is made again with the same bytes. -/
def Obeys (F : Framing σ ρ) : Option (List UInt8) → Sending σ → List (Turn ρ) → Prop
  | _,_,[] => True
  | waiting,s,t::ts =>
    match t.call with
    | .flush => Obeys F waiting (s.step F t) ts
    | .write _ buf => (∀ buf'∈waiting,buf=buf') ∧
        Obeys F (if (s.writer.poll F t).1=.pending then some buf else none) (s.step F t) ts

/-- The content of the frames that lie within the first `n` bytes. -/
def wholeFrames : List (List UInt8×List UInt8) → Nat → List UInt8
  | [],_ => []
  | f::fs,n => if f.2.length≤n then f.1++wholeFrames fs (n-f.2.length) else []

variable (fs : List (List UInt8×List UInt8))

def plains : List UInt8 := (fs.map Prod.fst).flatten

def wires : List UInt8 := (fs.map Prod.snd).flatten

def room : List Taken → Nat
  | [] => 0
  | .bytes n::writes => n+room writes
  | .pending::_ => 0
  | .err _::_ => 0

namespace Sending

def handed (s : Sending σ) : List UInt8 := wholeFrames s.frames s.taken.length

/-- After a call, the transport has taken the frames in order and the caller knows of what they
contain; a write of some bytes did not count none. -/
structure Keeps (F : Framing σ ρ) (s : Sending σ) (t : Turn ρ) : Prop where
  in_order : (s.step F t).taken <+: wires (s.step F t).frames
  handed_eq : (s.step F t).handed=(s.step F t).acked
  not_zero : ∀ r buf,t.call=.write r buf → buf≠[] → (s.writer.poll F t).1≠.ok 0

/-- No call finishes a frame that an earlier call has left, and when the transport takes a new frame
as a whole it is also flushed. -/
def Prompt (F : Framing σ ρ) (s : Sending σ) (t : Turn ρ) : Prop :=
  if s.writer.Outstanding then
    s.writer.writePos+room t.answers.writes < s.writer.writeOut.length
  else
    ∀ f∈s.writer.newFrames F t.call,f.2.length ≤ room t.answers.writes → t.answers.flush=.ok ()

instance (F : Framing σ ρ) (s : Sending σ) (t : Turn ρ) : Decidable (s.Prompt F t) :=
  inferInstanceAs (Decidable (ite _ _ _))

end Sending

variable (F : Framing σ ρ)

/-- A chunk of some bytes is a part of them, and not empty. -/
def Framing.Cuts : Prop := ∀ buf,buf≠[] → ∃ n,F.chunkLen buf=.ok n ∧ 0<n ∧ n≤buf.length

theorem drain_end (zeroText : String) {len pos : Nat} (h : ¬pos<len) (writes : List Taken) :
    drain zeroText len pos writes=(.ok (),pos) := by
  cases writes with
  | nil => rw [drain,if_neg h]
  | cons taken writes => simp only [drain,if_neg h]

theorem drain_calm (zeroText : String) {len pos : Nat} {writes : List Taken}
    (hcalm : ∀ taken∈writes,taken.Calm) (hpos : pos≤len) :
    drain zeroText len pos writes =
      if len≤pos+room writes then (.ok (),len) else (.pending,pos+room writes) := by
  induction writes generalizing pos with
  | nil =>
    rw [room,Nat.add_zero]
    by_cases hlt : pos<len
    · rw [drain,if_pos hlt,if_neg (Nat.not_le.mpr hlt)]
    · have hlen : pos=len := by omega
      rw [drain_end zeroText hlt,hlen,if_pos (Nat.le_refl _)]
  | cons taken writes ih =>
    have htail : ∀ taken∈writes,taken.Calm := fun taken h => hcalm taken (mem_cons_of_mem _ h)
    have hhead := hcalm taken mem_cons_self
    by_cases hlt : pos<len
    · cases taken with
      | pending =>
        have hroom : ¬len≤pos+room (.pending::writes) := by
          rw [room,Nat.add_zero]
          omega
        rw [drain,if_pos hlt,if_neg hroom]
        rfl
      | err e => exact absurd hhead id
      | bytes n =>
        have hn : n≠0 := Nat.ne_of_gt hhead
        have hle : pos+min n (len-pos)≤len := by omega
        have hroom : room (.bytes n::writes)=n+room writes := rfl
        simp only [drain,if_pos hlt,if_neg hn]
        rw [ih htail hle,hroom]
        by_cases hdone : len≤pos+(n+room writes)
        · have hdone' : len≤pos+min n (len-pos)+room writes := by omega
          rw [if_pos hdone,if_pos hdone']
        · have hmin : min n (len-pos)=n := by omega
          rw [hmin,Nat.add_assoc,if_neg hdone]
    · have hlen : pos=len := by omega
      have hroom : len≤pos+room (taken::writes) := by omega
      rw [drain_end zeroText hlt,if_pos hroom,hlen]

namespace Writer

variable (F : Framing σ ρ) {a : Answers} {w : Writer σ}

theorem pollFlush_done (hcalm : ∀ taken∈a.writes,taken.Calm) (hpos : w.writePos≤w.writeOut.length)
    (hroom : w.writeOut.length≤w.writePos+room a.writes) :
    w.pollFlush F a=(a.flush,⟨w.cipher,[],0⟩,w.writeOut.drop w.writePos) := by
  have hdrain := drain_calm F.zeroText hcalm hpos
  rw [if_pos hroom] at hdrain
  simp only [pollFlush,hdrain]
  rw [take_of_length_le (Nat.le_of_eq length_drop)]

theorem pollFlush_part (hcalm : ∀ taken∈a.writes,taken.Calm)
    (hroom : w.writePos+room a.writes<w.writeOut.length) :
    w.pollFlush F a=(.pending,⟨w.cipher,w.writeOut,w.writePos+room a.writes⟩,
      (w.writeOut.drop w.writePos).take (room a.writes)) := by
  have hpos : w.writePos≤w.writeOut.length := by omega
  have hdrain := drain_calm F.zeroText hcalm hpos
  rw [if_neg (Nat.not_le.mpr hroom)] at hdrain
  simp only [pollFlush,hdrain,Nat.add_sub_cancel_left]

end Writer

variable (f : List UInt8×List UInt8)

theorem wires_cons (fs : List (List UInt8×List UInt8)) : wires (f::fs)=f.2++wires fs :=
  flatten_cons

theorem plains_cons (fs : List (List UInt8×List UInt8)) : plains (f::fs)=f.1++plains fs :=
  flatten_cons

@[simp] theorem wires_singleton : wires [f]=f.2 := append_nil _

@[simp] theorem plains_singleton : plains [f]=f.1 := append_nil _

variable (gs : List (List UInt8×List UInt8)) (call : WriteCall ρ)

theorem wires_append : wires (fs++gs)=wires fs++wires gs := by
  rw [wires,map_append,flatten_append]
  rfl

theorem plains_append : plains (fs++gs)=plains fs++plains gs := by
  rw [plains,map_append,flatten_append]
  rfl

theorem wholeFrames_append (n : Nat) :
    wholeFrames (fs++gs) ((wires fs).length+n)=plains fs++wholeFrames gs n := by
  induction fs with
  | nil =>
    rw [nil_append,wires,map_nil,flatten_nil,length_nil,Nat.zero_add]
    rfl
  | cons f fs ih =>
    have hlen : (wires (f::fs)).length=f.2.length+(wires fs).length := by
      rw [wires_cons,length_append]
    have hle : f.2.length≤(wires (f::fs)).length+n := by omega
    have hrest : (wires (f::fs)).length+n-f.2.length=(wires fs).length+n := by omega
    rw [cons_append,wholeFrames,if_pos hle,hrest,ih,plains_cons,append_assoc]

theorem wholeFrames_all : wholeFrames fs (wires fs).length=plains fs := by
  have h := wholeFrames_append fs [] 0
  rwa [append_nil,Nat.add_zero,wholeFrames,append_nil] at h

theorem wholeFrames_part {f : List UInt8×List UInt8} {n : Nat} (h : n<f.2.length) :
    wholeFrames (fs++[f]) ((wires fs).length+n)=plains fs := by
  rw [wholeFrames_append,wholeFrames,if_neg (Nat.not_le.mpr h),append_nil]

namespace Sending

/-- Every frame was sent, and its content acknowledged. -/
structure Idle (s : Sending σ) : Prop where
  writer : s.writer.writeOut=[] ∧ s.writer.writePos=0
  taken : s.taken=wires s.frames
  acked : s.acked=plains s.frames

/-- The transport has only a part of the last frame. -/
structure Busy (s : Sending σ) (fs : List (List UInt8×List UInt8)) (plain : List UInt8) :
    Prop where
  frames : s.frames=fs++[(plain,s.writer.writeOut)]
  plain_ne_nil : plain≠[]
  outstanding : s.writer.Outstanding
  taken : s.taken=wires fs++s.writer.writeOut.take s.writer.writePos
  acked : s.acked=plains fs

/-- Where a call begins, as long as the law was kept. -/
def Sound (s : Sending σ) : Prop := s.Idle ∨ ∃ fs plain,s.Busy fs plain

variable {s : Sending σ}

theorem Idle.handed (h : s.Idle) : s.handed=s.acked := by
  rw [Sending.handed,h.taken,wholeFrames_all,h.acked]

theorem Busy.handed {fs : List (List UInt8×List UInt8)} {plain : List UInt8}
    (h : s.Busy fs plain) : s.handed=s.acked := by
  have hpos : s.writer.writePos < s.writer.writeOut.length := h.outstanding
  rw [Sending.handed,h.taken,h.frames,length_append,length_take,
    Nat.min_eq_left (Nat.le_of_lt hpos),wholeFrames_part fs hpos,h.acked]

theorem Idle.not_outstanding (h : s.Idle) : ¬s.writer.Outstanding := by
  rw [Writer.Outstanding,h.writer.1]
  exact Nat.not_lt_zero _

theorem Sound.handed (h : s.Sound) : s.handed=s.acked := by
  rcases h with h | ⟨fs,plain,h⟩
  · exact h.handed
  · exact h.handed

theorem Sound.in_order (h : s.Sound) : s.taken <+: wires s.frames := by
  rcases h with h | ⟨fs,plain,h⟩
  · exact ⟨[],by rw [append_nil,h.taken]⟩
  · rw [h.taken,h.frames,wires_append,prefix_append_right_inj,wires_singleton]
    exact take_prefix _ _

theorem keeps_of_sound {F : Framing σ ρ} {t : Turn ρ} (h : (s.step F t).Sound)
    (hzero : ∀ r buf,t.call=.write r buf → buf≠[] → (s.writer.poll F t).1≠.ok 0) :
    s.Keeps F t :=
  ⟨h.in_order,h.handed,hzero⟩

end Sending

theorem acknowledged_map_zero (p : Poll IoError Unit) :
    acknowledged call (p.map fun _ => 0)=[] := by
  cases call with
  | flush => rfl
  | write r buf => cases p with
    | pending => rfl
    | ok _ => rfl
    | err _ => rfl

theorem acknowledged_pending : acknowledged call .pending=[] := by
  cases call with
  | flush => rfl
  | write r buf => rfl

theorem Writer.poll_outstanding (t : Turn ρ) {w : Writer σ} (h : w.Outstanding) :
    w.poll F t=((w.pollFlush F t.answers).1.map fun _ => 0,(w.pollFlush F t.answers).2) := by
  obtain ⟨call,answers⟩ := t
  cases call with
  | flush => rfl
  | write r buf => exact if_pos h

theorem Writer.newFrames_outstanding {w : Writer σ}
    (h : w.Outstanding) : w.newFrames F call=[] := by
  cases call with
  | flush => rfl
  | write r buf => exact if_pos (Or.inl h)

namespace Sending

variable {F : Framing σ ρ} {s : Sending σ} {t : Turn ρ}

theorem step_outstanding (h : s.writer.Outstanding) :
    s.step F t=⟨(s.writer.pollFlush F t.answers).2.1,s.frames,
      s.taken++(s.writer.pollFlush F t.answers).2.2,s.acked⟩ := by
  rw [step,Writer.poll_outstanding F t h,Writer.newFrames_outstanding F t.call h,
    acknowledged_map_zero,append_nil,append_nil]

theorem Busy.step_part {fs : List (List UInt8×List UInt8)} {plain : List UInt8}
    (h : s.Busy fs plain) (ht : t.Calm)
    (hroom : s.writer.writePos+room t.answers.writes < s.writer.writeOut.length) :
    (s.step F t).Busy fs plain ∧ (s.writer.poll F t).1=.pending := by
  have hflush := Writer.pollFlush_part F ht.writes hroom
  refine ⟨?_,?_⟩
  · rw [step_outstanding h.outstanding,hflush]
    exact {
      frames := h.frames
      plain_ne_nil := h.plain_ne_nil
      outstanding := hroom
      taken := by
        show s.taken++_=wires fs++s.writer.writeOut.take (s.writer.writePos+_)
        rw [h.taken,append_assoc,take_add]
      acked := h.acked }
  · rw [Writer.poll_outstanding F t h.outstanding,hflush]
    rfl

theorem Busy.step_done {fs : List (List UInt8×List UInt8)} {plain : List UInt8}
    (h : s.Busy fs plain) (ht : t.Calm)
    (hroom : ¬s.writer.writePos+room t.answers.writes < s.writer.writeOut.length) :
    (s.step F t).handed≠(s.step F t).acked := by
  have hpos : s.writer.writePos < s.writer.writeOut.length := h.outstanding
  have hflush := Writer.pollFlush_done F ht.writes (Nat.le_of_lt hpos) (Nat.not_lt.mp hroom)
  have htaken : s.taken++s.writer.writeOut.drop s.writer.writePos=wires s.frames := by
    rw [h.taken,h.frames,append_assoc,take_append_drop,wires_append,wires_singleton]
  rw [step_outstanding h.outstanding,hflush]
  show wholeFrames s.frames (s.taken++s.writer.writeOut.drop s.writer.writePos).length≠s.acked
  rw [htaken,wholeFrames_all,h.frames,plains_append,plains_singleton,h.acked]
  intro heq
  exact h.plain_ne_nil (append_right_eq_self.mp heq)

theorem Idle.step_nothing (h : s.Idle) (ht : t.Calm)
    (hcall : t.call=.flush ∨ ∃ r,t.call=.write r []) : (s.step F t).Idle := by
  rcases hcall with hcall | ⟨r,hcall⟩
  · have hpos : s.writer.writePos ≤ s.writer.writeOut.length := by
      rw [h.writer.2]
      exact Nat.zero_le _
    have hroom : s.writer.writeOut.length ≤ s.writer.writePos+room t.answers.writes := by
      rw [h.writer.1]
      exact Nat.zero_le _
    rw [step,Writer.poll,hcall,Writer.newFrames]
    simp only [Writer.pollFlush_done F ht.writes hpos hroom,acknowledged_map_zero]
    rw [h.writer.1,drop_nil,append_nil,append_nil,append_nil]
    exact ⟨⟨rfl,rfl⟩,h.taken,h.acked⟩
  · have hpoll : s.writer.poll F t=(.ok 0,s.writer,[]) := by
      rw [Writer.poll,hcall]
      exact (if_neg h.not_outstanding).trans (if_pos rfl)
    have hnew : s.writer.newFrames F t.call=[] := by
      rw [hcall]
      exact if_pos (Or.inr rfl)
    have hacked : acknowledged (.write r []) (.ok 0)=[] := rfl
    rw [step,hpoll,hnew,hcall,hacked,append_nil,append_nil,append_nil]
    exact h

end Sending

/-- The call seals `buf` with the randomness `r`. -/
structure Seals (F : Framing σ ρ) (w : Writer σ) (call : WriteCall ρ) (r : ρ) (buf : List UInt8)
    (n : Nat) : Prop where
  call_eq : call=.write r buf
  idle : ¬w.Outstanding
  buf_ne_nil : buf≠[]
  chunkLen : F.chunkLen buf=.ok n
  pos : 0<n

namespace Seals

variable {F : Framing σ ρ} {w : Writer σ} {call : WriteCall ρ} {r : ρ} {buf : List UInt8} {n : Nat}

theorem newFrames (h : Seals F w call r buf n) :
    w.newFrames F call=[(buf.take n,(w.sealed F r (buf.take n)).writeOut)] := by
  have hnot : ¬(w.Outstanding ∨ buf=[]) := not_or.mpr ⟨h.idle,h.buf_ne_nil⟩
  rw [h.call_eq,Writer.newFrames,if_neg hnot,h.chunkLen]
  rfl

theorem poll {a : Answers} (h : Seals F w call r buf n) :
    w.poll F ⟨call,a⟩=(((w.sealed F r (buf.take n)).pollFlush F a).1.map fun _ => n,
      ((w.sealed F r (buf.take n)).pollFlush F a).2) := by
  rw [h.call_eq]
  show w.pollWrite F r buf a=_
  rw [Writer.pollWrite,if_neg h.idle,if_neg h.buf_ne_nil,h.chunkLen]

theorem take_ne_nil (h : Seals F w call r buf n) : buf.take n≠[] := by
  intro hnil
  rcases take_eq_nil_iff.mp hnil with hn | hbuf
  · exact absurd hn (Nat.ne_of_gt h.pos)
  · exact h.buf_ne_nil hbuf

end Seals

namespace Sending

variable {F : Framing σ ρ} {s : Sending σ} {call : WriteCall ρ} {a : Answers} {r : ρ}
  {buf : List UInt8} {n : Nat}

theorem step_seal_done (h : Seals F s.writer call r buf n) (ht : (⟨call,a⟩ : Turn ρ).Calm)
    (hroom : (s.writer.sealed F r (buf.take n)).writeOut.length ≤ room a.writes) :
    (s.writer.poll F ⟨call,a⟩).1=a.flush.map (fun _ => n) ∧
      s.step F ⟨call,a⟩=⟨⟨(s.writer.sealed F r (buf.take n)).cipher,[],0⟩,
        s.frames++[(buf.take n,(s.writer.sealed F r (buf.take n)).writeOut)],
        s.taken++(s.writer.sealed F r (buf.take n)).writeOut,
        s.acked++acknowledged call (a.flush.map fun _ => n)⟩ := by
  have hflush : (s.writer.sealed F r (buf.take n)).pollFlush F a =
      (a.flush,⟨(s.writer.sealed F r (buf.take n)).cipher,[],0⟩,
        (s.writer.sealed F r (buf.take n)).writeOut) := by
    have hzero : (s.writer.sealed F r (buf.take n)).writePos=0 := rfl
    rw [Writer.pollFlush_done F ht.writes (Nat.zero_le _) (by rwa [hzero,Nat.zero_add]),hzero,
      drop_zero]
  rw [step,h.poll,h.newFrames,hflush]
  exact ⟨rfl,rfl⟩

theorem Idle.step_seal_part (hs : s.Idle) (h : Seals F s.writer call r buf n)
    (ht : (⟨call,a⟩ : Turn ρ).Calm)
    (hroom : room a.writes<(s.writer.sealed F r (buf.take n)).writeOut.length) :
    (s.writer.poll F ⟨call,a⟩).1=.pending ∧ (s.step F ⟨call,a⟩).Busy s.frames (buf.take n) := by
  have hzero : (s.writer.sealed F r (buf.take n)).writePos=0 := rfl
  have hlt : (s.writer.sealed F r (buf.take n)).writePos+room a.writes <
      (s.writer.sealed F r (buf.take n)).writeOut.length := by
    rwa [hzero,Nat.zero_add]
  have hflush := Writer.pollFlush_part F ht.writes hlt
  rw [hzero,Nat.zero_add,drop_zero] at hflush
  rw [step,h.poll,h.newFrames,hflush]
  refine ⟨rfl,rfl,h.take_ne_nil,hroom,?_,?_⟩
  · rw [hs.taken]
  · show s.acked++acknowledged call .pending=plains s.frames
    rw [acknowledged_pending,append_nil,hs.acked]

theorem Busy.keeps_iff {t : Turn ρ} {fs : List (List UInt8×List UInt8)} {plain : List UInt8}
    (hs : s.Busy fs plain) (ht : t.Calm) :
    (s.Keeps F t ↔ s.Prompt F t) ∧ (s.Prompt F t → (s.step F t).Sound) := by
  rw [Prompt,if_pos hs.outstanding]
  by_cases hroom : s.writer.writePos+room t.answers.writes < s.writer.writeOut.length
  · obtain ⟨hbusy,hpending⟩ := hs.step_part (F := F) ht hroom
    have hsound : (s.step F t).Sound := Or.inr ⟨fs,plain,hbusy⟩
    refine ⟨iff_of_true (keeps_of_sound hsound ?_) hroom,fun _ => hsound⟩
    intro r buf hcall hne hzero
    rw [hpending] at hzero
    cases hzero
  · exact ⟨iff_of_false (fun h => hs.step_done ht hroom h.handed_eq) hroom,(absurd · hroom)⟩

theorem Idle.keeps_iff_nothing {t : Turn ρ} (hs : s.Idle) (ht : t.Calm)
    (hcall : t.call=.flush ∨ ∃ r,t.call=.write r []) :
    (s.Keeps F t ↔ s.Prompt F t) ∧ (s.Prompt F t → (s.step F t).Sound) := by
  have hsound : (s.step F t).Sound := Or.inl (hs.step_nothing ht hcall)
  have hnew : s.writer.newFrames F t.call=[] := by
    rcases hcall with hcall | ⟨r,hcall⟩
    · rw [hcall]
      rfl
    · rw [hcall]
      exact if_pos (Or.inr rfl)
  have hprompt : s.Prompt F t := by
    rw [Prompt,if_neg hs.not_outstanding,hnew]
    intro f hf
    cases hf
  refine ⟨iff_of_true (keeps_of_sound hsound ?_) hprompt,fun _ => hsound⟩
  intro r buf hwrite hne
  rcases hcall with hcall | ⟨r',hcall⟩
  · rw [hcall] at hwrite
    cases hwrite
  · rw [hcall] at hwrite
    cases hwrite
    exact absurd rfl hne

theorem Idle.keeps_iff_seals (hs : s.Idle) (ht : (⟨call,a⟩ : Turn ρ).Calm)
    (h : Seals F s.writer call r buf n) :
    (s.Keeps F ⟨call,a⟩ ↔ s.Prompt F ⟨call,a⟩) ∧
      (s.Prompt F ⟨call,a⟩ → (s.step F ⟨call,a⟩).Sound) := by
  have hprompt : s.Prompt F ⟨call,a⟩ ↔
      ((s.writer.sealed F r (buf.take n)).writeOut.length ≤ room a.writes → a.flush=.ok ()) := by
    rw [Prompt,if_neg hs.not_outstanding,h.newFrames]
    exact forall_mem_singleton
  rw [hprompt]
  by_cases hroom : (s.writer.sealed F r (buf.take n)).writeOut.length ≤ room a.writes
  · obtain ⟨hpoll,hstep⟩ := step_seal_done h ht hroom
    cases hflush : a.flush with
    | err e => exact absurd hflush (ht.flush e)
    | pending =>
      -- the frame is with the transport, but the caller has to write its content again
      refine ⟨iff_of_false (fun hkeeps => ?_) (fun hall => by cases hall hroom),
        fun hall => by cases hall hroom⟩
      have hhanded := hkeeps.handed_eq
      rw [hstep,hflush] at hhanded
      change wholeFrames _ (s.taken++_).length=s.acked++acknowledged call .pending at hhanded
      rw [acknowledged_pending,append_nil,hs.acked,hs.taken,length_append,
        wholeFrames_append,wholeFrames,if_pos (Nat.le_refl _)] at hhanded
      have hnil := append_right_eq_self.mp hhanded
      exact h.take_ne_nil (append_eq_nil_iff.mp hnil).1
    | ok u =>
      have hsound : (s.step F ⟨call,a⟩).Sound := by
        left
        rw [hstep,hflush]
        refine ⟨⟨rfl,rfl⟩,?_,?_⟩
        · show s.taken++_=wires (s.frames++[_])
          rw [wires_append,wires_singleton,hs.taken]
        · show s.acked++acknowledged call (.ok n)=plains (s.frames++[_])
          rw [plains_append,plains_singleton,hs.acked,h.call_eq]
          rfl
      refine ⟨iff_of_true (keeps_of_sound hsound ?_) (fun _ => rfl),fun _ => hsound⟩
      intro r' buf' hcall hne hzero
      rw [hpoll,hflush] at hzero
      cases hzero
      exact absurd h.pos (Nat.lt_irrefl 0)
  · obtain ⟨hpending,hbusy⟩ := hs.step_seal_part h ht (Nat.not_le.mp hroom)
    have hsound : (s.step F ⟨call,a⟩).Sound := Or.inr ⟨_,_,hbusy⟩
    refine ⟨iff_of_true (keeps_of_sound hsound ?_) (absurd · hroom),fun _ => hsound⟩
    intro r' buf' hcall hne hzero
    rw [hpending] at hzero
    cases hzero

theorem Sound.keeps_iff {t : Turn ρ} (hF : F.Cuts) (hs : s.Sound) (ht : t.Calm) :
    (s.Keeps F t ↔ s.Prompt F t) ∧ (s.Prompt F t → (s.step F t).Sound) := by
  rcases hs with hs | ⟨fs,plain,hs⟩
  · obtain ⟨call,a⟩ := t
    cases call with
    | flush => exact hs.keeps_iff_nothing ht (Or.inl rfl)
    | write r buf =>
      by_cases hne : buf=[]
      · exact hs.keeps_iff_nothing ht (Or.inr ⟨r,by rw [hne]⟩)
      · obtain ⟨n,hchunk,hpos,-⟩ := hF buf hne
        exact hs.keeps_iff_seals ht ⟨rfl,hs.not_outstanding,hne,hchunk,hpos⟩
  · exact hs.keeps_iff ht

theorem along_keeps_iff (hF : F.Cuts) (c : σ) {ts : List (Turn ρ)} (hts : ∀ t∈ts,t.Calm) :
    Along (step F) (Keeps F) (new c) ts ↔ Along (step F) (Prompt F) (new c) ts := by
  refine along_iff_along Sound ?_ ?_ (Or.inl ⟨⟨rfl,rfl⟩,rfl,rfl⟩)
  · intro t ht s hs
    exact (hs.keeps_iff hF (hts t ht)).1
  · intro t ht s hs
    exact (hs.keeps_iff hF (hts t ht)).2

end Sending

theorem min_cuts {buf : List UInt8} (hne : buf≠[]) {m : Nat} (hm : 0 < m) :
    0 < min buf.length m ∧ min buf.length m≤buf.length := by
  have hlen : 0<buf.length := length_pos_of_ne_nil hne
  omega

/-- On Shadowsocks and VMess streams, calls keep the law that callers know of what was sent just
when every frame is finished by the call that seals it, or never. -/
theorem acknowledged_iff_prompt (C : Shadowsocks.SsCipher) (c : C.State) (ss : List (Turn Unit))
    (hss : ∀ t∈ss,t.Calm) (d : Vmess.Direction) (vs : List (Turn (Nat → UInt8)))
    (hvs : ∀ t∈vs,t.Calm) :
    (Along (Sending.step (Shadowsocks.framing C)) (Sending.Keeps (Shadowsocks.framing C)) (.new c)
        ss ↔
      Along (Sending.step (Shadowsocks.framing C)) (Sending.Prompt (Shadowsocks.framing C)) (.new c)
        ss) ∧
    (Along (Sending.step (Vmess.framing false)) (Sending.Keeps (Vmess.framing false)) (.new d) vs ↔
      Along (Sending.step (Vmess.framing false)) (Sending.Prompt (Vmess.framing false)) (.new d)
        vs) := by
  have hsscuts : (Shadowsocks.framing C).Cuts := by
    intro buf hne
    exact ⟨_,rfl,min_cuts hne (by decide)⟩
  have hvcuts : (Vmess.framing false).Cuts := by
    intro buf hne
    exact ⟨_,rfl,min_cuts hne (by decide)⟩
  exact ⟨Sending.along_keeps_iff hsscuts c hss,Sending.along_keeps_iff hvcuts d hvs⟩

def writeTwice (r : ρ) (first second : Answers) : List (Turn ρ) :=
  [⟨.write r [1,2,3],first⟩,⟨.write r [1,2,3],second⟩]

def readyAnswers : Answers := ⟨[.bytes 4,.bytes 100],.ok ()⟩

def shortAnswers : Answers := ⟨[.bytes 4,.pending],.ok ()⟩

theorem calm_writeTwice (r : ρ) {first second : Answers}
    (hfirst : (⟨.write r [1,2,3],first⟩ : Turn ρ).Calm)
    (hsecond : (⟨.write r [1,2,3],second⟩ : Turn ρ).Calm) :
    ∀ t∈writeTwice r first second,t.Calm := by
  intro t ht
  rcases mem_pair.mp ht with rfl | rfl
  · exact hfirst
  · exact hsecond

theorem calm_ready : (⟨call,readyAnswers⟩ : Turn ρ).Calm where
  writes := forall_mem_cons.mpr
    ⟨Nat.zero_lt_succ 3,forall_mem_singleton.mpr (Nat.zero_lt_succ 99)⟩
  flush _ h := by cases h

theorem acknowledged_iff_prompt_ready :
    Along (Sending.step (Shadowsocks.framing Shadowsocks.countingCipher))
        (Sending.Keeps (Shadowsocks.framing Shadowsocks.countingCipher)) (.new (7 : Nat))
        (writeTwice () readyAnswers readyAnswers) ∧
      Along (Sending.step (Vmess.framing false)) (Sending.Keeps (Vmess.framing false))
        (.new Vmess.plainDirection) (writeTwice (fun _ => 0) readyAnswers readyAnswers) := by
  have h := acknowledged_iff_prompt Shadowsocks.countingCipher (7 : Nat)
    (writeTwice () readyAnswers readyAnswers) (calm_writeTwice _ (calm_ready _) (calm_ready _))
    Vmess.plainDirection (writeTwice (fun _ => 0) readyAnswers readyAnswers)
    (calm_writeTwice _ (calm_ready _) (calm_ready _))
  exact ⟨h.1.mpr (by decide),h.2.mpr (by decide)⟩

theorem obeys_writeTwice (F : Framing σ ρ) (c : σ) (r : ρ) (first second : Answers) :
    Obeys F none (.new c) (writeTwice r first second) := by
  refine ⟨fun buf' hbuf => (by cases hbuf),?_,trivial⟩
  intro buf' hbuf
  split_ifs at hbuf with hpending
  · exact Option.some.inj hbuf
  · cases hbuf

def outcome (c : σ) (r : ρ) (first second : Answers) :
    List UInt8×List UInt8×Poll IoError Nat :=
  let s := run (Sending.step F) (.new c) (writeTwice r first second)
  (s.handed,s.acked,((Sending.new c).step F ⟨.write r [1,2,3],first⟩).writer.poll F
    ⟨.write r [1,2,3],second⟩ |>.1)

/-- A pending write that is made again finishes the frame and counts no bytes; when only the flush
was pending, the bytes are sent twice. -/
theorem retried_write_not_acknowledged :
    ((∀ first second,Obeys (Shadowsocks.framing Shadowsocks.countingCipher) none
        (.new (7 : Nat)) (writeTwice () first second)) ∧
      outcome (Shadowsocks.framing Shadowsocks.countingCipher) (7 : Nat) () shortAnswers
        readyAnswers=([1,2,3],[],.ok 0) ∧
      outcome (Shadowsocks.framing Shadowsocks.countingCipher) (7 : Nat) ()
        { readyAnswers with flush := .pending } readyAnswers =
          ([1,2,3,1,2,3],[1,2,3],.ok 3)) ∧
    ((∀ first second,Obeys (Vmess.framing false) none (.new Vmess.plainDirection)
        (writeTwice (fun _ => 0) first second)) ∧
      outcome (Vmess.framing false) Vmess.plainDirection (fun _ => 0) shortAnswers readyAnswers =
        ([1,2,3],[],.ok 0) ∧
      outcome (Vmess.framing false) Vmess.plainDirection (fun _ => 0)
        { readyAnswers with flush := .pending } readyAnswers =
          ([1,2,3,1,2,3],[1,2,3],.ok 3)) :=
  ⟨⟨obeys_writeTwice _ _ _,by decide,by decide⟩,obeys_writeTwice _ _ _,by decide,by decide⟩

end DaeRs.Protocols
