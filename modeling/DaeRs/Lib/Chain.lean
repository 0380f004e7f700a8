import Mathlib.Data.List.DropRight
import DaeRs.Lib.Fallible
import DaeRs.Lib.FirstMatch

namespace Chain

open List

/-- How an item of a condition chain is joined to the item after it. -/
inductive Link where
  | or
  | and
  | stop
  deriving DecidableEq

section Cut

variable {α : Type} (p : α → Bool)

def cutAfter : List α → List (List α)
  | [] => []
  | a::as =>
    if p a then [a]::cutAfter as
    else match cutAfter as with
      | [] => [[a]]
      | s::ss => (a::s)::ss

variable (l : List α)

theorem cutAfter_eq_nil : cutAfter p l=[] ↔ l=[] := by
  cases l with
  | nil => simp [cutAfter]
  | cons a as =>
    simp only [cutAfter]
    split_ifs
    · simp
    · split <;> simp

theorem cutAfter_cons_pos {a : α} (h : p a=true) (as : List α) :
    cutAfter p (a::as)=[a]::cutAfter p as := by
  simp [cutAfter,h]

theorem cutAfter_singleton (a : α) : cutAfter p [a]=[[a]] := by
  simp [cutAfter]

theorem cutAfter_cons_neg {a : α} (h : p a=false) {as s : List α} {ss : List (List α)}
    (hs : cutAfter p as=s::ss) : cutAfter p (a::as)=(a::s)::ss := by
  simp [cutAfter,h,hs]

theorem cutAfter_pieces : ∀ s∈cutAfter p l,s≠[] := by
  induction l with
  | nil => simp [cutAfter]
  | cons a as ih =>
    intro s hs
    simp only [cutAfter] at hs
    split_ifs at hs
    · rcases mem_cons.mp hs with rfl | hs
      · simp
      · exact ih s hs
    · split at hs
      · simp only [mem_singleton] at hs
        simp [hs]
      · next heq =>
        rcases mem_cons.mp hs with rfl | hs
        · simp
        · exact ih s (by simp [heq,hs])

theorem cutAfter_flatten : (cutAfter p l).flatten=l := by
  induction l with
  | nil => rfl
  | cons a as ih =>
    simp only [cutAfter]
    split_ifs
    · simp [ih]
    · split
      · next heq => simp [(cutAfter_eq_nil p as).mp heq]
      · next heq => rw [← ih,heq]; simp

theorem cutAfter_dropLast : ∀ s∈cutAfter p l,∀ a∈s.dropLast,p a=false := by
  induction l with
  | nil => simp [cutAfter]
  | cons a as ih =>
    intro s hs b hb
    simp only [cutAfter] at hs
    split_ifs at hs with ha
    · rcases mem_cons.mp hs with rfl | hs
      · simp at hb
      · exact ih s hs b hb
    · split at hs
      · simp only [mem_singleton] at hs
        simp [hs] at hb
      · next s' ss heq =>
        rcases mem_cons.mp hs with rfl | hs
        · have hne : s'≠[] := cutAfter_pieces p as s' (by simp [heq])
          rw [dropLast_cons_of_ne_nil hne] at hb
          rcases mem_cons.mp hb with rfl | hb
          · simpa using ha
          · exact ih s' (by simp [heq]) b hb
        · exact ih s (by simp [heq,hs]) b hb

theorem mem_of_mem_cutAfter {l s : List α} (hs : s∈cutAfter p l) {a : α} (ha : a∈s) : a∈l := by
  rw [← cutAfter_flatten p l]
  exact mem_flatten_of_mem hs ha

theorem cutAfter_append_complete {a : α} (h : p a=true) (r : List α) :
    cutAfter p (l++a::r)=cutAfter p (l++[a])++cutAfter p r := by
  induction l with
  | nil => simp [cutAfter,h]
  | cons b bs ih =>
    rcases hb : p b with _ | _
    · have hne : cutAfter p (bs++[a])≠[] := by simp [cutAfter_eq_nil]
      obtain ⟨s,ss,hs⟩ := exists_cons_of_ne_nil hne
      rw [cons_append,cons_append,cutAfter_cons_neg p hb hs,
        cutAfter_cons_neg p hb (by rw [ih,hs,cons_append])]
      rfl
    · rw [cons_append,cons_append,cutAfter_cons_pos p hb,cutAfter_cons_pos p hb,ih]
      rfl

theorem cutAfter_of_dropLast {l : List α} (hne : l≠[]) (h : ∀ a∈l.dropLast,p a=false) :
    cutAfter p l=[l] := by
  induction l with
  | nil => exact absurd rfl hne
  | cons a as ih =>
    cases as with
    | nil => exact cutAfter_singleton p a
    | cons b bs =>
      have ha : p a=false := h a (by simp)
      have hrest := ih (by simp) (fun x hx => h x (by simp [hx]))
      exact cutAfter_cons_neg p ha hrest

end Cut

/-- How a chain is read: the link and the negation of an item, and its fallible test. -/
structure Reader (α ε : Type) where
  link : α → Link
  neg : α → Bool
  eval : α → Except ε Bool

namespace Reader

variable {α ε σ β : Type} (R : Reader α ε)

/-- A subrule holds when "some item matches" differs from the negation of its last item. -/
def clause (c : List α) : Except ε Bool := do
  let m ← c.anyM R.eval
  pure (m != c.getLast?.any R.neg)

/-- The subrules of a rule end at every item that is not joined by `or`. -/
def clauses (l : List α) : List (List α) := cutAfter (fun a => R.link a != .or) l

def rules (l : List α) : List (List α) := cutAfter (fun a => R.link a == .stop) l

def finished (l : List α) : Bool := l.getLast?.any (fun a => R.link a == .stop)

/-- A finished rule holds when all its subrules hold; evaluation stops at the first that fails. -/
def rule (l : List α) : Except ε Bool := do
  let h ← (R.clauses l).allM R.clause
  pure (h && R.finished l)

/-- The rules in order: `hit` says what a holding rule's tail does, `miss` what a failed rule does
to the accumulator. -/
def scan (holds : List α → Except ε Bool) (hit : σ → α → σ ⊕ β) (miss : σ → σ) :
    σ → List (List α) → Except ε (σ ⊕ β)
  | s,[] => pure (.inl s)
  | s,l::ls => do
    let h ← holds l
    match h,l.getLast? with
    | true,some t =>
      match hit s t with
      | .inl s' => scan holds hit miss s' ls
      | .inr b => pure (.inr b)
    | _,_ => scan holds hit miss (miss s) ls

/-- The flags of the one-pass walk: the open subrule has matched, the open rule has failed. -/
structure Walk (σ : Type) where
  good : Bool
  bad : Bool
  acc : σ
  deriving DecidableEq

variable (good : Bool)

/-- The flag `good` after an item: nothing is tested once either flag is set. -/
def test (bad : Bool) (a : α) : Except ε Bool :=
  if good || bad then pure good else R.eval a

variable (hit : σ → α → σ ⊕ β)

def step (w : Walk σ) (a : α) : Except ε (Walk σ ⊕ β) := do
  let good ← R.test w.good w.bad a
  let bad := w.bad || good==R.neg a
  match R.link a with
  | .or => pure (.inl { w with good := good })
  | .and => pure (.inl { w with good := false,bad := bad })
  | .stop =>
    if bad then pure (.inl ⟨false,false,w.acc⟩)
    else match hit w.acc a with
      | .inl s => pure (.inl ⟨false,false,s⟩)
      | .inr b => pure (.inr b)

section Step

variable {hit : σ → α → σ ⊕ β} {w : Walk σ} {a : α} {good : Bool}

theorem step_or (hk : R.link a=.or) (ht : R.test w.good w.bad a=.ok good) :
    R.step hit w a=.ok (.inl { w with good := good }) := by
  simp [step,hk,ht,pure,Except.pure]

theorem step_and (hk : R.link a=.and) (ht : R.test w.good w.bad a=.ok good) :
    R.step hit w a=.ok (.inl { w with good := false,bad := w.bad || good==R.neg a }) := by
  simp [step,hk,ht,pure,Except.pure]

theorem step_stop_bad (hk : R.link a=.stop) (ht : R.test w.good w.bad a=.ok good)
    (hb : (w.bad || good==R.neg a)=true) :
    R.step hit w a=.ok (.inl ⟨false,false,w.acc⟩) := by
  simp only [step,hk,ht,Fallible.ok_bind,hb,if_true]
  rfl

theorem step_stop_hit (hk : R.link a=.stop) (ht : R.test w.good w.bad a=.ok good)
    (hb : (w.bad || good==R.neg a)=false) :
    R.step hit w a=.ok ((hit w.acc a).map (fun s => ⟨false,false,s⟩) id) := by
  simp only [step,hk,ht,Fallible.ok_bind,hb,Bool.false_eq_true,if_false]
  cases hit w.acc a with
  | inl s => rfl
  | inr b => rfl

end Step

def run (hit : σ → α → σ ⊕ β) : Walk σ → List α → Except ε (σ ⊕ β)
  | w,[] => pure (.inl w.acc)
  | w,a::as => do
    match ← R.step hit w a with
    | .inl w' => run hit w' as
    | .inr b => pure (.inr b)

theorem step_error {hit : σ → α → σ ⊕ β} {w : Walk σ} {a : α} {n : ε}
    (h : R.step hit w a=.error n) : R.eval a=.error n := by
  cases ht : R.test w.good w.bad a with
  | error k =>
    rw [step,ht,Fallible.error_bind] at h
    unfold test at ht
    split_ifs at ht
    · cases ht
    · cases h
      exact ht
  | ok good =>
    exfalso
    cases hk : R.link a with
    | or =>
      rw [R.step_or hk ht] at h
      cases h
    | and =>
      rw [R.step_and hk ht] at h
      cases h
    | stop =>
      rcases hb : (w.bad || good==R.neg a) with _ | _
      · rw [R.step_stop_hit hk ht hb] at h
        cases h
      · rw [R.step_stop_bad hk ht hb] at h
        cases h

variable {as : List α}

theorem run_error {hit : σ → α → σ ⊕ β} {w : Walk σ} {n : ε}
    (h : R.run hit w as=.error n) : ∃ a∈as,R.eval a=.error n := by
  induction as generalizing w with
  | nil => cases h
  | cons a as ih =>
    rw [run] at h
    rcases hs : R.step hit w a with k | w' | b
    · rw [hs,Fallible.error_bind] at h
      cases h
      exact ⟨a,by simp,R.step_error hs⟩
    · rw [hs] at h
      obtain ⟨b,hb,hn⟩ := ih h
      exact ⟨b,by simp [hb],hn⟩
    · rw [hs] at h
      cases h

def ruleFrom (good bad : Bool) : List α → Except ε Bool
  | [] => pure false
  | a::as => do
    let m ← R.test good bad a
    match R.link a with
    | .or => ruleFrom m bad as
    | .and => ruleFrom false (bad || m==R.neg a) as
    | .stop => pure (!(bad || m==R.neg a))

theorem ruleFrom_bad (l : List α) (good : Bool) : R.ruleFrom good true l=.ok false := by
  induction l generalizing good with
  | nil => rfl
  | cons a as ih =>
    have ht : R.test good true a=.ok good := by simp [test,pure,Except.pure]
    simp only [ruleFrom,ht,bind,Except.bind]
    cases R.link a with
    | or => exact ih good
    | and => simpa using ih false
    | stop => rfl

def clauseFrom (c : List α) : Except ε Bool := do
  let m ← if good then pure true else c.anyM R.eval
  pure (m != c.getLast?.any R.neg)

theorem clauseFrom_false (c : List α) : R.clauseFrom false c=R.clause c := rfl

theorem clauseFrom_cons (a : α) (has : as≠[]) :
    R.clauseFrom good (a::as)=R.test good false a >>= fun m => R.clauseFrom m as := by
  have hlast : (a::as).getLast?=as.getLast? := by
    cases as with
    | nil => exact absurd rfl has
    | cons b bs => simp
  cases good with
  | true => simp [clauseFrom,test,hlast]
  | false =>
    simp only [clauseFrom,test,hlast,anyM,Bool.or_false,Bool.false_eq_true,if_false]
    rcases R.eval a with e | m
    · rfl
    · cases m <;> rfl

theorem clauseFrom_singleton (a : α) :
    R.clauseFrom good [a]=R.test good false a >>= fun m => pure (m != R.neg a) := by
  cases good with
  | true => simp [clauseFrom,test]
  | false =>
    simp only [clauseFrom,test,anyM,Bool.or_false,Bool.false_eq_true,if_false]
    rcases R.eval a with e | m
    · rfl
    · cases m <;> rfl

theorem finished_cons (a : α) (has : as≠[]) : R.finished (a::as)=R.finished as := by
  cases as with
  | nil => exact absurd rfl has
  | cons b bs => simp [finished]

def clausesFrom : List (List α) → Except ε Bool
  | [] => pure true
  | c::cs => do
    if ← R.clauseFrom good c then cs.allM R.clause else pure false

theorem clausesFrom_false (cs : List (List α)) : R.clausesFrom false cs=cs.allM R.clause := by
  cases cs with
  | nil => rfl
  | cons c cs =>
    simp only [clausesFrom,clauseFrom_false,allM]
    congr 1
    funext h
    cases h <;> rfl

theorem ruleFrom_eq (l : List α) (hne : l≠[]) (hl : ∀ a∈l.dropLast,R.link a≠.stop) (good : Bool) :
    R.ruleFrom good false l =
      R.clausesFrom good (R.clauses l) >>= fun h => pure (h && R.finished l) := by
  induction l generalizing good with
  | nil => exact absurd rfl hne
  | cons a as ih =>
    cases as with
    | nil =>
      have hc : R.clauses [a]=[[a]] := cutAfter_singleton _ a
      simp only [hc,clausesFrom,clauseFrom_singleton,ruleFrom,allM,finished]
      rcases R.test good false a with e | m
      · rfl
      · cases hk : R.link a <;> cases hm : (m==R.neg a) <;>
          simp [hk,hm,bind,Except.bind,pure,Except.pure,bne]
    | cons b bs =>
      have has : b::bs≠[] := by simp
      have ih' := ih has (fun x hx => hl x (by simp [hx]))
      have hfin := R.finished_cons a has
      have hne' : R.clauses (b::bs)≠[] := by simp [clauses,cutAfter_eq_nil]
      obtain ⟨c,cs,hc⟩ := exists_cons_of_ne_nil hne'
      have hcne : c≠[] := cutAfter_pieces _ _ c (by rw [← clauses,hc]; simp)
      rw [ruleFrom,hfin]
      cases hk : R.link a with
      | or =>
        have hcut : R.clauses (a::b::bs)=(a::c)::cs := cutAfter_cons_neg _ (by simp [hk]) hc
        simp only [hcut,clausesFrom,R.clauseFrom_cons good a hcne,ih',hc,bind_assoc]
      | and =>
        have hcut : R.clauses (a::b::bs)=[a]::R.clauses (b::bs) :=
          cutAfter_cons_pos _ (by simp [hk]) _
        simp only [hcut,clausesFrom,clauseFrom_singleton,bind_assoc,pure_bind,Bool.false_or]
        congr 1
        funext m
        rcases hm : (m==R.neg a) with _ | _
        · simp only [ih',clausesFrom_false,bne,hm,Bool.not_false,if_true]
        · simp [ruleFrom_bad,bne,hm,pure,Except.pure,bind,Except.bind]
      | stop => exact absurd hk (hl a (by simp))

theorem ruleFrom_eq_rule {l : List α} (hne : l≠[])
    (hl : ∀ a∈l.dropLast,R.link a≠.stop) : R.ruleFrom false false l=R.rule l := by
  rw [ruleFrom_eq R l hne hl,clausesFrom_false]
  rfl

def scanFrom (w : Walk σ) : List (List α) → Except ε (σ ⊕ β)
  | [] => pure (.inl w.acc)
  | l::ls => do
    let h ← R.ruleFrom w.good w.bad l
    match h,l.getLast? with
    | true,some t =>
      match hit w.acc t with
      | .inl s' => scan R.rule hit id s' ls
      | .inr b => pure (.inr b)
    | _,_ => scan R.rule hit id w.acc ls

theorem rules_pieces {l : List α} (h : l∈R.rules as) : l≠[] ∧ ∀ a∈l.dropLast,R.link a≠.stop := by
  refine ⟨cutAfter_pieces _ _ l h,fun a ha => ?_⟩
  have := cutAfter_dropLast _ _ l h a ha
  simpa using this

theorem scanFrom_clear (hit : σ → α → σ ⊕ β) (s : σ) (as : List α) :
    R.scanFrom hit ⟨false,false,s⟩ (R.rules as)=scan R.rule hit id s (R.rules as) := by
  have hp : ∀ l∈R.rules as,R.ruleFrom false false l=R.rule l := fun l hl =>
    R.ruleFrom_eq_rule (R.rules_pieces hl).1 (R.rules_pieces hl).2
  cases hr : R.rules as with
  | nil => rfl
  | cons l ls =>
    simp only [scanFrom,scan,hp l (by simp [hr])]
    rfl

theorem ruleFrom_cons_open (hit : σ → α → σ ⊕ β) (w : Walk σ) {a : α} (ha : R.link a≠.stop) :
    ∃ w' : Except ε (Walk σ),R.step hit w a=w' >>= (fun v => pure (.inl v)) ∧
      (∀ v,w'=.ok v → v.acc=w.acc) ∧
      ∀ l,R.ruleFrom w.good w.bad (a::l)=w' >>= fun v => R.ruleFrom v.good v.bad l := by
  cases hk : R.link a with
  | or =>
    refine ⟨R.test w.good w.bad a >>= fun m => pure { w with good := m },?_,?_,fun l => ?_⟩
    · simp [step,hk]
    · intro v hv
      obtain ⟨m,-,hm⟩ := Fallible.bind_ok_iff.mp hv
      cases hm
      rfl
    · simp [ruleFrom,hk]
  | and =>
    refine ⟨R.test w.good w.bad a >>= fun m =>
      pure { w with good := false,bad := w.bad || m==R.neg a },?_,?_,fun l => ?_⟩
    · simp [step,hk]
    · intro v hv
      obtain ⟨m,-,hm⟩ := Fallible.bind_ok_iff.mp hv
      cases hm
      rfl
    · simp [ruleFrom,hk]
  | stop => exact absurd hk ha

theorem run_eq_scanFrom (hit : σ → α → σ ⊕ β) (as : List α) (w : Walk σ) :
    R.run hit w as=R.scanFrom hit w (R.rules as) := by
  induction as generalizing w with
  | nil => rfl
  | cons a as ih =>
    by_cases hk : R.link a=.stop
    · have hcut : R.rules (a::as)=[a]::R.rules as := cutAfter_cons_pos _ (by simp [hk]) _
      simp only [hcut,run,step,scanFrom,ruleFrom,hk,getLast?_singleton,bind_assoc]
      congr 1
      funext m
      rcases hb : (w.bad || m==R.neg a) with _ | _
      · rcases hh : hit w.acc a with s | b
        · simp [hh,ih,scanFrom_clear]
        · simp [hh]
      · simp [ih,scanFrom_clear]
    · obtain ⟨w',hstep,hacc,hrule⟩ := R.ruleFrom_cons_open hit w hk
      rw [run,hstep]
      cases hr : R.rules as with
      | nil =>
        have has : as=[] := (cutAfter_eq_nil _ _).mp hr
        subst has
        have hcut : R.rules [a]=[[a]] := cutAfter_singleton _ a
        rw [hcut,scanFrom,hrule]
        rcases w' with e | v
        · rfl
        · simp [bind,Except.bind,pure,Except.pure,run,ruleFrom,scan,hacc v rfl]
      | cons l ls =>
        have hcut : R.rules (a::as)=(a::l)::ls := cutAfter_cons_neg _ (by simpa using hk) hr
        have hmem : l∈R.rules as := by simp [hr]
        have hl : l≠[] := (R.rules_pieces hmem).1
        have hlast : (a::l).getLast?=l.getLast? := by
          obtain ⟨b,bs,rfl⟩ := exists_cons_of_ne_nil hl
          simp
        rw [hcut,scanFrom,hrule,hlast]
        rcases w' with e | v
        · rfl
        · have hv := ih v
          rw [hr,scanFrom,hacc v rfl] at hv
          simpa [bind,Except.bind,pure,Except.pure] using hv

theorem run_eq_scan (s : σ) (as : List α) :
    R.run hit ⟨false,false,s⟩ as=scan R.rule hit id s (R.rules as) := by
  rw [run_eq_scanFrom,scanFrom_clear]

section Truth

variable (truth : α → Bool)

def clauseHolds (c : List α) : Bool := c.any truth != c.getLast?.any R.neg

variable (l : List α)

def ruleHolds : Bool := (R.clauses l).all (R.clauseHolds truth) && R.finished l

def allClauses : Bool := (R.clauses l).all (R.clauseHolds truth)

def firstHit (holds : List α → Bool) (hit : σ → α → σ ⊕ β) (miss : σ → σ) :
    σ → List (List α) → σ ⊕ β
  | s,[] => .inl s
  | s,l::ls =>
    match holds l,l.getLast? with
    | true,some t =>
      match hit s t with
      | .inl s' => firstHit holds hit miss s' ls
      | .inr b => .inr b
    | _,_ => firstHit holds hit miss (miss s) ls

def continueWith (next : σ → σ ⊕ β) : σ ⊕ β → σ ⊕ β
  | .inl s => next s
  | .inr b => .inr b

variable (holds : List α → Bool)

theorem firstHit_cons (hit : σ → α → σ ⊕ β) (s : σ) {l : List α} {t : α}
    (ht : l.getLast?=some t) (ls : List (List α)) :
    firstHit holds hit id s (l::ls) =
      if holds l then continueWith (fun s => firstHit holds hit id s ls) (hit s t)
      else firstHit holds hit id s ls := by
  rw [firstHit,ht]
  cases holds l with
  | false => rfl
  | true =>
    simp only [if_true]
    cases hit s t <;> rfl

theorem ruleHolds_stop {l : List α} {a : α} (ha : R.link a=.stop) :
    R.ruleHolds truth (l++[a])=R.allClauses truth (l++[a]) := by
  simp [ruleHolds,allClauses,finished,ha]

theorem firstHit_append (hit : σ → α → σ ⊕ β) (ls ms : List (List α)) (s : σ) :
    firstHit holds hit id s (ls++ms) =
      continueWith (fun s => firstHit holds hit id s ms) (firstHit holds hit id s ls) := by
  induction ls generalizing s with
  | nil => rfl
  | cons l ls ih =>
    simp only [cons_append,firstHit]
    split
    · split
      · exact ih _
      · rfl
    · exact ih _

def settled : List α := l.rdropWhile fun a => R.link a != .stop

def unfinished : List α := l.rtakeWhile fun a => R.link a != .stop

/-- The open items of a chain are the start of what follows it. -/
theorem rules_append (r : List α) :
    R.rules (l++r)=R.rules (R.settled l)++R.rules (R.unfinished l++r) := by
  have hsplit : R.settled l++R.unfinished l=l := rdropWhile_append_rtakeWhile
  rcases eq_nil_or_concat (R.settled l) with hnil | ⟨init,x,hx⟩
  · rw [hnil,nil_append] at hsplit
    rw [hnil,hsplit]
    rfl
  · have hstop : R.link x=.stop := by
      have hne : R.settled l≠[] := by simp [hx]
      have hlast : ¬(R.link ((R.settled l).getLast hne) != .stop)=true :=
        rdropWhile_last_not _ l hne
      have hget : (R.settled l).getLast hne=x := by simp [hx]
      rw [hget] at hlast
      simpa using hlast
    rw [hx]
    conv_lhs => rw [← hsplit,hx]
    rw [concat_eq_append,append_assoc,append_assoc,singleton_append]
    exact cutAfter_append_complete _ init (by simp [hstop]) _

theorem rules_concat (a : α) : R.rules (l++[a])=R.rules (R.settled l)++[R.unfinished l++[a]] := by
  have hopen : R.rules (R.unfinished l++[a])=[R.unfinished l++[a]] := by
    refine cutAfter_of_dropLast _ (by simp) fun b hb => ?_
    rw [dropLast_concat] at hb
    simpa using mem_rtakeWhile_imp hb
  rw [rules_append,hopen]

variable (hit : σ → α → σ ⊕ β)

theorem firstHit_stop (l : List α) {a : α} (ha : R.link a=.stop) (s : σ) :
    firstHit (R.ruleHolds truth) hit id s (R.rules (l++[a])) =continueWith
        (fun s => if R.allClauses truth (R.unfinished l++[a]) then hit s a else .inl s)
        (firstHit (R.ruleHolds truth) hit id s (R.rules (R.settled l))) := by
  rw [R.rules_concat,firstHit_append]
  congr 1
  funext s'
  rw [firstHit_cons _ hit s' getLast?_concat,R.ruleHolds_stop truth ha]
  split_ifs
  · cases hit s' a <;> rfl
  · rfl

theorem anyM_ok {c : List α} (h : ∀ a∈c,R.eval a=.ok (truth a)) :
    c.anyM R.eval=.ok (c.any truth) := by
  induction c with
  | nil => rfl
  | cons a as ih =>
    have ha := h a (by simp)
    have has := ih (fun b hb => h b (by simp [hb]))
    simp only [anyM,ha,Fallible.ok_bind,any_cons]
    cases truth a with
    | true => rfl
    | false => simpa using has

theorem allM_clause_ok {cs : List (List α)} (h : ∀ c∈cs,∀ a∈c,R.eval a=.ok (truth a)) :
    cs.allM R.clause=.ok (cs.all (R.clauseHolds truth)) := by
  induction cs with
  | nil => rfl
  | cons c cs ih =>
    have hc : R.clause c=.ok (R.clauseHolds truth c) := by
      simp [clause,clauseHolds,R.anyM_ok truth (h c (by simp)),pure,Except.pure]
    have hcs := ih (fun d hd => h d (by simp [hd]))
    simp only [allM,hc,Fallible.ok_bind,all_cons]
    cases R.clauseHolds truth c with
    | true => simpa using hcs
    | false => rfl

theorem rule_ok {l : List α} (h : ∀ a∈l,R.eval a=.ok (truth a)) :
    R.rule l=.ok (R.ruleHolds truth l) := by
  have hcs : ∀ c∈R.clauses l,∀ a∈c,R.eval a=.ok (truth a) :=
    fun c hc a ha => h a (mem_of_mem_cutAfter _ hc ha)
  simp [rule,ruleHolds,R.allM_clause_ok truth hcs,pure,Except.pure]

theorem scan_ok {holds : List α → Except ε Bool} {holdsB : List α → Bool} (miss : σ → σ)
    {ls : List (List α)}
    (h : ∀ l∈ls,holds l=.ok (holdsB l)) (s : σ) :
    scan holds hit miss s ls=.ok (firstHit holdsB hit miss s ls) := by
  induction ls generalizing s with
  | nil => rfl
  | cons l ls ih =>
    have ih' := ih (fun k hk => h k (by simp [hk]))
    simp only [scan,firstHit,h l (by simp),Fallible.ok_bind]
    rcases holdsB l with _ | _
    · exact ih' _
    · rcases l.getLast? with _ | t
      · exact ih' _
      · rcases hh : hit s t with s' | b
        · simpa only [hh] using ih' s'
        · simp only [hh,pure,Except.pure]

theorem run_ok (s : σ) {as : List α} (h : ∀ a∈as,R.eval a=.ok (truth a)) :
    R.run hit ⟨false,false,s⟩ as=.ok (firstHit (R.ruleHolds truth) hit id s (R.rules as)) := by
  rw [run_eq_scan]
  exact scan_ok hit id (fun l hl => R.rule_ok truth fun a ha => h a (mem_of_mem_cutAfter _ hl ha)) s

end Truth

section Alike

variable {γ : Type} {R} {R' : Reader γ ε} {hit : σ → α → σ ⊕ β} {hit' : σ → γ → σ ⊕ β}

/-- Items of two chains that are joined, negated and tested alike and do the same at a rule's end. -/
structure Alike (R : Reader α ε) (R' : Reader γ ε) (hit : σ → α → σ ⊕ β)
    (hit' : σ → γ → σ ⊕ β) (a : α) (c : γ) : Prop where
  link : R.link a=R'.link c
  neg : R.neg a=R'.neg c
  eval : R.eval a=R'.eval c
  hit : ∀ s,hit s a=hit' s c

theorem Alike.step {a : α} {c : γ} (h : Alike R R' hit hit' a c) (w : Walk σ) :
    R.step hit w a=R'.step hit' w c := by
  have ht : R.test w.good w.bad a=R'.test w.good w.bad c := by
    simp only [test,h.eval]
  simp only [Reader.step,ht,h.link,h.neg,h.hit]

theorem run_alike {as : List α} {cs : List γ} (h : List.Forall₂ (Alike R R' hit hit') as cs)
    (w : Walk σ) : R.run hit w as=R'.run hit' w cs := by
  induction h generalizing w with
  | nil => rfl
  | cons hac _ ih =>
    simp only [run,hac.step,ih]

end Alike

end Reader

end Chain
