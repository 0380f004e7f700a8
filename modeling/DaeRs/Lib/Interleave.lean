import Mathlib.Data.List.Basic

/-! A program that reads a store one location at a time while another party writes to it. -/

namespace Interleave

open List

/-- A program that reads locations in turn. -/
inductive Reader (Loc : Type) (Val : Loc → Type) (α : Type) where
  | done (a : α)
  | read (l : Loc) (next : Val l → Reader Loc Val α)

namespace Reader

variable {Loc : Type} {Val : Loc → Type} {α β : Type}

def bind : Reader Loc Val α → (α → Reader Loc Val β) → Reader Loc Val β
  | .done a,f => f a
  | .read l next,f => .read l fun v => (next v).bind f

instance : Monad (Reader Loc Val) where
  pure := .done
  bind := bind

/-- Every lookup is of a location in `P`, whatever was read before. -/
def Within (P : Loc → Prop) : Reader Loc Val α → Prop
  | .done _ => True
  | .read l next => P l ∧ ∀ v,(next v).Within P

theorem within_bind {P : Loc → Prop} {r : Reader Loc Val α} {f : α → Reader Loc Val β}
    (hr : r.Within P) (hf : ∀ a,(f a).Within P) : (r >>= f).Within P := by
  induction r with
  | done a => exact hf a
  | read l next ih =>
    refine ⟨hr.1,?_⟩
    intro v
    exact ih v (hr.2 v)

section Store

variable {S W : Type} (get : S → (l : Loc) → Val l) (apply : S → W → S)

def eval (s : S) : Reader Loc Val α → α
  | .done a => a
  | .read l next => (next (get s l)).eval s

@[simp] theorem eval_pure (s : S) (a : α) : (pure a : Reader Loc Val α).eval get s=a := rfl

@[simp] theorem eval_bind (s : S) (r : Reader Loc Val α) (f : α → Reader Loc Val β) :
    (r >>= f).eval get s=(f (r.eval get s)).eval get s := by
  induction r with
  | done a => rfl
  | read l next ih => exact ih (get s l)

theorem eval_congr {P : Loc → Prop} {s s' : S} {r : Reader Loc Val α} (hr : r.Within P)
    (h : ∀ l,P l → get s l=get s' l) : r.eval get s=r.eval get s' := by
  induction r with
  | done a => rfl
  | read l next ih =>
    have hl : get s l=get s' l := h l hr.1
    show (next (get s l)).eval get s=(next (get s' l)).eval get s'
    rw [hl]
    exact ih _ (hr.2 _)

/-- The result when `gaps` tells how many of the pending writes happen before each lookup. -/
def among : Reader Loc Val α → List Nat → S → List W → α
  | .done a,_,_,_ => a
  | .read l next,gaps,s,ws =>
    let s' := (ws.take (gaps.headD 0)).foldl apply s
    (next (get s' l)).among gaps.tail s' (ws.drop (gaps.headD 0))

theorem among_nil (r : Reader Loc Val α) (gaps : List Nat) (s : S) :
    r.among get apply gaps s []=r.eval get s := by
  induction r generalizing gaps with
  | done a => rfl
  | read l next ih =>
    rw [among,take_nil,drop_nil,foldl_nil]
    exact ih _ gaps.tail

/-- A write that keeps an invariant of the store and leaves the locations in `P` as they are. -/
def Keeps (inv : S → Prop) (P : Loc → Prop) (w : W) : Prop :=
  ∀ s,inv s → inv (apply s w) ∧ ∀ l,P l → get (apply s w) l=get s l

variable {get apply} {inv : S → Prop} {P : Loc → Prop} {s : S}

theorem Keeps.mono {Q : Loc → Prop} {w : W} (h : Keeps get apply inv P w)
    (hQ : ∀ l,Q l → P l) : Keeps get apply inv Q w := by
  intro s hs
  exact ⟨(h s hs).1,fun l hl => (h s hs).2 l (hQ l hl)⟩

theorem keeps_foldl {ws : List W} (h : ∀ w∈ws,Keeps get apply inv P w) (hs : inv s) :
    inv (ws.foldl apply s) ∧ ∀ l,P l → get (ws.foldl apply s) l=get s l := by
  induction ws generalizing s with
  | nil => exact ⟨hs,fun _ _ => rfl⟩
  | cons w ws ih =>
    have hw := h w mem_cons_self s hs
    have hrest := ih (fun w' hw' => h w' (mem_cons_of_mem w hw')) hw.1
    refine ⟨hrest.1,?_⟩
    intro l hl
    rw [foldl_cons,hrest.2 l hl,hw.2 l hl]

theorem among_eq_eval {r : Reader Loc Val α} (hr : r.Within P) {ws : List W}
    (h : ∀ w∈ws,Keeps get apply inv P w) (hs : inv s) (gaps : List Nat) :
    r.among get apply gaps s ws=r.eval get s := by
  induction r generalizing gaps s ws with
  | done a => rfl
  | read l next ih =>
    have hdone : ∀ w∈ws.take (gaps.headD 0),Keeps get apply inv P w :=
      fun w hw => h w (mem_of_mem_take hw)
    have hpending : ∀ w∈ws.drop (gaps.headD 0),Keeps get apply inv P w :=
      fun w hw => h w (mem_of_mem_drop hw)
    have htake := keeps_foldl hdone hs
    rw [among,ih _ (hr.2 _) hpending htake.1,eval,htake.2 l hr.1]
    exact eval_congr get (hr.2 _) htake.2

section Switch

variable {sel : Loc} {next : Val sel → Reader Loc Val α} {region : Val sel → Loc → Prop}

theorem among_chosen_old (hnext : ∀ v,(next v).Within (region v)) {pre post : List W}
    (hpre : ∀ w∈pre,Keeps get apply inv (fun l => l=sel ∨ region (get s sel) l) w)
    (hpost : ∀ w∈post,Keeps get apply inv (region (get s sel)) w) (hs : inv s)
    (gaps : List Nat) :
    (next (get (pre.foldl apply s) sel)).among get apply gaps (pre.foldl apply s) post =
      (next (get s sel)).eval get s := by
  have hkept := keeps_foldl hpre hs
  rw [hkept.2 sel (.inl rfl),among_eq_eval (hnext _) hpost hkept.1]
  exact eval_congr get (hnext _) fun l hl => hkept.2 l (.inr hl)

theorem among_chosen_new (hnext : ∀ v,(next v).Within (region v)) {post : List W}
    (hpost : ∀ w∈post,Keeps get apply inv (fun l => l=sel ∨ region (get s sel) l) w)
    (hs : inv s) (gaps : List Nat) :
    (next (get s sel)).among get apply gaps s post =
      (next (get (post.foldl apply s) sel)).eval get (post.foldl apply s) := by
  have hkept := keeps_foldl hpost hs
  have hregion : ∀ w∈post,Keeps get apply inv (region (get s sel)) w :=
    fun w hw => (hpost w hw).mono fun l hl => .inr hl
  rw [hkept.2 sel (.inl rfl),among_eq_eval (hnext _) hregion hs]
  exact (eval_congr get (hnext _) fun l hl => hkept.2 l (.inr hl)).symm

/-- Double buffering: a reader looks up a region and stays within it, and a writer fills the other
region, switches over, and leaves both alone. The result is the one before all writes or the one
after them. -/
theorem among_switch (hnext : ∀ v,(next v).Within (region v)) {fill rest : List W} {switch : W}
    {new : Val sel}
    (hfill : ∀ w∈fill,Keeps get apply inv (fun l => l=sel ∨ region (get s sel) l) w)
    (hold : Keeps get apply inv (region (get s sel)) switch)
    (hnew : ∀ s',inv s' → get (apply s' switch) sel=new)
    (hrest : ∀ w∈rest,Keeps get apply inv
      (fun l => l=sel ∨ region (get s sel) l ∨ region new l) w)
    (hs : inv s) (gaps : List Nat) :
    (Reader.read sel next).among get apply gaps s (fill++switch::rest) =
        (Reader.read sel next).eval get s ∨
      (Reader.read sel next).among get apply gaps s (fill++switch::rest) =
        (Reader.read sel next).eval get ((fill++switch::rest).foldl apply s) := by
  -- the writes before and after the first lookup
  generalize hpre : (fill++switch::rest).take (gaps.headD 0)=pre
  generalize hpost : (fill++switch::rest).drop (gaps.headD 0)=post
  have hsplit : pre++post=fill++switch::rest := by
    rw [← hpre,← hpost,take_append_drop]
  have hbefore : ∀ mid,fill=pre++mid → post=mid++switch::rest →
      (next (get (pre.foldl apply s) sel)).among get apply gaps.tail (pre.foldl apply s) post =
        (next (get s sel)).eval get s := by
    intro mid hmid htail
    apply among_chosen_old hnext (fun w hw => hfill w (hmid ▸ mem_append_left mid hw)) _ hs
    intro w hw
    rw [htail,mem_append,mem_cons] at hw
    rcases hw with hw | rfl | hw
    · exact (hfill w (hmid ▸ mem_append_right pre hw)).mono fun l hl => .inr hl
    · exact hold
    · exact (hrest w hw).mono fun l hl => .inr (.inl hl)
  simp only [among,eval,hpre,hpost]
  rcases append_eq_append_iff.mp hsplit with ⟨mid,hmid,htail⟩ | ⟨mid,hmid,htail⟩
  · exact .inl (hbefore mid hmid htail)
  · cases mid with
    | nil => exact .inl (hbefore [] (by simpa using hmid.symm) htail.symm)
    | cons w mid =>
      right
      obtain ⟨rfl,rfl⟩ := List.cons.inj htail
      have hfilled := keeps_foldl hfill hs
      have hmid' := keeps_foldl (fun w' hw' => hrest w' (mem_append_left post hw'))
        (hold _ hfilled.1).1
      have hswitched : inv (pre.foldl apply s) ∧ get (pre.foldl apply s) sel=new := by
        rw [hmid,foldl_append,foldl_cons]
        refine ⟨hmid'.1,?_⟩
        rw [hmid'.2 sel (.inl rfl),hnew _ hfilled.1]
      rw [← hsplit,foldl_append]
      apply among_chosen_new hnext _ hswitched.1
      intro w' hw'
      rw [hswitched.2]
      exact (hrest w' (mem_append_right mid hw')).mono fun l hl => hl.imp_right .inr

end Switch

end Store

end Reader

end Interleave
