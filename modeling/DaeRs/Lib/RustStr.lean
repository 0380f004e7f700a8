import Mathlib.Data.List.Infix
import Mathlib.Data.List.DropRight

/-! The functions of Rust's `str` and integer parsers, on Lean strings. -/

namespace RustStr

open List Option
open String (ofList toList_append toList_inj toList_ofList ofList_toList utf8EncodeChar)

def isWhitespace (c : Char) : Bool :=
  let n := c.toNat
  (0x09≤n && n≤0x0D) || n==0x20 || n==0x85 || n==0xA0 || n==0x1680 ||
    (0x2000≤n && n≤0x200A) || n==0x2028 || n==0x2029 || n==0x202F || n==0x205F ||
    n==0x3000

def dropEndWhile (p : Char → Bool) (l : List Char) : List Char := (l.reverse.dropWhile p).reverse

variable (s : String)

def trim : String := ofList (dropEndWhile isWhitespace (s.toList.dropWhile isWhitespace))

theorem trim_eq_empty_iff : trim s = "" ↔ ∀ c∈s.toList,isWhitespace c=true := by
  have hempty : trim s = "" ↔ dropEndWhile isWhitespace (s.toList.dropWhile isWhitespace)=[] := by
    rw [trim,← toList_inj,toList_ofList]
    rfl
  rw [hempty,dropEndWhile,reverse_eq_nil_iff,dropWhile_eq_nil_iff]
  constructor
  · intro h
    -- the dropped front ends before a character that is no white space
    rw [← dropWhile_eq_nil_iff]
    by_contra hne
    obtain ⟨c,cs,hcs⟩ := exists_cons_of_ne_nil hne
    have hc := head?_dropWhile_not isWhitespace s.toList
    rw [hcs] at h hc
    have hspace := h c (by simp)
    simp [hspace] at hc
  · intro h c hc
    exact h c ((dropWhile_sublist _).subset (mem_reverse.mp hc))

variable {l : List Char}

theorem dropWhile_of_rdrop {p : Char → Bool} {l' : List Char} (h : l' <+: l.dropWhile p) :
    l'.dropWhile p=l' := by
  cases l' with
  | nil => rfl
  | cons c cs =>
    obtain ⟨rest,hrest⟩ := h
    have hc := head?_dropWhile_not p l
    rw [← hrest] at hc
    rw [dropWhile_cons,if_neg (by simpa using hc)]

theorem trim_trim : trim (trim s)=trim s := by
  have hend : ∀ l : List Char,dropEndWhile isWhitespace l=l.rdropWhile isWhitespace := fun _ => rfl
  have hkept := rdropWhile_prefix isWhitespace (s.toList.dropWhile isWhitespace)
  unfold trim
  rw [toList_ofList,hend,hend,dropWhile_of_rdrop hkept,rdropWhile_idempotent]

theorem trim_surround {a b : List Char} (ha : ∀ c∈a,isWhitespace c=true)
    (hb : ∀ c∈b,isWhitespace c=true) (s : String) :
    trim (ofList (a++(s.toList++b)))=trim s := by
  have hbrev : ∀ c∈b.reverse,isWhitespace c=true := fun c hc => hb c (mem_reverse.1 hc)
  unfold trim
  rw [toList_ofList,dropWhile_append_of_pos ha,dropWhile_append]
  split_ifs with hnil
  · rw [List.isEmpty_iff.1 hnil,dropWhile_eq_nil_iff.2 hb]
  · rw [dropEndWhile,reverse_append,dropWhile_append_of_pos hbrev]
    rfl

theorem trim_of_no_space {s : String} (h : ∀ c∈s.toList,isWhitespace c=false) : trim s=s := by
  have hself {l : List Char} (hl : ∀ c∈l,isWhitespace c=false) : l.dropWhile isWhitespace=l := by
    cases l with
    | nil => rfl
    | cons c cs => rw [dropWhile_cons,hl c mem_cons_self]; rfl
  rw [trim,hself h,dropEndWhile,hself fun c hc => h c (mem_reverse.1 hc),
    reverse_reverse,ofList_toList]

variable {c : Char}

theorem trim_of_ends {d : Char} (hc : isWhitespace c=false)
    (hd : isWhitespace d=false) (hl : [c] <+: l) (hl' : [d] <:+ l) :
    trim (ofList l)=ofList l := by
  obtain ⟨rest,rfl⟩ := hl
  obtain ⟨front,hfront⟩ := hl'
  rw [trim,toList_ofList,singleton_append,dropWhile_cons,hc,dropEndWhile]
  show ofList ((c::rest).reverse.dropWhile isWhitespace).reverse=_
  rw [← singleton_append,← hfront,reverse_append,reverse_singleton,
    singleton_append,dropWhile_cons,hd]
  show ofList (d::front.reverse).reverse=_
  rw [reverse_cons,reverse_reverse]

theorem trim_newline (s : String) : trim (s ++ "\n")=trim s := by
  have hblank : ∀ c∈['\n'],isWhitespace c=true := forall_mem_singleton.2 rfl
  have htext : s ++ "\n" = ofList ([]++(s.toList++['\n'])) := by
    rw [← toList_inj]
    simp
  rw [htext,trim_surround (forall_mem_nil _) hblank]

def trimStartMatches (c : Char) : String := ofList (s.toList.dropWhile (· == c))

def trimEndMatches (c : Char) : String := ofList (dropEndWhile (· == c) s.toList)

def stripChars : List Char → List Char → Option (List Char)
  | [],l => some l
  | _::_,[] => none
  | p::ps,c::cs => if p=c then stripChars ps cs else none

variable (pat : String)

def stripStart : Option String := (stripChars pat.toList s.toList).map ofList

def stripEnd : Option String :=
  (stripChars pat.toList.reverse s.toList.reverse).map fun l => ofList l.reverse

def splitOnceChars (c : Char) : List Char → Option (List Char×List Char)
  | [] => none
  | x::xs =>
    if x=c then some ([],xs)
    else (splitOnceChars c xs).map fun p => (x::p.1,p.2)

def splitOnce (c : Char) : Option (String×String) :=
  (splitOnceChars c s.toList).map fun p => (ofList p.1,ofList p.2)

def rsplitOnce (c : Char) : Option (String×String) :=
  (splitOnceChars c s.toList.reverse).map fun p =>
    (ofList p.2.reverse,ofList p.1.reverse)

theorem stripChars_append (p l : List Char) : stripChars p (p++l)=some l := by
  induction p with
  | nil => rfl
  | cons c p ih => rw [cons_append,stripChars,if_pos rfl,ih]

theorem stripStart_append (s : String) : stripStart (pat++s) pat=some s := by
  rw [stripStart,toList_append,stripChars_append,map_some,ofList_toList]

theorem stripEnd_append : stripEnd (s++pat) pat=some s := by
  rw [stripEnd,toList_append,reverse_append,stripChars_append,map_some,
    reverse_reverse,ofList_toList]

theorem splitOnceChars_append {a : List Char} (h : c∉a) (b : List Char) :
    splitOnceChars c (a++c::b)=some (a,b) := by
  induction a with
  | nil => rw [nil_append,splitOnceChars,if_pos rfl]
  | cons x a ih =>
    have hx : x≠c := fun heq => h (heq ▸ mem_cons_self)
    rw [cons_append,splitOnceChars,if_neg hx,ih fun hmem => h (mem_cons_of_mem x hmem)]
    rfl

def splitChars (c : Char) : List Char → List (List Char)
  | [] => [[]]
  | x::xs =>
    if x=c then []::splitChars c xs
    else match splitChars c xs with
      | [] => [[x]]
      | p::ps => (x::p)::ps

def split (c : Char) : List String := (splitChars c s.toList).map ofList

def toAsciiLowercase : String := ofList (s.toList.map Char.toLower)

theorem eq_of_toLower_eq {d : Char} (h : c.toLower=d) (hd : d.toNat<97) : c=d := by
  unfold Char.toLower at h
  split at h
  · next hup =>
    have hlo : 65 ≤ c.val.toNat := UInt32.le_iff_toNat_le.mp hup.1
    have hhi : c.val.toNat≤90 := UInt32.le_iff_toNat_le.mp hup.2
    have hval : (c.val.toNat+32)%2^32=d.toNat := congrArg (fun c : Char => c.val.toNat) h
    omega
  · exact h

def contains : Bool := decide (pat.toList <:+: s.toList)

def startsWith : Bool := decide (pat.toList <+: s.toList)

def eqIgnoreAsciiCase (t : String) : Bool := toAsciiLowercase s==toAsciiLowercase t

/-- The characters before and after byte `n`; `none` inside a character or past the end, where
slicing panics. -/
def sliceAt : List Char → Nat → Option (List Char×List Char)
  | l,0 => some ([],l)
  | [],_+1 => none
  | c::cs,n+1 =>
    if c.utf8Size≤n+1 then
      (sliceAt cs (n+1-c.utf8Size)).map fun p => (c::p.1,p.2)
    else none

def linesLoop : List Char → List Char → List (List Char)
  | [],[] => []
  | [],current => [current.reverse]
  | '\n' :: rest, '\r' :: current => current.reverse::linesLoop rest []
  | '\n' :: rest,current => current.reverse::linesLoop rest []
  | c::rest,current => linesLoop rest (c::current)

def lines : List String := (linesLoop s.toList []).map ofList

theorem linesLoop_cons (hc : c ≠ '\n') (rest current : List Char) :
    linesLoop (c::rest) current=linesLoop rest (c::current) := by
  rw [linesLoop]
  · exact hc
  · exact fun _ _ h => hc h

theorem linesLoop_newline {current : List Char} (h : '\r' ∉ current) (rest : List Char) :
    linesLoop ('\n' :: rest) current=current.reverse::linesLoop rest [] := by
  rw [linesLoop]
  intro current' hcurrent
  rw [hcurrent] at h
  exact h mem_cons_self

theorem linesLoop_line (rest : List Char) : ∀ {current : List Char},
    (∀ c∈l,c ≠ '\n' ∧ c ≠ '\r') → '\r' ∉ current →
    linesLoop (l ++ '\n' :: rest) current=(current.reverse++l)::linesLoop rest [] := by
  induction l with
  | nil =>
    intro current _ hcurrent
    rw [nil_append,linesLoop_newline hcurrent,append_nil]
  | cons c l ih =>
    intro current hl hcurrent
    have hc := hl c mem_cons_self
    have hmore : '\r' ∉ c::current := by
      intro h
      cases h with
      | head => exact hc.2 rfl
      | tail _ h => exact hcurrent h
    rw [cons_append,linesLoop_cons hc.1,ih (fun x hx => hl x (mem_cons_of_mem c hx))
      hmore,reverse_cons,append_assoc,singleton_append]

theorem lines_join {ls : List String} (h : ∀ l∈ls,∀ c∈l.toList,c ≠ '\n' ∧ c ≠ '\r') :
    lines (String.join (ls.map (· ++ "\n")))=ls := by
  induction ls with
  | nil => rfl
  | cons l ls ih =>
    have htext : (String.join ((l::ls).map (· ++ "\n"))).toList =
        l.toList ++ '\n' :: (String.join (ls.map (· ++ "\n"))).toList := by
      rw [map_cons,String.join_cons,toList_append,toList_append,append_assoc]
      rfl
    have hrest := ih fun l' hl' => h l' (mem_cons_of_mem l hl')
    unfold lines at hrest ⊢
    rw [htext,linesLoop_line _ (h l mem_cons_self) not_mem_nil,map_cons,hrest,
      reverse_nil,nil_append,ofList_toList]

theorem linesLoop_last : ∀ {current : List Char}, '\n' ∉ l →
    current.reverse++l≠[] → linesLoop l current=[current.reverse++l] := by
  induction l with
  | nil =>
    intro current _ hne
    rw [append_nil] at hne ⊢
    cases current with
    | nil => exact absurd rfl hne
    | cons c cs => rfl
  | cons c l ih =>
    intro current hl hne
    have hc : c ≠ '\n' := fun h => hl (h ▸ mem_cons_self)
    have hrest : '\n' ∉ l := fun h => hl (mem_cons_of_mem c h)
    rw [linesLoop_cons hc,ih hrest (by simp),reverse_cons,append_assoc,singleton_append]

theorem lines_intercalate {ls : List String}
    (h : ∀ l∈ls,l ≠ "" ∧ ∀ c∈l.toList,c ≠ '\n' ∧ c ≠ '\r') :
    lines ("\n".intercalate ls)=ls := by
  have hsep : "\n".toList=['\n'] := rfl
  unfold lines
  rw [String.toList_intercalate,hsep]
  induction ls with
  | nil => rfl
  | cons l ls ih =>
    obtain ⟨hne,hl⟩ := h l mem_cons_self
    cases ls with
    | nil =>
      have hlist : [].reverse++l.toList≠[] := fun heq => hne (String.toList_eq_nil_iff.1 heq)
      rw [map_singleton,intercalate_singleton,
        linesLoop_last (fun hmem => (hl '\n' hmem).1 rfl) hlist,reverse_nil,
        nil_append,map_singleton,ofList_toList]
    | cons l' ls =>
      have hrest := ih fun x hx => h x (mem_cons_of_mem l hx)
      rw [map_cons,map_cons,intercalate_cons_cons,append_assoc,
        singleton_append,linesLoop_line _ hl not_mem_nil,map_cons,
        reverse_nil,nil_append,ofList_toList]
      rw [map_cons] at hrest
      rw [hrest]

def endsWith : Bool := decide (pat.toList <:+ s.toList)

theorem splitChars_ne_nil (c : Char) (l : List Char) : splitChars c l≠[] := by
  cases l with
  | nil => simp [splitChars]
  | cons x xs =>
    rw [splitChars]
    split
    · simp
    · split <;> simp

theorem splitChars_cons_ne {x : Char} (h : x≠c) (xs : List Char) :
    ∃ part parts,splitChars c xs=part::parts ∧ splitChars c (x::xs)=(x::part)::parts := by
  cases hs : splitChars c xs with
  | nil => exact absurd hs (splitChars_ne_nil c xs)
  | cons part parts => exact ⟨part,parts,rfl,by simp [splitChars,h,hs]⟩

theorem splitChars_cons_eq (c : Char) (xs : List Char) :
    splitChars c (c::xs)=[]::splitChars c xs := by
  simp [splitChars]

theorem splitChars_injective (c : Char) : Function.Injective (splitChars c) := by
  intro l
  induction l with
  | nil =>
    intro l' h
    cases l' with
    | nil => rfl
    | cons y ys =>
      by_cases hy : y=c
      · subst hy
        rw [splitChars_cons_eq] at h
        exact absurd (List.cons.inj h).2.symm (splitChars_ne_nil y ys)
      · obtain ⟨part,parts,-,hsplit⟩ := splitChars_cons_ne hy ys
        rw [hsplit] at h
        cases h
  | cons x xs ih =>
    intro l' h
    cases l' with
    | nil =>
      by_cases hx : x=c
      · subst hx
        rw [splitChars_cons_eq] at h
        exact absurd (List.cons.inj h).2 (splitChars_ne_nil x xs)
      · obtain ⟨part,parts,-,hsplit⟩ := splitChars_cons_ne hx xs
        rw [hsplit] at h
        cases h
    | cons y ys =>
      by_cases hx : x=c <;> by_cases hy : y=c
      · subst hx hy
        rw [splitChars_cons_eq,splitChars_cons_eq] at h
        rw [ih (List.cons.inj h).2]
      · subst hx
        obtain ⟨part,parts,-,hsplit⟩ := splitChars_cons_ne hy ys
        rw [splitChars_cons_eq,hsplit] at h
        cases h
      · subst hy
        obtain ⟨part,parts,-,hsplit⟩ := splitChars_cons_ne hx xs
        rw [splitChars_cons_eq,hsplit] at h
        cases h
      · obtain ⟨part,parts,hxs,hsplit⟩ := splitChars_cons_ne hx xs
        obtain ⟨part',parts',hys,hsplit'⟩ := splitChars_cons_ne hy ys
        rw [hsplit,hsplit'] at h
        simp only [List.cons.injEq] at h
        obtain ⟨⟨rfl,rfl⟩,rfl⟩ := h
        rw [ih (hxs.trans hys.symm)]

theorem splitChars_suffix_iff (c : Char) (v q : List Char) :
    splitChars c v <:+ splitChars c q ↔ v=q ∨ (c::v) <:+ q := by
  induction q with
  | nil =>
    have hnil : splitChars c []=[[]] := rfl
    rw [hnil,suffix_cons_iff,suffix_nil,← hnil,(splitChars_injective c).eq_iff]
    simp [splitChars_ne_nil]
  | cons x xs ih =>
    by_cases hx : x=c
    · subst hx
      have hinj : splitChars x v=[]::splitChars x xs ↔ v=x::xs := by
        rw [← splitChars_cons_eq,(splitChars_injective x).eq_iff]
      rw [splitChars_cons_eq,suffix_cons_iff,hinj,ih,suffix_cons_iff]
      simp
    · obtain ⟨part,parts,hxs,hsplit⟩ := splitChars_cons_ne hx xs
      have hinj : splitChars c v=(x::part)::parts ↔ v=x::xs := by
        rw [← hsplit,(splitChars_injective c).eq_iff]
      have htail : splitChars c v <:+ parts ↔ (c::v) <:+ xs := by
        rw [hxs,suffix_cons_iff,← hxs,(splitChars_injective c).eq_iff] at ih
        constructor
        · intro hsuf
          rcases ih.mp (.inr hsuf) with rfl | h
          · -- the parts of a string do not end their own tail
            have hle := hsuf.length_le
            rw [hxs,length_cons] at hle
            omega
          · exact h
        · intro hsuf
          rcases ih.mpr (.inr hsuf) with rfl | h
          · have hle := hsuf.length_le
            rw [length_cons] at hle
            omega
          · exact h
      rw [hsplit,suffix_cons_iff,hinj,htail,suffix_cons_iff]
      simp [Ne.symm hx]

theorem split_suffix_iff (v q : String) (c : Char) :
    split v c <:+ split q c ↔ v=q ∨ (c::v.toList) <:+ q.toList := by
  have hinj : Function.Injective ofList := fun a b h => by simpa using congrArg String.toList h
  rw [split,split,suffix_map_iff_of_injective hinj,splitChars_suffix_iff,toList_inj]

def utf8 : List UInt8 := s.toList.flatMap utf8EncodeChar

/-- `Utf8Error`; no error length means that the input ends inside a character. -/
structure Utf8Error where
  validUpTo : Nat
  errorLen : Option Nat
  deriving DecidableEq

def Utf8Error.text (e : Utf8Error) : String :=
  match e.errorLen with
  | some n => s!"invalid utf-8 sequence of {n} bytes from index {e.validUpTo}"
  | none => s!"incomplete utf-8 byte sequence from index {e.validUpTo}"

def isContinuation (b : UInt8) : Bool := 0x80≤b && b≤0xBF

/-- The second byte of a three-byte character: no overlong form and no surrogate. -/
def second3 (b₀ b₁ : UInt8) : Bool :=
  if b₀=0xE0 then 0xA0≤b₁ && b₁≤0xBF
  else if b₀=0xED then 0x80≤b₁ && b₁≤0x9F
  else isContinuation b₁

/-- The second byte of a four-byte character: no overlong form and nothing past `U+10FFFF`. -/
def second4 (b₀ b₁ : UInt8) : Bool :=
  if b₀=0xF0 then 0x90≤b₁ && b₁≤0xBF
  else if b₀=0xF4 then 0x80≤b₁ && b₁≤0x8F
  else isContinuation b₁

def pushBits (acc : Nat) (b : UInt8) : Nat := acc*64+b.toNat%64

/-- `run_utf8_validation`, with the characters it accepts; `i` is the index of the next byte. -/
def fromUtf8Loop : List UInt8 → Nat → Except Utf8Error (List Char)
  | [],_ => .ok []
  | b₀::rest,i =>
    if b₀<0x80 then (Char.ofNat b₀.toNat::·) <$> fromUtf8Loop rest (i+1)
    else if 0xC2≤b₀ ∧ b₀≤0xDF then
      match rest with
      | [] => .error ⟨i,none⟩
      | b₁::rest =>
        if isContinuation b₁ then
          (Char.ofNat (pushBits (b₀.toNat%32) b₁)::·) <$> fromUtf8Loop rest (i+2)
        else .error ⟨i,some 1⟩
    else if 0xE0≤b₀ ∧ b₀≤0xEF then
      match rest with
      | [] => .error ⟨i,none⟩
      | b₁::rest =>
        if second3 b₀ b₁ then
          match rest with
          | [] => .error ⟨i,none⟩
          | b₂::rest =>
            if isContinuation b₂ then
              (Char.ofNat (pushBits (pushBits (b₀.toNat%16) b₁) b₂)::·) <$>
                fromUtf8Loop rest (i+3)
            else .error ⟨i,some 2⟩
        else .error ⟨i,some 1⟩
    else if 0xF0≤b₀ ∧ b₀≤0xF4 then
      match rest with
      | [] => .error ⟨i,none⟩
      | b₁::rest =>
        if second4 b₀ b₁ then
          match rest with
          | [] => .error ⟨i,none⟩
          | b₂::rest =>
            if isContinuation b₂ then
              match rest with
              | [] => .error ⟨i,none⟩
              | b₃::rest =>
                if isContinuation b₃ then
                  (Char.ofNat (pushBits (pushBits (pushBits (b₀.toNat%8) b₁) b₂) b₃)::·) <$>
                    fromUtf8Loop rest (i+4)
                else .error ⟨i,some 3⟩
            else .error ⟨i,some 2⟩
        else .error ⟨i,some 1⟩
    else .error ⟨i,some 1⟩

def fromUtf8 (bytes : List UInt8) : Except Utf8Error String :=
  ofList <$> fromUtf8Loop bytes 0

example : (fromUtf8 [0x61,0xD0,0xB6,0xE2,0x82,0xAC]).toOption=some "aж€" := by decide

example : fromUtf8 [0x61,0xE2,0x82]=.error ⟨1,none⟩ := by decide

theorem utf8ByteSize_ofList_cons (c : Char) (cs : List Char) :
    (ofList (c::cs)).utf8ByteSize=c.utf8Size+(ofList cs).utf8ByteSize := by
  rw [String.ofList_cons,String.utf8ByteSize_append,String.utf8ByteSize_singleton]

theorem utf8ByteSize_ofList_eq_zero_iff : (ofList l).utf8ByteSize=0 ↔ l=[] := by
  cases l with
  | nil => exact iff_of_true rfl rfl
  | cons c cs =>
    rw [utf8ByteSize_ofList_cons]
    have hpos := c.utf8Size_pos
    exact iff_of_false (by omega) (cons_ne_nil c cs)

theorem sliceAt_zero_iff {a b : List Char} :
    sliceAt l 0=some (a,b) ↔ l=a++b ∧ (ofList a).utf8ByteSize=0 := by
  have hzero : sliceAt l 0=some ([],l) := by cases l <;> rfl
  rw [hzero,utf8ByteSize_ofList_eq_zero_iff]
  constructor
  · intro h
    cases h
    exact ⟨rfl,rfl⟩
  · intro h
    rw [h.1,h.2,nil_append]

theorem sliceAt_eq_some_iff {a b : List Char} : ∀ {n : Nat},
    sliceAt l n=some (a,b) ↔ l=a++b ∧ (ofList a).utf8ByteSize=n := by
  have hempty : (ofList []).utf8ByteSize=0 := rfl
  induction l generalizing a with
  | nil =>
    intro n
    cases n with
    | zero => exact sliceAt_zero_iff
    | succ n =>
      rw [sliceAt]
      refine iff_of_false nofun fun h => ?_
      obtain ⟨ha,-⟩ := append_eq_nil_iff.1 h.1.symm
      rw [ha,hempty] at h
      omega
  | cons c cs ih =>
    intro n
    cases n with
    | zero => exact sliceAt_zero_iff
    | succ n =>
      rw [sliceAt]
      constructor
      · intro h
        split_ifs at h with hfits
        obtain ⟨p,hp,heq⟩ := map_eq_some_iff.1 h
        cases heq
        obtain ⟨hcs,hsize⟩ := ih.1 hp
        refine ⟨by rw [hcs,cons_append],?_⟩
        rw [utf8ByteSize_ofList_cons,hsize]
        omega
      · intro h
        cases a with
        | nil => exact absurd h.2 (by rw [hempty]; omega)
        | cons x a =>
          obtain ⟨heq,hsize⟩ := h
          rw [cons_append] at heq
          obtain ⟨hc,hcs⟩ := List.cons.inj heq
          rw [← hc]
          rw [← hc,utf8ByteSize_ofList_cons] at hsize
          have hrest : sliceAt cs (n+1-c.utf8Size)=some (a,b) := ih.2 ⟨hcs,by omega⟩
          rw [if_pos (by omega),hrest]
          rfl

theorem utf8ByteSize_ascii (h : ∀ c∈l,c.toNat<128) : (ofList l).utf8ByteSize=l.length := by
  induction l with
  | nil => rfl
  | cons c cs ih =>
    have hc : c.toNat<128 := h c mem_cons_self
    have hle : c.toNat≤127 := by omega
    have hone : c.utf8Size=1 := Char.utf8Size_eq_one_iff.2 hle
    rw [utf8ByteSize_ofList_cons,ih fun x hx => h x (mem_cons_of_mem c hx),hone,
      length_cons,Nat.add_comm]

theorem sliceAt_ascii (h : ∀ c∈l,c.toNat<128) {n : Nat} (hn : n≤l.length) :
    sliceAt l n=some (l.take n,l.drop n) := by
  refine sliceAt_eq_some_iff.2 ⟨(take_append_drop n l).symm,?_⟩
  rw [utf8ByteSize_ascii fun c hc => h c (mem_of_mem_take hc),length_take]
  omega

theorem ascii_of_mem_utf8EncodeChar {x : UInt8} (hmem : x∈utf8EncodeChar c)
    (hx : x.toNat<128) : c.utf8Size=1 ∧ x.toNat=c.toNat := by
  have hor (y m : UInt8) (hm : 128 ≤ m.toNat) (heq : x=y ||| m) : False := by
    have hle : m.toNat≤(y ||| m).toNat := by
      rw [UInt8.toNat_or]
      exact Nat.right_le_or
    rw [← heq] at hle
    omega
  rcases c.utf8Size_eq with h1 | h2 | h3 | h4
  · rw [String.utf8EncodeChar_eq_singleton h1] at hmem
    have hval : c.val≤127 := Char.utf8Size_eq_one_iff.1 h1
    have hval : c.toNat≤127 := hval
    refine ⟨h1,?_⟩
    rw [mem_singleton.1 hmem]
    show c.toNat%256=c.toNat
    omega
  · rw [String.utf8EncodeChar_eq_cons_cons h2] at hmem
    simp only [mem_cons,not_mem_nil,or_false] at hmem
    rcases hmem with h | h <;> exact (hor _ _ (by decide) h).elim
  · rw [String.utf8EncodeChar_eq_cons_cons_cons h3] at hmem
    simp only [mem_cons,not_mem_nil,or_false] at hmem
    rcases hmem with h | h | h <;> exact (hor _ _ (by decide) h).elim
  · rw [String.utf8EncodeChar_eq_cons_cons_cons_cons h4] at hmem
    simp only [mem_cons,not_mem_nil,or_false] at hmem
    rcases hmem with h | h | h | h <;> exact (hor _ _ (by decide) h).elim

theorem exists_split_of_ascii {x : UInt8} (hx : x.toNat<128) : ∀ {n : Nat},
    (l.flatMap utf8EncodeChar)[n]?=some x →
    ∃ a c b,l=a++c::b ∧ (ofList a).utf8ByteSize=n ∧ c.toNat=x.toNat := by
  induction l with
  | nil =>
    intro n h
    nomatch h
  | cons c cs ih =>
    intro n h
    rw [flatMap_cons] at h
    by_cases hn : n<(utf8EncodeChar c).length
    · rw [getElem?_append_left hn] at h
      obtain ⟨hone,hcode⟩ := ascii_of_mem_utf8EncodeChar (mem_of_getElem? h) hx
      rw [String.length_utf8EncodeChar,hone] at hn
      have hzero : n=0 := by omega
      rw [hzero]
      exact ⟨[],c,cs,rfl,rfl,hcode.symm⟩
    · rw [getElem?_append_right (by omega)] at h
      obtain ⟨a,d,b,rfl,hsize,hcode⟩ := ih h
      rw [String.length_utf8EncodeChar] at hn hsize
      refine ⟨c::a,d,b,rfl,?_,hcode⟩
      rw [utf8ByteSize_ofList_cons,hsize]
      omega

theorem length_utf8 (l : List Char) :
    (l.flatMap utf8EncodeChar).length=(ofList l).utf8ByteSize := by
  induction l with
  | nil => rfl
  | cons c cs ih =>
    rw [flatMap_cons,length_append,ih,String.length_utf8EncodeChar,utf8ByteSize_ofList_cons]

inductive ParseIntError where
  | empty
  | invalidDigit
  | posOverflow
  deriving DecidableEq

def ParseIntError.text : ParseIntError → String
  | empty => "cannot parse integer from empty string"
  | invalidDigit => "invalid digit found in string"
  | posOverflow => "number too large to fit in target type"

def toDigit (radix : Nat) (c : Char) : Option Nat :=
  let n := c.toNat
  let d := if 48≤n ∧ n≤57 then some (n-48)
    else if 97≤n ∧ n≤102 then some (n-87)
    else if 65≤n ∧ n≤70 then some (n-55)
    else none
  d.filter (·<radix)

def parseDigits (radix max : Nat) : List Char → Nat → Except ParseIntError Nat
  | [],acc => .ok acc
  | c::cs,acc =>
    match toDigit radix c with
    | none => .error .invalidDigit
    | some d =>
      if acc*radix+d ≤ max then parseDigits radix max cs (acc*radix+d)
      else .error .posOverflow

theorem toDigit_of_decimal (h : '0' ≤ c ∧ c ≤ '9') : toDigit 10 c=some (c.toNat - '0'.toNat) := by
  have hlow : 48 ≤ c.toNat := h.1
  have hhigh : c.toNat≤57 := h.2
  have hlt : c.toNat-48<10 := by omega
  show Option.filter _ (if 48 ≤ c.toNat ∧ c.toNat≤57 then some (c.toNat-48) else _)=_
  rw [if_pos ⟨hlow,hhigh⟩,filter_some,if_pos (decide_eq_true hlt)]
  rfl

theorem le_ofDigitChars (ds : List Char) (acc : Nat) : acc≤Nat.ofDigitChars 10 ds acc := by
  rw [Nat.ofDigitChars_eq_ofDigitChars_zero]
  exact Nat.le_add_right_of_le (Nat.le_mul_of_pos_left acc (Nat.pow_pos (by omega)))

theorem parseDigits_ok_iff {max n : Nat} (ds : List Char) : ∀ acc : Nat,
    (∀ c∈ds, '0' ≤ c ∧ c ≤ '9') → acc ≤ max →
    (parseDigits 10 max ds acc=.ok n ↔ Nat.ofDigitChars 10 ds acc=n ∧ n ≤ max) := by
  induction ds with
  | nil =>
    intro acc _ hacc
    constructor
    · intro h
      cases h
      exact ⟨rfl,hacc⟩
    · intro h
      obtain ⟨rfl,-⟩ := h
      rfl
  | cons c ds ih =>
    intro acc hds hacc
    have htail : ∀ c∈ds, '0' ≤ c ∧ c ≤ '9' := fun x hx => hds x (mem_cons_of_mem c hx)
    rw [parseDigits,toDigit_of_decimal (hds c mem_cons_self),Nat.ofDigitChars_cons,
      Nat.mul_comm 10 acc]
    show (if acc*10+(c.toNat - '0'.toNat) ≤ max then
      parseDigits 10 max ds (acc*10+(c.toNat - '0'.toNat)) else .error .posOverflow)=_ ↔ _
    split_ifs with hle
    · exact ih _ htail hle
    · have hmore := le_ofDigitChars ds (acc*10+(c.toNat - '0'.toNat))
      constructor
      · intro h
        nomatch h
      · intro h
        obtain ⟨rfl,hn⟩ := h
        omega

def fromStrRadix (radix max : Nat) (s : String) : Except ParseIntError Nat :=
  match s.toList with
  | [] => .error .empty
  | ['+'] => .error .invalidDigit
  | '+' :: cs => parseDigits radix max cs 0
  | cs => parseDigits radix max cs 0

theorem append_cons_inj_of_all {p : Char → Prop} {x y : Char} {s t : List Char} (hx : ¬p x)
    (hy : ¬p y) : ∀ {a b : List Char},(∀ c∈a,p c) → (∀ c∈b,p c) →
    a++x::s=b++y::t → a=b ∧ x=y ∧ s=t
  | [],[],_,_,h => ⟨rfl,List.cons.inj h⟩
  | [],c::b,_,hb,h => absurd ((List.cons.inj h).1 ▸ hb c mem_cons_self) hx
  | c::a,[],ha,_,h => absurd ((List.cons.inj h).1 ▸ ha c mem_cons_self) hy
  | c::a,d::b,ha,hb,h => by
    obtain ⟨hcd,htail⟩ := List.cons.inj h
    obtain ⟨hab,hxy,hst⟩ := append_cons_inj_of_all hx hy
      (fun e he => ha e (mem_cons_of_mem c he)) (fun e he => hb e (mem_cons_of_mem d he))
      htail
    exact ⟨by rw [hcd,hab],hxy,hst⟩

theorem intercalate_inj {sep : List Char} : ∀ {ls ls' : List (List Char)},
    sep.intercalate ls=sep.intercalate ls' → ls.map List.length=ls'.map List.length → ls=ls'
  | [],[],_,_ => rfl
  | [l],[l'],h,_ => by
    rw [intercalate_singleton,intercalate_singleton] at h
    rw [h]
  | l::m::ls,l'::m'::ls',h,hlength => by
    rw [map_cons,map_cons] at hlength
    obtain ⟨hhead,htail⟩ := List.cons.inj hlength
    rw [intercalate_cons_cons,intercalate_cons_cons,append_assoc,append_assoc] at h
    obtain ⟨rfl,hrest⟩ := append_inj h hhead
    rw [intercalate_inj (append_cancel_left hrest) htail]
  | [],_::_,_,hlength => by cases hlength
  | _::_,[],_,hlength => by cases hlength
  | [_],_::_::_,_,hlength => by simp at hlength
  | _::_::_,[_],_,hlength => by simp at hlength

end RustStr
