import DaeRs.Lib.Panicking
import DaeRs.Lib.RustSlice

/-! The values of a daefile: quotes, numbers, lists and maps, and the fields that they are read into.
A panic is kept apart from an error. -/

namespace DaeRs.Config

open Panicking RustStr
open String (ofList toList_append toList_inj utf8ByteSize_append utf8ByteSize_singleton)

inductive ParseError where
  | syntaxError (line : Nat) (message : String)
  | unknownSection (line : Nat) (name : String)
  | fieldType (line : Nat) (field message : String)
  | invalidValue (line : Nat) (field message : String)
  | importConflict (name : String)
  | importInvalid (name url : String)
  deriving DecidableEq

abbrev Parse := Outcome ParseError

def isQuoted (s : String) (q : Char) : Bool := s.toList.head?=some q && s.toList.getLast?=some q

/-- `unquote`; the slice of a text that is one quote begins behind its end. -/
def unquote (s : String) : Option String :=
  let s := trim s
  if isQuoted s '\x27' || isQuoted s '\x22' then slice s 1 (s.utf8ByteSize-1) else some s

def unquoteAll : List String → Option (List String)
  | [] => some []
  | s::ss => do
    let v ← unquote s
    let vs ← unquoteAll ss
    return v::vs

def parseBool (s : String) : Option Bool :=
  match trim s with
  | "true" | "yes" | "on" | "1" => some true
  | "false" | "no" | "off" | "0" => some false
  | _ => none

def u16Max : Nat := 65535
def u32Max : Nat := 4294967295
def u64Max : Nat := 18446744073709551615

def parseInteger (max : Nat) (value : String) (line : Nat) (field : String) : Parse Nat :=
  match fromStrRadix 10 max value with
  | .ok n => pure n
  | .error _ => throw (.fieldType line field s!"cannot parse as integer: '{value}'")

variable (value : String)

def parseHexOrDecimal (line : Nat) (key : String) : Parse Nat :=
  if startsWith value "0x" || startsWith value "0X" then do
    let digits ← orPanic (sliceFrom value 2)
    match fromStrRadix 16 u32Max digits with
    | .ok n => pure n
    | .error _ => throw (.fieldType line key s!"cannot parse as hex value: '{value}'")
  else parseInteger u32Max value line key

def parseKvPair {α : Type} (line : String) (number : Nat) (f : String → String → Parse α) :
    Parse α := do
  match ← orPanic (sliceFound line ":") with
  | some (key,value) =>
    if trim key = "" then throw (.syntaxError number s!"empty key name: '{line}'")
    else f (trim key) (trim value)
  | none => throw (.syntaxError number s!"expected `key: value` format, got: '{line}'")

def insertEntry (key value : String) (map : List (String×String)) : List (String×String) :=
  map.filter (·.1≠key)++[(key,value)]

def parseMapEntries (number : Nat) (field : String) :
    List String → List (String×String) → Parse (List (String×String))
  | [],map => pure map
  | entry::entries,map => do
    let entry := trim entry
    if entry = "" then parseMapEntries number field entries map
    else
      match ← orPanic (sliceFound entry ":") with
      | none => throw (.syntaxError number
          s!"field '{field}' map entry expected `\"key\": \"value\"`, got: '{entry}'")
      | some (k,v) => do
        let key ← orPanic (unquote (trim k))
        let val ← orPanic (unquote (trim v))
        if key = "" then
          throw (.syntaxError number s!"field '{field}' map entry has empty key: '{entry}'")
        else parseMapEntries number field entries (insertEntry key val map)

def mapInner : Option String := (stripStart (trim value) "\x7b").bind fun s => stripEnd s "\x7d"

def parseMapValue (number : Nat) (field : String) :
    Parse (List (String×String)) :=
  match mapInner value with
  | none => throw (.syntaxError number
      s!"field '{field}' expected map syntax `\x7b \"key\": \"value\" \x7d`, got: '{trim value}'")
  | some inner => parseMapEntries number field (split inner ',') []

/-- How the value of a key is read, and what it sets. -/
inductive Field (σ : Type) where
  | text (set : String → σ → σ)
  | integer (max : Nat) (set : Nat → σ → σ)
  | mark (set : Nat → σ → σ)
  | boolean (set : Bool → σ → σ)
  | list (parts : String → List String) (keeps : String → Bool) (set : List String → σ → σ)
  | map (set : List (String×String) → σ → σ)
  /-- one of some words; `field` and `message` are of the error -/
  | word (choose : String → Option (σ → σ)) (field : String) (message : String → String)
  | plain (read : Nat → String → σ → Except ParseError σ)

namespace Field

variable {σ : Type}

def apply (f : Field σ) (line : Nat) (key value : String) (s : σ) : Parse σ :=
  match f with
  | text set => do
    let v ← orPanic (unquote value)
    return set v s
  | integer max set => do
    let n ← parseInteger max value line key
    return set n s
  | mark set => do
    let n ← parseHexOrDecimal value line key
    return set n s
  | boolean set =>
    match parseBool value with
    | some b => pure (set b s)
    | none => throw (.fieldType line key s!"cannot parse as boolean: '{value}'")
  | list parts keeps set => do
    let vs ← orPanic (unquoteAll (parts value))
    return set (vs.filter keeps) s
  | map set => do
    let m ← parseMapValue value line key
    return set m s
  | word choose field message => do
    let v ← orPanic (unquote value)
    match choose v with
    | some set => pure (set s)
    | none => throw (.invalidValue line field (message v))
  | plain read => fromExcept (read line value s)

end Field

/-- The fields of a section; `unknown` is the message for other keys. -/
structure Fields (σ : Type) where
  field : String → Option (Field σ)
  unknown : String → String

def Fields.apply {σ : Type} (fs : Fields σ) (number : Nat) (s : σ) (key value : String) : Parse σ :=
  match fs.field key with
  | some f => f.apply number key value s
  | none => throw (.syntaxError number (fs.unknown key))

def Fields.parse {σ : Type} (fs : Fields σ) (line : String) (number : Nat) (s : σ) : Parse σ :=
  parseKvPair line number (fs.apply number s)

def LoneQuote (s : String) : Prop := trim s = "'" ∨ trim s = "\""

instance (s : String) : Decidable (LoneQuote s) := inferInstanceAs (Decidable (_ ∨ _))

theorem lone_or_inside {s : String} {q : Char} (h : isQuoted s q=true) :
    s=String.singleton q ∨ ∃ inside,s=String.singleton q++(inside++String.singleton q) := by
  have hends := Bool.and_eq_true_iff.1 h
  have hhead : s.toList.head?=some q := of_decide_eq_true hends.1
  have hlast : s.toList.getLast?=some q := of_decide_eq_true hends.2
  obtain ⟨rest,hrest⟩ := List.head?_eq_some_iff.1 hhead
  rw [hrest] at hlast
  cases rest using List.reverseRecOn with
  | nil =>
    left
    rw [← toList_inj,hrest,String.toList_singleton]
  | append_singleton inside last =>
    right
    rw [← List.cons_append,List.getLast?_concat] at hlast
    refine ⟨ofList inside,?_⟩
    rw [← toList_inj,hrest,toList_append,toList_append,
      String.toList_singleton,String.toList_ofList,Option.some.inj hlast,List.singleton_append]

theorem slice_inside {q : Char} (hq : q.utf8Size=1) (inside : String) :
    slice (String.singleton q++(inside++String.singleton q)) 1
      ((String.singleton q++(inside++String.singleton q)).utf8ByteSize-1)=some inside := by
  have hsize : (String.singleton q++(inside++String.singleton q)).utf8ByteSize-1 =
      inside.utf8ByteSize+1 := by
    rw [utf8ByteSize_append,utf8ByteSize_append,utf8ByteSize_singleton,hq]
    omega
  have hfrom := sliceFrom_eq (String.singleton q)
    (rfl : String.singleton q++(inside++String.singleton q)=_)
  rw [utf8ByteSize_singleton,hq] at hfrom
  rw [hsize,slice,if_pos (by omega),hfrom,Option.bind_some,Nat.add_sub_cancel]
  exact sliceTo_eq (String.singleton q) rfl

theorem unquote_eq_none_iff (s : String) : unquote s=none ↔ LoneQuote s := by
  unfold unquote LoneQuote
  generalize trim s=t
  dsimp only
  have hquote {q : Char} (hq : q.utf8Size=1) (hquoted : isQuoted t q=true) :
      slice t 1 (t.utf8ByteSize-1)=none ↔ t=String.singleton q := by
    rcases lone_or_inside hquoted with h | ⟨inside,h⟩
    · rw [h,utf8ByteSize_singleton,hq]
      exact iff_of_true rfl rfl
    · rw [h,slice_inside hq]
      refine iff_of_false nofun fun heq => ?_
      have hsize := congrArg String.utf8ByteSize heq
      rw [utf8ByteSize_append,utf8ByteSize_append,utf8ByteSize_singleton]
        at hsize
      omega
  by_cases hsingle : isQuoted t '\x27' = true
  · rw [hsingle,Bool.true_or,if_pos rfl,hquote rfl hsingle]
    refine ⟨Or.inl,fun h => h.resolve_right fun heq => ?_⟩
    rw [heq] at hsingle
    exact absurd hsingle (by decide)
  · rw [Bool.not_eq_true] at hsingle
    by_cases hdouble : isQuoted t '\x22' = true
    · rw [hdouble,Bool.or_true,if_pos rfl,hquote rfl hdouble]
      refine ⟨Or.inr,fun h => h.resolve_left fun heq => ?_⟩
      rw [heq] at hdouble
      exact absurd hdouble (by decide)
    · rw [hsingle,Bool.false_or,if_neg hdouble]
      refine iff_of_false nofun fun h => ?_
      rcases h with heq | heq
      · rw [heq] at hsingle
        exact absurd hsingle (by decide)
      · rw [heq] at hdouble
        exact hdouble (by decide)

theorem unquoteAll_ne_none_iff (ss : List String) : unquoteAll ss≠none ↔ ∀ s∈ss,¬LoneQuote s := by
  induction ss with
  | nil => exact iff_of_true nofun (List.forall_mem_nil _)
  | cons s ss ih =>
    rw [List.forall_mem_cons,← ih,← unquote_eq_none_iff,unquoteAll]
    cases unquote s with
    | none => exact iff_of_false (fun h => h rfl) fun h => h.1 rfl
    | some v =>
      cases unquoteAll ss with
      | none => exact iff_of_false (fun h => h rfl) fun h => h.2 rfl
      | some vs => exact iff_of_true nofun ⟨nofun,nofun⟩

theorem returns_parseInteger (max : Nat) (value : String) (line : Nat) (field : String) :
    Returns (parseInteger max value line field) := by
  unfold parseInteger
  split
  · exact returns_pure _
  · exact returns_throw _

theorem sliceFrom_ne_none {s pat : String} (h : startsWith s pat=true) :
    sliceFrom s pat.utf8ByteSize≠none := by
  obtain ⟨rest,hrest⟩ : pat.toList <+: s.toList := of_decide_eq_true h
  have hs : s=pat++ofList rest := by
    rw [← toList_inj,toList_append,String.toList_ofList,hrest]
  rw [sliceFrom_eq pat hs]
  nofun

theorem returns_parseHexOrDecimal (line : Nat) (key : String) :
    Returns (parseHexOrDecimal value line key) := by
  unfold parseHexOrDecimal
  split
  · next hstart =>
    rw [returns_orPanic_bind_iff]
    · rcases Bool.or_eq_true_iff.1 hstart with hstart | hstart
      all_goals exact sliceFrom_ne_none hstart
    · intro digits
      split
      · exact returns_pure _
      · exact returns_throw _
  · exact returns_parseInteger u32Max value line key

def kvOf (line : String) : Option (String×String) :=
  match splitPat line ":" with
  | some (key,value) => if trim key = "" then none else some (trim key,trim value)
  | none => none

theorem returns_parseKvPair_iff {α : Type} {line : String} {number : Nat}
    {f : String → String → Parse α} :
    Returns (parseKvPair line number f) ↔
      ∀ key value,kvOf line=some (key,value) → Returns (f key value) := by
  unfold parseKvPair kvOf
  rw [sliceFound_eq,orPanic_bind]
  cases splitPat line ":" with
  | none => exact iff_of_true (returns_throw _) nofun
  | some p =>
    dsimp only
    split_ifs
    · exact iff_of_true (returns_throw _) nofun
    · constructor
      · intro h key value heq
        cases heq
        exact h
      · intro h
        exact h _ _ rfl

def entryQuotes : List String → List String
  | [] => []
  | entry::entries =>
    if trim entry = "" then entryQuotes entries
    else
      match splitPat (trim entry) ":" with
      | none => []
      | some (k,v) =>
        trim k::trim v::if unquote (trim k)=some "" then [] else entryQuotes entries

theorem returns_parseMapEntries_iff (number : Nat) (field : String) (entries : List String) :
    ∀ map,Returns (parseMapEntries number field entries map) ↔
      ∀ s∈entryQuotes entries,¬LoneQuote s := by
  induction entries with
  | nil => exact fun map => iff_of_true (returns_pure _) (List.forall_mem_nil _)
  | cons entry entries ih =>
    intro map
    rw [parseMapEntries,entryQuotes]
    split_ifs with hempty
    · exact ih map
    · rw [sliceFound_eq,orPanic_bind]
      cases splitPat (trim entry) ":" with
      | none => exact iff_of_true (returns_throw _) (List.forall_mem_nil _)
      | some p =>
        dsimp only
        rw [List.forall_mem_cons,List.forall_mem_cons,← unquote_eq_none_iff,← unquote_eq_none_iff]
        cases hkey : unquote (trim p.1) with
        | none => exact iff_of_false (fun h => h rfl) fun h => h.1 rfl
        | some key =>
          cases hval : unquote (trim p.2) with
          | none => exact iff_of_false (fun h => h rfl) fun h => h.2.1 rfl
          | some val =>
            rw [orPanic_bind,orPanic_bind]
            by_cases hk : key = ""
            · rw [if_pos hk,if_pos (by rw [hk])]
              exact iff_of_true (returns_throw _) ⟨nofun,nofun,List.forall_mem_nil _⟩
            · rw [if_neg hk,if_neg (fun h => hk (Option.some.inj h)),ih]
              exact ⟨fun h => ⟨nofun,nofun,h⟩,fun h => h.2.2⟩

def mapQuotes : List String :=
  match mapInner value with
  | some inner => entryQuotes (split inner ',')
  | none => []

theorem returns_parseMapValue_iff (number : Nat) (field : String) :
    Returns (parseMapValue value number field) ↔ ∀ s∈mapQuotes value,¬LoneQuote s := by
  unfold parseMapValue mapQuotes
  generalize mapInner value=inner
  cases inner with
  | none => exact iff_of_true (returns_throw _) (List.forall_mem_nil _)
  | some inner => exact returns_parseMapEntries_iff number field (split inner ',') []

namespace Field

variable {σ : Type}

def quotes : Field σ → String → List String
  | text _,value => [value]
  | list parts _ _,value => parts value
  | map _,value => mapQuotes value
  | word _ _ _,value => [value]
  | integer _ _,_ | mark _,_ | boolean _,_ | plain _,_ => []

theorem returns_apply_iff (f : Field σ) (line : Nat) (key value : String) (s : σ) :
    Returns (f.apply line key value s) ↔ ∀ v∈f.quotes value,¬LoneQuote v := by
  have hone : (unquote value≠none) ↔ ∀ v∈[value],¬LoneQuote v := by
    rw [List.forall_mem_singleton,← unquote_eq_none_iff]
  cases f with
  | text set =>
    rw [apply,returns_orPanic_bind_iff fun v => returns_pure _]
    exact hone
  | integer max set =>
    refine iff_of_true (returns_bind_iff.2 ⟨?_,fun n _ => returns_pure _⟩) (List.forall_mem_nil _)
    exact returns_parseInteger max value line key
  | mark set =>
    refine iff_of_true (returns_bind_iff.2 ⟨?_,fun n _ => returns_pure _⟩) (List.forall_mem_nil _)
    exact returns_parseHexOrDecimal value line key
  | boolean set =>
    refine iff_of_true ?_ (List.forall_mem_nil _)
    unfold apply
    dsimp only
    split
    · exact returns_pure _
    · exact returns_throw _
  | list parts keeps set =>
    rw [apply,returns_orPanic_bind_iff fun v => returns_pure _]
    exact unquoteAll_ne_none_iff (parts value)
  | map set =>
    rw [apply,returns_bind_iff_left fun v => returns_pure _]
    exact returns_parseMapValue_iff value line key
  | word choose field message =>
    rw [apply,returns_orPanic_bind_iff]
    · exact hone
    · intro v
      split
      · exact returns_pure _
      · exact returns_throw _
  | plain read => exact iff_of_true (returns_fromExcept _) (List.forall_mem_nil _)

end Field

namespace Fields

variable {σ : Type}

def quotes (fs : Fields σ) (key value : String) : List String :=
  match fs.field key with
  | some f => f.quotes value
  | none => []

theorem returns_apply_iff (fs : Fields σ) (number : Nat) (s : σ) (key value : String) :
    Returns (fs.apply number s key value) ↔ ∀ v∈fs.quotes key value,¬LoneQuote v := by
  unfold apply quotes
  cases fs.field key with
  | none => exact iff_of_true (returns_throw _) (List.forall_mem_nil _)
  | some f => exact f.returns_apply_iff number key value s

def lineQuotes (fs : Fields σ) (line : String) : List String :=
  match kvOf line with
  | some (key,value) => fs.quotes key value
  | none => []

theorem returns_parse_iff (fs : Fields σ) (line : String) (number : Nat) (s : σ) :
    Returns (fs.parse line number s) ↔ ∀ v∈fs.lineQuotes line,¬LoneQuote v := by
  rw [parse,returns_parseKvPair_iff,lineQuotes]
  cases kvOf line with
  | none => exact iff_of_true nofun (List.forall_mem_nil _)
  | some p =>
    rw [← returns_apply_iff fs number s]
    constructor
    · intro h
      exact h p.1 p.2 rfl
    · intro h key value heq
      cases heq
      exact h

end Fields

end DaeRs.Config
