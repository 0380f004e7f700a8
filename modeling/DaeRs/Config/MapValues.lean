import DaeRs.Config.Fields
import DaeRs.Lib.RustSplit

/-! Maps that are written in the documented form and read back. -/

namespace DaeRs.Config

open Panicking RustStr
open String (ofList toList_inj utf8ByteSize_append)

def quoted (s : String) : String := "\"" ++ (s ++ "\"")

variable (e : String×String)

def renderEntry : String := quoted e.1++(":" ++ (" " ++ quoted e.2))

def renderEntries : List (String×String) → String
  | [] => ""
  | [e] => renderEntry e
  | e::es => renderEntry e++(", " ++ renderEntries es)

def renderMap (m : List (String×String)) : String :=
  "\x7b" ++ ((" " ++ (renderEntries m ++ " ")) ++ "\x7d")

/-- No separator of the parser is inside the key or the value. -/
def Unseparated : Prop := ',' ∉ e.1.toList ∧ ':' ∉ e.1.toList ∧ ',' ∉ e.2.toList

variable {c : Char}

theorem mem_of_mem_trim {s : String} (h : c∈(trim s).toList) : c∈s.toList := by
  rw [trim,String.toList_ofList,dropEndWhile,List.mem_reverse] at h
  exact List.dropWhile_subset _ (List.mem_reverse.mp (List.dropWhile_subset _ h))

theorem mem_of_mem_unquote {s t : String} (h : unquote s=some t) (hc : c∈t.toList) :
    c∈s.toList := by
  unfold unquote slice sliceFrom sliceTo at h
  dsimp only at h
  split_ifs at h
  · simp only [Option.bind_eq_some_iff,Option.map_eq_some_iff,Prod.exists] at h
    obtain ⟨r,⟨a,b,hab,rfl⟩,a',b',hab',rfl⟩ := h
    rw [String.toList_ofList] at hab' hc
    have hs := (sliceAt_eq_some_iff.mp hab).1
    have hb := (sliceAt_eq_some_iff.mp hab').1
    exact mem_of_mem_trim (by simp [hs,hb,hc])
  · cases h
    exact mem_of_mem_trim hc

theorem colon_notMem_of_splitPat {s a b : String} (h : splitPat s ":" = some (a,b)) :
    ':' ∉ a.toList := by
  have hchars : ∀ {l x y : List Char},splitPatChars [':'] l=some (x,y) → ':' ∉ x := by
    intro l
    induction l with
    | nil => simp [splitPatChars]
    | cons c cs ih => grind [splitPatChars,stripChars,Option.map_eq_some_iff]
  simp only [splitPat,Option.map_eq_some_iff,Prod.mk.injEq,Prod.exists] at h
  obtain ⟨x,y,hxy,rfl,rfl⟩ := h
  simpa using hchars hxy

theorem notMem_of_mem_splitChars {l p : List Char} (h : p∈splitChars c l) : c∉p := by
  induction l generalizing p with
  | nil => grind [splitChars]
  | cons x xs ih => grind [splitChars]

theorem split_append {a : String} (h : c∉a.toList) (b : String) :
    split (a++(String.singleton c++b)) c=a::split b c := by
  have hchars (l : List Char) (hl : c∉l) :
      splitChars c (l++c::b.toList)=l::splitChars c b.toList := by
    induction l with
    | nil => simp [splitChars]
    | cons x xs ih => grind [splitChars]
  simp [split,hchars _ h]

theorem split_of_notMem {a : String} (h : c∉a.toList) : split a c=[a] := by
  have hchars (l : List Char) (hl : c∉l) : splitChars c l=[l] := by
    induction l with
    | nil => rfl
    | cons x xs ih => grind [splitChars]
  simp [split,hchars _ h]

/-- Whatever is read has no separators in it. -/
theorem parseMapEntries_unseparated {number : Nat} {field : String} {ps : List String}
    {acc m : List (String×String)} (hps : ∀ p∈ps, ',' ∉ p.toList)
    (hacc : ∀ e∈acc,Unseparated e) (h : parseMapEntries number field ps acc=pure m) :
    ∀ e∈m,Unseparated e := by
  induction ps generalizing acc with
  | nil =>
    cases h
    exact hacc
  | cons p ps ih =>
    obtain ⟨hp,hps⟩ := List.forall_mem_cons.mp hps
    rw [← value?_eq_some_iff,parseMapEntries] at h
    split_ifs at h with hempty
    · exact ih hps hacc (value?_eq_some_iff.mp h)
    · rw [sliceFound_eq,orPanic_bind] at h
      cases hsplit : splitPat (trim p) ":" with
      | none => simp [hsplit] at h
      | some kv =>
        obtain ⟨k,v⟩ := kv
        simp only [hsplit,value?_bind,value?_orPanic,Option.bind_eq_some_iff] at h
        obtain ⟨key,hkey,val,hval,h⟩ := h
        split_ifs at h
        · cases h
        · refine ih hps (fun e he => ?_) (value?_eq_some_iff.mp h)
          have hsub := eq_append_of_splitPat hsplit
          have htrim (c : Char) (hc : c∈k.toList ∨ c∈v.toList) : c∈p.toList :=
            mem_of_mem_trim (by rw [hsub]; grind [String.toList_append])
          rcases List.mem_append.mp he with he | he
          · exact hacc e (List.mem_filter.mp he).1
          · cases List.mem_singleton.mp he
            have hmem {s t : String} (ht : unquote (trim s)=some t) (c : Char) (hc : c∈t.toList) :
                c∈s.toList := mem_of_mem_trim (mem_of_mem_unquote ht hc)
            exact ⟨fun hc => hp (htrim _ (.inl (hmem hkey _ hc))),
              fun hc => colon_notMem_of_splitPat hsplit (hmem hkey _ hc),
              fun hc => hp (htrim _ (.inr (hmem hval _ hc)))⟩

theorem trim_quoted (s : String) : trim (quoted s)=quoted s := by
  have h := trim_of_ends (c := '\x22') (d := '\x22') (l := (quoted s).toList) (by decide) (by decide)
    ⟨s.toList++['\x22'],by simp [quoted]⟩ ⟨'\x22' :: s.toList,by simp [quoted]⟩
  rwa [String.ofList_toList] at h

theorem unquote_quoted (s : String) : unquote (quoted s)=some s := by
  have hone : ("\"" : String).utf8ByteSize=1 := rfl
  have hsize : (quoted s).utf8ByteSize-1-1=s.utf8ByteSize := by
    rw [quoted,utf8ByteSize_append,utf8ByteSize_append,hone]
    omega
  have hle : 1≤(quoted s).utf8ByteSize-1 := by
    rw [quoted,utf8ByteSize_append,utf8ByteSize_append,hone]
    omega
  have hquoted : isQuoted (quoted s) '\x22' = true := by
    simp [isQuoted,quoted,List.getLast?_cons]
  have hfrom : sliceFrom (quoted s) 1=some (s ++ "\"") := sliceFrom_eq "\"" rfl
  simp only [unquote,trim_quoted,hquoted,Bool.or_true,if_true,slice,if_pos hle,hfrom,
    Option.bind_some,hsize,sliceTo_eq "\"" rfl]

theorem renderEntry_eq : renderEntry e=quoted (e.1++("\": \"" ++ e.2)) := by
  apply toList_inj.mp
  simp [renderEntry,quoted]

theorem trim_blanks (a b : List Char) (ha : ∀ c∈a, c = ' ') (hb : ∀ c∈b, c = ' ') (s : String) :
    trim (ofList a++(quoted s++ofList b))=quoted s := by
  have hblank : isWhitespace ' ' = true := by decide
  have h := trim_surround (a := a) (b := b) (fun c hc => ha c hc ▸ hblank)
    (fun c hc => hb c hc ▸ hblank) (quoted s)
  rw [trim_quoted] at h
  have heq : ofList a++(quoted s++ofList b) =
      ofList (a++((quoted s).toList++b)) := by
    apply toList_inj.mp
    simp
  rw [heq,h]

/-- An entry with blanks around it is read as it was written. -/
theorem parseMapEntries_cons {e : String×String} (hkey : e.1 ≠ "") (he : ':' ∉ e.1.toList)
    {number : Nat} {field : String} {p : String} (hp : trim p=renderEntry e)
    (ps : List String) (acc : List (String×String)) :
    parseMapEntries number field (p::ps) acc =
      parseMapEntries number field ps (insertEntry e.1 e.2 acc) := by
  have hne : renderEntry e ≠ "" := by simp [renderEntry,quoted]
  have hval : trim (" " ++ quoted e.2)=quoted e.2 := by
    simpa using trim_blanks [' '] [] (by simp) (by simp) e.2
  have hsplit : splitPat (renderEntry e) ":" = some (quoted e.1, " " ++ quoted e.2) :=
    splitPat_pair (by simp [quoted,he]) _
  rw [parseMapEntries,hp,sliceFound_eq,hsplit]
  simp [hne,trim_quoted,unquote_quoted,hval,hkey]

theorem parseMapEntries_renderEntries {m acc : List (String×String)}
    (hm : ∀ e∈m,e.1 ≠ "" ∧ Unseparated e) (hkeys : ((acc++m).map Prod.fst).Nodup) (number : Nat)
    (field : String) :
    parseMapEntries number field (split (" " ++ (renderEntries m ++ " ")) ',') acc =
      pure (acc++m) := by
  induction m generalizing acc with
  | nil =>
    have hsplit : split (" " ++ (renderEntries [] ++ " ")) ',' = ["  "] := by decide
    have htrim : trim "  " = "" := by decide
    rw [hsplit,parseMapEntries,htrim]
    simp [parseMapEntries]
  | cons e es ih =>
    obtain ⟨⟨hkey,hcomma,hcolon,hvalue⟩,hes⟩ := List.forall_mem_cons.mp hm
    have hinsert : insertEntry e.1 e.2 acc=acc++[e] := by
      rw [insertEntry,List.filter_eq_self.mpr]
      simp only [List.map_append,List.map_cons,List.nodup_append,List.mem_map] at hkeys
      intro x hx
      have hne := hkeys.2.2 x.1 ⟨x,hx,rfl⟩ e.1 (by simp)
      simpa using hne
    have hnone : ',' ∉ (renderEntry e).toList := by simp [renderEntry,quoted,hcomma,hvalue]
    cases es with
    | nil =>
      have hsplit : split (" " ++ (renderEntries [e] ++ " ")) ',' =
          [" " ++ (renderEntry e ++ " ")] := split_of_notMem (by simp [renderEntries,hnone])
      have htrim : trim (" " ++ (renderEntry e ++ " "))=renderEntry e := by
        rw [renderEntry_eq]
        exact trim_blanks [' '] [' '] (by simp) (by simp) _
      rw [hsplit,parseMapEntries_cons hkey hcolon htrim,hinsert,parseMapEntries]
    | cons e' es =>
      have hsplit : split (" " ++ (renderEntries (e::e'::es) ++ " ")) ',' =
          (" " ++ renderEntry e)::split (" " ++ (renderEntries (e'::es) ++ " ")) ',' := by
        rw [← split_append (by simp [hnone])]
        apply congrArg (split · ',')
        apply toList_inj.mp
        simp [renderEntries]
      have htrim : trim (" " ++ renderEntry e)=renderEntry e := by
        rw [renderEntry_eq]
        simpa using trim_blanks [' '] [] (by simp) (by simp) _
      rw [hsplit,parseMapEntries_cons hkey hcolon htrim,hinsert,ih hes (by simpa using hkeys)]
      simp

theorem mapInner_renderMap (m : List (String×String)) :
    mapInner (renderMap m)=some (" " ++ (renderEntries m ++ " ")) := by
  have htrim := trim_of_ends (c := '\x7b') (d := '\x7d') (l := (renderMap m).toList) (by decide)
    (by decide) ⟨_,by simp [renderMap]; rfl⟩
    ⟨'\x7b' :: (" " ++ (renderEntries m ++ " ")).toList,by simp [renderMap]⟩
  rw [String.ofList_toList] at htrim
  rw [mapInner,htrim,renderMap,stripStart_append,Option.bind_some,stripEnd_append]

/-- A map is read back just if no key has a comma or a colon in it and no value a comma. -/
theorem map_read_back_iff {m : List (String×String)} (hne : ∀ e∈m,e.1 ≠ "")
    (hkeys : (m.map Prod.fst).Nodup) (number : Nat) (field : String) :
    (∃ m',parseMapValue (renderMap m) number field=pure m' ∧ ∀ e,e∈m' ↔ e∈m) ↔
      ∀ e∈m,Unseparated e := by
  rw [parseMapValue,mapInner_renderMap]
  constructor
  · rintro ⟨m',hm',hmem⟩ e he
    refine parseMapEntries_unseparated (fun p hp => ?_) (by simp) hm' e ((hmem e).mpr he)
    obtain ⟨l,hl,rfl⟩ := List.mem_map.mp hp
    simpa using notMem_of_mem_splitChars hl
  · intro h
    rw [← List.nil_append m] at hkeys
    exact ⟨m,parseMapEntries_renderEntries (fun e he => ⟨hne e he,h e he⟩) hkeys _ _,
      fun e => Iff.rfl⟩

theorem map_read_back_host : ∃ m',
    parseMapValue (renderMap [("Host", "a.com:80"),("X", "")]) 1 "ws_headers" = pure m' ∧
      ∀ e,e∈m' ↔ e∈[("Host", "a.com:80"),("X", "")] :=
  (map_read_back_iff (by simp) (by simp) _ _).mpr (by simp [Unseparated])

/-- A comma in a value is an error, and a colon in a key makes another map. -/
theorem separators_not_read_back :
    value? (parseMapValue (renderMap [("Accept", "text/html, */*")]) 1 "ws_headers")=none ∧
      value? (parseMapValue (renderMap [("a:b", "c")]) 1 "ws_headers") =
        some [("\"a", "b\": \"c\"")] := by
  decide

end DaeRs.Config
