import DaeRs.RuleSet.ListParser

/-! The binary cache of parsed rule sets, in front of the text parsers. -/

namespace DaeRs.RuleSet

open RustStr Net Function

inductive RuleSetType where
  | domainList
  | ipList
  deriving DecidableEq

inductive RuleSetData where
  | domainList (patterns : List DomainPattern)
  | ipList (nets : List IpNet)
  deriving DecidableEq

def RuleSetData.type : RuleSetData → RuleSetType
  | .domainList _ => .domainList
  | .ipList _ => .ipList

/-- The errors of `RuleSetError` that parsing can raise. -/
inductive RuleSetError where
  | list (e : ListError)
  | invalidUtf8 (msg : String)
  deriving DecidableEq

def parseRuleSetData (env : Env) (ty : RuleSetType) (bytes : List UInt8) :
    Option (Except RuleSetError RuleSetData) :=
  match fromUtf8 bytes with
  | .error e => some (.error (.invalidUtf8 e.text))
  | .ok text =>
    match ty with
    | .domainList =>
      (parseDomainList text).map fun r => (r.map RuleSetData.domainList).mapError RuleSetError.list
    | .ipList =>
      some (((parseIpList env text).map RuleSetData.ipList).mapError RuleSetError.list)

structure RuleSetCacheFile where
  sourceSha : String
  data : RuleSetData
  deriving DecidableEq

def ruleSetCachePath (runDir name : String) : String := runDir ++ "/" ++ name ++ ".bin"

/-- What an attempt to write a cache file leaves behind. -/
inductive SaveOutcome where
  | written
  | unchanged
  | removed
  deriving DecidableEq

section Files

-- `resolve` takes a path to the file it names
variable {File : Type} [DecidableEq File] (env : Env) (resolve : String → File) (runDir : String)

abbrev Files (File : Type) := File → Option RuleSetCacheFile

variable (outcome : SaveOutcome)

def saveRuleSetCache (name sourceSha : String) (data : RuleSetData)
    (files : Files File) : Files File :=
  let file := resolve (ruleSetCachePath runDir name)
  match outcome with
  | .written => update files file (some ⟨sourceSha,data⟩)
  | .unchanged => files
  | .removed => update files file none

def loadRuleSetCache (name sourceSha : String) (files : Files File) : Option RuleSetData :=
  match files (resolve (ruleSetCachePath runDir name)) with
  | some file => if file.sourceSha=sourceSha then some file.data else none
  | none => none

def loadRuleSetDataCached (ty : RuleSetType) (name sourceSha : String)
    (bytes : List UInt8) (files : Files File) :
    Option (Except RuleSetError RuleSetData)×Files File :=
  match loadRuleSetCache resolve runDir name sourceSha files with
  | some data => (some (.ok data),files)
  | none =>
    match parseRuleSetData env ty bytes with
    | some (.ok data) =>
      (some (.ok data),saveRuleSetCache resolve runDir outcome name sourceSha data files)
    | r => (r,files)

structure Load where
  ty : RuleSetType
  name : String
  bytes : List UInt8
  outcome : SaveOutcome
  deriving DecidableEq

variable (sha256 : List UInt8 → String)

def runLoads (history : List Load) (files : Files File) :
    Files File :=
  history.foldl (fun files l =>
    (loadRuleSetDataCached env resolve runDir l.outcome l.ty l.name (sha256 l.bytes) l.bytes
      files).2) files

theorem type_of_map {α : Type} {x : Except ListError α} {f : α → RuleSetData} {ty : RuleSetType}
    {data : RuleSetData} (hf : ∀ a,(f a).type=ty)
    (h : (x.map f).mapError RuleSetError.list=.ok data) : data.type=ty := by
  cases x with
  | error e => nomatch h
  | ok a =>
    cases h
    exact hf a

theorem parse_type {ty : RuleSetType} {bytes : List UInt8} {data : RuleSetData}
    (h : parseRuleSetData env ty bytes=some (.ok data)) : data.type=ty := by
  unfold parseRuleSetData at h
  cases hutf : fromUtf8 bytes with
  | error e =>
    rw [hutf] at h
    cases h
  | ok text =>
    rw [hutf] at h
    cases ty with
    | domainList =>
      obtain ⟨r,-,hr⟩ := Option.map_eq_some_iff.1 h
      exact type_of_map (fun _ => rfl) hr
    | ipList => exact type_of_map (fun _ => rfl) (Option.some.inj h)

theorem load_hit (ty : RuleSetType) {name sourceSha : String}
    (bytes : List UInt8) {files : Files File} {c : RuleSetCacheFile}
    (hfile : files (resolve (ruleSetCachePath runDir name))=some c)
    (hkey : c.sourceSha=sourceSha) :
    (loadRuleSetDataCached env resolve runDir outcome ty name sourceSha bytes files).1 =
      some (.ok c.data) := by
  simp [loadRuleSetDataCached,loadRuleSetCache,hfile,hkey]

theorem load_miss (ty : RuleSetType) {name sourceSha : String}
    (bytes : List UInt8) {files : Files File}
    (h : loadRuleSetCache resolve runDir name sourceSha files=none) :
    (loadRuleSetDataCached env resolve runDir outcome ty name sourceSha bytes files).1 =
      parseRuleSetData env ty bytes := by
  unfold loadRuleSetDataCached
  rw [h]
  cases parseRuleSetData env ty bytes with
  | none => rfl
  | some r => cases r <;> rfl

/-- Every readable file holds the parse of some content, under the digest of that content. -/
def Parsed (files : Files File) : Prop := ∀ file c,files file=some c →
    ∃ ty bytes,c.sourceSha=sha256 bytes ∧ parseRuleSetData env ty bytes=some (.ok c.data)

theorem load_files (ty : RuleSetType) (name sourceSha : String)
    (bytes : List UInt8) (files : Files File) (file : File) (c : RuleSetCacheFile)
    (h : (loadRuleSetDataCached env resolve runDir outcome ty name sourceSha bytes files).2 file =
      some c) :
    files file=some c ∨
      c.sourceSha=sourceSha ∧ parseRuleSetData env ty bytes=some (.ok c.data) := by
  unfold loadRuleSetDataCached at h
  split at h
  · exact .inl h
  · split at h
    · rename_i data hparse
      cases outcome with
      | written =>
        simp only [saveRuleSetCache] at h
        by_cases hf : file=resolve (ruleSetCachePath runDir name)
        · rw [hf,update_self] at h
          cases h
          exact .inr ⟨rfl,hparse⟩
        · rw [update_of_ne hf] at h
          exact .inl h
      | unchanged => exact .inl h
      | removed =>
        simp only [saveRuleSetCache] at h
        by_cases hf : file=resolve (ruleSetCachePath runDir name)
        · rw [hf,update_self] at h
          cases h
        · rw [update_of_ne hf] at h
          exact .inl h
    · exact .inl h

theorem runLoads_parsed (history : List Load) (files : Files File) (h : Parsed env sha256 files) :
    Parsed env sha256 (runLoads env resolve runDir sha256 history files) := by
  induction history generalizing files with
  | nil => exact h
  | cons l history ih =>
    apply ih
    intro file c hc
    rcases load_files env resolve runDir l.outcome l.ty l.name (sha256 l.bytes) l.bytes files file
      c hc with hold | ⟨hsha,hparse⟩
    · exact h file c hold
    · exact ⟨l.ty,l.bytes,hsha,hparse⟩

/-- After any history of loads, a cached load returns what parsing returns exactly when the file
under its name, if it was written for the same content, holds data of the requested type. -/
theorem cached_load_eq_parse_iff (sha256 : List UInt8 → String)
    (hsha : Injective sha256) (history : List Load) (outcome : SaveOutcome)
    (ty : RuleSetType) (name : String) (bytes : List UInt8) :
    (loadRuleSetDataCached env resolve runDir outcome ty name (sha256 bytes) bytes
        (runLoads env resolve runDir sha256 history fun _ => none)).1 =
      parseRuleSetData env ty bytes ↔
    ∀ c,runLoads env resolve runDir sha256 history (fun _ => none)
        (resolve (ruleSetCachePath runDir name))=some c →
      c.sourceSha=sha256 bytes → c.data.type=ty := by
  have hinv : Parsed env sha256 (runLoads env resolve runDir sha256 history fun _ => none) :=
    runLoads_parsed env resolve runDir sha256 history _ fun _ _ h => nomatch h
  generalize runLoads env resolve runDir sha256 history (fun _ => none)=files at hinv ⊢
  cases hfile : files (resolve (ruleSetCachePath runDir name)) with
  | none =>
    constructor
    · intro _ c hc
      cases hc
    · intro _
      exact load_miss env resolve runDir outcome ty bytes (by simp [loadRuleSetCache,hfile])
  | some c =>
    by_cases hkey : c.sourceSha=sha256 bytes
    · have hhit := load_hit env resolve runDir outcome ty bytes hfile hkey
      obtain ⟨ty',bytes',hsha',hparse⟩ := hinv _ c hfile
      have hbytes : bytes'=bytes := hsha (hsha'.symm.trans hkey)
      subst hbytes
      rw [hhit]
      constructor
      · intro heq c' hc' _
        cases hc'
        exact parse_type env heq.symm
      · intro htype
        have hty : ty'=ty := (parse_type env hparse).symm.trans (htype c rfl hkey)
        rw [← hparse,hty]
    · constructor
      · intro _ c' hc' hkey'
        cases hc'
        exact absurd hkey' hkey
      · intro _
        exact load_miss env resolve runDir outcome ty bytes (by simp [loadRuleSetCache,hfile,hkey])

end Files

def sampleList : List UInt8 := [0x31,0x2E,0x31,0x2E,0x31,0x2E,0x31,0x0A]

/-- An injective digest with the SHA-256 of `sampleList`. -/
def sampleSha (bytes : List UInt8) : String :=
  if bytes=sampleList then "454debca5afcd37addd0dcca05094625dcde6402510f8fc664cd567893ec7096"
  else String.ofList ('x' :: bytes.map fun b => Char.ofNat b.toNat)

theorem sampleSha_injective : Injective sampleSha := by
  have hchar : Injective fun b : UInt8 => Char.ofNat b.toNat := by
    have hval : ∀ b : UInt8,(Char.ofNat b.toNat).toNat=b.toNat := by
      intro b
      have hvalid : b.toNat.isValidChar := .inl (Nat.lt_trans b.toNat_lt (by decide))
      rw [Char.ofNat,dif_pos hvalid]
      rfl
    intro a b h
    have hn := congrArg Char.toNat h
    simp only [hval] at hn
    exact UInt8.toNat_inj.mp hn
  have hx : ∀ bytes : List UInt8,
      "454debca5afcd37addd0dcca05094625dcde6402510f8fc664cd567893ec7096" ≠
        String.ofList ('x' :: bytes.map fun b => Char.ofNat b.toNat) := by
    intro bytes h
    have hl := congrArg (fun s => s.toList.head?) h
    simp at hl
  intro a b h
  unfold sampleSha at h
  split_ifs at h with ha hb hb
  · rw [ha,hb]
  · exact absurd h (hx b)
  · exact absurd h.symm (hx a)
  · have hl := congrArg String.toList h
    simp only [String.toList_ofList,List.cons.injEq,true_and] at hl
    exact List.map_injective_iff.mpr hchar hl

theorem cached_load_same_type :
    (loadRuleSetDataCached Env.empty id "/run/dae-rs" .written .ipList "s" (sampleSha sampleList)
        sampleList
        (runLoads Env.empty id "/run/dae-rs" sampleSha [⟨.ipList, "s",sampleList,.written⟩]
          fun _ => none)).1 =
      parseRuleSetData Env.empty .ipList sampleList := by
  rw [cached_load_eq_parse_iff Env.empty id "/run/dae-rs" sampleSha sampleSha_injective]
  intro c hc _
  have hrun : (runLoads Env.empty id "/run/dae-rs" sampleSha [⟨.ipList, "s",sampleList,.written⟩]
      (fun _ => none) (id (ruleSetCachePath "/run/dae-rs" "s"))).map (·.data.type) =
      some .ipList := by decide +kernel
  rw [hc] at hrun
  exact Option.some.inj hrun

/-- The same name and content, first as a domain list and then as an address list: the second
load returns the domain patterns. -/
theorem cached_load_ignores_type :
    (loadRuleSetDataCached Env.empty id "/run/dae-rs" .written .ipList "s" (sampleSha sampleList)
        sampleList
        (runLoads Env.empty id "/run/dae-rs" sampleSha [⟨.domainList, "s",sampleList,.written⟩]
          fun _ => none)).1=some (.ok (.domainList [⟨.suffix, "1.1.1.1"⟩])) ∧
      parseRuleSetData Env.empty .ipList sampleList =
        some (.ok (.ipList [.v4 ⟨0x01010101,32,by decide⟩])) := by
  decide +kernel

end DaeRs.RuleSet
