import DaeRs.RuleSet.DiskCache

/-! The files of the rule sets in the data directory, and the scan that loads them. -/

namespace DaeRs.RuleSet

open RustStr List Function

/-- A file as a read of its format sees it: one that is no text where text is expected cannot be
read. -/
inductive File (α : Type) where
  | missing
  | unreadable
  | content (a : α)
  deriving DecidableEq

inductive RuleSetState where
  | ready
  | pending
  | downloading
  | degraded
  | failed (reason : String)
  deriving DecidableEq

structure RuleSetMeta where
  name : String
  url : String
  type : RuleSetType
  lastUpdated : Option String
  etag : Option String
  lastModified : Option String
  sha256 : Option String
  size : Nat
  state : RuleSetState
  deriving DecidableEq

/-- What the updater and the scan read of an entry of the configuration. -/
structure RuleSetConfig where
  name : String
  type : RuleSetType
  url : String
  expectedSha256 : Option String
  deriving DecidableEq

/-- The files of one rule set; that of the metadata is JSON, or the error that reading it gives. -/
structure RuleSetFiles where
  data : File (List UInt8)
  checksum : File String
  metadata : File (Except String RuleSetMeta)

inductive StoreError where
  | createDir
  | io (path : String)
  | metaParse (name detail : String)
  | corrupt (detail : String)
  deriving DecidableEq

variable (name : String)

/-- Paths are relative to the data directory; the type makes no difference to the extension. -/
def dataFilePath : String := name ++ ".txt"

def checksumFilePath : String := ".checksum/" ++ name ++ ".sha256"

def metaFilePath : String := ".meta/" ++ name ++ ".json"

def readChecksum (f : RuleSetFiles) : Except StoreError (Option String) :=
  match f.checksum with
  | .content text => .ok (some (toAsciiLowercase (trim text)))
  | .missing => .ok none
  | .unreadable => .error (.io (checksumFilePath name))

def readMeta (f : RuleSetFiles) : Except StoreError (Option RuleSetMeta) :=
  match f.metadata with
  | .content (.ok m) => .ok (some m)
  | .content (.error detail) => .error (.metaParse name detail)
  | .missing => .ok none
  | .unreadable => .error (.io (metaFilePath name))

structure ScannedRuleSet where
  name : String
  type : RuleSetType
  data : Option RuleSetData
  metadata : Option RuleSetMeta
  sha256 : Option String
  damaged : Bool

section Scan

variable (env : Env) (sha256 : List UInt8 → String) (runDir : String)

/-- One turn of the loop of `scan`, with the fate of the write to the binary cache. -/
def scanEntry (outcome : SaveOutcome) (cfg : RuleSetConfig) (f : RuleSetFiles)
    (bin : Files String) : Except StoreError ScannedRuleSet×Files String :=
  match readMeta cfg.name f with
  | .error e => (.error e,bin)
  | .ok metadata =>
    match readChecksum cfg.name f with
    | .error e => (.error e,bin)
    | .ok recordedSha =>
      match f.data with
      | .missing => (.ok ⟨cfg.name,cfg.type,none,metadata,recordedSha,false⟩,bin)
      | .unreadable => (.error (.io (dataFilePath cfg.name)),bin)
      | .content bytes =>
        let actualSha := sha256 bytes
        let checksumMismatch := recordedSha.any fun sha => !eqIgnoreAsciiCase sha actualSha
        if checksumMismatch then
          (.ok ⟨cfg.name,cfg.type,none,metadata,recordedSha,true⟩,bin)
        else
          let (r,bin) :=
            loadRuleSetDataCached env id runDir outcome cfg.type cfg.name actualSha bytes bin
          -- an error and a panic of the parser are treated alike
          let data := r.bind Except.toOption
          (.ok ⟨cfg.name,cfg.type,data,metadata,recordedSha,data.isNone⟩,bin)

def scanLoop (outcome : String → SaveOutcome) (dir : String → RuleSetFiles) :
    List RuleSetConfig → (String → Option ScannedRuleSet) → Files String →
      Except StoreError (String → Option ScannedRuleSet)×Files String
  | [],out,bin => (.ok out,bin)
  | cfg::entries,out,bin =>
    match scanEntry env sha256 runDir (outcome cfg.name) cfg (dir cfg.name) bin with
    | (.error e,bin) => (.error e,bin)
    | (.ok item,bin) => scanLoop outcome dir entries (update out cfg.name (some item)) bin

def scan (outcome : String → SaveOutcome) (dir : String → RuleSetFiles)
    (entries : List RuleSetConfig) (bin : Files String) :
    Except StoreError (String → Option ScannedRuleSet)×Files String :=
  scanLoop env sha256 runDir outcome dir entries (fun _ => none) bin

def loadCacheFromDir (outcome : String → SaveOutcome) (dir : String → RuleSetFiles)
    (entries : List RuleSetConfig) (bin : Files String) : String → Option RuleSetData :=
  match (scan env sha256 runDir outcome dir entries bin).1 with
  | .ok scanned => fun name => (scanned name).bind ScannedRuleSet.data
  | .error _ => fun _ => none

def Matches (f : RuleSetFiles) (bytes : List UInt8) : Prop :=
  match f.checksum with
  | .content text => eqIgnoreAsciiCase (toAsciiLowercase (trim text)) (sha256 bytes)=true
  | .missing => True
  | .unreadable => False

/-- The entry's own data file can be read, parses, and matches its recorded checksum. -/
def Valid (cfg : RuleSetConfig) (f : RuleSetFiles) (data : RuleSetData) : Prop :=
  ∃ bytes,f.data=.content bytes ∧ Matches sha256 f bytes ∧
    parseRuleSetData env cfg.type bytes=some (.ok data)

/-- None of the files of an entry makes the scan fail. -/
structure Accessible (f : RuleSetFiles) : Prop where
  data : f.data≠.unreadable
  checksum : f.checksum≠.unreadable
  metadata : f.metadata≠.unreadable
  json : ∀ detail,f.metadata≠.content (.error detail)

/-- What the binary cache holds for a content is its parse as the entry's type. -/
def FreshFor (cfg : RuleSetConfig) (bin : Files String) (bytes : List UInt8) : Prop :=
  ∀ c,bin (ruleSetCachePath runDir cfg.name)=some c → c.sourceSha=sha256 bytes →
    parseRuleSetData env cfg.type bytes=some (.ok c.data)

variable {env sha256 runDir} {outcome : SaveOutcome} {cfg : RuleSetConfig} {f : RuleSetFiles}
  {bin : Files String}

theorem readMeta_isOk (name : String) : (∃ m,readMeta name f=.ok m) ↔
      f.metadata≠.unreadable ∧ ∀ detail,f.metadata≠.content (.error detail) := by
  unfold readMeta
  cases f.metadata with
  | missing => simp
  | unreadable => simp
  | content m => cases m <;> simp

theorem readChecksum_isOk (name : String) :
    (∃ sha,readChecksum name f=.ok sha) ↔ f.checksum≠.unreadable := by
  unfold readChecksum
  cases f.checksum <;> simp

theorem matches_iff {name : String} {recordedSha : Option String} (bytes : List UInt8)
    (h : readChecksum name f=.ok recordedSha) :
    Matches sha256 f bytes ↔
      recordedSha.any (fun sha => !eqIgnoreAsciiCase sha (sha256 bytes))=false := by
  unfold readChecksum at h
  unfold Matches
  cases hfile : f.checksum with
  | missing | content text =>
    rw [hfile] at h
    cases h
    simp
  | unreadable =>
    rw [hfile] at h
    cases h

variable {data : RuleSetData}

theorem bind_toOption {r : Option (Except RuleSetError RuleSetData)} :
    r.bind Except.toOption=some data ↔ r=some (.ok data) := by
  cases r with
  | none => simp
  | some r => cases r <;> simp [Except.toOption]

theorem scanEntry_ok (h : Accessible f) : ∃ item,
    (scanEntry env sha256 runDir outcome cfg f bin).1=.ok item ∧
      (∀ data,item.data=some data ↔ ∃ bytes,f.data=.content bytes ∧ Matches sha256 f bytes ∧
        (loadRuleSetDataCached env id runDir outcome cfg.type cfg.name (sha256 bytes) bytes
          bin).1=some (.ok data)) ∧
      (item.damaged=true ↔ f.data≠.missing ∧ item.data=none) := by
  obtain ⟨m,hm⟩ := (readMeta_isOk cfg.name).2 ⟨h.metadata,h.json⟩
  obtain ⟨recordedSha,hsha⟩ := (readChecksum_isOk cfg.name).2 h.checksum
  unfold scanEntry
  simp only [hm,hsha]
  cases hdata : f.data with
  | missing => exact ⟨_,rfl,by simp,by simp⟩
  | unreadable => exact absurd hdata h.data
  | content bytes =>
    have hmatches : Matches sha256 f bytes ↔ _ := matches_iff bytes hsha
    by_cases hmismatch : recordedSha.any (fun sha => !eqIgnoreAsciiCase sha (sha256 bytes))=true
    · simp only [if_pos hmismatch]
      refine ⟨_,rfl,?_,by simp⟩
      simp [hmatches,hmismatch]
    · simp only [if_neg hmismatch]
      refine ⟨_,rfl,?_,by simp⟩
      intro data
      have hmatch : Matches sha256 f bytes := hmatches.2 (by simpa using hmismatch)
      rw [bind_toOption]
      constructor
      · intro hload
        exact ⟨bytes,rfl,hmatch,hload⟩
      · rintro ⟨bytes',⟨⟩,-,hload⟩
        exact hload

theorem scanEntry_error (h : ¬Accessible f) : ∃ e,
    (scanEntry env sha256 runDir outcome cfg f bin).1=.error e := by
  unfold scanEntry
  cases hm : readMeta cfg.name f with
  | error e => exact ⟨e,rfl⟩
  | ok m =>
    cases hsha : readChecksum cfg.name f with
    | error e => exact ⟨e,rfl⟩
    | ok recordedSha =>
      obtain ⟨hmeta,hjson⟩ := (readMeta_isOk cfg.name).1 ⟨m,hm⟩
      have hread (hdata : f.data≠.unreadable) : Accessible f :=
        ⟨hdata,(readChecksum_isOk cfg.name).1 ⟨recordedSha,hsha⟩,hmeta,hjson⟩
      cases hdata : f.data with
      | unreadable => exact ⟨_,rfl⟩
      | missing | content bytes => exact absurd (hread (by simp [hdata])) h

variable {bytes : List UInt8}

theorem cached_load_some_iff {P : RuleSetData → Prop}
    (hparse : parseRuleSetData env cfg.type bytes=some (.ok data)) (hdata : P data) :
    (∃ data,(loadRuleSetDataCached env id runDir outcome cfg.type cfg.name (sha256 bytes) bytes
        bin).1=some (.ok data) ∧ P data) ↔
      ∀ c,bin (ruleSetCachePath runDir cfg.name)=some c → c.sourceSha=sha256 bytes → P c.data := by
  by_cases hcached : ∃ c,bin (ruleSetCachePath runDir cfg.name)=some c ∧ c.sourceSha=sha256 bytes
  · obtain ⟨c,hc,hkey⟩ := hcached
    rw [load_hit env id runDir outcome cfg.type bytes hc hkey,hc]
    simp [hkey]
  · have hmiss : loadRuleSetCache id runDir cfg.name (sha256 bytes) bin=none := by
      unfold loadRuleSetCache
      split
      · rename_i c hc
        exact if_neg fun hkey => hcached ⟨c,hc,hkey⟩
      · rfl
    rw [load_miss env id runDir outcome cfg.type bytes hmiss,hparse]
    constructor
    · intro _ c hc hkey
      exact absurd ⟨c,hc,hkey⟩ hcached
    · intro _
      exact ⟨data,rfl,hdata⟩

theorem cached_load_iff (hparse : parseRuleSetData env cfg.type bytes=some (.ok data)) :
    (loadRuleSetDataCached env id runDir outcome cfg.type cfg.name (sha256 bytes) bytes bin).1 =
        some (.ok data) ↔ FreshFor env sha256 runDir cfg bin bytes := by
  have hfresh : (∃ d,(loadRuleSetDataCached env id runDir outcome cfg.type cfg.name (sha256 bytes)
      bytes bin).1=some (.ok d) ∧ parseRuleSetData env cfg.type bytes=some (.ok d)) ↔
      FreshFor env sha256 runDir cfg bin bytes := cached_load_some_iff hparse hparse
  rw [← hfresh,hparse]
  simp

theorem load_other {ty : RuleSetType} {name sha path : String}
    (h : path≠ruleSetCachePath runDir name) :
    (loadRuleSetDataCached env id runDir outcome ty name sha bytes bin).2 path=bin path := by
  unfold loadRuleSetDataCached
  split
  · rfl
  · split
    · cases outcome with
      | written | removed => exact update_of_ne h _ _
      | unchanged => rfl
    · rfl

theorem load_congr {ty : RuleSetType} {name sha : String} {bin' : Files String}
    (h : bin' (ruleSetCachePath runDir name)=bin (ruleSetCachePath runDir name)) :
    (loadRuleSetDataCached env id runDir outcome ty name sha bytes bin').1 =
      (loadRuleSetDataCached env id runDir outcome ty name sha bytes bin).1 := by
  have hload : loadRuleSetCache id runDir name sha bin' =
      loadRuleSetCache id runDir name sha bin := by
    simp only [loadRuleSetCache,id,h]
  unfold loadRuleSetDataCached
  rw [hload]
  split
  · rfl
  · split <;> rfl

theorem scanEntry_other {path : String} (h : path≠ruleSetCachePath runDir cfg.name) :
    (scanEntry env sha256 runDir outcome cfg f bin).2 path=bin path := by
  unfold scanEntry
  split
  · rfl
  · split
    · rfl
    · split
      · rfl
      · rfl
      · dsimp only
        split_ifs
        · rfl
        · exact load_other h

theorem scanEntry_congr {bin' : Files String}
    (h : bin' (ruleSetCachePath runDir cfg.name)=bin (ruleSetCachePath runDir cfg.name)) :
    (scanEntry env sha256 runDir outcome cfg f bin').1 =
      (scanEntry env sha256 runDir outcome cfg f bin).1 := by
  unfold scanEntry
  split
  · rfl
  · split
    · rfl
    · split
      · rfl
      · rfl
      · dsimp only
        split_ifs
        · rfl
        · dsimp only
          rw [load_congr h]

theorem ruleSetCachePath_injective : Injective (ruleSetCachePath runDir) := by
  intro a b h
  unfold ruleSetCachePath at h
  rw [String.append_left_inj,String.append_right_inj] at h
  exact h

variable {dir : String → RuleSetFiles} {entries : List RuleSetConfig}

theorem scanLoop_ok {outcome : String → SaveOutcome}
    (hnames : (entries.map RuleSetConfig.name).Nodup)
    (hread : ∀ cfg∈entries,Accessible (dir cfg.name)) (out : String → Option ScannedRuleSet)
    (bin : Files String) : ∃ out',
    (scanLoop env sha256 runDir outcome dir entries out bin).1=.ok out' ∧
      (∀ name,name∉entries.map RuleSetConfig.name → out' name=out name) ∧
      ∀ cfg∈entries,∃ item,out' cfg.name=some item ∧
        (scanEntry env sha256 runDir (outcome cfg.name) cfg (dir cfg.name) bin).1=.ok item := by
  induction entries generalizing out bin with
  | nil => exact ⟨out,rfl,fun _ _ => rfl,fun cfg hcfg => absurd hcfg not_mem_nil⟩
  | cons cfg entries ih =>
    rw [map_cons,nodup_cons] at hnames
    obtain ⟨hfresh,hnames⟩ := hnames
    have hok : ∃ item,(scanEntry env sha256 runDir (outcome cfg.name) cfg (dir cfg.name) bin).1 =
        .ok item := by
      obtain ⟨item,hitem,-⟩ := scanEntry_ok (hread cfg mem_cons_self)
      exact ⟨item,hitem⟩
    obtain ⟨item,hitem⟩ := hok
    have hpair : scanEntry env sha256 runDir (outcome cfg.name) cfg (dir cfg.name) bin =
        (.ok item,(scanEntry env sha256 runDir (outcome cfg.name) cfg (dir cfg.name) bin).2) :=
      Prod.ext hitem rfl
    obtain ⟨out',hout,hother,hall⟩ := ih hnames
      (fun x hx => hread x (mem_cons_of_mem cfg hx)) (update out cfg.name (some item))
      (scanEntry env sha256 runDir (outcome cfg.name) cfg (dir cfg.name) bin).2
    refine ⟨out',?_,?_,?_⟩
    · rw [scanLoop,hpair]
      exact hout
    · intro name hname
      rw [map_cons,mem_cons,not_or] at hname
      rw [hother name hname.2,update_of_ne hname.1]
    · intro x hx
      rcases mem_cons.mp hx with rfl | hx
      · refine ⟨item,?_,hitem⟩
        rw [hother x.name hfresh,update_self]
      · obtain ⟨item',hitem',hscan⟩ := hall x hx
        refine ⟨item',hitem',?_⟩
        rw [← hscan]
        -- the entries before it have not touched its cache file
        refine (scanEntry_congr (scanEntry_other ?_)).symm
        intro hpath
        rw [← ruleSetCachePath_injective hpath] at hfresh
        exact hfresh (mem_map_of_mem hx)

theorem scanLoop_error {outcome : String → SaveOutcome}
    (hread : ∃ cfg∈entries,¬Accessible (dir cfg.name))
    (out : String → Option ScannedRuleSet) (bin : Files String) :
    ∃ e,(scanLoop env sha256 runDir outcome dir entries out bin).1=.error e := by
  induction entries generalizing out bin with
  | nil =>
    obtain ⟨cfg,hcfg,-⟩ := hread
    exact absurd hcfg not_mem_nil
  | cons cfg entries ih =>
    rw [scanLoop]
    split
    · rename_i e bin' _
      exact ⟨e,rfl⟩
    · rename_i item bin' hscan
      obtain ⟨x,hx,hbad⟩ := hread
      rcases mem_cons.mp hx with rfl | hx
      · have herror : ∃ e,(scanEntry env sha256 runDir (outcome x.name) x (dir x.name) bin).1 =
            .error e := scanEntry_error hbad
        obtain ⟨e,he⟩ := herror
        rw [hscan] at he
        cases he
      · exact ih ⟨x,hx,hbad⟩ _ _

theorem load_accessible {outcome : String → SaveOutcome}
    (hnames : (entries.map RuleSetConfig.name).Nodup)
    (hread : ∀ cfg∈entries,Accessible (dir cfg.name)) (hcfg : cfg∈entries)
    (hdata : (dir cfg.name).data=.content bytes)
    (hmatches : Matches sha256 (dir cfg.name) bytes)
    (hparse : parseRuleSetData env cfg.type bytes=some (.ok data)) :
    loadCacheFromDir env sha256 runDir outcome dir entries bin cfg.name=some data ↔
      FreshFor env sha256 runDir cfg bin bytes := by
  obtain ⟨out,hout,-,hall⟩ : ∃ out,(scan env sha256 runDir outcome dir entries bin).1=.ok out ∧
      _ ∧ _ := scanLoop_ok hnames hread (fun _ => none) bin
  obtain ⟨item,hitem,hscan⟩ := hall cfg hcfg
  obtain ⟨item',hscan',hloaded,-⟩ := scanEntry_ok (hread cfg hcfg)
  cases hscan.symm.trans hscan'
  have hload : loadCacheFromDir env sha256 runDir outcome dir entries bin cfg.name=item.data := by
    unfold loadCacheFromDir
    rw [hout]
    simp only [hitem,Option.bind_some]
  rw [hload,hloaded,← cached_load_iff hparse]
  constructor
  · rintro ⟨bytes',hdata',-,hcached⟩
    cases hdata.symm.trans hdata'
    exact hcached
  · intro hcached
    exact ⟨bytes,hdata,hmatches,hcached⟩

theorem load_inaccessible {outcome : String → SaveOutcome}
    (hread : ∃ cfg∈entries,¬Accessible (dir cfg.name))
    (name : String) : loadCacheFromDir env sha256 runDir outcome dir entries bin name=none := by
  obtain ⟨e,he⟩ : ∃ e,(scan env sha256 runDir outcome dir entries bin).1=.error e :=
    scanLoop_error hread (fun _ => none) bin
  unfold loadCacheFromDir
  rw [he]

end Scan

/-- `load_cache_from_dir` returns the data of every entry whose own data file is readable, parses
and matches its checksum exactly when no entry's files make the scan fail, if there is such an
entry, and the binary cache holds nothing but the parse of their contents. -/
theorem load_isolated_iff (env : Env) (sha256 : List UInt8 → String) (runDir : String)
    (outcome : String → SaveOutcome) (dir : String → RuleSetFiles) (entries : List RuleSetConfig)
    (hnames : (entries.map RuleSetConfig.name).Nodup) (bin : Files String) :
    (∀ cfg∈entries,∀ data,Valid env sha256 cfg (dir cfg.name) data →
        loadCacheFromDir env sha256 runDir outcome dir entries bin cfg.name=some data) ↔
      ((∃ cfg∈entries,∃ data,Valid env sha256 cfg (dir cfg.name) data) →
        ∀ cfg∈entries,Accessible (dir cfg.name)) ∧
      ∀ cfg∈entries,∀ data bytes,Valid env sha256 cfg (dir cfg.name) data →
        (dir cfg.name).data=.content bytes → FreshFor env sha256 runDir cfg bin bytes := by
  constructor
  · intro hload
    have hall (hvalid : ∃ cfg∈entries,∃ data,Valid env sha256 cfg (dir cfg.name) data) :
        ∀ cfg∈entries,Accessible (dir cfg.name) := by
      obtain ⟨cfg,hcfg,data,hvalid⟩ := hvalid
      by_contra hread
      push Not at hread
      have hloaded := hload cfg hcfg data hvalid
      rw [load_inaccessible hread] at hloaded
      cases hloaded
    refine ⟨hall,?_⟩
    intro cfg hcfg data bytes hvalid hdata
    have hloaded := hload cfg hcfg data hvalid
    have hread := hall ⟨cfg,hcfg,data,hvalid⟩
    obtain ⟨bytes',hdata',hmatches,hparse⟩ := hvalid
    cases hdata.symm.trans hdata'
    exact (load_accessible hnames hread hcfg hdata hmatches hparse).1 hloaded
  · rintro ⟨hall,hfresh⟩ cfg hcfg data hvalid
    have hread := hall ⟨cfg,hcfg,data,hvalid⟩
    obtain ⟨bytes,hdata,hmatches,hparse⟩ := hvalid
    exact (load_accessible hnames hread hcfg hdata hmatches hparse).2
      (hfresh cfg hcfg data bytes ⟨bytes,hdata,hmatches,hparse⟩ hdata)

def sampleEntry : RuleSetConfig := ⟨name,.ipList, "https://example.com/ip.txt",none⟩

def hostPrefix {w : Nat} (addr : BitVec w) : Net.Prefix w := ⟨addr,w,Nat.le_refl w⟩

def sampleData : RuleSetData := .ipList [.v4 (hostPrefix 0x01010101)]

def sampleFiles : RuleSetFiles := ⟨.content sampleList,.missing,.missing⟩

theorem sampleList_parses :
    parseRuleSetData Env.empty .ipList sampleList=some (.ok sampleData) := by
  decide +kernel

theorem load_isolated_damaged :
    loadCacheFromDir Env.empty sampleSha "/run/dae-rs" (fun _ => .unchanged)
      (fun name => if name = "a" then sampleFiles else ⟨.content [0xff],.missing,.missing⟩)
      [sampleEntry "a",sampleEntry "b"] (fun _ => none) "a" = some sampleData := by
  refine (load_isolated_iff Env.empty sampleSha "/run/dae-rs" (fun _ => .unchanged) _
    [sampleEntry "a",sampleEntry "b"] (by decide) (fun _ => none)).2 ⟨?_,?_⟩ (sampleEntry "a")
      List.mem_cons_self sampleData ⟨sampleList,rfl,trivial,sampleList_parses⟩
  · intro _ cfg hcfg
    have hfiles : ∀ f∈[sampleFiles,⟨.content [0xff],.missing,.missing⟩],Accessible f := by
      intro f hf
      rcases List.mem_cons.mp hf with rfl | hf
      · exact ⟨by simp [sampleFiles],by simp [sampleFiles],by simp [sampleFiles],
          by simp [sampleFiles]⟩
      · rw [List.mem_singleton.mp hf]
        exact ⟨by simp,by simp,by simp,by simp⟩
    refine hfiles _ ?_
    split_ifs <;> simp
  · intro cfg _ data bytes _ _ c hc
    cases hc

/-- Another entry's metadata file is no JSON, and nothing is loaded. -/
theorem load_lost_by_metadata :
    let dir : String → RuleSetFiles := fun name =>
      if name = "a" then sampleFiles
      else ⟨.missing,.missing,.content (.error "EOF while parsing a value at line 1 column 0")⟩
    Valid Env.empty sampleSha (sampleEntry "a") (dir "a") sampleData ∧
      loadCacheFromDir Env.empty sampleSha "/run/dae-rs" (fun _ => .unchanged) dir
        [sampleEntry "a",sampleEntry "b"] (fun _ => none) "a" = none := by
  refine ⟨⟨sampleList,rfl,trivial,sampleList_parses⟩,?_⟩
  decide +kernel

end DaeRs.RuleSet
