import DaeRs.RuleSet.Update

/-! What a scan finds after an update that has ended, and after one that was cut short. -/

namespace DaeRs.RuleSet

open RustStr Program List

/-- Digests are written in lower-case hexadecimal digits. -/
def LowerHex (sha256 : List UInt8 → String) : Prop :=
  ∀ bytes,∀ c∈(sha256 bytes).toList,c ∈ "0123456789abcdef".toList

section Loads

variable (env : Env) (sha256 : List UInt8 → String) (runDir : String) (outcome : SaveOutcome)
  (bin : Files String) (cfg : RuleSetConfig)

def Loads (f : RuleSetFiles) (data : RuleSetData) : Prop :=
  ∃ item,(scanEntry env sha256 runDir outcome cfg f bin).1=.ok item ∧ item.data=some data ∧
    item.damaged=false

variable {env sha256 runDir outcome bin cfg} {f : RuleSetFiles} {bytes : List UInt8}
  {data : RuleSetData}

theorem loads_iff : Loads env sha256 runDir outcome bin cfg f data ↔
    Accessible f ∧ ∃ bytes,f.data=.content bytes ∧ Matches sha256 f bytes ∧
      (loadRuleSetDataCached env id runDir outcome cfg.type cfg.name (sha256 bytes) bytes bin).1 =
        some (.ok data) := by
  unfold Loads
  by_cases h : Accessible f
  · obtain ⟨item,hitem,hdata,hdamaged⟩ := scanEntry_ok h
    rw [← hdata data]
    constructor
    · rintro ⟨item',hitem',hloaded,-⟩
      cases hitem.symm.trans hitem'
      exact ⟨h,hloaded⟩
    · rintro ⟨-,hloaded⟩
      refine ⟨item,hitem,hloaded,?_⟩
      rw [← Bool.not_eq_true,hdamaged,hloaded]
      simp
  · obtain ⟨e,he⟩ := scanEntry_error h
    constructor
    · rintro ⟨item,hitem,-⟩
      rw [he] at hitem
      cases hitem
    · rintro ⟨hread,-⟩
      exact absurd hread h

theorem loads_some_iff {P : RuleSetData → Prop} (h : Accessible f) (hfile : f.data=.content bytes)
    (hparse : parseRuleSetData env cfg.type bytes=some (.ok data)) (hdata : P data) :
    (∃ data,Loads env sha256 runDir outcome bin cfg f data ∧ P data) ↔ Matches sha256 f bytes ∧
      ∀ c,bin (ruleSetCachePath runDir cfg.name)=some c → c.sourceSha=sha256 bytes → P c.data := by
  have hloads (d : RuleSetData) : Loads env sha256 runDir outcome bin cfg f d ↔
      Matches sha256 f bytes ∧ (loadRuleSetDataCached env id runDir outcome cfg.type cfg.name
        (sha256 bytes) bytes bin).1=some (.ok d) := by
    rw [loads_iff]
    constructor
    · rintro ⟨-,bytes',hfile',hmatches,hload⟩
      cases hfile.symm.trans hfile'
      exact ⟨hmatches,hload⟩
    · rintro ⟨hmatches,hload⟩
      exact ⟨h,bytes,hfile,hmatches,hload⟩
  simp only [hloads,and_assoc,exists_and_left]
  rw [cached_load_some_iff hparse hdata]

theorem scanEntry_mismatch (h : Accessible f) (hfile : f.data=.content bytes)
    (hmismatch : ¬Matches sha256 f bytes) : ∃ item,
    (scanEntry env sha256 runDir outcome cfg f bin).1=.ok item ∧ item.data=none ∧
      item.damaged=true := by
  obtain ⟨item,hitem,hdata,hdamaged⟩ := scanEntry_ok h
  have hnone : item.data=none := by
    rw [Option.eq_none_iff_forall_ne_some]
    intro data hsome
    obtain ⟨bytes',hfile',hmatch,-⟩ := (hdata data).1 hsome
    cases hfile.symm.trans hfile'
    exact hmismatch hmatch
  exact ⟨item,hitem,hnone,hdamaged.2 ⟨by simp [hfile],hnone⟩⟩

theorem Accessible.put (h : Accessible f) (x : Write) : Accessible (f.put x) := by
  cases x with
  | data bytes => exact ⟨by simp [RuleSetFiles.put],h.checksum,h.metadata,h.json⟩
  | checksum text => exact ⟨h.data,by simp [RuleSetFiles.put],h.metadata,h.json⟩
  | metadata m => exact ⟨h.data,h.checksum,by simp [RuleSetFiles.put],by simp [RuleSetFiles.put]⟩

theorem Accessible.puts (h : Accessible f) (ws : List Write) :
    Accessible (ws.foldl RuleSetFiles.put f) := by
  induction ws generalizing f with
  | nil => exact h
  | cons x ws ih => exact ih (h.put x)

theorem matches_written_iff (hsha : LowerHex sha256) {bytes' : List UInt8}
    (h : f.checksum=.content (sha256 bytes' ++ "\n")) :
    Matches sha256 f bytes ↔ sha256 bytes'=sha256 bytes := by
  have hdigits : "0123456789abcdef".toList.all
      (fun c => !isWhitespace c && c.toLower==c)=true := by
    rfl
  have hdigit {c : Char} {b : List UInt8} (hc : c∈(sha256 b).toList) :
      isWhitespace c=false ∧ c.toLower=c := by
    simpa using all_eq_true.1 hdigits c (hsha b c hc)
  have hlower (b : List UInt8) : toAsciiLowercase (sha256 b)=sha256 b := by
    have hmap : (sha256 b).toList.map Char.toLower=(sha256 b).toList := by
      rw [map_congr_left fun c hc => (hdigit hc).2,map_id']
    rw [toAsciiLowercase,hmap,String.ofList_toList]
  unfold Matches
  rw [h]
  simp only
  rw [trim_newline,trim_of_no_space fun c hc => (hdigit hc).1,eqIgnoreAsciiCase,hlower,hlower,hlower,
    beq_iff_eq]

theorem matches_written (hsha : LowerHex sha256)
    (h : f.checksum=.content (sha256 bytes ++ "\n")) : Matches sha256 f bytes :=
  (matches_written_iff hsha h).2 rfl

theorem matches_changed {w : Setting} (h : Accessible f) (hchanged : ¬w.Recorded f bytes)
    {f' : RuleSetFiles} (hf' : f'.checksum=f.checksum) :
    Matches w.sha256 f' bytes ↔ f.checksum=.missing := by
  unfold Matches
  rw [hf']
  cases hfile : f.checksum with
  | missing => simp
  | unreadable => exact absurd hfile h.checksum
  | content text =>
    have hread : readChecksum w.cfg.name f=.ok (some (toAsciiLowercase (trim text))) := by
      rw [readChecksum,hfile]
    simp only [reduceCtorEq,iff_false]
    exact fun hmatch => hchanged ⟨_,hread,hmatch⟩

theorem partly_matches_iff {w : Setting} (hsha : LowerHex w.sha256) (h : Accessible f)
    (c : w.Commit) (hchanged : ¬w.Recorded f c.bytes) {ws : List Write} (hws : ws <+: c.writes)
    (hne : ws≠[]) :
    (ws.foldl RuleSetFiles.put f).data=.content c.bytes ∧
      (Matches w.sha256 (ws.foldl RuleSetFiles.put f) c.bytes ↔
        (ws.length=1 → f.checksum=.missing)) := by
  rcases c.prefix_cases hws with rfl | rfl | rfl | rfl
  · exact absurd rfl hne
  · refine ⟨rfl,(matches_changed h hchanged ?_).trans (by simp)⟩
    rfl
  · exact ⟨rfl,iff_of_true (matches_written hsha rfl) (by simp)⟩
  · exact ⟨rfl,iff_of_true (matches_written hsha rfl) (by simp [Setting.Commit.writes])⟩

theorem replaced_safe_iff {w : Setting} {old : RuleSetData} (c : w.Commit) (h : Accessible f)
    (hfile : f.data=.content c.bytes) :
    (∃ data,Loads w.env w.sha256 runDir outcome bin w.cfg f data ∧
        (data=old ∨ ∃ bytes,f.data=.content bytes ∧ w.Served bytes ∧
          parseRuleSetData w.env w.cfg.type bytes=some (.ok data))) ↔
      Matches w.sha256 f c.bytes ∧
      ∀ bytes x,f.data=.content bytes → bin (ruleSetCachePath runDir w.cfg.name)=some x →
        x.sourceSha=w.sha256 bytes →
        x.data=old ∨ parseRuleSetData w.env w.cfg.type bytes=some (.ok x.data) := by
  have hnew (data : RuleSetData) : (∃ bytes,f.data=.content bytes ∧ w.Served bytes ∧
      parseRuleSetData w.env w.cfg.type bytes=some (.ok data)) ↔
      parseRuleSetData w.env w.cfg.type c.bytes=some (.ok data) := by
    constructor
    · rintro ⟨bytes,hbytes,-,hparse⟩
      cases hfile.symm.trans hbytes
      exact hparse
    · intro hparse
      exact ⟨c.bytes,hfile,c.served,hparse⟩
  simp only [hnew]
  rw [loads_some_iff h hfile c.parses (.inr c.parses)]
  refine and_congr_right fun _ => ?_
  constructor
  · intro hall bytes x hbytes hx hkey
    cases hfile.symm.trans hbytes
    exact hall x hx hkey
  · intro hall x hx hkey
    exact hall c.bytes x hfile hx hkey

end Loads

/-- Wherever an update is left, a scan loads the old data or the whole of the new exactly when no
data file is replaced without its recorded checksum, and the binary cache holds nothing else for the
content. -/
theorem crash_safe_iff (env : Env) (sha256 : List UInt8 → String) (hsha : LowerHex sha256)
    (runDir : String) (outcome : SaveOutcome) (bin : Files String) (cfg : RuleSetConfig)
    (base : RuleSetFiles) (tmps : Nat → Option (List UInt8)) (cs : List Choice)
    (old : RuleSetData) (hbefore : Loads env sha256 runDir outcome bin cfg base old) :
    let w : Setting := ⟨env,sha256,cfg,(·∈cs),(·=base)⟩
    let s := (updateAlone env sha256 cfg base tmps cs).2
    (∃ data,Loads env sha256 runDir outcome bin cfg s.files data ∧
        (data=old ∨ ∃ bytes,s.files.data=.content bytes ∧ w.Served bytes ∧
          parseRuleSetData env cfg.type bytes=some (.ok data))) ↔
      (s.writes.length=1 → base.checksum=.missing) ∧
      ∀ bytes c,s.files.data=.content bytes → bin (ruleSetCachePath runDir cfg.name)=some c →
        c.sourceSha=sha256 bytes →
        c.data=old ∨ parseRuleSetData env cfg.type bytes=some (.ok c.data) := by
  intro w s
  obtain ⟨hfiles,hlength,hpart,-⟩ : s.files=(s.own 0).foldl RuleSetFiles.put base ∧
      s.writes.length=(s.own 0).length ∧ w.Partly (s.own 0) ∧ _ :=
    updateAlone_spec w rfl (fun _ hc => hc) tmps
  obtain ⟨hread,bytes₀,hdata₀,-,hload₀⟩ := loads_iff.1 hbefore
  rw [hfiles,hlength]
  by_cases hquiet : s.own 0=[]
  · -- nothing has been replaced
    rw [hquiet]
    simp only [List.foldl_nil,List.length_nil,zero_ne_one,false_imp_iff,true_and]
    refine iff_of_true ⟨old,hbefore,.inl rfl⟩ ?_
    intro bytes c hbytes hc hkey
    cases hdata₀.symm.trans hbytes
    rw [load_hit env id runDir outcome cfg.type bytes₀ hc hkey] at hload₀
    cases hload₀
    exact .inl rfl
  obtain ⟨c,hown⟩ := hpart.resolve_left hquiet
  have hprior : c.prior=base := c.seen
  obtain ⟨hdata,hmatches⟩ := partly_matches_iff hsha hread c (hprior ▸ c.changed) hown hquiet
  rw [← hmatches]
  exact replaced_safe_iff c (hread.puts _) hdata

def otherList : List UInt8 := [0x32,0x2E,0x32,0x2E,0x32,0x2E,0x32,0x0A]

def otherData : RuleSetData := .ipList [.v4 (hostPrefix 0x02020202)]

def hexSha (bytes : List UInt8) : String :=
  if bytes=sampleList then "454debca5afcd37addd0dcca05094625dcde6402510f8fc664cd567893ec7096"
  else "71d34b5c428f6c21fc20cb17ba036a5090081330e57c7580c8090aa66ab91257"

theorem hexSha_lowerHex : LowerHex hexSha := by
  have hall (bytes : List UInt8) :
      (hexSha bytes).toList.all ("0123456789abcdef".toList.contains ·)=true := by
    unfold hexSha
    split_ifs <;> decide +kernel
  intro bytes c hc
  exact contains_iff_mem.1 (all_eq_true.1 (hall bytes) c hc)

def answering (content : List UInt8) : Choice :=
  ⟨true,true,0,fun _ _ => .response 200 none none content, "2026-01-01T00:00:00+00:00"⟩

def failing : Choice := ⟨false,true,0,fun _ _ => .failed, "2026-01-01T00:00:00+00:00"⟩

theorem sampleFiles_loads {sha256 : List UInt8 → String} {checksum : File String}
    (h : Matches sha256 ⟨.content sampleList,checksum,.missing⟩ sampleList)
    (hread : checksum≠.unreadable) :
    Loads Env.empty sha256 "/run/dae-rs" .unchanged (fun _ => none) (sampleEntry "a")
      ⟨.content sampleList,checksum,.missing⟩ sampleData := by
  refine loads_iff.2 ⟨⟨by simp,hread,by simp,by simp⟩,sampleList,rfl,h,?_⟩
  rw [load_miss Env.empty id "/run/dae-rs" .unchanged (sampleEntry "a").type sampleList rfl]
  exact sampleList_parses

theorem crash_safe_unrecorded :
    ∃ data,Loads Env.empty hexSha "/run/dae-rs" .unchanged (fun _ => none) (sampleEntry "a")
      (updateAlone Env.empty hexSha (sampleEntry "a") sampleFiles (fun _ => none)
        (List.replicate 9 (answering otherList))).2.files data := by
  obtain ⟨data,hloads,-⟩ := (crash_safe_iff Env.empty hexSha hexSha_lowerHex "/run/dae-rs"
    .unchanged (fun _ => none) (sampleEntry "a") sampleFiles (fun _ => none)
    (List.replicate 9 (answering otherList)) sampleData
    (sampleFiles_loads trivial (by simp))).2 ⟨fun _ => rfl,fun _ c _ hc => by cases hc⟩
  exact ⟨data,hloads⟩

/-- The checksum cannot be written once the data file is replaced: the entry had valid data, and is
damaged now. -/
theorem checksum_left_behind :
    let base : RuleSetFiles := ⟨.content sampleList,.content (hexSha sampleList ++ "\n"),.missing⟩
    let x := updateAlone Env.empty hexSha (sampleEntry "a") base (fun _ => none)
      (List.replicate 9 (answering otherList)++[failing])
    Loads Env.empty hexSha "/run/dae-rs" .unchanged (fun _ => none) (sampleEntry "a") base
        sampleData ∧
      x.1=.done (.error (.store (.io ".checksum/a.sha256"))) ∧
      ∃ item,(scanEntry Env.empty hexSha "/run/dae-rs" .unchanged (sampleEntry "a") x.2.files
          fun _ => none).1=.ok item ∧ item.data=none ∧ item.damaged=true := by
  intro base x
  have hx : (x.1,x.2.files)=(.done (.error (.store (.io ".checksum/a.sha256"))),
      ⟨.content otherList,base.checksum,.missing⟩) := by
    rfl
  obtain ⟨hend,hfiles⟩ := Prod.mk.inj hx
  refine ⟨sampleFiles_loads (matches_written hexSha_lowerHex rfl) (by simp),hend,?_⟩
  rw [hfiles]
  refine scanEntry_mismatch ⟨by simp,by simp [base],by simp,by simp⟩ rfl ?_
  rw [matches_written_iff hexSha_lowerHex rfl]
  decide

end DaeRs.RuleSet
