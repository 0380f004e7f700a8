import DaeRs.RuleSet.Recovery

/-! What a scan finds after an update from a server that answers conditional requests honestly. -/

namespace DaeRs.RuleSet

open RustStr Program

/-- What the configured URL serves, under which ETag, and since when. -/
structure Server where
  content : List UInt8
  etag : Option String
  unchangedSince : String → Bool

namespace Server

variable (server : Server)

def validates (etag lastModified : Option String) : Bool :=
  (etag.isSome && etag==server.etag) || lastModified.any server.unchangedSince

/-- It answers with 304 only to validators of its content, and with success only with it. -/
def Honest (c : Choice) : Prop := ∀ etag lastModified status etag' lastModified' body,
    c.response etag lastModified=.response status etag' lastModified' body →
    (status=304 → server.validates etag lastModified=true) ∧
      (200 ≤ status → status<300 → body=server.content)

/-- An update can leave such files as they are: the recorded validators are those of the content,
or the recorded checksum is. -/
def CanSkip (sha256 : List UInt8 → String) (cfg : RuleSetConfig) (f : RuleSetFiles) : Prop :=
  ∃ m prev,readMeta cfg.name f=.ok m ∧ readChecksum cfg.name f=.ok prev ∧
    (server.validates (m.bind RuleSetMeta.etag) (m.bind RuleSetMeta.lastModified)=true ∨
      prev.any (fun prev => eqIgnoreAsciiCase prev (sha256 server.content))=true ∧
        cfg.Expects (sha256 server.content))

def CanReplace (env : Env) (sha256 : List UInt8 → String) (cfg : RuleSetConfig)
    (f : RuleSetFiles) : Prop :=
  ∃ m prev data,readMeta cfg.name f=.ok m ∧ readChecksum cfg.name f=.ok prev ∧
    prev.any (fun prev => eqIgnoreAsciiCase prev (sha256 server.content))=false ∧
    cfg.Expects (sha256 server.content) ∧
    parseRuleSetData env cfg.type server.content=some (.ok data)

def content200 : Choice :=
  ⟨true,true,0,fun _ _ => .response 200 server.etag none server.content, ""⟩

def unmodified304 : Choice := ⟨true,true,0,fun etag lastModified =>
    if server.validates etag lastModified then .response 304 server.etag none [] else .failed, ""⟩

theorem content200_honest : server.Honest server.content200 := by
  rintro etag lastModified status etag' lastModified' body ⟨⟩
  simp

theorem unmodified304_honest : server.Honest server.unmodified304 := by
  intro etag lastModified status etag' lastModified' body h
  unfold unmodified304 at h
  dsimp only at h
  split_ifs at h with hvalid
  cases h
  exact ⟨fun _ => hvalid,by simp⟩

section Reachable

variable {server} {env : Env} {sha256 : List UInt8 → String} {cfg : RuleSetConfig} {s : Disk}
  {α : Type}

/-- Something that the update can come to with this server. -/
abbrev Can (server : Server) (cfg : RuleSetConfig) (Q : α → Disk → Prop) (p : Prog Op Op.Res α)
    (s : Disk) : Prop :=
  Prog.Can (Disk.apply cfg.name 0) server.Honest Q p s

theorem can_attempt {ε ε' : Type} {wrap : ε → ε'} {p : Prog Op Op.Res (Except ε α)}
    {Q : Except ε' α → Disk → Prop} (h : server.Can cfg (fun r => Q (r.mapError wrap)) p s) :
    server.Can cfg Q (attempt wrap p).run s :=
  Prog.can_bind h

theorem can_always {ε : Type} {p : Prog Op Op.Res α} {Q : Except ε α → Disk → Prop}
    (h : server.Can cfg (fun a => Q (.ok a)) p s) : server.Can cfg Q (always p).run s :=
  Prog.can_bind h

variable {etag lastModified : Option String}

theorem can_downloadImpl {Q : Except DownloadError DownloadedInfo → Disk → Prop}
    (h : server.Can cfg (fun r s => (∃ info,r=.ok info) ∧ Q r s)
      (attemptOnce sha256 cfg etag lastModified).run s) :
    server.Can cfg Q (downloadImpl sha256 cfg etag lastModified).run s := by
  refine Prog.can_bindE (can_attempt ⟨_,server.content200_honest,(),rfl,?_⟩)
  refine Prog.can_bind (h.mono ?_)
  rintro r s' ⟨⟨info,rfl⟩,hQ⟩
  exact hQ

theorem can_unmodified (h : server.validates etag lastModified=true) :
    server.Can cfg (fun r _ => r=.ok ⟨0, "",server.etag,none,true⟩)
      (downloadImpl sha256 cfg etag lastModified).run s := by
  refine can_downloadImpl ?_
  refine Prog.can_bindE (can_always ⟨_,server.unmodified304_honest,_,rfl,?_⟩)
  have hresponse : server.unmodified304.response etag lastModified =
      .response 304 server.etag none [] := by
    rw [unmodified304]
    exact if_pos h
  simp only [Disk.apply,hresponse]
  exact ⟨⟨_,rfl⟩,rfl⟩

theorem can_content (h : cfg.Expects (sha256 server.content)) : server.Can cfg (fun r s' =>
        r=.ok ⟨server.content.length,sha256 server.content,server.etag,none,false⟩ ∧
          s'=s.setTmp 0 (some server.content))
      (downloadImpl sha256 cfg etag lastModified).run s := by
  have hfilter : cfg.expectedSha256.filter
      (fun expected => !eqIgnoreAsciiCase (sha256 server.content) expected)=none := by
    rw [Option.filter_eq_none_iff]
    intro e he
    simp [h e he]
  refine can_downloadImpl ?_
  refine Prog.can_bindE (can_always ⟨_,server.content200_honest,_,rfl,?_⟩)
  simp only [Disk.apply,content200,hfilter]
  refine Prog.can_bindE (can_attempt ⟨_,server.content200_honest,(),rfl,?_⟩)
  exact ⟨⟨_,rfl⟩,rfl,rfl⟩

theorem can_updateRuleSet {Q : Except UpdateError UpdateOutcome → Disk → Prop}
    {m : Option RuleSetMeta} {prev : Option String} (hm : readMeta cfg.name s.files=.ok m)
    (hprev : readChecksum cfg.name s.files=.ok prev)
    (h : server.Can cfg (fun r s => ∃ info,r=.ok info ∧
        server.Can cfg Q (conclude env cfg prev info).run s)
      (downloadImpl sha256 cfg (m.bind RuleSetMeta.etag) (m.bind RuleSetMeta.lastModified)).run s) :
    server.Can cfg Q (updateRuleSet env sha256 cfg).run s := by
  refine Prog.can_bindE (can_attempt ⟨_,server.content200_honest,(),rfl,?_⟩)
  refine Prog.can_bindE (can_attempt ⟨_,server.content200_honest,m,?_,?_⟩)
  · exact congrArg (Except.mapError _) hm
  refine Prog.can_bindE (can_attempt ⟨_,server.content200_honest,prev,?_,?_⟩)
  · exact congrArg (Except.mapError _) hprev
  refine Prog.can_bindE (can_attempt (h.mono ?_))
  rintro r s' ⟨info,rfl,hnext⟩
  exact ⟨info,rfl,hnext⟩

theorem can_skip (h : server.CanSkip sha256 cfg s.files) :
    server.Can cfg (fun r _ => r=.ok .notModified) (updateRuleSet env sha256 cfg).run s := by
  obtain ⟨m,prev,hm,hprev,hvalid | ⟨hsame,hexpects⟩⟩ := h
  · refine can_updateRuleSet hm hprev ((can_unmodified hvalid).mono ?_)
    rintro r s' rfl
    exact ⟨_,rfl,rfl⟩
  · refine can_updateRuleSet hm hprev ((can_content hexpects).mono ?_)
    rintro r s' ⟨rfl,rfl⟩
    refine ⟨_,rfl,?_⟩
    rw [conclude,if_neg (by simp),if_pos hsame]
    exact Prog.can_bindE (can_always ⟨_,server.content200_honest,(),rfl,rfl⟩)

theorem can_replace (h : server.CanReplace env sha256 cfg s.files) :
    server.Can cfg (fun r _ => ∃ data,r=.ok (.updated data))
      (updateRuleSet env sha256 cfg).run s := by
  obtain ⟨m,prev,data,hm,hprev,hchanged,hexpects,hparse⟩ := h
  refine can_updateRuleSet hm hprev ((can_content hexpects).mono ?_)
  rintro r s' ⟨rfl,rfl⟩
  refine ⟨_,rfl,?_⟩
  rw [conclude,if_neg (by simp),if_neg (by simp [hchanged])]
  refine Prog.can_bindE (can_attempt ⟨_,server.content200_honest,server.content,rfl,?_⟩)
  have hverify : verify env cfg server.content=pure data := by rw [verify,hparse]
  rw [hverify]
  refine Prog.can_bindE (p := pure data) ⟨data,rfl,?_⟩
  refine Prog.can_bindE (can_attempt ⟨_,server.content200_honest,(),rfl,?_⟩)
  refine Prog.can_bindE (can_attempt ⟨_,server.content200_honest,(),rfl,?_⟩)
  refine Prog.can_bindE (can_attempt ⟨_,server.content200_honest,(),rfl,?_⟩)
  refine Prog.can_bindE (can_always ⟨_,server.content200_honest,_,rfl,?_⟩)
  refine Prog.can_bindE (can_attempt ⟨_,server.content200_honest,(),rfl,?_⟩)
  exact ⟨data,rfl⟩

end Reachable

end Server

section Ends

variable {env : Env} {sha256 : List UInt8 → String} {runDir : String} {outcome : SaveOutcome}
  {bin : Files String} {cfg : RuleSetConfig} {base : RuleSetFiles} {server : Server}

theorem served_content {bytes : List UInt8}
    (h : Setting.Served ⟨env,sha256,cfg,server.Honest,(·=base)⟩ bytes) :
    bytes=server.content := by
  obtain ⟨x,hhonest,etag,lastModified,status,etag',lastModified',hresponse,hstatus⟩ := h
  exact (hhonest _ _ _ _ _ _ hresponse).2 hstatus.1 hstatus.2

theorem replaced_loads_iff (hsha : LowerHex sha256)
    (c : Setting.Commit ⟨env,sha256,cfg,server.Honest,(·=base)⟩) :
    (∃ data,Loads env sha256 runDir outcome bin cfg (c.writes.foldl RuleSetFiles.put base) data ∧
        parseRuleSetData env cfg.type server.content=some (.ok data)) ↔
      FreshFor env sha256 runDir cfg bin server.content := by
  have hread : Accessible (c.writes.foldl RuleSetFiles.put base) :=
    ⟨by simp [Setting.Commit.writes,RuleSetFiles.put],
      by simp [Setting.Commit.writes,RuleSetFiles.put],
      by simp [Setting.Commit.writes,RuleSetFiles.put],
      by simp [Setting.Commit.writes,RuleSetFiles.put]⟩
  have hparse := c.parses
  have hcontent := served_content c.served
  rw [← hcontent]
  rw [loads_some_iff hread rfl hparse hparse,and_iff_right (matches_written hsha rfl)]
  rfl

theorem skipped_canSkip (hopened : Setting.Opened ⟨env,sha256,cfg,server.Honest,(·=base)⟩)
    (h : Setting.Skipped ⟨env,sha256,cfg,server.Honest,(·=base)⟩) :
    server.CanSkip sha256 cfg base := by
  obtain ⟨⟨f,m,rfl,hm⟩,f,prev,rfl,hprev⟩ := hopened
  refine ⟨m,prev,hm,hprev,?_⟩
  rcases h with ⟨f,m',rfl,hm',c,hhonest,etag,lastModified,body,hresponse⟩ |
    ⟨f,bytes,rfl,hserved,hexpects,hrecorded⟩
  · cases hm.symm.trans hm'
    exact .inl ((hhonest _ _ _ _ _ _ hresponse).1 rfl)
  · cases served_content hserved
    exact .inr ⟨(Setting.recorded_iff hprev).1 hrecorded,hexpects⟩

theorem commit_canReplace
    (hopened : Setting.Opened ⟨env,sha256,cfg,server.Honest,(·=base)⟩)
    (c : Setting.Commit ⟨env,sha256,cfg,server.Honest,(·=base)⟩) :
    server.CanReplace env sha256 cfg base := by
  obtain ⟨⟨f,m,rfl,hm⟩,f,prev,rfl,hprev⟩ := hopened
  have hprior : c.prior=f := c.seen
  have hchanged := mt (Setting.recorded_iff hprev).2 (hprior ▸ c.changed)
  rw [Bool.not_eq_true] at hchanged
  refine ⟨m,prev,c.data,hm,hprev,?_⟩
  rw [← served_content c.served]
  exact ⟨hchanged,c.expected,c.parses⟩

theorem updateAlone_ok {tmps : Nat → Option (List UInt8)} {cs : List Choice}
    (hcs : ∀ c∈cs,server.Honest c) {out : UpdateOutcome}
    (hout : (updateAlone env sha256 cfg base tmps cs).1=.done (.ok out)) :
    let w : Setting := ⟨env,sha256,cfg,server.Honest,(·=base)⟩
    w.Opened ∧
      match out with
      | .updated _ => ∃ c : w.Commit,(updateAlone env sha256 cfg base tmps cs).2.files =
          c.writes.foldl RuleSetFiles.put base
      | .notModified => w.Skipped ∧ (updateAlone env sha256 cfg base tmps cs).2.files=base := by
  intro w
  obtain ⟨hfiles,-,-,hend⟩ : (updateAlone env sha256 cfg base tmps cs).2.files=_ ∧ _ ∧ _ ∧ _ :=
    updateAlone_spec w rfl hcs tmps
  have hwrote := hend _ hout
  cases out with
  | updated data =>
    obtain ⟨hopened,c,-,hown⟩ := hwrote
    exact ⟨hopened,c,by rw [hfiles,hown]⟩
  | notModified =>
    obtain ⟨hopened,hskipped,hown⟩ := hwrote
    exact ⟨hopened,hskipped,by rw [hfiles,hown]; rfl⟩

end Ends

/-- After an update without an error a scan loads the parse of what an honest server serves exactly
when files that the update can leave as they are give it already, and the binary cache holds nothing
else for content that it can write. -/
theorem update_current_iff (env : Env) (sha256 : List UInt8 → String) (hsha : LowerHex sha256)
    (runDir : String) (outcome : SaveOutcome) (bin : Files String) (cfg : RuleSetConfig)
    (base : RuleSetFiles) (tmps : Nat → Option (List UInt8)) (server : Server) :
    (∀ cs,(∀ c∈cs,server.Honest c) → ∀ out,
        (updateAlone env sha256 cfg base tmps cs).1=.done (.ok out) →
        ∃ data,Loads env sha256 runDir outcome bin cfg
            (updateAlone env sha256 cfg base tmps cs).2.files data ∧
          parseRuleSetData env cfg.type server.content=some (.ok data)) ↔
      (server.CanSkip sha256 cfg base → ∃ data,Loads env sha256 runDir outcome bin cfg base data ∧
          parseRuleSetData env cfg.type server.content=some (.ok data)) ∧
      (server.CanReplace env sha256 cfg base →
        FreshFor env sha256 runDir cfg bin server.content) := by
  constructor
  · intro hall
    constructor
    · intro hskip
      have hcan : server.Can cfg (fun r _ => r=.ok .notModified)
          (updateRuleSet env sha256 cfg).run ⟨base,[],tmps⟩ := Server.can_skip hskip
      obtain ⟨cs,hcs,r,hr,rfl⟩ := hcan.run
      obtain ⟨-,-,hfiles⟩ := updateAlone_ok hcs hr
      rw [← hfiles]
      exact hall cs hcs _ hr
    · intro hreplace
      have hcan : server.Can cfg (fun r _ => ∃ data,r=.ok (.updated data))
          (updateRuleSet env sha256 cfg).run ⟨base,[],tmps⟩ := Server.can_replace hreplace
      obtain ⟨cs,hcs,r,hr,data,rfl⟩ := hcan.run
      obtain ⟨-,c,hfiles⟩ := updateAlone_ok hcs hr
      have hloads := hall cs hcs _ hr
      rw [hfiles] at hloads
      exact (replaced_loads_iff hsha c).1 hloads
  · rintro ⟨hskip,hreplace⟩ cs hcs out hout
    obtain ⟨hopened,hend⟩ := updateAlone_ok hcs hout
    cases out with
    | updated data =>
      obtain ⟨c,hfiles⟩ := hend
      rw [hfiles]
      exact (replaced_loads_iff hsha c).2 (hreplace (commit_canReplace hopened c))
    | notModified =>
      obtain ⟨hskipped,hfiles⟩ := hend
      rw [hfiles]
      exact hskip (skipped_canSkip hopened hskipped)

def plainServer : Server := ⟨otherList,none,fun _ => false⟩

theorem plainServer_honest (n : Nat) :
    ∀ c∈List.replicate n plainServer.content200,plainServer.Honest c := by
  intro c hc
  rw [List.eq_of_mem_replicate hc]
  exact plainServer.content200_honest

theorem update_current_first :
    ∃ data,Loads Env.empty hexSha "/run/dae-rs" .unchanged (fun _ => none) (sampleEntry "a")
        (updateAlone Env.empty hexSha (sampleEntry "a") ⟨.missing,.missing,.missing⟩
          (fun _ => none) (List.replicate 12 plainServer.content200)).2.files data ∧
      parseRuleSetData Env.empty .ipList otherList=some (.ok data) := by
  refine (update_current_iff Env.empty hexSha hexSha_lowerHex "/run/dae-rs" .unchanged
    (fun _ => none) (sampleEntry "a") ⟨.missing,.missing,.missing⟩ (fun _ => none)
    plainServer).2 ⟨?_,?_⟩ _ (plainServer_honest 12) (.updated otherData) ?_
  · rintro ⟨m,prev,hm,hprev,hskip⟩
    cases hm
    cases hprev
    simp [Server.validates] at hskip
  · intro _ c hc
    cases hc
  · rfl

/-- The data file is gone while its checksum is still recorded: nothing is downloaded anew, and there
is nothing to load. -/
theorem missing_data_skipped :
    let x := updateAlone Env.empty hexSha (sampleEntry "a")
      ⟨.missing,.content (hexSha otherList ++ "\n"),.missing⟩ (fun _ => none)
      (List.replicate 7 plainServer.content200)
    (∀ c∈List.replicate 7 plainServer.content200,plainServer.Honest c) ∧
      x.1=.done (.ok .notModified) ∧
      ∀ data,¬Loads Env.empty hexSha "/run/dae-rs" .unchanged (fun _ => none) (sampleEntry "a")
        x.2.files data := by
  have hout : (updateAlone Env.empty hexSha (sampleEntry "a")
      ⟨.missing,.content (hexSha otherList ++ "\n"),.missing⟩ (fun _ => none)
      (List.replicate 7 plainServer.content200)).1=.done (.ok .notModified) := by
    rfl
  refine ⟨plainServer_honest 7,hout,?_⟩
  intro data hloads
  obtain ⟨-,-,hfiles⟩ := updateAlone_ok (plainServer_honest 7) hout
  rw [hfiles] at hloads
  obtain ⟨-,bytes,hbytes,-⟩ := loads_iff.1 hloads
  cases hbytes

end DaeRs.RuleSet
