import DaeRs.Lib.Program
import DaeRs.RuleSet.Store

/-! `update_rule_set`: a program on the files of one rule set. -/

namespace DaeRs.RuleSet

open RustStr Program List Function

inductive DownloadError where
  | clientBuild
  | request (url : String)
  | httpStatus (url : String) (status : Nat)
  | checksumMismatch (url expected actual : String)
  | io
  deriving DecidableEq

inductive UpdateError where
  | parse (e : RuleSetError)
  | store (e : StoreError)
  | download (e : DownloadError)
  deriving DecidableEq

inductive UpdateOutcome where
  | updated (data : RuleSetData)
  | notModified
  deriving DecidableEq

/-- What comes of a request: an error on the way, or a response whose body was received whole. -/
inductive HttpResult where
  | failed
  | response (status : Nat) (etag lastModified : Option String) (body : List UInt8)
  deriving DecidableEq

structure DownloadedInfo where
  size : Nat
  sha256 : String
  etag : Option String
  lastModified : Option String
  notModified : Bool

inductive Write where
  | data (bytes : List UInt8)
  | checksum (text : String)
  | metadata (m : RuleSetMeta)
  deriving DecidableEq

/-- What an update does to the outside, one at a time: the files of its rule set, its own temporary
file, the server and the clock. -/
inductive Op where
  | ensureDirs
  | readMeta
  | readChecksum
  | buildClient
  | request (etag lastModified : Option String)
  | writeTmp (bytes : List UInt8)
  | removeTmp
  | readTmp
  | syncTmp
  | rename
  | atomicWriteBytes (path : String) (w : Write)
  | now

abbrev Op.Res : Op → Type
  | ensureDirs | syncTmp | rename | atomicWriteBytes _ _ => Except StoreError Unit
  | readMeta => Except StoreError (Option RuleSetMeta)
  | readChecksum => Except StoreError (Option String)
  | buildClient | writeTmp _ => Except DownloadError Unit
  | request _ _ => HttpResult
  | removeTmp => Unit
  | readTmp => Except StoreError (List UInt8)
  | now => String

abbrev Update (ε : Type) := ExceptT ε (Prog Op Op.Res)

def call (op : Op) : Prog Op Op.Res op.Res := Prog.perform op

def attempt {ε ε' α : Type} (wrap : ε → ε') (p : Prog Op Op.Res (Except ε α)) : Update ε' α :=
  ExceptT.mk (p >>= fun r => pure (r.mapError wrap))

def always {ε α : Type} (p : Prog Op Op.Res α) : Update ε α :=
  ExceptT.mk (p >>= fun a => pure (.ok a))

def writeChecksum (name sha256 : String) : Prog Op Op.Res (Except StoreError Unit) :=
  call (.atomicWriteBytes (checksumFilePath name) (.checksum (sha256 ++ "\n")))

def writeMeta (name : String) (m : RuleSetMeta) : Prog Op Op.Res (Except StoreError Unit) :=
  call (.atomicWriteBytes (metaFilePath name) (.metadata m))

section Programs

variable (env : Env) (sha256 : List UInt8 → String) (cfg : RuleSetConfig)

def attemptOnce (etag lastModified : Option String) : Update DownloadError DownloadedInfo := do
  match ← always (call (.request etag lastModified)) with
  | .failed => throw (.request cfg.url)
  | .response status etag lastModified body =>
    if status=304 then pure ⟨0, "",etag,lastModified,true⟩
    else if ¬(200 ≤ status ∧ status<300) then throw (.httpStatus cfg.url status)
    else
      match cfg.expectedSha256.filter fun expected => !eqIgnoreAsciiCase (sha256 body) expected with
      | some expected => do
        always (call .removeTmp)
        throw (.checksumMismatch cfg.url expected (sha256 body))
      | none => do
        attempt id (call (.writeTmp body))
        pure ⟨body.length,sha256 body,etag,lastModified,false⟩

def DownloadError.isRetryable : DownloadError → Bool
  | request _ => true
  | httpStatus _ status => decide (500 ≤ status)
  | _ => false

def downloadLoop (etag lastModified : Option String) : Nat → Update DownloadError DownloadedInfo
  | 0 => attemptOnce sha256 cfg etag lastModified
  | retries+1 => ExceptT.mk do
    match ← (attemptOnce sha256 cfg etag lastModified).run with
    | .ok info => pure (.ok info)
    | .error e =>
      if e.isRetryable then (downloadLoop etag lastModified retries).run else pure (.error e)

def maxRetries : Nat := 3

def downloadImpl (etag lastModified : Option String) : Update DownloadError DownloadedInfo := do
  attempt id (call .buildClient)
  downloadLoop sha256 cfg etag lastModified maxRetries

/-- The parse verification; a panic of the parser is a join error. -/
def verify (bytes : List UInt8) : Update UpdateError RuleSetData :=
  match parseRuleSetData env cfg.type bytes with
  | some (.ok data) => pure data
  | some (.error e) => do
    always (call .removeTmp)
    throw (.parse e)
  | none => do
    always (call .removeTmp)
    throw (.store (.corrupt "parse task join failed"))

def commit (info : DownloadedInfo) (data : RuleSetData) : Update UpdateError UpdateOutcome := do
  attempt .store (call .syncTmp)
  attempt .store (call .rename)
  attempt .store (writeChecksum cfg.name info.sha256)
  let time ← always (call .now)
  attempt .store (writeMeta cfg.name {
    name := cfg.name
    url := cfg.url
    type := cfg.type
    lastUpdated := some time
    etag := info.etag
    lastModified := info.lastModified
    sha256 := some info.sha256
    size := info.size
    state := .ready })
  pure (.updated data)

def conclude (prevSha : Option String) (info : DownloadedInfo) : Update UpdateError UpdateOutcome :=
  if info.notModified then pure .notModified
  -- the content is that of the recorded checksum
  else if prevSha.any fun prev => eqIgnoreAsciiCase prev info.sha256 then do
    always (call .removeTmp)
    pure .notModified
  else do
    let bytes ← attempt .store (call .readTmp)
    let data ← verify env cfg bytes
    commit cfg info data

def updateRuleSet : Update UpdateError UpdateOutcome := do
  attempt .store (call .ensureDirs)
  let prevMeta ← attempt .store (call .readMeta)
  let prevSha ← attempt .store (call .readChecksum)
  let info ← attempt .download
    (downloadImpl sha256 cfg (prevMeta.bind RuleSetMeta.etag)
      (prevMeta.bind RuleSetMeta.lastModified)).run
  conclude env cfg prevSha info

end Programs

def RuleSetFiles.put (f : RuleSetFiles) : Write → RuleSetFiles
  | .data bytes => { f with data := .content bytes }
  | .checksum text => { f with checksum := .content text }
  | .metadata m => { f with metadata := .content (.ok m) }

/-- The files as they were, what was written to them since, and by which update; each update has a
temporary file of its own. -/
structure Disk where
  base : RuleSetFiles
  writes : List (Nat×Write)
  tmps : Nat → Option (List UInt8)

/-- What happens to a call: whether it works or a directory can be made, how much of a failed write
is kept, what the server answers to the validators, and the time. -/
structure Choice where
  works : Bool
  made : Bool
  kept : Nat
  response : Option String → Option String → HttpResult
  time : String

namespace Disk

def files (s : Disk) : RuleSetFiles := (s.writes.map Prod.snd).foldl RuleSetFiles.put s.base

def setTmp (s : Disk) (t : Nat) (content : Option (List UInt8)) : Disk :=
  { s with tmps := update s.tmps t content }

def write (s : Disk) (t : Nat) (w : Write) : Disk := { s with writes := s.writes++[(t,w)] }

def tmpPath : String := ".tmp"

def apply (name : String) (t : Nat) (s : Disk) : (op : Op) → Choice → op.Res×Disk
  | .ensureDirs,c => (if c.works then .ok () else .error .createDir,s)
  | .readMeta,c =>
    (if c.works then readMeta name s.files else .error (.io (metaFilePath name)),s)
  | .readChecksum,c =>
    (if c.works then readChecksum name s.files else .error (.io (checksumFilePath name)),s)
  | .buildClient,c => (if c.works then .ok () else .error .clientBuild,s)
  | .request etag lastModified,c => (c.response etag lastModified,s)
  | .writeTmp bytes,c =>
    if c.works then (.ok (),s.setTmp t (some bytes))
    else (.error .io,s.setTmp t (some (bytes.take c.kept)))
  | .removeTmp,c => ((),if c.works then s.setTmp t none else s)
  | .readTmp,c =>
    (match s.tmps t,c.works with
    | some bytes,true => .ok bytes
    | _,_ => .error (.io tmpPath),s)
  | .syncTmp,c => (if c.works && (s.tmps t).isSome then .ok () else .error (.io tmpPath),s)
  | .rename,c =>
    match s.tmps t,c.works with
    | some bytes,true => (.ok (),(s.setTmp t none).write t (.data bytes))
    | _,_ => (.error (.io (dataFilePath name)),s)
  | .atomicWriteBytes path w,c =>
    if ¬c.made then (.error .createDir,s)
    else if c.works then (.ok (),s.write t w)
    else (.error (.io path),s)
  | .now,c => (c.time,s)

variable {name : String}

theorem apply_readMeta {t : Nat} {s : Disk} {c : Choice} {m : Option RuleSetMeta}
    (h : (apply name t s .readMeta c).1=.ok m) : readMeta name s.files=.ok m := by
  cases hworks : c.works <;> simp_all [apply]

theorem apply_readChecksum {t : Nat} {s : Disk} {c : Choice} {sha : Option String}
    (h : (apply name t s .readChecksum c).1=.ok sha) : readChecksum name s.files=.ok sha := by
  cases hworks : c.works <;> simp_all [apply]

theorem apply_readTmp {t : Nat} {s : Disk} {c : Choice} {bytes bytes' : List UInt8}
    (h : s.tmps t=some bytes) (h' : (apply name t s .readTmp c).1=.ok bytes') : bytes=bytes' := by
  cases hworks : c.works <;> simp_all [apply]

theorem apply_rename {t : Nat} {s : Disk} {bytes : List UInt8}
    (h : s.tmps t=some bytes) (c : Choice) : apply name t s .rename c =
      if c.works then (.ok (),(s.setTmp t none).write t (.data bytes))
      else (.error (.io (dataFilePath name)),s) := by
  cases hworks : c.works <;> simp [apply,h,hworks]

def own (t : Nat) (s : Disk) : List Write := (s.writes.filter fun w => w.1=t).map Prod.snd

theorem own_write_self (s : Disk) (t : Nat) (w : Write) : (s.write t w).own t=s.own t++[w] := by
  simp [own,write]

theorem own_write_of_ne (s : Disk) {t u : Nat} (h : u≠t) (w : Write) :
    (s.write t w).own u=s.own u := by
  simp [own,write,Ne.symm h]

end Disk

def RuleSetConfig.Expects (cfg : RuleSetConfig) (sha : String) : Prop :=
  ∀ e,cfg.expectedSha256=some e → eqIgnoreAsciiCase sha e=true

/-- What an update is run with: its entry, what may happen to its calls, and what the files may look
like as long as it has not written to them. -/
structure Setting where
  env : Env
  sha256 : List UInt8 → String
  cfg : RuleSetConfig
  Happens : Choice → Prop
  Seen : RuleSetFiles → Prop

namespace Setting

variable (w : Setting) (t : Nat)

def Served (bytes : List UInt8) : Prop :=
  ∃ c,w.Happens c ∧ ∃ etag lastModified status etag' lastModified',
    c.response etag lastModified=.response status etag' lastModified' bytes ∧
      200 ≤ status ∧ status<300

def Unmodified (etag lastModified : Option String) : Prop :=
  ∃ c,w.Happens c ∧ ∃ etag' lastModified' body,
    c.response etag lastModified=.response 304 etag' lastModified' body

def Recorded (f : RuleSetFiles) (bytes : List UInt8) : Prop :=
  ∃ prev,readChecksum w.cfg.name f=.ok (some prev) ∧ eqIgnoreAsciiCase prev (w.sha256 bytes)=true

/-- What an update writes: content that was served, parses as the entry's type and has the expected
checksum but not the recorded one, and what belongs to it. -/
structure Commit where
  bytes : List UInt8
  data : RuleSetData
  metadata : RuleSetMeta
  prior : RuleSetFiles
  served : w.Served bytes
  parses : parseRuleSetData w.env w.cfg.type bytes=some (.ok data)
  expected : w.cfg.Expects (w.sha256 bytes)
  seen : w.Seen prior
  changed : ¬w.Recorded prior bytes
  sha : metadata.sha256=some (w.sha256 bytes)
  size : metadata.size=bytes.length

variable {w} in
def Commit.writes (c : w.Commit) : List Write :=
  [.data c.bytes,.checksum (w.sha256 c.bytes ++ "\n"),.metadata c.metadata]

variable {w} in
/-- What a failed write of the store leaves of a commit. -/
def Commit.Stopped (c : w.Commit) (e : StoreError) (ws : List Write) : Prop :=
  (e=.createDir ∨ e=.io (checksumFilePath w.cfg.name)) ∧ ws=[.data c.bytes] ∨
    (e=.createDir ∨ e=.io (metaFilePath w.cfg.name)) ∧
      ws=[.data c.bytes,.checksum (w.sha256 c.bytes ++ "\n")]

def Partly (ws : List Write) : Prop := ws=[] ∨ ∃ c : w.Commit,ws <+: c.writes

structure Rely (s s' : Disk) : Prop where
  base : s'.base=s.base
  tmp : s'.tmps t=s.tmps t
  own : s'.own t=s.own t
  seen : s'.own t=[] → w.Seen s'.files

structure Guarantee (s s' : Disk) : Prop where
  base : s'.base=s.base
  others : ∀ u,u≠t → s'.tmps u=s.tmps u ∧ s'.own u=s.own u
  own : w.Partly (s'.own t)

def Opened : Prop := (∃ f m,w.Seen f ∧ readMeta w.cfg.name f=.ok m) ∧
    ∃ f sha,w.Seen f ∧ readChecksum w.cfg.name f=.ok sha

def Skipped : Prop := (∃ f m,w.Seen f ∧ readMeta w.cfg.name f=.ok m ∧
    w.Unmodified (m.bind RuleSetMeta.etag) (m.bind RuleSetMeta.lastModified)) ∨
  ∃ f bytes,w.Seen f ∧ w.Served bytes ∧ w.cfg.Expects (w.sha256 bytes) ∧ w.Recorded f bytes

def Wrote (r : Except UpdateError UpdateOutcome) (s : Disk) : Prop :=
  match r with
  | .ok (.updated data) => w.Opened ∧ ∃ c : w.Commit,c.data=data ∧ s.own t=c.writes
  | .ok .notModified => w.Opened ∧ w.Skipped ∧ s.own t=[]
  | .error (.store e) => s.own t=[] ∨ ∃ c : w.Commit,c.Stopped e (s.own t)
  | .error _ => s.own t=[]

/-- What a download leaves: the body of a successful response with the expected checksum in the
temporary file, unless the server answers with 304. -/
def Fetched (etag lastModified : Option String) (r : Except DownloadError DownloadedInfo)
    (s : Disk) : Prop :=
  s.own t=[] ∧ ∀ info,r=.ok info →
    if info.notModified then w.Unmodified etag lastModified
    else ∃ body,s.tmps t=some body ∧ w.Served body ∧ w.cfg.Expects (w.sha256 body) ∧
      info.sha256=w.sha256 body ∧ info.size=body.length

def Runs {α : Type} (Q : α → Disk → Prop) (p : Prog Op Op.Res α) (s : Disk) : Prop :=
  Prog.Meets (Disk.apply w.cfg.name t) w.Happens (w.Rely t) (w.Guarantee t) Q p s

section Spec

variable {w t} {s : Disk} {α : Type}

theorem Rely.trans {s₁ s₂ s₃ : Disk} (h : w.Rely t s₁ s₂) (h' : w.Rely t s₂ s₃) : w.Rely t s₁ s₃ :=
  ⟨h'.base.trans h.base,h'.tmp.trans h.tmp,h'.own.trans h.own,h'.seen⟩

theorem Guarantee.trans {s₁ s₂ s₃ : Disk} (h : w.Guarantee t s₁ s₂) (h' : w.Guarantee t s₂ s₃) :
    w.Guarantee t s₁ s₃ :=
  ⟨h'.base.trans h.base,fun u hu => ⟨(h'.others u hu).1.trans (h.others u hu).1,
      (h'.others u hu).2.trans (h.others u hu).2⟩,
    h'.own⟩

theorem Partly.of_append {ws : List Write} {x : Write} (h : w.Partly (ws++[x])) : w.Partly ws := by
  rcases h with h | ⟨c,hc⟩
  · simp at h
  · exact .inr ⟨c,(prefix_append ws [x]).trans hc⟩

theorem guarantee_quiet (hs : w.Partly (s.own t)) : w.Guarantee t s s :=
  ⟨rfl,fun _ _ => ⟨rfl,rfl⟩,hs⟩

theorem guarantee_setTmp (hs : s.own t=[]) (content : Option (List UInt8)) :
    w.Guarantee t s (s.setTmp t content) :=
  ⟨rfl,fun _ hu => ⟨update_of_ne hu _ _,rfl⟩,.inl hs⟩

theorem guarantee_write {x : Write} (hx : w.Partly (s.own t++[x])) :
    w.Guarantee t s (s.write t x) :=
  ⟨rfl,fun _ hu => ⟨rfl,s.own_write_of_ne hu x⟩,by rwa [s.own_write_self]⟩

theorem runs_read {op : Op} {ws : List Write} {Q : op.Res → Disk → Prop}
    (hop : ∀ s c,(Disk.apply w.cfg.name t s op c).2=s) (hs : s.own t=ws)
    (hpart : w.Partly ws)
    (hQ : ∀ s' c,w.Rely t s s' → w.Happens c → s'.own t=ws →
      Q (Disk.apply w.cfg.name t s' op c).1 s') :
    w.Runs t Q (call op) s := by
  intro s' hrely c hc
  have hown : s'.own t=ws := hrely.own.trans hs
  rw [hop]
  exact ⟨guarantee_quiet (by rwa [hown]),hQ s' c hrely hc hown⟩

theorem runs_removeTmp {Q : Unit → Disk → Prop} (hs : s.own t=[])
    (hQ : ∀ s',s'.own t=[] → Q () s') : w.Runs t Q (call .removeTmp) s := by
  intro s' hrely c _
  have hown : s'.own t=[] := hrely.own.trans hs
  simp only [Disk.apply]
  split_ifs
  · exact ⟨guarantee_setTmp hown none,hQ _ hown⟩
  · exact ⟨guarantee_quiet (.inl hown),hQ _ hown⟩

theorem runs_attempt {ε ε' : Type} {wrap : ε → ε'} {p : Prog Op Op.Res (Except ε α)}
    {Q : Except ε' α → Disk → Prop} (h : w.Runs t (fun r => Q (r.mapError wrap)) p s) :
    w.Runs t Q (attempt wrap p).run s :=
  Prog.meets_bind h

theorem runs_always {ε : Type} {p : Prog Op Op.Res α} {Q : Except ε α → Disk → Prop}
    (h : w.Runs t (fun a => Q (.ok a)) p s) : w.Runs t Q (always p).run s :=
  Prog.meets_bind h

theorem wrote_error (hs : s.own t=[]) (e : UpdateError) : w.Wrote t (.error e) s := by
  cases e with
  | parse e => exact hs
  | download e => exact hs
  | store e => exact .inl hs

theorem fetched_error {etag lastModified : Option String} (hs : s.own t=[])
    (e : DownloadError) : w.Fetched t etag lastModified (.error e) s :=
  ⟨hs,fun info hinfo => by cases hinfo⟩

theorem runs_attemptOnce (hs : s.own t=[]) (etag lastModified : Option String) :
    w.Runs t (w.Fetched t etag lastModified) (attemptOnce w.sha256 w.cfg etag lastModified).run
      s := by
  refine Prog.meets_bindE (runs_always (runs_read (fun _ _ => rfl) hs (.inl rfl) ?_))
  intro s₁ c _ hc hs₁
  dsimp only [Disk.apply]
  cases hresponse : c.response etag lastModified with
  | failed => exact fetched_error hs₁ _
  | response status etag' lastModified' body =>
    dsimp only
    by_cases hunmodified : status=304
    · rw [if_pos hunmodified]
      refine ⟨hs₁,?_⟩
      rintro info ⟨⟩
      exact ⟨c,hc,etag',lastModified',body,by rw [hresponse,hunmodified]⟩
    rw [if_neg hunmodified]
    by_cases hsuccess : ¬(200 ≤ status ∧ status<300)
    · rw [if_pos hsuccess]
      exact fetched_error hs₁ _
    rw [if_neg hsuccess]
    push Not at hsuccess
    have hserved : w.Served body :=
      ⟨c,hc,etag,lastModified,status,etag',lastModified',hresponse,hsuccess⟩
    cases hexpected : w.cfg.expectedSha256.filter
        (fun expected => !eqIgnoreAsciiCase (w.sha256 body) expected) with
    | some expected =>
      refine Prog.meets_bindE (runs_always (runs_removeTmp hs₁ ?_))
      intro s₂ hs₂
      exact fetched_error hs₂ _
    | none =>
      refine Prog.meets_bindE (runs_attempt ?_)
      intro s₂ hrely c₂ _
      have hs₂ : s₂.own t=[] := hrely.own.trans hs₁
      simp only [Disk.apply]
      split_ifs
      · refine ⟨guarantee_setTmp hs₂ _,hs₂,?_⟩
        rintro info ⟨⟩
        refine ⟨body,update_self _ _ _,hserved,?_,rfl,rfl⟩
        intro e he
        rw [he] at hexpected
        simpa using hexpected
      · exact ⟨guarantee_setTmp hs₂ _,fetched_error (s := s₂.setTmp t _) hs₂ _⟩

theorem runs_downloadLoop (etag lastModified : Option String) (retries : Nat) (hs : s.own t=[]) :
    w.Runs t (w.Fetched t etag lastModified)
      (downloadLoop w.sha256 w.cfg etag lastModified retries).run s := by
  induction retries generalizing s with
  | zero => exact runs_attemptOnce hs etag lastModified
  | succ retries ih =>
    refine Prog.meets_bind ((runs_attemptOnce hs etag lastModified).mono ?_)
    intro r s₁ hfetched
    cases r with
    | ok info => exact hfetched
    | error e =>
      dsimp only
      split_ifs
      · exact ih hfetched.1
      · exact hfetched

theorem runs_downloadImpl (etag lastModified : Option String) (hs : s.own t=[]) :
    w.Runs t (w.Fetched t etag lastModified)
      (downloadImpl w.sha256 w.cfg etag lastModified).run s := by
  refine Prog.meets_bindE (runs_attempt (runs_read (fun _ _ => rfl) hs (.inl rfl) ?_))
  intro s₁ c _ _ hs₁
  dsimp only [Disk.apply]
  split_ifs
  · exact runs_downloadLoop etag lastModified maxRetries hs₁
  · exact fetched_error hs₁ _

theorem runs_verify {Q : Except UpdateError RuleSetData → Disk → Prop} {bytes : List UInt8}
    (hs : s.own t=[])
    (hok : ∀ data,parseRuleSetData w.env w.cfg.type bytes=some (.ok data) → Q (.ok data) s)
    (herror : ∀ e s',s'.own t=[] → Q (.error e) s') :
    w.Runs t Q (verify w.env w.cfg bytes).run s := by
  have hfail (e : UpdateError) : w.Runs t Q
      (do always (call .removeTmp); throw e : Update UpdateError RuleSetData).run s := by
    refine Prog.meets_bindE (runs_always (runs_removeTmp hs ?_))
    intro s₁ hs₁
    exact herror e s₁ hs₁
  unfold verify
  split
  · rename_i data hparse
    exact hok data hparse
  · exact hfail _
  · exact hfail _

theorem runs_write {path : String} {x : Write} {ws : List Write}
    {f : Unit → Update UpdateError UpdateOutcome} (hs : s.own t=ws)
    (hpart : w.Partly (ws++[x]))
    (herror : ∀ e,e=.createDir ∨ e=.io path → ∃ c : w.Commit,c.Stopped e ws)
    (hnext : ∀ s',s'.own t=ws++[x] → w.Runs t (w.Wrote t) (f ()).run s') :
    w.Runs t (w.Wrote t) (attempt .store (call (.atomicWriteBytes path x)) >>= f).run s := by
  refine Prog.meets_bindE (runs_attempt ?_)
  intro s₁ hrely c _
  have hs₁ : s₁.own t=ws := hrely.own.trans hs
  have hbefore : w.Partly (s₁.own t) := by
    rw [hs₁]
    exact hpart.of_append
  simp only [Disk.apply]
  split_ifs
  · refine ⟨guarantee_write (by rwa [hs₁]),hnext _ ?_⟩
    rw [Disk.own_write_self,hs₁]
  · exact ⟨guarantee_quiet hbefore,.inr (hs₁ ▸ herror _ (.inr rfl))⟩
  · exact ⟨guarantee_quiet hbefore,.inr (hs₁ ▸ herror _ (.inl rfl))⟩

theorem runs_commit {info : DownloadedInfo} {body : List UInt8} {data : RuleSetData}
    {prior : RuleSetFiles} (hs : s.own t=[]) (htmp : s.tmps t=some body)
    (hserved : w.Served body) (hexpected : w.cfg.Expects (w.sha256 body))
    (hsha : info.sha256=w.sha256 body) (hsize : info.size=body.length)
    (hparse : parseRuleSetData w.env w.cfg.type body=some (.ok data)) (hopened : w.Opened)
    (hseen : w.Seen prior) (hchanged : ¬w.Recorded prior body) :
    w.Runs t (w.Wrote t) (commit w.cfg info data).run s := by
  let k (time : String) : w.Commit := {
    bytes := body
    data := data
    metadata := ⟨w.cfg.name,w.cfg.url,w.cfg.type,some time,info.etag,info.lastModified,
      some (w.sha256 body),info.size,.ready⟩
    prior := prior
    served := hserved
    parses := hparse
    expected := hexpected
    seen := hseen
    changed := hchanged
    sha := rfl
    size := hsize }
  have hpart (time : String) {ws : List Write} (h : ws <+: (k time).writes) : w.Partly ws :=
    .inr ⟨k time,h⟩
  refine Prog.meets_bindE (runs_attempt (runs_read (fun _ _ => rfl) hs (.inl rfl) ?_))
  intro s₁ c hrely _ hs₁
  dsimp only [Disk.apply]
  split_ifs
  swap
  · exact wrote_error hs₁ _
  refine Prog.meets_bindE (runs_attempt ?_)
  intro s₂ hrely₂ c₂ _
  have hs₂ : s₂.own t=[] := hrely₂.own.trans hs₁
  rw [Disk.apply_rename (hrely₂.tmp.trans (hrely.tmp.trans htmp))]
  split_ifs
  swap
  · exact ⟨guarantee_quiet (.inl hs₂),.inl hs₂⟩
  have hown : ((s₂.setTmp t none).write t (.data body)).own t=[.data body] := by
    rw [Disk.own_write_self]
    exact congrArg (·++[Write.data body]) hs₂
  refine ⟨(guarantee_setTmp hs₂ none).trans (guarantee_write ?_),?_⟩
  · rw [← Disk.own_write_self,hown]
    exact hpart "" (prefix_append _ _)
  refine runs_write hown ?_ (fun e he => ⟨k "",.inl ⟨he,rfl⟩⟩) ?_
  · exact hpart "" (by rw [hsha]; exact prefix_append _ _)
  intro s₃ hs₃
  refine Prog.meets_bindE (runs_always (runs_read (fun _ _ => rfl) hs₃ ?_ ?_))
  · exact hpart "" (by rw [hsha]; exact prefix_append _ _)
  intro s₄ c₄ _ _ hs₄
  refine runs_write hs₄ ?_ (fun e he => ⟨k "",.inr ⟨he,by rw [hsha]; rfl⟩⟩) ?_
  · exact hpart c₄.time (by rw [hsha]; exact prefix_rfl)
  intro s₅ hs₅
  exact ⟨hopened,k c₄.time,rfl,by rw [hs₅,hsha]; rfl⟩

theorem recorded_iff {f : RuleSetFiles} {prev : Option String} {bytes : List UInt8}
    (h : readChecksum w.cfg.name f=.ok prev) : w.Recorded f bytes ↔
      prev.any (fun prev => eqIgnoreAsciiCase prev (w.sha256 bytes))=true := by
  unfold Recorded
  rw [h]
  cases prev <;> simp

theorem runs_conclude {etag lastModified prevSha : Option String} {info : DownloadedInfo}
    {f : RuleSetFiles} (hfetched : w.Fetched t etag lastModified (.ok info) s)
    (hopened : w.Opened) (hseen : w.Seen f) (hsha : readChecksum w.cfg.name f=.ok prevSha)
    (hskipped : w.Unmodified etag lastModified → w.Skipped) :
    w.Runs t (w.Wrote t) (conclude w.env w.cfg prevSha info).run s := by
  obtain ⟨hs,hinfo⟩ := hfetched
  have hinfo := hinfo info rfl
  unfold conclude
  by_cases hunmodified : info.notModified=true
  · rw [if_pos hunmodified] at hinfo ⊢
    exact ⟨hopened,hskipped hinfo,hs⟩
  rw [if_neg hunmodified] at hinfo ⊢
  obtain ⟨body,htmp,hserved,hexpected,hdigest,hsize⟩ := hinfo
  rw [hdigest]
  split_ifs with hsame
  · refine Prog.meets_bindE (runs_always (runs_removeTmp hs ?_))
    intro s₁ hs₁
    exact ⟨hopened,.inr ⟨f,body,hseen,hserved,hexpected,(recorded_iff hsha).2 hsame⟩,hs₁⟩
  refine Prog.meets_bindE (runs_attempt (runs_read (fun _ _ => rfl) hs (.inl rfl) ?_))
  intro s₁ c₁ hrely₁ _ hs₁
  have htmp₁ : s₁.tmps t=some body := hrely₁.tmp.trans htmp
  cases hread : (Disk.apply w.cfg.name t s₁ .readTmp c₁).1 with
  | error e => exact wrote_error hs₁ _
  | ok bytes =>
  cases Disk.apply_readTmp htmp₁ hread
  refine Prog.meets_bindE (runs_verify hs₁ ?_ ?_)
  · intro data hparse
    exact runs_commit hs₁ htmp₁ hserved hexpected hdigest hsize hparse hopened hseen
      (mt (recorded_iff hsha).1 hsame)
  · intro e s₂ hs₂
    exact wrote_error hs₂ e

theorem runs_updateRuleSet (hs : s.own t=[]) :
    w.Runs t (w.Wrote t) (updateRuleSet w.env w.sha256 w.cfg).run s := by
  refine Prog.meets_bindE (runs_attempt (runs_read (fun _ _ => rfl) hs (.inl rfl) ?_))
  intro s₁ c₁ _ _ hs₁
  cases (Disk.apply w.cfg.name t s₁ .ensureDirs c₁).1 with
  | error e => exact wrote_error hs₁ _
  | ok =>
  refine Prog.meets_bindE (runs_attempt (runs_read (fun _ _ => rfl) hs₁ (.inl rfl) ?_))
  intro s₂ c₂ hrely₂ _ hs₂
  cases hmeta : (Disk.apply w.cfg.name t s₂ .readMeta c₂).1 with
  | error e => exact wrote_error hs₂ _
  | ok prevMeta =>
  refine Prog.meets_bindE (runs_attempt (runs_read (fun _ _ => rfl) hs₂ (.inl rfl) ?_))
  intro s₃ c₃ hrely₃ _ hs₃
  cases hsha : (Disk.apply w.cfg.name t s₃ .readChecksum c₃).1 with
  | error e => exact wrote_error hs₃ _
  | ok prevSha =>
  have hmeta := Disk.apply_readMeta hmeta
  have hsha := Disk.apply_readChecksum hsha
  have hopened : w.Opened :=
    ⟨⟨s₂.files,prevMeta,hrely₂.seen hs₂,hmeta⟩,s₃.files,prevSha,hrely₃.seen hs₃,hsha⟩
  refine Prog.meets_bindE (runs_attempt ((runs_downloadImpl _ _ hs₃).mono ?_))
  intro r s₄ hfetched
  cases r with
  | error e => exact wrote_error hfetched.1 _
  | ok info =>
  refine runs_conclude hfetched hopened (hrely₃.seen hs₃) hsha ?_
  intro hunmodified
  exact .inl ⟨s₂.files,prevMeta,hrely₂.seen hs₂,hmeta,hunmodified⟩

theorem Commit.prefix_cases {c : w.Commit} {ws : List Write} (h : ws <+: c.writes) :
    ws=[] ∨ ws=[.data c.bytes] ∨
      ws=[.data c.bytes,.checksum (w.sha256 c.bytes ++ "\n")] ∨ ws=c.writes := by
  unfold Commit.writes at h ⊢
  simp only [prefix_cons_iff,prefix_nil] at h
  rcases h with rfl | ⟨ws,rfl,rfl | ⟨ws,rfl,rfl | ⟨ws,rfl,rfl⟩⟩⟩ <;> simp

end Spec

end Setting

def updateAlone (env : Env) (sha256 : List UInt8 → String) (cfg : RuleSetConfig)
    (base : RuleSetFiles) (tmps : Nat → Option (List UInt8)) (cs : List Choice) :
    Prog Op Op.Res (Except UpdateError UpdateOutcome)×Disk :=
  Prog.run (Disk.apply cfg.name 0) ((updateRuleSet env sha256 cfg).run,⟨base,[],tmps⟩) cs

theorem Disk.mem_own {s : Disk} {x : Nat×Write} (h : x∈s.writes) : x.2∈s.own x.1 := by
  simp only [Disk.own,mem_map,mem_filter]
  exact ⟨x,⟨h,by simp⟩,rfl⟩

theorem Disk.writes_alone {s : Disk} {t : Nat} (h : ∀ u,u≠t → s.own u=[]) :
    s.writes.map Prod.snd=s.own t := by
  have hall : ∀ x∈s.writes,decide (x.1=t)=true := by
    intro x hx
    by_contra hne
    have hmem := Disk.mem_own hx
    rw [h x.1 (by simpa using hne)] at hmem
    exact absurd hmem not_mem_nil
  rw [Disk.own,filter_eq_self.2 hall]

theorem updateAlone_spec (w : Setting) {base : RuleSetFiles} {cs : List Choice}
    (hseen : w.Seen base) (hcs : ∀ c∈cs,w.Happens c) (tmps : Nat → Option (List UInt8)) :
    let x := updateAlone w.env w.sha256 w.cfg base tmps cs
    x.2.files=(x.2.own 0).foldl RuleSetFiles.put base ∧
      x.2.writes.length=(x.2.own 0).length ∧ w.Partly (x.2.own 0) ∧
      ∀ r,x.1=.done r → w.Wrote 0 r x.2 := by
  let I (s : Disk) : Prop := s.base=base ∧ (∀ u,u≠0 → s.own u=[]) ∧ w.Partly (s.own 0)
  have hfiles (s : Disk) (hs : I s) : s.files=(s.own 0).foldl RuleSetFiles.put base := by
    rw [Disk.files,Disk.writes_alone hs.2.1,hs.1]
  have hrefl (s : Disk) (hs : I s) : w.Rely 0 s s := by
    refine ⟨rfl,rfl,rfl,?_⟩
    intro hown
    rw [hfiles s hs,hown]
    exact hseen
  have hkeep (s s' : Disk) (hstep : w.Guarantee 0 s s') (hs : I s) : I s' :=
    ⟨hstep.base.trans hs.1,fun u hu => (hstep.others u hu).2.trans (hs.2.1 u hu),hstep.own⟩
  have hstart : I ⟨base,[],tmps⟩ := ⟨rfl,fun _ _ => rfl,.inl rfl⟩
  have hruns : w.Runs 0 (w.Wrote 0) (updateRuleSet w.env w.sha256 w.cfg).run ⟨base,[],tmps⟩ :=
    Setting.runs_updateRuleSet rfl
  obtain ⟨hI,hend⟩ := hruns.run hrefl hstart hkeep hcs
  have hlength := congrArg List.length (Disk.writes_alone hI.2.1)
  rw [length_map] at hlength
  exact ⟨hfiles _ hI,hlength,hI.2.2,hend⟩

/-- Whatever the server answers, whichever call fails and wherever the update is left, the data file
is the old one or a whole served body that parses and has the expected checksum. The files are
unchanged unless a write was reached; a store error stops at the path that it names; new data has
its checksum recorded. -/
theorem update_frame (env : Env) (sha256 : List UInt8 → String) (cfg : RuleSetConfig)
    (base : RuleSetFiles) (tmps : Nat → Option (List UInt8)) (cs : List Choice) :
    let w : Setting := ⟨env,sha256,cfg,(·∈cs),(·=base)⟩
    let x := updateAlone env sha256 cfg base tmps cs
    (x.2.files.data=base.data ∨ ∃ bytes data,x.2.files.data=.content bytes ∧
      w.Served bytes ∧ parseRuleSetData env cfg.type bytes=some (.ok data) ∧
      cfg.Expects (sha256 bytes)) ∧
    ∀ r,x.1=.done r →
      match r with
      | .ok (.updated data) => ∃ bytes metadata,w.Served bytes ∧ cfg.Expects (sha256 bytes) ∧
        parseRuleSetData env cfg.type bytes=some (.ok data) ∧
        metadata.sha256=some (sha256 bytes) ∧ metadata.size=bytes.length ∧
        x.2.files=⟨.content bytes,.content (sha256 bytes ++ "\n"),.content (.ok metadata)⟩
      | .error (.store e) => x.2.files=base ∨ ∃ bytes data,w.Served bytes ∧
        cfg.Expects (sha256 bytes) ∧ parseRuleSetData env cfg.type bytes=some (.ok data) ∧
        ((e=.createDir ∨ e=.io (checksumFilePath cfg.name)) ∧
            x.2.files={ base with data := .content bytes } ∨
          (e=.createDir ∨ e=.io (metaFilePath cfg.name)) ∧
            x.2.files=⟨.content bytes,.content (sha256 bytes ++ "\n"),base.metadata⟩)
      | _ => x.2.files=base := by
  intro w x
  obtain ⟨hfiles,-,hpart,hend⟩ : x.2.files=_ ∧ _ ∧ _ ∧ _ :=
    updateAlone_spec w rfl (fun _ hc => hc) tmps
  constructor
  · rcases hpart with hown | ⟨c,hown⟩
    · exact .inl (by rw [hfiles,hown]; rfl)
    · rcases c.prefix_cases hown with hown | hown | hown | hown
      · exact .inl (by rw [hfiles,hown]; rfl)
      all_goals
        exact .inr ⟨c.bytes,c.data,by rw [hfiles,hown]; rfl,c.served,c.parses,c.expected⟩
  · intro r hr
    have hwrote := hend r hr
    have hbase (hown : x.2.own 0=[]) : x.2.files=base := by rw [hfiles,hown]; rfl
    rcases r with (e | e | e) | (data | _)
    · exact hbase hwrote
    · rcases hwrote with hown | ⟨c,hstopped⟩
      · exact .inl (hbase hown)
      · refine .inr ⟨c.bytes,c.data,c.served,c.expected,c.parses,?_⟩
        refine hstopped.imp (And.imp_right fun hown => ?_) (And.imp_right fun hown => ?_)
        all_goals rw [hfiles,hown]; rfl
    · exact hbase hwrote
    · obtain ⟨-,c,rfl,hown⟩ := hwrote
      refine ⟨c.bytes,c.metadata,c.served,c.expected,c.parses,c.sha,c.size,?_⟩
      rw [hfiles,hown]
      rfl
    · exact hbase hwrote.2.2

end DaeRs.RuleSet
