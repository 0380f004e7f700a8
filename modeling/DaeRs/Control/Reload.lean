import DaeRs.Control.MapWrites
import DaeRs.Config.Validator
import DaeRs.Routing.EntryIndex
import DaeRs.Routing.Matcher

/-! `ControlPlane`: startup, `reload_config` and the reloads after a rule set update. -/

namespace DaeRs.Control

open Net RuleSet Bpf Routing Config List

/-- The fields of `Config` that a reload replaces. -/
structure HotConfig where
  proxyAddr : String
  proxyUsername : String
  proxyPassword : String
  proxyDialTimeoutMs : Nat
  logLevel : String
  deriving DecidableEq

def HotConfig.update (h : HotConfig) (c : DaefileConfig) : HotConfig :=
  let h := match c.nodes.head? with
    | some node =>
      { h with
        proxyAddr := node.address
        proxyUsername := node.username.getD ""
        proxyPassword := node.password.getD ""
        proxyDialTimeoutMs := node.dialTimeoutMs }
    | none => h
  { h with logLevel := c.runtime.logLevel }

/-- The addresses leave a `HashSet` in some order. -/
def collectProxyServerIps (order : List IpAddr → List IpAddr) (config : HotConfig)
    (outbounds : OutboundsConfig) : List IpAddr :=
  order ((config.proxyAddr::outbounds.nodes.map (·.address)).filterMap
    fun addr => (parseSocketAddr addr).map Prod.fst).dedup

/-- `consumerMatcher` is the `Arc` that the handoff consumer was started with; `ebpf` holds the
maps of the loaded program. -/
structure ControlPlane where
  config : HotConfig
  daefileConfig : Option DaefileConfig
  daefileContent : Option String
  ruleSetCache : RuleSetCache
  reloadSignalled : Bool
  datapathGeneration : UInt16
  currentEpochSlot : Nat
  ebpf : Option Maps
  compiledRouting : Option CompiledRouting
  routingMatcher : Option RoutingMatcher
  consumerMatcher : Option RoutingMatcher

inductive ReloadError where
  | parse (e : Error)
  | invalid (e : ConfigError)
  | compile (e : Error)
  | write (e : Error)
  deriving DecidableEq

/-- What the environment decides about a reload: the order of a `HashSet`, the outcome of each map
operation, and the addresses whose entries are deleted. -/
structure ReloadOutcome where
  order : List IpAddr → List IpAddr
  clearedNext : List Bytes16
  rules : RulesOutcome
  cidr : CidrOutcome
  epochUpdated : Bool
  clearedPrev : List Bytes16

def reloadWrites (compiled : CompiledRouting) (nextSlot prevSlot : Nat) (o : ReloadOutcome) :
    Calls Unit := do
  Calls.clearDomainRoutingSlot nextSlot o.clearedNext
  (if compiled.matchSets.isEmpty then pure ()
    else Calls.writeRoutingRules compiled.matchSets nextSlot o.rules)
  let entries := allCidrEntries compiled.lpmTries
  Logged.ignore (if entries.isEmpty then pure () else Calls.writeCidrTable entries nextSlot o.cidr)
  Logged.ignore (Calls.updateActiveRoutingEpoch nextSlot o.epochUpdated)
  Calls.clearDomainRoutingSlot prevSlot o.clearedPrev

/-- What the environment decides about the startup. -/
structure StartOutcome where
  order : List IpAddr → List IpAddr
  rules : RulesOutcome
  cidr : CidrOutcome
  epochUpdated : Bool

def StartOutcome.toReload (o : StartOutcome) : ReloadOutcome :=
  ⟨o.order,[],o.rules,o.cidr,o.epochUpdated,[]⟩

def startWrites (compiled : CompiledRouting) (initSlot : Nat) (o : StartOutcome) : Calls Unit := do
  (if compiled.matchSets.isEmpty then pure ()
    else Calls.writeRoutingRules compiled.matchSets initSlot o.rules)
  let entries := allCidrEntries compiled.lpmTries
  (if entries.isEmpty then pure () else Calls.writeCidrTable entries initSlot o.cidr)
  Logged.ignore (Calls.updateActiveRoutingEpoch initSlot o.epochUpdated)

namespace ControlPlane

def new (config : HotConfig) (daefileConfig : Option DaefileConfig)
    (daefileContent : Option String) (ruleSetCache : RuleSetCache) : ControlPlane where
  config
  daefileConfig
  daefileContent
  ruleSetCache
  reloadSignalled := false
  datapathGeneration := 0
  currentEpochSlot := 0
  ebpf := none
  compiledRouting := none
  routingMatcher := none
  consumerMatcher := none

def accept (s : ControlPlane) (text : String) (c : DaefileConfig) : ControlPlane := { s with
    daefileConfig := some c
    daefileContent := some text
    config := s.config.update c }

def compile (env : Env) (s : ControlPlane) (c : DaefileConfig)
    (order : List IpAddr → List IpAddr) : Except Error CompiledRouting :=
  compileRules env (some s.ruleSetCache) c.routing c.outbounds
    (collectProxyServerIps order s.config c.outbounds)

def launch (checks : Bool) (s : ControlPlane) (compiled : CompiledRouting) (o : StartOutcome) :
    Except Error ControlPlane := do
  let calls := startWrites compiled s.currentEpochSlot o
  calls.result
  match RoutingMatcher.fromCompiled checks compiled with
  | none => fail "attempt to shift left with overflow"
  | some matcher =>
    pure { s with
      ebpf := some (calls.log.foldl MapWrite.apply loadedMaps)
      compiledRouting := some compiled
      routingMatcher := some matcher
      consumerMatcher := some matcher }

def start (env : Env) (checks : Bool) (s : ControlPlane) (o : StartOutcome) :
    Except Error ControlPlane :=
  match s.compiledRouting,s.daefileConfig with
  | some compiled,_ => s.launch checks compiled o
  | none,some dc => do
    let compiled ← withContext "Failed to compile routing rules" (s.compile env dc o.order)
    s.launch checks compiled o
  | none,none => pure { s with ebpf := some loadedMaps }

def nextEpochSlot (s : ControlPlane) : Nat := (s.currentEpochSlot+1)%routingEpochSlotNum

def install (s : ControlPlane) (compiled : CompiledRouting) (o : ReloadOutcome) :
    ControlPlane×Except ReloadError Unit :=
  let s' := { s with datapathGeneration := s.datapathGeneration+1 }
  match s.ebpf with
  | none => ({ s' with currentEpochSlot := s.nextEpochSlot },.ok ())
  | some m =>
    let calls := reloadWrites compiled s.nextEpochSlot s.currentEpochSlot o
    let s' := { s' with ebpf := some (calls.log.foldl MapWrite.apply m) }
    match calls.result with
    | .error e => (s',.error (.write e))
    | .ok () => ({ s' with currentEpochSlot := s.nextEpochSlot },.ok ())

section Reload

variable (env : Env) (parseDaefile : String → Except Error DaefileConfig)

def reloadConfig (s : ControlPlane) (text : String) (o : ReloadOutcome) :
    ControlPlane×Except ReloadError Unit :=
  match parseDaefile text with
  | .error e => (s,.error (.parse e))
  | .ok c =>
    match validateConfig env c with
    | .error e => (s,.error (.invalid e))
    | .ok () =>
      match (s.accept text c).compile env c o.order with
      | .error e => (s.accept text c,.error (.compile e))
      | .ok compiled => (s.accept text c).install compiled o

def Accepted (text : String) (c : DaefileConfig) : Prop :=
  parseDaefile text=.ok c ∧ validateConfig env c=.ok ()

variable {env parseDaefile} {s : ControlPlane} {text : String} {o : ReloadOutcome}

theorem reloadConfig_rejected (h : ∀ c,¬Accepted env parseDaefile text c) :
    ∃ e,reloadConfig env parseDaefile s text o=(s,.error e) := by
  unfold reloadConfig
  cases hparse : parseDaefile text with
  | error e => exact ⟨_,rfl⟩
  | ok c =>
    cases hvalid : validateConfig env c with
    | error e => exact ⟨.invalid e,by simp [hvalid]⟩
    | ok u => exact absurd ⟨hparse,hvalid⟩ (h c)

theorem reloadConfig_uncompiled {c : DaefileConfig} (h : Accepted env parseDaefile text c)
    {e : Error} (he : (s.accept text c).compile env c o.order=.error e) :
    reloadConfig env parseDaefile s text o=(s.accept text c,.error (.compile e)) := by
  simp only [reloadConfig,h.1,h.2,he]

theorem reloadConfig_compiled {c : DaefileConfig} (h : Accepted env parseDaefile text c)
    {compiled : CompiledRouting} (hc : (s.accept text c).compile env c o.order=.ok compiled) :
    reloadConfig env parseDaefile s text o=(s.accept text c).install compiled o := by
  simp only [reloadConfig,h.1,h.2,hc]

end Reload

end ControlPlane

/-- What the rest of a reload relies on: there are rules, and everything fits into a slot. -/
structure Fits (c : CompiledRouting) : Prop where
  matchSets_ne : c.matchSets≠[]
  matchSets_le : c.matchSets.length ≤ maxMatchSetLen
  lpmTries_lt : c.lpmTries.length < maxMatchSetLen
  index_lt : ∀ ms∈c.matchSets,∀ i,lpmIndex ms.value=some i → i.toNat < c.lpmTries.length

theorem Fits.not_isEmpty {c : CompiledRouting} (hc : Fits c) : ¬c.matchSets.isEmpty=true := by
  simpa using hc.matchSets_ne

theorem compileRules_fits {env : Env} {cache : Option RuleSetCache} {routing : RoutingConfig}
    {outbounds : OutboundsConfig} {ips : List IpAddr} {c : CompiledRouting}
    (h : compileRules env cache routing outbounds ips=.ok c) : Fits c := by
  obtain ⟨t,ht,rfl⟩ := Fallible.map_ok_iff.mp h
  have hc := compileTrace_spec ht
  refine ⟨?_,hc.matchSets_le,hc.tries_lt,fun ms hms i hi => hc.index_lt hms hi⟩
  rw [hc.matchSets]
  simp

section Writes

variable {c : CompiledRouting} {next : Nat} {o : ReloadOutcome}

theorem Fits.entries_lt (hc : Fits c) :
    ∀ idx∈(allCidrEntries c.lpmTries).map Prod.fst,idx < maxMatchSetLen := by
  intro idx hidx
  rw [mem_allCidrEntries] at hidx
  by_contra hge
  have hlt := hc.lpmTries_lt
  apply hidx
  rw [getD_eq_getElem?_getD,getElem?_eq_none (by omega)]
  rfl

theorem mem_clear {slot : Nat} {deleted : List Bytes16} {w : MapWrite}
    (h : w∈(Calls.clearDomainRoutingSlot slot deleted).log) : InSlot slot w.loc := by
  obtain ⟨ip,-,rfl⟩ := mem_map.mp h
  rfl

theorem reloadWrites_failed (prev : Nat) (hc : Fits c) (hnext : next < routingEpochSlotNum)
    (h : ¬o.rules.Succeeds) :
    (∃ e,(reloadWrites c next prev o).result=.error e) ∧
      ∀ w∈(reloadWrites c next prev o).log,InSlot next w.loc := by
  obtain ⟨e,he⟩ : ∃ e,(Calls.writeRoutingRules c.matchSets next o.rules).result=.error e := by
    cases hres : (Calls.writeRoutingRules c.matchSets next o.rules).result with
    | error e => exact ⟨e,rfl⟩
    | ok u => exact absurd ((Calls.writeRoutingRules_result hnext c.matchSets o.rules).mp hres) h
  unfold reloadWrites
  rw [if_neg hc.not_isEmpty]
  constructor
  · refine ⟨e,?_⟩
    rw [Logged.bind_result,Logged.bind_result,he]
    rfl
  · intro w hw
    rw [Logged.bind_log_ok rfl,Logged.bind_log_error he,mem_append] at hw
    rcases hw with hw | hw
    · exact mem_clear hw
    · exact Calls.mem_writeRoutingRules hw

def fillWrites (c : CompiledRouting) (next : Nat) (o : ReloadOutcome) : List MapWrite :=
  o.clearedNext.map (.forget next)++((Calls.writeRoutingRules c.matchSets next o.rules).log ++
    (Calls.writeCidrTable (allCidrEntries c.lpmTries) next o.cidr).log)

theorem mem_fillWrites (hc : Fits c) {w : MapWrite} (h : w∈fillWrites c next o) :
    InSlot next w.loc := by
  rw [fillWrites,mem_append,mem_append] at h
  rcases h with h | h | h
  · exact mem_clear h
  · exact Calls.mem_writeRoutingRules h
  · exact Calls.mem_writeCidrTable hc.entries_lt h

theorem table_log (hnext : next < routingEpochSlotNum) (co : CidrOutcome) :
    (if (allCidrEntries c.lpmTries).isEmpty then pure ()
      else Calls.writeCidrTable (allCidrEntries c.lpmTries) next co).log =
      (Calls.writeCidrTable (allCidrEntries c.lpmTries) next co).log := by
  split_ifs with hempty
  · rw [Calls.writeCidrTable,routingEpochSlotBase,if_neg (by omega),Logged.bind_log_ok rfl,
      if_pos hempty]
    rfl
  · rfl

theorem epoch_log (updated : Bool) : (Calls.updateActiveRoutingEpoch next updated).log =
    if updated then [.epoch next] else [] := by
  rw [Calls.updateActiveRoutingEpoch,Logged.perform]
  split_ifs <;> rfl

theorem reloadWrites_succeeded (prev : Nat) (hc : Fits c) (hnext : next < routingEpochSlotNum)
    (h : o.rules.Succeeds) :
    (reloadWrites c next prev o).result=.ok () ∧ (reloadWrites c next prev o).log =
      fillWrites c next o++((if o.epochUpdated then [.epoch next] else []) ++
        o.clearedPrev.map (.forget prev)) := by
  have hrules := (Calls.writeRoutingRules_result hnext c.matchSets o.rules).mpr h
  unfold reloadWrites fillWrites
  rw [if_neg hc.not_isEmpty]
  constructor
  · rw [Logged.bind_result,Logged.bind_result,hrules]
    rfl
  · rw [Logged.bind_log_ok rfl,Logged.bind_log_ok hrules,Logged.bind_log_ok rfl,
      Logged.bind_log_ok rfl]
    simp only [Logged.ignore,table_log hnext,epoch_log,Calls.clearDomainRoutingSlot,append_assoc]

theorem startWrites_succeeded (hc : Fits c) (hnext : next < routingEpochSlotNum)
    {so : StartOutcome} (h : (startWrites c next so).result=.ok ()) :
    (startWrites c next so).log=fillWrites c next so.toReload ++
      if so.epochUpdated then [.epoch next] else [] := by
  unfold startWrites at h ⊢
  rw [if_neg hc.not_isEmpty] at h ⊢
  rw [Logged.bind_result,Fallible.seq_ok_iff,Logged.bind_result,Fallible.seq_ok_iff] at h
  rw [Logged.bind_log_ok h.1,Logged.bind_log_ok h.2.1,table_log hnext]
  simp only [Logged.ignore,epoch_log,fillWrites,StartOutcome.toReload,map_nil,
    nil_append,append_assoc]

end Writes

namespace ControlPlane

variable {env : Env} {parseDaefile : String → Except Error DaefileConfig} {s : ControlPlane}
  {text : String} {o : ReloadOutcome} {c : CompiledRouting} {m : Maps}

theorem nextEpochSlot_lt (s : ControlPlane) : s.nextEpochSlot < routingEpochSlotNum :=
  Nat.mod_lt _ (by decide)

theorem compile_fits {dc : DaefileConfig} {order : List IpAddr → List IpAddr}
    (h : s.compile env dc order=.ok c) : Fits c := compileRules_fits h

theorem install_unloaded (hm : s.ebpf=none) : s.install c o=({ s with
      datapathGeneration := s.datapathGeneration+1
      currentEpochSlot := s.nextEpochSlot },.ok ()) := by
  simp only [install,hm]

theorem install_failed (hm : s.ebpf=some m) (hc : Fits c) (h : ¬o.rules.Succeeds) :
    ∃ e,s.install c o=({ s with
      datapathGeneration := s.datapathGeneration+1
      ebpf := some ((reloadWrites c s.nextEpochSlot s.currentEpochSlot o).log.foldl
        MapWrite.apply m) },.error (.write e)) := by
  obtain ⟨⟨e,he⟩,-⟩ := reloadWrites_failed s.currentEpochSlot hc s.nextEpochSlot_lt h
  exact ⟨e,by simp only [install,hm,he]⟩

theorem install_succeeded (hm : s.ebpf=some m) (hc : Fits c) (h : o.rules.Succeeds) :
    s.install c o=({ s with
      datapathGeneration := s.datapathGeneration+1
      ebpf := some ((reloadWrites c s.nextEpochSlot s.currentEpochSlot o).log.foldl
        MapWrite.apply m)
      currentEpochSlot := s.nextEpochSlot },.ok ()) := by
  have hok := (reloadWrites_succeeded s.currentEpochSlot hc s.nextEpochSlot_lt h).1
  simp only [install,hm,hok]

variable {checks : Bool} {so : StartOutcome} {s' : ControlPlane}

theorem launch_ok (h : s.launch checks c so=.ok s') :
    (startWrites c s.currentEpochSlot so).result=.ok () ∧
      ∃ matcher,RoutingMatcher.fromCompiled checks c=some matcher ∧ s'={ s with
        ebpf := some ((startWrites c s.currentEpochSlot so).log.foldl MapWrite.apply loadedMaps)
        compiledRouting := some c
        routingMatcher := some matcher
        consumerMatcher := some matcher } := by
  obtain ⟨hwrites,h⟩ := Fallible.seq_ok_iff.mp h
  refine ⟨hwrites,?_⟩
  cases hmatcher : RoutingMatcher.fromCompiled checks c with
  | none =>
    rw [hmatcher] at h
    cases h
  | some matcher =>
    rw [hmatcher] at h
    cases h
    exact ⟨matcher,rfl,rfl⟩

theorem start_ok {config : HotConfig} {daefile : Option DaefileConfig} {content : Option String}
    {cache : RuleSetCache} (h : start env checks (new config daefile content cache) so=.ok s') :
    (∃ dc c,(new config daefile content cache).compile env dc so.order=.ok c ∧
        (new config daefile content cache).launch checks c so=.ok s') ∨
      s'={ new config daefile content cache with ebpf := some loadedMaps } := by
  unfold start at h
  cases daefile with
  | none =>
    cases h
    exact .inr rfl
  | some dc =>
    obtain ⟨c,hcomp,hlaunch⟩ := Fallible.bind_ok_iff.mp h
    rw [withContext_ok] at hcomp
    exact .inl ⟨dc,c,hcomp,hlaunch⟩

end ControlPlane

section Atomicity

open ControlPlane

def SameActiveSlot (m m' : Maps) : Prop := m'.activeRoutingEpochMap=m.activeRoutingEpochMap ∧
    ∀ l,InSlot m.activeRoutingEpochMap l → m'.get l=m.get l

/-- What a failed reload should leave as it was. -/
structure Unchanged (s s' : ControlPlane) : Prop where
  daefileConfig : s'.daefileConfig=s.daefileConfig
  daefileContent : s'.daefileContent=s.daefileContent
  proxyAddr : s'.config.proxyAddr=s.config.proxyAddr
  proxyUsername : s'.config.proxyUsername=s.config.proxyUsername
  proxyPassword : s'.config.proxyPassword=s.config.proxyPassword
  proxyDialTimeoutMs : s'.config.proxyDialTimeoutMs=s.config.proxyDialTimeoutMs
  datapathGeneration : s'.datapathGeneration=s.datapathGeneration
  currentEpochSlot : s'.currentEpochSlot=s.currentEpochSlot
  activeSlot : ∀ m,s.ebpf=some m → ∃ m',s'.ebpf=some m' ∧ SameActiveSlot m m'

theorem Unchanged.refl (s : ControlPlane) : Unchanged s s :=
  ⟨rfl,rfl,rfl,rfl,rfl,rfl,rfl,rfl,fun m hm => ⟨m,hm,rfl,fun _ _ => rfl⟩⟩

/-- The configuration is stored already, with the proxy fields taken from it. -/
structure Stored (s : ControlPlane) (text : String) (c : DaefileConfig) : Prop where
  daefileConfig : s.daefileConfig=some c
  daefileContent : s.daefileContent=some text
  proxyAddr : (s.config.update c).proxyAddr=s.config.proxyAddr
  proxyUsername : (s.config.update c).proxyUsername=s.config.proxyUsername
  proxyPassword : (s.config.update c).proxyPassword=s.config.proxyPassword
  proxyDialTimeoutMs : (s.config.update c).proxyDialTimeoutMs=s.config.proxyDialTimeoutMs

variable {s : ControlPlane} {text : String}

theorem unchanged_accept_iff {c : DaefileConfig} :
    Unchanged s (s.accept text c) ↔ Stored s text c := by
  constructor
  · intro h
    exact ⟨h.daefileConfig.symm,h.daefileContent.symm,h.proxyAddr,h.proxyUsername,
      h.proxyPassword,h.proxyDialTimeoutMs⟩
  · intro h
    exact ⟨h.daefileConfig.symm,h.daefileContent.symm,h.proxyAddr,h.proxyUsername,
      h.proxyPassword,h.proxyDialTimeoutMs,rfl,rfl,fun m hm => ⟨m,hm,rfl,fun _ _ => rfl⟩⟩

theorem generation_ne (g : UInt16) : g+1≠g := by
  intro h
  have hval : (g+1).toNat=g.toNat := by rw [h]
  rw [UInt16.toNat_add] at hval
  have hlt := g.toNat_lt
  have hone : (1 : UInt16).toNat=1 := rfl
  omega

/-- A failed reload leaves everything as it was exactly when, for a valid text, the rules do not
compile and the text is stored already, or they compile and can be written. -/
theorem reload_error_unchanged_iff (env : Env)
    (parseDaefile : String → Except Error DaefileConfig) (s : ControlPlane) (text : String)
    (o : ReloadOutcome) :
    (∀ s' e,reloadConfig env parseDaefile s text o=(s',.error e) → Unchanged s s') ↔
      ∀ c,Accepted env parseDaefile text c →
        (∀ e,(s.accept text c).compile env c o.order=.error e → Stored s text c) ∧
        (∀ compiled,(s.accept text c).compile env c o.order=.ok compiled →
          s.ebpf≠none → o.rules.Succeeds) := by
  constructor
  · intro h c hacc
    constructor
    · intro e he
      exact unchanged_accept_iff.mp (h _ _ (reloadConfig_uncompiled hacc he))
    · intro compiled hcomp hloaded
      by_contra hfail
      obtain ⟨m,hm⟩ := Option.ne_none_iff_exists'.mp hloaded
      have hm' : (s.accept text c).ebpf=some m := hm
      obtain ⟨e,hinst⟩ := install_failed hm' (compile_fits hcomp) hfail
      have hgen := (h _ _ ((reloadConfig_compiled hacc hcomp).trans hinst)).datapathGeneration
      exact generation_ne _ hgen
  · intro h s' e hres
    by_cases hacc : ∃ c,Accepted env parseDaefile text c
    · obtain ⟨c,hacc⟩ := hacc
      cases hcomp : (s.accept text c).compile env c o.order with
      | error e' =>
        rw [reloadConfig_uncompiled hacc hcomp] at hres
        cases hres
        exact unchanged_accept_iff.mpr ((h c hacc).1 e' hcomp)
      | ok compiled =>
        -- a reload that gets this far returns no error
        rw [reloadConfig_compiled hacc hcomp] at hres
        cases hm : s.ebpf with
        | none =>
          have hm' : (s.accept text c).ebpf=none := hm
          rw [install_unloaded hm'] at hres
          cases hres
        | some m =>
          have hok := (h c hacc).2 compiled hcomp (by simp [hm])
          have hm' : (s.accept text c).ebpf=some m := hm
          rw [install_succeeded hm' (compile_fits hcomp) hok] at hres
          cases hres
    · push Not at hacc
      obtain ⟨e',he'⟩ := reloadConfig_rejected (s := s) (o := o) hacc
      rw [he'] at hres
      cases hres
      exact Unchanged.refl s

def daefileText (address routing : String) : String :=
  "outbounds \x7b\nnodes \x7b\nn \x7b\nprotocol: socks5\naddress: " ++ address ++
    "\n\x7d\n\x7d\ngroups \x7b\ng \x7b\nnodes(n)\n\x7d\n\x7d\n\x7d\nrouting \x7b\n" ++ routing ++
    "\x7d\n"

def daefileConfig (address : String) (routing : RoutingConfig) : DaefileConfig where
  runtime := ⟨15080, "info"⟩
  processExclusion := some ⟨true,30,120,⟨[],[],[]⟩⟩
  nodes := [⟨⟨"n", "socks5",address⟩,none,none,none,none,5000⟩]
  groups := [⟨"g",.auto,none,none,[.list ["n"]]⟩]
  routing := routing
  api := none
  dns := none
  ruleSet := []

def parsesAs (text : String) (c : DaefileConfig) (t : String) : Except Error DaefileConfig :=
  if t=text then .ok c else fail "expected section declaration"

def RulesOutcome.all : RulesOutcome := ⟨true,⟨true,none⟩,fun _ => true,true,true⟩

def CidrOutcome.all : CidrOutcome := ⟨true,fun _ => ⟨true,⟨true,none⟩,fun _ => true,true⟩⟩

def ReloadOutcome.all : ReloadOutcome := ⟨id,[],.all,.all,true,[]⟩

def StartOutcome.all : StartOutcome := ⟨id,.all,.all,true⟩

def noRuleSets : RuleSetCache := ⟨fun _ => none,fun _ => none⟩

/-- A reload whose action is no outbound fails and leaves the new text and proxy address behind; one
whose rule count cannot be written fails and leaves a new generation behind. -/
theorem reload_error_leaves_changes :
    let old := daefileText "192.0.2.1:1080" "fallback: direct\n"
    let bad := daefileText "192.0.2.9:1080" "dport(80) -> nosuch\nfallback: direct\n"
    let s := ControlPlane.new ⟨"192.0.2.1:1080", "", "",5000, "info"⟩
      (some (daefileConfig "192.0.2.1:1080" ⟨[], "direct"⟩)) (some old) noRuleSets
    let uncompiled := reloadConfig Env.empty (parsesAs bad (daefileConfig "192.0.2.9:1080"
      ⟨[⟨"dport(80)", "nosuch"⟩], "direct"⟩)) s bad .all
    let unwritten := reloadConfig Env.empty (parsesAs old (daefileConfig "192.0.2.1:1080"
      ⟨[], "direct"⟩)) { s with ebpf := some loadedMaps } old
      { ReloadOutcome.all with rules := { RulesOutcome.all with metaUpdated := false } }
    (uncompiled.2.toOption=none ∧ uncompiled.1.daefileContent=some bad ∧
      s.daefileContent=some old ∧ uncompiled.1.config.proxyAddr = "192.0.2.9:1080" ∧
      s.config.proxyAddr = "192.0.2.1:1080") ∧
    (unwritten.2.toOption=none ∧ unwritten.1.datapathGeneration=1 ∧
      s.datapathGeneration=0) := by
  decide +kernel

end Atomicity

end DaeRs.Control
