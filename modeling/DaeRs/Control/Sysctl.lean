import DaeRs.Lib.RustStr
import DaeRs.Lib.Runs

/-! The kernel parameters of an interface, which `configure_kernel_if` sets and `restore_kernel_if`
puts back. -/

namespace DaeRs.Control

open RustStr Function List

/-- The files under `/proc/sys`, and `SYSCTL_SNAPSHOT`: an interface without an entry has no
originals. -/
structure Sysctls where
  files : String → String
  snapshot : String → List (String×String)

/-- A call of the manager for an interface. -/
inductive SysctlCall where
  | configure (iface : String)
  | restore (iface : String)
  deriving DecidableEq

def SysctlCall.iface : SysctlCall → String
  | .configure iface => iface
  | .restore iface => iface

namespace Sysctls

def conf (version iface name : String) : String :=
  "/proc/sys/net/ipv" ++ version ++ "/conf/" ++ iface ++ "/" ++ name

/-- What `configure_kernel_if` writes, in its order. -/
def settings (iface : String) : List (String×String) :=
  if startsWith iface "dae" then [(conf "4" iface "rp_filter","0")]
  else
    [(conf "4" iface "send_redirects","0"),(conf "4" iface "forwarding","1"),
      (conf "6" iface "forwarding","1"),(conf "4" iface "rp_filter","2"),
      (conf "4" iface "proxy_arp","1")]

def writeFile (files : String → String) (e : String×String) : String → String :=
  update files e.1 (e.2 ++ "\n")

section Calls

variable (s : Sysctls) (iface : String)

def readSysctl (path : String) : String := trim (s.files path)

/-- The first write wins. -/
def snapshotSysctl (path value : String) : Sysctls :=
  if path∈(s.snapshot iface).map Prod.fst then s
  else {s with snapshot := update s.snapshot iface (s.snapshot iface++[(path,value)])}

def writeSysctlSnapshot (e : String×String) : Sysctls :=
  {s.snapshotSysctl iface e.1 (s.readSysctl e.1) with files := writeFile s.files e}

def configureKernelIf : Sysctls :=
  (settings iface).foldl (fun s e => s.writeSysctlSnapshot iface e) s

/-- `order` is the order in which a hash map gives its entries. -/
def restoreKernelIf (order : List (String×String) → List (String×String)) : Sysctls :=
  ⟨(order (s.snapshot iface)).foldl writeFile s.files,update s.snapshot iface []⟩

end Calls

def step (order : List (String×String) → List (String×String)) (s : Sysctls) :
    SysctlCall → Sysctls
  | .configure iface => s.configureKernelIf iface
  | .restore iface => s.restoreKernelIf iface order

/-- A parameter of the interface, whether the program sets it or not. -/
def IsOf (iface path : String) : Prop :=
  ∃ version∈["4","6"],∃ name : String,'/'∉name.toList ∧ path=conf version iface name

theorem IsOf.unique {i j p : String} (hi : IsOf i p) (hj : IsOf j p) : i=j := by
  have hdir {v n : String} (k : String) (hv : v∈["4","6"]) (hn : '/'∉n.toList) :
      (((conf v k n).toList.drop 24).reverse.dropWhile (· != '/')).tail.reverse=k.toList := by
    have hname : ∀ c∈n.toList.reverse,(c != '/')=true := by
      intro c hc
      simpa using fun h : c = '/' => hn (h ▸ mem_reverse.1 hc)
    unfold conf
    rcases mem_pair.1 hv with rfl | rfl <;> simp [dropWhile_append_of_pos hname]
  obtain ⟨v,hv,n,hn,rfl⟩ := hi
  obtain ⟨w,hw,m,hm,heq⟩ := hj
  rw [← String.toList_inj,← hdir i hv hn,heq,hdir j hw hm]

theorem settings_isOf {i : String} {e : String×String} (he : e∈settings i) : IsOf i e.1 := by
  have hconf (v n x : String) (hv : v∈["4","6"]) (hn : '/'∉n.toList) (h : e=(conf v i n,x)) :
      IsOf i e.1 := ⟨v,hv,n,hn,by rw [h]⟩
  unfold settings at he
  split at he
  · exact hconf _ _ _ (by decide) (by decide) (mem_singleton.1 he)
  · simp only [mem_cons,not_mem_nil,or_false] at he
    rcases he with h | h | h | h | h <;> exact hconf _ _ _ (by decide) (by decide) h

/-- The snapshot has only parameters of its interface. -/
def Sound (s : Sysctls) : Prop := ∀ i,∀ e∈s.snapshot i,IsOf i e.1

/-- To restore the interface is to bring back what it had in `base`. -/
def Owes (base s : Sysctls) (i : String) : Prop :=
  ∀ p,IsOf i p → (∀ v,(p,v)∈s.snapshot i → v=base.readSysctl p) ∧
    ((∀ v,(p,v)∉s.snapshot i) → s.readSysctl p=base.readSysctl p)

variable {base s : Sysctls} {i j p : String} {e : String×String}

theorem configureKernelIf_induct (P : Sysctls → Prop) (hs : P s)
    (hwrite : ∀ s e,IsOf i e.1 → P s → P (s.writeSysctlSnapshot i e)) :
    P (s.configureKernelIf i) := by
  unfold configureKernelIf
  exact foldlRecOn _ _ hs fun t ht e he => hwrite t e (settings_isOf he) ht

theorem writeSysctlSnapshot_owes (h : Owes base s i) : Owes base (s.writeSysctlSnapshot i e) i := by
  intro p hp
  obtain ⟨hold,hnew⟩ := h p hp
  unfold writeSysctlSnapshot snapshotSysctl
  split_ifs with hin
  · refine ⟨hold,fun hno => ?_⟩
    have hne : p≠e.1 := by
      rintro rfl
      simp [hno] at hin
    simpa [readSysctl,writeFile,hne] using hnew hno
  · by_cases hpe : p=e.1
    · subst hpe
      have hno : ∀ v,(e.1,v)∉s.snapshot i := by simpa using hin
      simp [hno,hnew hno]
    · simpa [readSysctl,writeFile,hpe] using h p hp

theorem foldl_writeFile (l : List (String×String)) (f : String → String)
    (hv : ∀ v,(p,v)∈l → v=base.readSysctl p)
    (hf : (∀ v,(p,v)∉l) → trim (f p)=base.readSysctl p) :
    trim (l.foldl writeFile f p)=base.readSysctl p := by
  induction l generalizing f with
  | nil => exact hf (by simp)
  | cons e l ih =>
    refine ih _ (fun v h => hv v (mem_cons_of_mem _ h)) fun hno => ?_
    by_cases hp : p=e.1
    · subst hp
      rw [writeFile,update_self,trim_newline,hv e.2 mem_cons_self]
      exact trim_trim _
    · rw [writeFile,update_of_ne hp]
      refine hf fun v h => ?_
      rcases mem_cons.1 h with rfl | h
      · exact hp rfl
      · exact hno v h

variable {order : List (String×String) → List (String×String)}

theorem Sound.step (h : s.Sound) (c : SysctlCall) : (step order s c).Sound := by
  cases c with
  | configure i =>
    refine configureKernelIf_induct Sound h fun s e he h j => ?_
    unfold writeSysctlSnapshot snapshotSysctl
    split_ifs
    · exact h j
    · by_cases hj : j=i
      · subst hj
        simpa [or_imp,forall_and,he] using h j
      · simpa [hj] using h j
  | restore i =>
    intro j
    by_cases hj : j=i
    · simp [Sysctls.step,restoreKernelIf,hj]
    · simpa [Sysctls.step,restoreKernelIf,hj] using h j

theorem run_sound (h : s.Sound) (cs : List SysctlCall) : (Runs.run (step order) s cs).Sound :=
  Runs.run_invariant (fun _ c h => h.step c) h cs

section Order

variable (horder : ∀ l,(order l).Perm l)
include horder

theorem step_other (h : s.Sound) {c : SysctlCall} (hj : j≠c.iface) (hp : IsOf j p) :
    (step order s c).files p=s.files p ∧ (step order s c).snapshot j=s.snapshot j := by
  have hne {i : String} (hj : j≠i) {e : String×String} (he : IsOf i e.1) : p≠e.1 := by
    rintro rfl
    exact hj (hp.unique he)
  cases c with
  | configure i =>
    refine configureKernelIf_induct (fun t => t.files p=s.files p ∧ t.snapshot j=s.snapshot j)
      ⟨rfl,rfl⟩ fun t e he ht => ?_
    rw [← ht.1,← ht.2]
    have hpe := hne hj he
    unfold writeSysctlSnapshot snapshotSysctl
    split_ifs <;> simp_all [writeFile,SysctlCall.iface]
  | restore i =>
    refine ⟨?_,update_of_ne hj _ _⟩
    refine foldlRecOn (motive := fun f : String → String => f p=s.files p) _ writeFile rfl
      fun f hf e he => ?_
    rw [writeFile,update_of_ne (hne hj (h i e ((horder _).mem_iff.1 he))),hf]

theorem run_owes {cs : List SysctlCall} (hcs : .restore i∉cs) (h : s.Sound)
    (howes : Owes base s i) : Owes base (Runs.run (step order) s cs) i := by
  induction cs generalizing s with
  | nil => exact howes
  | cons c cs ih =>
    rw [mem_cons,not_or] at hcs
    refine ih hcs.2 (h.step c) ?_
    by_cases hc : i=c.iface
    · subst hc
      cases c with
      | configure k =>
        exact configureKernelIf_induct (Owes base · k) howes
          fun t e _ ht => writeSysctlSnapshot_owes ht
      | restore k => exact absurd rfl hcs.1
    · intro p hp
      obtain ⟨hfile,hsnap⟩ := step_other horder h hc hp
      simpa [readSysctl,hfile,hsnap] using howes p hp

theorem run_snapshot (h : s.Sound) (hi : s.snapshot i=[]) {cs : List SysctlCall}
    (hcs : ∀ xs ys,cs=xs++.configure i::ys → .restore i∈ys) :
    (Runs.run (step order) s cs).snapshot i=[] := by
  induction cs using reverseRecOn with
  | nil => exact hi
  | append_singleton cs c ih =>
    rw [Runs.run_append]
    by_cases hc : i=c.iface
    · subst hc
      cases c with
      | configure k => simpa using hcs cs [] rfl
      | restore k => exact update_self _ _ _
    · have hp : IsOf i (conf "4" i "") := ⟨"4",by decide,"",by decide,rfl⟩
      refine (step_other horder (run_sound h cs) hc hp).2.trans (ih fun xs ys hxs => ?_)
      have hmem := hcs xs (ys++[c]) (by simp [hxs])
      refine (mem_append.1 hmem).resolve_right fun hmem => hc ?_
      rw [← mem_singleton.1 hmem]
      rfl

/-- `mid` has the calls between the first `configure_kernel_if` and the next `restore_kernel_if` of
the interface. Its parameters are left as they were, and no call changes one of another interface.
-/
theorem restored (files : String → String) {before mid : List SysctlCall}
    (hbefore : ∀ xs ys,before=xs++.configure i::ys → .restore i∈ys) (hmid : .restore i∉mid) :
    let s := Runs.run (step order) ⟨files,fun _ => []⟩
    (∀ p,IsOf i p → (s (before++.configure i::(mid++[.restore i]))).readSysctl p =
      (s before).readSysctl p) ∧
    ∀ cs c j,j≠c.iface → ∀ p,IsOf j p → (s (cs++[c])).files p=(s cs).files p := by
  have hnone : Sound ⟨files,fun _ => []⟩ := by simp [Sound]
  dsimp only
  constructor
  swap
  · intro cs c j hj p hp
    rw [Runs.run_append]
    exact (step_other horder (run_sound hnone cs) hj hp).1
  intro p hp
  rw [Runs.run_append]
  generalize hrun : Runs.run (step order) ⟨files,fun _ => []⟩ before=s
  have hsound : s.Sound := hrun ▸ run_sound hnone before
  have hempty : s.snapshot i=[] := hrun ▸ run_snapshot horder hnone rfl hbefore
  have howes : Owes s (Runs.run (step order) s (.configure i::mid)) i :=
    run_owes horder (by simpa using hmid) hsound fun p _ => by simp [hempty]
  obtain ⟨hold,hnew⟩ := howes p hp
  rw [← cons_append,Runs.run_append]
  exact foldl_writeFile _ _ (fun v h => hold v ((horder _).mem_iff.1 h))
    fun hno => hnew fun v h => hno v ((horder _).mem_iff.2 h)

end Order

theorem restored_lan :
    let s := Runs.run (step id) ⟨fun _ => "7\n",fun _ => []⟩
    (s ([]++.configure "lan0"::([.configure "dae0"]++[.restore "lan0"]))).readSysctl
      (conf "4" "lan0" "rp_filter")=(s []).readSysctl (conf "4" "lan0" "rp_filter") :=
  (restored (fun _ => .refl _) (fun _ => "7\n") (by simp) (by decide)).1 _
    ⟨"4",by decide,"rp_filter",by decide,rfl⟩

end Sysctls

end DaeRs.Control
