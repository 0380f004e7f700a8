import Mathlib.Data.List.Basic
import DaeRs.Lib.Runs

/-! Machines that open connections and send on them, and what they send when the peer of every
connection shows a certificate that a verifier accepts or refuses. -/

namespace Channels

open Runs List

/-- Between two states no connection was made, and none was found again. -/
structure Kept {σ : Type} (fresh : σ → Nat) (Reaches : σ → Nat → Prop) (s s' : σ) : Prop where
  fresh_eq : fresh s'=fresh s
  reaches : ∀ conn,Reaches s' conn → Reaches s conn

/-- Between two states one connection was made. -/
structure Opened {σ : Type} (fresh : σ → Nat) (Reaches : σ → Nat → Prop) (s s' : σ) : Prop where
  fresh_eq : fresh s'=fresh s+1
  reaches : ∀ conn,Reaches s' conn → Reaches s conn ∨ conn=fresh s

theorem Kept.refl {σ : Type} (fresh : σ → Nat) (Reaches : σ → Nat → Prop) (s : σ) :
    Kept fresh Reaches s s :=
  ⟨rfl,fun _ h => h⟩

theorem Kept.trans {σ : Type} {fresh : σ → Nat} {Reaches : σ → Nat → Prop} {s t u : σ}
    (h : Kept fresh Reaches s t) (h' : Kept fresh Reaches t u) : Kept fresh Reaches s u :=
  ⟨h'.fresh_eq.trans h.fresh_eq,fun conn hconn => h.reaches conn (h'.reaches conn hconn)⟩

/-- A machine whose connections are numbered in the order of their handshakes. `Reaches` says that a
state holds one; `refuse` fails the event that completes a handshake. -/
structure Machine (σ ε : Type) where
  init : σ
  step : σ → ε → σ
  fresh : σ → Nat
  Reaches : σ → Nat → Prop
  Completes : ε → Prop
  refuse : ε → ε
  sends : σ → ε → Option Nat
  fresh_init : fresh init=0
  reaches_init : ∀ conn,¬Reaches init conn
  step_cases : ∀ s e,Kept fresh Reaches s (step s e) ∨
    (Completes e ∧ Opened fresh Reaches s (step s e))
  completes_refuse : ∀ e,¬Completes (refuse e)
  reaches_of_sends : ∀ s e conn,sends s e=some conn → Reaches s conn

/-- A state with the certificates of the connections. -/
structure Certified (σ Cert : Type) where
  state : σ
  certs : List Cert

variable {σ ε Cert : Type} (m : Machine σ ε) (accepts : Cert → Bool)

namespace Machine

def start : Certified σ Cert := ⟨m.init,[]⟩

/-- The peer shows a certificate when a handshake completes; it is of no account at other events. -/
def present (s : Certified σ Cert) (x : ε×Cert) : Certified σ Cert :=
  let next := m.step s.state (if accepts x.2 then x.1 else m.refuse x.1)
  ⟨next,if m.fresh s.state < m.fresh next then s.certs++[x.2] else s.certs⟩

/-- What is sent goes over connections with certificates in `P`. -/
def SendsTo (P : Cert → Prop) (s : Certified σ Cert) (x : ε×Cert) : Prop :=
  ∀ conn,m.sends s.state x.1=some conn → ∃ cert,s.certs[conn]?=some cert ∧ P cert

/-- Every connection that the state reaches was made with an accepted certificate. -/
structure Checked (s : Certified σ Cert) : Prop where
  length : s.certs.length=m.fresh s.state
  accepted : ∀ cert∈s.certs,accepts cert=true
  known : ∀ conn,m.Reaches s.state conn → conn < m.fresh s.state

variable {m accepts}

theorem Checked.start : m.Checked accepts (m.start : Certified σ Cert) :=
  ⟨m.fresh_init.symm,forall_mem_nil _,fun conn h => absurd h (m.reaches_init conn)⟩

variable {s : Certified σ Cert}

theorem Checked.kept (h : m.Checked accepts s) {next : σ}
    (hkept : Kept m.fresh m.Reaches s.state next) : m.Checked accepts ⟨next,s.certs⟩ := by
  refine ⟨h.length.trans hkept.fresh_eq.symm,h.accepted,fun conn hconn => ?_⟩
  rw [hkept.fresh_eq]
  exact h.known conn (hkept.reaches conn hconn)

theorem Checked.opened (h : m.Checked accepts s) {next : σ}
    (hopened : Opened m.fresh m.Reaches s.state next) {cert : Cert} (hcert : accepts cert=true) :
    m.Checked accepts ⟨next,s.certs++[cert]⟩ := by
  refine ⟨?_,fun c hc => ?_,fun conn hconn => ?_⟩
  · rw [hopened.fresh_eq,length_append,h.length,length_singleton]
  · rcases mem_append.mp hc with hc | hc
    · exact h.accepted c hc
    · rwa [mem_singleton.mp hc]
  · rw [hopened.fresh_eq]
    rcases hopened.reaches conn hconn with hconn | hconn
    · exact Nat.lt_succ_of_lt (h.known conn hconn)
    · omega

theorem Checked.present (h : m.Checked accepts s) (x : ε×Cert) :
    m.Checked accepts (m.present accepts s x) := by
  rw [Machine.present]
  generalize he : (if accepts x.2=true then x.1 else m.refuse x.1)=e
  rcases m.step_cases s.state e with hkept | ⟨hcompletes,hopened⟩
  · have hfresh : ¬m.fresh s.state < m.fresh (m.step s.state e) := by
      rw [hkept.fresh_eq]
      exact Nat.lt_irrefl _
    rw [if_neg hfresh]
    exact h.kept hkept
  · have hfresh : m.fresh s.state < m.fresh (m.step s.state e) := by
      rw [hopened.fresh_eq]
      exact Nat.lt_succ_self _
    -- a refused event completes no handshake
    have hx : accepts x.2=true := by
      by_contra hx
      rw [← he,if_neg hx] at hcompletes
      exact m.completes_refuse x.1 hcompletes
    rw [if_pos hfresh]
    exact h.opened hopened hx

theorem Checked.sendsTo (h : m.Checked accepts s) {P : Cert → Prop}
    (hP : ∀ cert,accepts cert=true → P cert) (x : ε×Cert) : m.SendsTo P s x := by
  intro conn hsends
  have hlt : conn < s.certs.length := by
    rw [h.length]
    exact h.known conn (m.reaches_of_sends s.state x.1 conn hsends)
  refine ⟨s.certs[conn],getElem?_eq_getElem hlt,hP _ ?_⟩
  exact h.accepted _ (getElem_mem hlt)

theorem run_present_const {cert : Cert} (hcert : accepts cert=true) (es : List ε)
    (s : Certified σ Cert) (hs : ∀ c∈s.certs,c=cert) :
    (run (m.present accepts) s (es.map (·,cert))).state=run m.step s.state es ∧
      ∀ c∈(run (m.present accepts) s (es.map (·,cert))).certs,c=cert := by
  induction es generalizing s with
  | nil => exact ⟨rfl,hs⟩
  | cons e es ih =>
    have hstate : (m.present accepts s (e,cert)).state=m.step s.state e := by
      rw [Machine.present,if_pos hcert]
    have hcerts : ∀ c∈(m.present accepts s (e,cert)).certs,c=cert := by
      intro c hc
      rw [Machine.present] at hc
      dsimp only at hc
      split_ifs at hc
      · rcases mem_append.mp hc with hc | hc
        · exact hs c hc
        · exact mem_singleton.mp hc
      · exact hs c hc
    have htail := ih _ hcerts
    rw [hstate] at htail
    exact htail

/-- A machine that can send sends only over connections with certificates in `P` just if the
verifier accepts no others. -/
theorem sendsTo_iff {P : Cert → Prop}
    (hsends : ∃ es e conn,m.sends (run m.step m.init es) e=some conn) :
    (∀ xs,Along (m.present accepts) (m.SendsTo P) m.start xs) ↔
      ∀ cert,accepts cert=true → P cert := by
  constructor
  · intro h cert hcert
    obtain ⟨es,e,conn,hconn⟩ := hsends
    obtain ⟨hstate,hcerts⟩ := run_present_const hcert es (m.start : Certified σ Cert)
      (forall_mem_nil _)
    have hlast := (h (es.map (·,cert)++[(e,cert)])).last
    obtain ⟨c,hc,hP⟩ := hlast conn (by rw [hstate]; exact hconn)
    rwa [hcerts c (mem_of_getElem? hc)] at hP
  · intro h xs
    refine (along_true m.start xs).imp (m.Checked accepts) (fun s x hs _ => ?_) Checked.start
    exact ⟨hs.sendsTo h x,hs.present x⟩

end Machine

end Channels
