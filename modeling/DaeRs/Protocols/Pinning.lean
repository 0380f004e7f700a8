import DaeRs.Protocols.QuicDialers
import DaeRs.Protocols.Trojan

/-! The server certificate and its pin: what the Trojan, TUIC and Juicity dialers send over a
connection, and which certificates the connection can have. -/

namespace DaeRs.Pinning

open Channels Quic Runs

/-- The TLS library: names it takes for server names, certificates it accepts for a name under the
built-in roots, and the fingerprint in hexadecimal. -/
structure Tls (Cert : Type) where
  isServerName : String → Bool
  verify : String → Cert → Bool
  sha256 : Cert → String

/-- What a dialer is configured with. -/
structure TlsDialer where
  proxyIp : String
  sni : String
  caSha256 : Option String
  /-- the hexadecimal SHA-224 of a Trojan password -/
  authHash : String
  uuid : String

def TlsDialer.serverName (d : TlsDialer) : String := if d.sni = "" then d.proxyIp else d.sni

/-- Whether a handshake succeeds. The client configuration has the roots, ALPN and early data. -/
def Tls.accepts {Cert : Type} (tls : Tls Cert) (d : TlsDialer) (cert : Cert) : Bool :=
  tls.isServerName d.serverName && tls.verify d.serverName cert

variable {Cert : Type}

def TlsDialer.Matches (d : TlsDialer) (tls : Tls Cert) (cert : Cert) : Prop :=
  ∀ pin,d.caSha256=some pin → pin ≠ "" → tls.sha256 cert=pin

/-- Along a run, Authenticate and request headers go over connections whose certificate has the
pinned fingerprint. -/
def PinnedAlong {σ ε : Type} (tls : Tls Cert) (d : TlsDialer) (m : Machine σ ε)
    (xs : List (ε×Cert)) : Prop :=
  Along (m.present (tls.accepts d)) (m.SendsTo (d.Matches tls)) m.start xs

def Pinned {σ ε : Type} (tls : Tls Cert) (d : TlsDialer) (m : Machine σ ε) : Prop :=
  ∀ xs,PinnedAlong tls d m xs

inductive Protocol where
  | trojan
  | tuic
  | juicity
  deriving DecidableEq

def Protocol.Pinned (tls : Tls Cert) (d : TlsDialer) : Protocol → Prop
  | .trojan => Pinning.Pinned tls d (Trojan.TrojanDialer.machine d.authHash)
  | .tuic => Pinning.Pinned tls d (Tuic.TuicDialer.machine d.uuid)
  | .juicity => Pinning.Pinned tls d (Juicity.JuicityDialer.machine d.uuid)

def trojanUse : List Trojan.DialEvent := [.start 0 .udpDial,.connect 0 true,.handshake 0 true]

def tuicUse : List (Act Tuic.DialEvent) :=
  [.call (.start 0 .dial),.call (.handshake 0 true),.call (.store 0),.call (.check 0)]

def juicityUse : List (Act Juicity.DialEvent) :=
  [.call (.start 0 .dial),.call (.handshake 0 true),.call (.store 0),
    .call (.authenticate 0 true),.call (.openBi 0 true),.call (.count 0)]

theorem pinned_tuic_of_no_uuid {d : TlsDialer} (huuid : parseUuid d.uuid=none) (tls : Tls Cert) :
    Protocol.Pinned tls d .tuic := by
  intro xs
  refine (along_true _ xs).imp (fun s => s.state.Silent) (fun s x hs _ => ?_) Tuic.TuicDialer.Silent.new
  refine ⟨fun conn hconn => ?_,hs.act huuid _⟩
  change s.state.sends d.uuid x.1=_ at hconn
  rw [hs.sends huuid] at hconn
  nomatch hconn

theorem pinned_iff_accepts {σ ε : Type} {m : Machine σ ε} (tls : Tls Cert) (d : TlsDialer)
    (hsends : ∃ es e conn,m.sends (run m.step m.init es) e=some conn) :
    Pinned tls d m ↔ ∀ cert,tls.accepts d cert=true → d.Matches tls cert :=
  Machine.sendsTo_iff hsends

theorem tuic_sends {uuid : String} (huuid : parseUuid uuid≠none) :
    ∃ es e conn,(Tuic.TuicDialer.machine uuid).sends (run (Tuic.TuicDialer.machine uuid).step
      (Tuic.TuicDialer.machine uuid).init es) e=some conn := by
  obtain ⟨bytes,hbytes⟩ := Option.ne_none_iff_exists'.mp huuid
  refine ⟨tuicUse,.call (.authenticate 0 true),0,?_⟩
  show (if (parseUuid uuid).isSome=true then some 0 else none)=some 0
  rw [hbytes]
  rfl

/-- The pin takes no part in the handshake: what is sent is safe just if the verifier accepts no
certificate with another fingerprint. A TUIC dialer without a valid UUID sends nothing. -/
theorem pinned_iff (tls : Tls Cert) (d : TlsDialer) (p : Protocol) :
    p.Pinned tls d ↔ ((p=.tuic → parseUuid d.uuid≠none) →
      ∀ cert,tls.accepts d cert=true → d.Matches tls cert) := by
  cases p with
  | trojan =>
    rw [Protocol.Pinned,pinned_iff_accepts tls d ⟨trojanUse,.write 0 true,0,rfl⟩]
    exact ⟨fun h _ => h,fun h => h nofun⟩
  | tuic =>
    by_cases huuid : parseUuid d.uuid=none
    · exact iff_of_true (pinned_tuic_of_no_uuid huuid tls) fun h => absurd huuid (h rfl)
    · rw [Protocol.Pinned,pinned_iff_accepts tls d (tuic_sends huuid)]
      exact ⟨fun h _ => h,fun h => h fun _ => huuid⟩
  | juicity =>
    rw [Protocol.Pinned,pinned_iff_accepts tls d ⟨juicityUse,.call (.write 0 true),0,rfl⟩]
    exact ⟨fun h _ => h,fun h => h nofun⟩

/-- A library that accepts every certificate for every name; the certificate is its fingerprint. -/
def anyTls : Tls String := ⟨fun _ => true,fun _ _ => true,id⟩

def pinnedDialer : TlsDialer :=
  ⟨"10.0.0.1", "proxy.example",some "aa", "00", "00000000-0000-0000-0000-000000000000"⟩

/-- With a certificate that is not the pinned one, a Trojan header, a TUIC Authenticate and a Juicity
header are sent. -/
theorem pin_ignored :
    ¬PinnedAlong anyTls pinnedDialer (Trojan.TrojanDialer.machine pinnedDialer.authHash)
      ((trojanUse++[Trojan.DialEvent.write 0 true]).map (·, "bb")) ∧
    ¬PinnedAlong anyTls pinnedDialer (Tuic.TuicDialer.machine pinnedDialer.uuid)
      ((tuicUse++[Act.call (Tuic.DialEvent.authenticate 0 true)]).map (·, "bb")) ∧
    ¬PinnedAlong anyTls pinnedDialer (Juicity.JuicityDialer.machine pinnedDialer.uuid)
      ((juicityUse++[Act.call (Juicity.DialEvent.write 0 true)]).map (·, "bb")) := by
  have hbad : ¬∃ cert,["bb"][0]?=some cert ∧ pinnedDialer.Matches anyTls cert := by
    intro h
    obtain ⟨cert,hcert,hmatches⟩ := h
    cases hcert
    exact absurd (hmatches "aa" rfl (by decide)) (by decide)
  refine ⟨fun h => ?_,fun h => ?_,fun h => ?_⟩
  · obtain ⟨-,-,-,hwrite,-⟩ := h
    exact hbad (hwrite 0 rfl)
  · obtain ⟨-,-,-,-,hauthenticate,-⟩ := h
    exact hbad (hauthenticate 0 (by decide +kernel))
  · obtain ⟨-,-,-,-,-,-,hwrite,-⟩ := h
    exact hbad (hwrite 0 rfl)

end DaeRs.Pinning
