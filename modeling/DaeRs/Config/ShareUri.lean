import DaeRs.Config.Import
import DaeRs.Lib.Base64
import DaeRs.Lib.Percent
import DaeRs.Lib.RustSplit

/-! The share links as they are meant: a scheme, credentials that may be encoded, a host and port,
and what may follow them. -/

namespace DaeRs.Config

open Panicking Percent RustStr

/-- What is taken for granted of the standard engine of the `base64` crate. -/
structure ImportEnv.StandardBase64 (env : ImportEnv) : Prop where
  decodes : ∀ bytes,
    env.base64 (utf8 (String.ofList (Base64.pad (Base64.encode Base64.standard bytes))))=some bytes
  rejects : ∀ text bytes,env.base64 (utf8 text)=some bytes →
    ∀ c∈text.toList,c∈Base64.standard ∨ c = '='

def base64Text (urlSafe padded : Bool) (s : String) : String :=
  let code := Base64.encode (if urlSafe then Base64.urlSafe else Base64.standard) (utf8 s)
  String.ofList (if padded then Base64.pad code else code)

/-- The part of a link before `@`. -/
inductive Userinfo where
  | pair (first second : Escaped) (no_colon : ':' ∉ first.text.toList)
  | word (word : Escaped)
  | code (code : Escaped) (urlSafe padded : Bool) (first second : String)
    (no_colon : ':' ∉ first.toList)
    (encodes : code.value=base64Text urlSafe padded (first++(":" ++ second)))

namespace Userinfo

def text : Userinfo → String
  | pair first second _ => first.text++(":" ++ second.text)
  | word w => w.text
  | code c _ _ _ _ _ _ => c.text

def standardDigits : Userinfo → Prop
  | code c _ _ _ _ _ _ => '-' ∉ c.text.toList ∧ '_' ∉ c.text.toList
  | _ => True

end Userinfo

def Scheme.Allows : Scheme → Userinfo → Prop
  | .socks5,.pair _ _ _ => True
  | .socks5,.word w => ':' ∉ w.text.toList
  | .shadowsocks,.pair _ _ _ | .shadowsocks,.code _ _ _ _ _ _ _ => True
  | .trojan,.word _ | .vmess,.word _ => True
  | .tuic,.pair _ _ _ | .juicity,.pair _ _ _ => True
  | _,_ => False

/-- The node has the credentials; a user name alone leaves the password as it was. -/
def Scheme.Holds (before n : OutboundNode) : Scheme → Userinfo → Prop
  | .socks5,.pair user password _ =>
    n.username=some user.value ∧ n.password=some password.value
  | .socks5,.word user => n.username=some user.value ∧ n.password=before.password
  | .shadowsocks,.pair cipher password _ =>
    n.cipher=some cipher.value ∧ n.password=some password.value
  | .shadowsocks,.code _ _ _ cipher password _ _ =>
    n.cipher=some cipher ∧ n.password=some password
  | .trojan,.word password => n.password=some password.value
  | .tuic,.pair uuid password _ | .juicity,.pair uuid password _ =>
    n.uuid=some uuid.value ∧ n.password=some password.value
  | .vmess,.word uuid => n.uuid=some uuid.value
  | _,_ => False

/-- A link `scheme://userinfo@host:port[/][?query][#fragment]`. -/
structure ShareUri where
  start : String
  scheme : Scheme
  known : (start,scheme)∈schemes
  userinfo : Userinfo
  allowed : scheme.Allows userinfo
  host : String
  port : UInt16
  slash : Bool
  query : Option String
  fragment : Option String
  userinfo_inside : ∀ c∈userinfo.text.toList,c ≠ '?' ∧ c ≠ '#'
  host_inside : ∀ c∈host.toList,c ≠ '@' ∧ c ≠ '/' ∧ c ≠ '?' ∧ c ≠ '#'
  query_inside : ∀ q∈query, '#' ∉ q.toList

namespace ShareUri

variable (uri : ShareUri)

def hostPort : String := uri.host++(":" ++ toString uri.port.toNat)

def slashText : String := if uri.slash then "/" else ""

def main : String := uri.userinfo.text++("@" ++ (uri.hostPort++uri.slashText))

def part (mark : String) : Option String → String
  | some s => mark++s
  | none => ""

def rest : String := uri.main++part "?" uri.query++part "#" uri.fragment

def text : String := uri.start++uri.rest

def ReadBack (env : ImportEnv) (name : String) (node : NodeFields) : Prop :=
  ∃ n,parseImportUrl env name uri.text node=pure n ∧ n.address=uri.hostPort ∧
    uri.scheme.Holds node.toOutboundNode n.toOutboundNode uri.userinfo

def queryValues (query : String) : List String :=
  ((split query '&').filter (· ≠ "")).filterMap fun kv => (splitOnce kv '=').map Prod.snd

/-- The SOCKS5 and Shadowsocks links do not know a query; the values in those of the others lose
their quotes. -/
def QueryFits : Prop :=
  match uri.scheme with
  | .socks5 | .shadowsocks => uri.query=none
  | .trojan | .tuic | .juicity | .vmess =>
    ∀ v∈queryValues (uri.query.getD ""),¬LoneQuote v

def Plain : Prop := '%' ∉ uri.userinfo.text.toList ∧ uri.userinfo.standardDigits ∧ uri.QueryFits

end ShareUri

end DaeRs.Config
