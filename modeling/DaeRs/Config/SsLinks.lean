import Mathlib.Data.Bool.AllAny
import DaeRs.Config.ShareLinks

/-! The Shadowsocks links, and which share links are read as they are meant. -/

namespace DaeRs.Config

open Panicking Percent RustStr List
open String (ofList toList_ofList)

def NodeFields.withSs (n : NodeFields) (cipher password : String) : NodeFields :=
  { n with cipher := some cipher,password := some password }

section Userinfo

variable {env : ImportEnv} {u : String} {n : NodeFields}

theorem assignSsUserinfo_colon {a b : String} (h : splitPat u ":" = some (a,b)) :
    assignSsUserinfo env u n=pure (some (n.withSs a b)) := by
  rw [assignSsUserinfo,sliceFound_eq,h,orPanic_bind]
  rfl

theorem assignSsUserinfo_code {d a b : String} (h : splitPat u ":" = none)
    (hd : base64Decode env u=some d) (hcolon : splitPat d ":" = some (a,b)) :
    assignSsUserinfo env u n=pure (some (n.withSs a b)) := by
  rw [assignSsUserinfo,sliceFound_eq,h,orPanic_bind]
  simp only [hd,sliceFound_eq,hcolon,orPanic_bind]
  rfl

theorem assignSsUserinfo_none (h : splitPat u ":" = none) (hd : base64Decode env u=none) :
    assignSsUserinfo env u n=pure none := by
  rw [assignSsUserinfo,sliceFound_eq,h,orPanic_bind]
  simp only [hd]

theorem exists_assignSsUserinfo (env : ImportEnv) (u : String) (n : NodeFields) :
    ∃ o,assignSsUserinfo env u n=pure o ∧ ∀ n'∈o,n'.address=n.address := by
  have hkeeps (a b : String) : ∀ n'∈some (n.withSs a b),n'.address=n.address := by
    intro n' hn'
    rw [← Option.some.inj hn']
    rfl
  have hnone : ∀ n'∈(none : Option NodeFields),n'.address=n.address :=
    fun n' hn' => absurd hn' (Option.not_mem_none n')
  cases h : splitPat u ":" with
  | some r => exact ⟨_,assignSsUserinfo_colon h,hkeeps r.1 r.2⟩
  | none =>
    cases hd : base64Decode env u with
    | none => exact ⟨none,assignSsUserinfo_none h hd,hnone⟩
    | some d =>
      cases hcolon : splitPat d ":" with
      | some r => exact ⟨_,assignSsUserinfo_code h hd hcolon,hkeeps r.1 r.2⟩
      | none =>
        refine ⟨none,?_,hnone⟩
        rw [assignSsUserinfo,sliceFound_eq,h,orPanic_bind]
        simp only [hd,sliceFound_eq,hcolon,orPanic_bind]

end Userinfo

theorem mem_base64Text {urlSafe padded : Bool} {s : String} :
    ∀ c∈(base64Text urlSafe padded s).toList,c∈Base64.standard ∨ c∈Base64.urlSafe ∨ c = '=' := by
  intro c hc
  have hcode (c : Char) (hc : c∈Base64.encode
      (if urlSafe then Base64.urlSafe else Base64.standard) (utf8 s)) :
      c∈Base64.standard ∨ c∈Base64.urlSafe ∨ c = '=' := by
    cases urlSafe with
    | false => exact .inl (Base64.mem_of_mem_encode (by decide) c hc)
    | true => exact .inr (.inl (Base64.mem_of_mem_encode (by decide) c hc))
  rw [base64Text,toList_ofList] at hc
  cases padded with
  | false => exact hcode c hc
  | true =>
    rcases Base64.mem_pad c hc with hc | hc
    · exact hcode c hc
    · exact .inr (.inr hc)

theorem base64Text_standard {urlSafe padded : Bool} {s : String}
    (hminus : '-' ∉ (base64Text urlSafe padded s).toList)
    (hunder : '_' ∉ (base64Text urlSafe padded s).toList) :
    base64Text urlSafe padded s=base64Text false padded s := by
  cases urlSafe with
  | false => rfl
  | true =>
    have hcode : ∀ c∈Base64.encode Base64.urlSafe (utf8 s),c ≠ '-' ∧ c ≠ '_' := by
      intro c hc
      have hmem : c∈(base64Text true padded s).toList := by
        rw [base64Text,toList_ofList]
        cases padded with
        | false => exact hc
        | true => exact mem_append_left _ hc
      exact ⟨fun heq => hminus (heq ▸ hmem),fun heq => hunder (heq ▸ hmem)⟩
    unfold base64Text
    dsimp only
    rw [if_pos rfl,if_neg Bool.false_ne_true,Base64.encode_urlSafe hcode]

theorem base64Decode_base64Text {env : ImportEnv} (henv : env.StandardBase64) (padded : Bool)
    (s : String) : base64Decode env (base64Text false padded s)=some s := by
  have hchars : ∀ c∈Base64.standard++['='],isWhitespace c=false ∧ c.toNat<128 :=
    all_iff_forall_prop.1 (by decide)
  have hcode : ∀ c∈Base64.encode Base64.standard (utf8 s),c∈Base64.standard :=
    Base64.mem_of_mem_encode (by decide)
  have hmem : ∀ c∈(base64Text false padded s).toList,c∈Base64.standard++['='] := by
    intro c hc
    rw [base64Text,toList_ofList] at hc
    cases padded with
    | false => exact mem_append_left _ (hcode c hc)
    | true =>
      rcases Base64.mem_pad c hc with hc | hc
      · exact mem_append_left _ (hcode c hc)
      · exact mem_append_right _ (mem_singleton.2 hc)
  have htrim : trim (base64Text false padded s)=base64Text false padded s :=
    trim_of_no_space fun c hc => (hchars c (hmem c hc)).1
  have hsize : (base64Text false padded s).utf8ByteSize=(base64Text false padded s).toList.length := by
    have hascii := utf8ByteSize_ascii fun c hc => (hchars c (hmem c hc)).2
    rwa [String.ofList_toList] at hascii
  have hpadded : (if (base64Text false padded s).utf8ByteSize%4=0 then base64Text false padded s
      else base64Text false padded s++ofList
        (replicate (4-(base64Text false padded s).utf8ByteSize%4) '=')) =
      ofList (Base64.pad (Base64.encode Base64.standard (utf8 s))) := by
    rw [hsize]
    unfold base64Text
    rw [toList_ofList]
    cases padded with
    | true =>
      have hfull : (Base64.pad (Base64.encode Base64.standard (utf8 s))).length%4=0 := by
        rw [Base64.pad,length_append,length_replicate]
        omega
      exact if_pos hfull
    | false =>
      dsimp only
      rw [if_neg Bool.false_ne_true,if_neg Bool.false_ne_true,Base64.pad]
      split_ifs with hfull
      · rw [hfull]
        exact congrArg ofList (append_nil _).symm
      · rw [String.ofList_append,Nat.mod_eq_of_lt (a := 4-_) (by omega)]
  unfold base64Decode
  dsimp only
  rw [htrim,hpadded,henv.decodes,Option.bind_some,fromUtf8_utf8]
  rfl

namespace ShareUri

variable {uri : ShareUri} {env : ImportEnv} {name : String} {node : NodeFields} {x y : String}

def ssNode (node : NodeFields) (host : String) : NodeFields :=
  { node with protocol := "shadowsocks",address := stripTrailingSlash host }

theorem value?_ss_of_some (hs : uri.scheme=.shadowsocks)
    (hsplit : rsplitOnce uri.front '@' = some (x,y)) {n : NodeFields}
    (h : assignSsUserinfo env x (ssNode node y)=pure (some n)) :
    value? (parseImportUrl env name uri.text node)=if n.address ≠ "" then some n else none := by
  have hplain : assignSs env uri.front { node with protocol := "shadowsocks" }=pure (n,true) := by
    rw [assignSs,rsliceFound_eq,hsplit,orPanic_bind]
    change assignSsUserinfo env x (ssNode node y) >>= _=_
    rw [h,pure_bind]
  rw [parseImportUrl,schemeOf_text,hs]
  dsimp only
  rw [parseSsImport,headD_split_rest,hplain,pure_bind,assignSsDecoded,if_pos rfl,pure_bind,
    value?_finishImport]
  simp

theorem value?_ss_of_none (henv : env.StandardBase64) (hs : uri.scheme=.shadowsocks)
    (hsplit : rsplitOnce uri.front '@' = some (x,y))
    (h : assignSsUserinfo env x (ssNode node y)=pure none) :
    value? (parseImportUrl env name uri.text node)=none := by
  have hplain : assignSs env uri.front { node with protocol := "shadowsocks" } =
      pure (ssNode node y,false) := by
    rw [assignSs,rsliceFound_eq,hsplit,orPanic_bind]
    change assignSsUserinfo env x (ssNode node y) >>= _=_
    rw [h,pure_bind]
    rfl
  have hrest := base64Decode_eq_none henv uri.at_mem_front (by decide) (by decide) (by decide)
  rw [parseImportUrl,schemeOf_text,hs]
  dsimp only
  rw [parseSsImport,headD_split_rest,hplain,pure_bind,assignSsDecoded,if_neg Bool.false_ne_true,hrest]
  rfl

theorem rsplitOnce_front_main (hq : uri.query=none) :
    rsplitOnce uri.front '@' = some (uri.userinfo.text,uri.hostPort++uri.slashText) := by
  have hfront : uri.front=uri.main := by rw [front,hq,part,String.append_empty]
  rw [hfront,rsplitOnce_main]

theorem address_of_ss (hs : uri.scheme=.shadowsocks)
    (hsplit : rsplitOnce uri.front '@' = some (x,y)) {a b : String}
    (h : assignSsUserinfo env x (ssNode node y)=pure (some ((ssNode node y).withSs a b)))
    {n : NodeFields} (hn : value? (parseImportUrl env name uri.text node)=some n) :
    n=(ssNode node y).withSs a b := by
  rw [value?_ss_of_some hs hsplit h] at hn
  split_ifs at hn
  exact (Option.some.inj hn).symm

theorem value?_ss_hostPort (hs : uri.scheme=.shadowsocks) (hq : uri.query=none) {a b : String}
    (h : assignSsUserinfo env uri.userinfo.text (ssNode node (uri.hostPort++uri.slashText)) =
      pure (some ((ssNode node (uri.hostPort++uri.slashText)).withSs a b))) :
    value? (parseImportUrl env name uri.text node) =
      some ((ssNode node (uri.hostPort++uri.slashText)).withSs a b) := by
  rw [value?_ss_of_some hs (rsplitOnce_front_main hq) h]
  refine if_pos ?_
  change stripTrailingSlash _ ≠ ""
  rw [stripTrailingSlash_place]
  exact uri.hostPort_ne_empty

theorem readBack_ss_pair {first second : Escaped} {h : ':' ∉ first.text.toList}
    (hs : uri.scheme=.shadowsocks) (hu : uri.userinfo=.pair first second h) :
    uri.ReadBack env name node ↔ '%' ∉ uri.userinfo.text.toList ∧ uri.query=none := by
  rw [readBack_iff]
  have hcolon : splitPat uri.userinfo.text ":" = some (first.text,second.text) := by
    rw [hu]
    exact splitPat_pair h second.text
  cases hq : uri.query with
  | none =>
    rw [value?_ss_hostPort hs hq (assignSsUserinfo_colon hcolon),hs,hu,← pair_eq_iff]
    constructor
    · intro hread
      obtain ⟨n,hn,-,hholds⟩ := hread
      cases hn
      exact ⟨hholds,rfl⟩
    · intro hread
      exact ⟨_,rfl,uri.stripTrailingSlash_place,hread.1⟩
  | some q =>
    refine iff_of_false (fun hread => ?_) fun hread => nomatch hread.2
    obtain ⟨x,y,hsplit,hxy⟩ := uri.rsplitOnce_query q
    rw [← front_of_query hq] at hsplit
    obtain ⟨n,hn,haddress,hholds⟩ := hread
    rw [hs,hu] at hholds
    rcases hxy with ⟨rfl,hy⟩ | ⟨t,hx⟩
    · rw [address_of_ss hs hsplit (assignSsUserinfo_colon hcolon) hn] at haddress
      exact hy haddress
    · have hlonger : splitPat x ":" =
          some (first.text,second.text++(String.singleton '@' ++ t)) := by
        rw [hx,hu,Userinfo.text,String.append_assoc,String.append_assoc]
        exact splitPat_pair h _
      rw [address_of_ss hs hsplit (assignSsUserinfo_colon hlonger) hn] at hholds
      exact longer_ne_value second t hholds.2

section Code

variable {code : Escaped} {urlSafe padded : Bool} {first second : String}
  {no_colon : ':' ∉ first.toList}
  {encodes : code.value=base64Text urlSafe padded (first++(":" ++ second))}

theorem not_readBack_of_longer (henv : env.StandardBase64) (hs : uri.scheme=.shadowsocks)
    (hu : uri.userinfo=.code code urlSafe padded first second no_colon encodes)
    (hsplit : rsplitOnce uri.front '@' = some (x,y)) (hbase : base64Decode env x=none)
    (hlong : (first++(":" ++ second)).utf8ByteSize<x.utf8ByteSize) :
    ¬uri.ReadBack env name node := by
  rw [readBack_iff]
  intro hread
  obtain ⟨n,hn,-,hholds⟩ := hread
  cases hcolon : splitPat x ":" with
  | none =>
    rw [value?_ss_of_none henv hs hsplit (assignSsUserinfo_none hcolon hbase)] at hn
    exact nomatch hn
  | some r =>
    rw [address_of_ss hs hsplit (assignSsUserinfo_colon hcolon) hn,hs,hu] at hholds
    have hfirst : r.1=first := Option.some.inj hholds.1
    have hsecond : r.2=second := Option.some.inj hholds.2
    rw [eq_append_of_splitPat hcolon,hfirst,hsecond] at hlong
    exact Nat.lt_irrefl _ hlong

theorem readBack_ss_code (henv : env.StandardBase64) (hs : uri.scheme=.shadowsocks)
    (hu : uri.userinfo=.code code urlSafe padded first second no_colon encodes) :
    uri.ReadBack env name node ↔ '%' ∉ uri.userinfo.text.toList ∧
      ('-' ∉ code.text.toList ∧ '_' ∉ code.text.toList) ∧ uri.query=none := by
  have htext : uri.userinfo.text=code.text := by rw [hu]; rfl
  have hsize := size_le_code encodes
  cases hq : uri.query with
  | some q =>
    refine iff_of_false (fun hread => ?_) fun hread => nomatch hread.2.2
    obtain ⟨x,y,hsplit,hxy⟩ := uri.rsplitOnce_query q
    rw [← front_of_query hq] at hsplit
    rcases hxy with ⟨rfl,hy⟩ | ⟨t,rfl⟩
    · obtain ⟨n,hn,haddress,-⟩ := readBack_iff.1 hread
      obtain ⟨o,ho,hkeeps⟩ := exists_assignSsUserinfo env uri.userinfo.text (ssNode node y)
      cases o with
      | none =>
        rw [value?_ss_of_none henv hs hsplit ho] at hn
        exact nomatch hn
      | some n' =>
        rw [value?_ss_of_some hs hsplit ho] at hn
        split_ifs at hn
        rw [← Option.some.inj hn,hkeeps n' rfl] at haddress
        exact hy haddress
    · have hbase : base64Decode env (uri.userinfo.text++(String.singleton '@' ++ t))=none := by
        refine base64Decode_eq_none henv (c := '@') ?_ (by decide) (by decide) (by decide)
        rw [String.toList_append,String.toList_append]
        exact mem_append_right _ (mem_append_left _ (by decide))
      refine not_readBack_of_longer henv hs hu hsplit hbase ?_ hread
      exact Nat.lt_of_le_of_lt (htext ▸ hsize) (size_lt_append _ t)
  | none =>
    have hsplit := rsplitOnce_front_main hq
    rw [htext] at hsplit ⊢
    by_cases hpercent : '%' ∈ code.text.toList
    · refine iff_of_false ?_ fun hread => hread.1 hpercent
      refine not_readBack_of_longer henv hs hu hsplit
        (base64Decode_eq_none henv hpercent (by decide) (by decide) (by decide)) ?_
      have hvalue := size_le_base64Text urlSafe padded (first++(":" ++ second))
      rw [← encodes] at hvalue
      exact Nat.lt_of_le_of_lt hvalue (Escaped.size_lt hpercent)
    · have hvalue := (code.value_eq_iff.2 hpercent).symm.trans encodes
      have hcolon : splitPat code.text ":" = none := by
        refine splitPat_of_not_mem fun hmem => ?_
        rw [hvalue] at hmem
        exact absurd (mem_base64Text _ hmem) (by decide)
      by_cases hdigits : '-' ∉ code.text.toList ∧ '_' ∉ code.text.toList
      · refine iff_of_true ?_ ⟨hpercent,hdigits,rfl⟩
        have hdecode : base64Decode env code.text=some (first++(":" ++ second)) := by
          rw [hvalue] at hdigits ⊢
          rw [base64Text_standard hdigits.1 hdigits.2,base64Decode_base64Text henv]
        have huser {n : NodeFields} : assignSsUserinfo env uri.userinfo.text n =
            pure (some (n.withSs first second)) := by
          rw [htext]
          exact assignSsUserinfo_code hcolon hdecode (splitPat_pair no_colon second)
        rw [readBack_iff,value?_ss_hostPort hs hq huser,hs,hu]
        exact ⟨_,rfl,uri.stripTrailingSlash_place,rfl,rfl⟩
      · refine iff_of_false (fun hread => ?_) fun hread => hdigits hread.2.1
        have hbase : base64Decode env code.text=none := by
          rcases not_and_or.1 hdigits with h | h
          all_goals exact base64Decode_eq_none henv (not_not.1 h) (by decide) (by decide) (by decide)
        obtain ⟨n,hn,-⟩ := readBack_iff.1 hread
        rw [value?_ss_of_none henv hs hsplit (assignSsUserinfo_none hcolon hbase)] at hn
        exact nomatch hn

end Code

theorem plain_iff_of_digits (h : uri.userinfo.standardDigits) :
    uri.Plain ↔ '%' ∉ uri.userinfo.text.toList ∧ uri.QueryFits :=
  and_congr_right fun _ => ⟨fun hplain => hplain.2,fun hquery => ⟨h,hquery⟩⟩

/-- A link is read as it is meant just if its credentials have no escape and no URL-safe digit, and
its scheme's parser can take its query. -/
theorem readBack_iff_plain (henv : env.StandardBase64) (uri : ShareUri) (name : String)
    (node : NodeFields) : uri.ReadBack env name node ↔ uri.Plain := by
  have hallowed := uri.allowed
  cases hu : uri.userinfo with
  | pair first second h =>
    rw [hu] at hallowed
    rw [plain_iff_of_digits (hu ▸ trivial),QueryFits]
    cases hs : uri.scheme with
    | socks5 => exact readBack_socks5_pair hs hu
    | shadowsocks => exact readBack_ss_pair hs hu
    | tuic =>
      have hparse : parseImportUrl env name uri.text node =
          parseUuidImport "tuic" tuicQuery uri.rest node := by
        rw [parseImportUrl,schemeOf_text,hs]
        rfl
      exact readBack_uuid tuicQuery_toOutboundNode (.inl hs) hparse hu
    | juicity =>
      have hparse : parseImportUrl env name uri.text node =
          parseUuidImport "juicity" juicityQuery uri.rest node := by
        rw [parseImportUrl,schemeOf_text,hs]
        rfl
      exact readBack_uuid juicityQuery_toOutboundNode (.inr hs) hparse hu
    | trojan | vmess => exact (hs ▸ hallowed).elim
  | word w =>
    rw [hu] at hallowed
    rw [plain_iff_of_digits (hu ▸ trivial),QueryFits]
    cases hs : uri.scheme with
    | socks5 =>
      rw [hs] at hallowed
      exact readBack_socks5_user hallowed hs hu
    | trojan => exact readBack_trojan hs hu
    | vmess => exact readBack_vmess henv hs hu
    | shadowsocks | tuic | juicity => exact (hs ▸ hallowed).elim
  | code code urlSafe padded first second no_colon encodes =>
    rw [hu] at hallowed
    cases hs : uri.scheme with
    | shadowsocks =>
      rw [readBack_ss_code henv hs hu,Plain,QueryFits,hs]
      refine and_congr_right fun _ => and_congr_left fun _ => ?_
      rw [hu]
      rfl
    | socks5 | trojan | tuic | juicity | vmess => exact (hs ▸ hallowed).elim

/-- An engine that takes the standard alphabet with its padding. -/
def strictEnv : ImportEnv where
  base64 bytes := (fromUtf8 bytes).toOption.bind fun s => Base64.decode Base64.standard s.toList
  json _ := none

theorem strictEnv_standard : strictEnv.StandardBase64 where
  decodes bytes := by
    rw [strictEnv]
    dsimp only
    rw [fromUtf8_utf8]
    change Base64.decode Base64.standard (ofList _).toList=_
    rw [toList_ofList,Base64.decode_encode]
  rejects text bytes h := by
    rw [strictEnv] at h
    dsimp only at h
    rw [fromUtf8_utf8] at h
    exact Base64.mem_of_decode h

section Links

theorem code_decodes : decode "YWVzLTI1Ni1nY206cGFzc3dvcmQ".toList =
    some (utf8 "YWVzLTI1Ni1nY206cGFzc3dvcmQ") := decode_of_not_mem (by decide)

theorem code_encodes : "YWVzLTI1Ni1nY206cGFzc3dvcmQ" =
    base64Text false false ("aes-256-gcm" ++ (":" ++ "password")) := by decide +kernel

theorem cipher_no_colon : ':' ∉ "aes-256-gcm".toList := by decide

theorem ss_known : ("ss://",Scheme.shadowsocks)∈schemes := by decide

theorem code_inside : ∀ c ∈ "YWVzLTI1Ni1nY206cGFzc3dvcmQ".toList,c ≠ '?' ∧ c ≠ '#' :=
  all_iff_forall_prop.1 (by decide)

theorem host_inside_example : ∀ c ∈ "example.com".toList,c ≠ '@' ∧ c ≠ '/' ∧ c ≠ '?' ∧ c ≠ '#' :=
  all_iff_forall_prop.1 (by decide)

theorem no_query_inside : ∀ q∈(none : Option String), '#' ∉ q.toList :=
  fun q hq => absurd hq (Option.not_mem_none q)

def codeLink : ShareUri where
  start := "ss://"
  scheme := .shadowsocks
  known := ss_known
  userinfo := .code ⟨_,_,code_decodes⟩ false false "aes-256-gcm" "password" cipher_no_colon
    code_encodes
  allowed := trivial
  host := "example.com"
  port := 8388
  slash := true
  query := none
  fragment := some "home"
  userinfo_inside := code_inside
  host_inside := host_inside_example
  query_inside := no_query_inside

theorem codeLink_read_back : codeLink.ReadBack strictEnv "main" (.named "main") :=
  (readBack_iff_plain strictEnv_standard codeLink "main" (.named "main")).2
    ⟨by decide,⟨by decide,by decide⟩,rfl⟩

theorem cipher_decodes : decode "aes-256-gcm".toList=some (utf8 "aes-256-gcm") :=
  decode_of_not_mem (by decide)

theorem password_decodes : decode "password".toList=some (utf8 "password") :=
  decode_of_not_mem (by decide)

theorem plain_inside : ∀ c∈("aes-256-gcm" ++ (":" ++ "password")).toList,c ≠ '?' ∧ c ≠ '#' :=
  all_iff_forall_prop.1 (by decide)

theorem plugin_inside : ∀ q∈some "plugin=obfs-local", '#' ∉ q.toList := by
  intro q hq
  rw [← Option.some.inj hq]
  decide

def pluginLink : ShareUri where
  start := "ss://"
  scheme := .shadowsocks
  known := ss_known
  userinfo := .pair ⟨_,_,cipher_decodes⟩ ⟨_,_,password_decodes⟩ cipher_no_colon
  allowed := trivial
  host := "example.com"
  port := 8388
  slash := true
  query := some "plugin=obfs-local"
  fragment := none
  userinfo_inside := plain_inside
  host_inside := host_inside_example
  query_inside := plugin_inside

theorem trojan_known : ("trojan://",Scheme.trojan)∈schemes := by decide

theorem escape_decodes : decode "p%40ss".toList=some (utf8 "p@ss") := by decide

theorem escape_inside : ∀ c ∈ "p%40ss".toList,c ≠ '?' ∧ c ≠ '#' := all_iff_forall_prop.1 (by decide)

def escapedLink : ShareUri where
  start := "trojan://"
  scheme := .trojan
  known := trojan_known
  userinfo := .word ⟨_,_,escape_decodes⟩
  allowed := trivial
  host := "example.com"
  port := 443
  slash := false
  query := none
  fragment := none
  userinfo_inside := escape_inside
  host_inside := host_inside_example
  query_inside := no_query_inside

/-- The query of a Shadowsocks link becomes a part of the address, and an escaped character of a
password stays escaped. -/
theorem query_and_escape_leak :
    (value? (parseImportUrl strictEnv "main" pluginLink.text (.named "main"))).map
        (fun n => n.address)=some "example.com:8388/?plugin=obfs-local" ∧
      pluginLink.hostPort = "example.com:8388" ∧
      ¬pluginLink.ReadBack strictEnv "main" (.named "main") ∧
      (value? (parseImportUrl strictEnv "main" escapedLink.text (.named "main"))).map
        (fun n => n.password)=some (some "p%40ss") ∧
      ¬escapedLink.ReadBack strictEnv "main" (.named "main") := by
  have haddress : (value? (parseImportUrl strictEnv "main" pluginLink.text (.named "main"))).map
      (fun n => n.address)=some "example.com:8388/?plugin=obfs-local" := by decide +kernel
  have hpassword : (value? (parseImportUrl strictEnv "main" escapedLink.text (.named "main"))).map
      (fun n => n.password)=some (some "p%40ss") := by decide +kernel
  refine ⟨haddress,by decide,fun h => ?_,hpassword,fun h => ?_⟩
  · obtain ⟨n,hn,hread,-⟩ := readBack_iff.1 h
    rw [hn,Option.map_some,hread] at haddress
    exact absurd haddress (by decide)
  · obtain ⟨n,hn,-,hread⟩ := readBack_iff.1 h
    have hread : n.password=some "p@ss" := hread
    rw [hn,Option.map_some,hread] at hpassword
    exact absurd hpassword (by decide)

end Links

end ShareUri

end DaeRs.Config
