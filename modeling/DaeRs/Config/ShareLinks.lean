import DaeRs.Config.ShareUri

/-! Which share links are read as they are meant. -/

namespace DaeRs.Config

open Panicking Percent RustStr List Option
open String (ofList toList_append toList_inj)

theorem stripTrailingSlash_append (s : String) : stripTrailingSlash (s ++ "/")=s := by
  rw [stripTrailingSlash,stripEnd_append,getD_some]

theorem stripTrailingSlash_of_last {s : String} (h : s.toList.getLast?≠some '/') :
    stripTrailingSlash s=s := by
  have hstrip : stripChars "/".toList.reverse s.toList.reverse=none := by
    change stripChars ['/'] s.toList.reverse=none
    cases hs : s.toList.reverse with
    | nil => rfl
    | cons c cs =>
      rw [getLast?_eq_head?_reverse,hs,head?_cons] at h
      have hc : '/' ≠ c := fun heq => h (congrArg some heq.symm)
      rw [stripChars,if_neg hc]
  rw [stripTrailingSlash,stripEnd,hstrip,map_none,getD_none]

theorem stripTrailingSlash_query (s q : String) :
    ∃ q',stripTrailingSlash (s++("?" ++ q))=s++("?" ++ q') := by
  by_cases hslash : ∃ q',q=q' ++ "/"
  · obtain ⟨q',rfl⟩ := hslash
    refine ⟨q',?_⟩
    have hassoc : s++("?" ++ (q' ++ "/"))=s++("?" ++ q') ++ "/" := by
      rw [String.append_assoc,String.append_assoc]
    rw [hassoc,stripTrailingSlash_append]
  · refine ⟨q,stripTrailingSlash_of_last fun hlast => ?_⟩
    rw [toList_append,toList_append,getLast?_append] at hlast
    cases hq : q.toList using reverseRecOn with
    | nil =>
      rw [hq,append_nil] at hlast
      exact absurd (Option.some.inj hlast) (by decide)
    | append_singleton front last =>
      rw [hq,← append_assoc,getLast?_concat,some_or] at hlast
      refine hslash ⟨ofList front,?_⟩
      rw [← toList_inj,hq,Option.some.inj hlast,toList_append,String.toList_ofList]
      rfl

def differ : List Char → List Char → Bool
  | a::as,b::bs => a≠b || differ as bs
  | _,_ => false

theorem stripChars_of_differ : ∀ {pat l : List Char},differ pat l=true →
    ∀ rest,stripChars pat (l++rest)=none
  | [],_,h,_ => nomatch h
  | _::_,[],h,_ => nomatch h
  | p::ps,c::cs,h,rest => by
    rw [cons_append,stripChars]
    split_ifs with hpc
    · refine stripChars_of_differ ?_ rest
      rw [differ,hpc] at h
      simpa using h
    · rfl

theorem stripStart_of_differ {s pat : String} (h : differ pat.toList s.toList=true)
    (rest : String) : stripStart (s++rest) pat=none := by
  rw [stripStart,toList_append,stripChars_of_differ h,map_none]

namespace ShareUri

variable (uri : ShareUri)

theorem hostPort_inside : ∀ c∈uri.hostPort.toList,c ≠ '@' ∧ c ≠ '/' ∧ c ≠ '?' ∧ c ≠ '#' := by
  intro c hc
  rw [hostPort,toList_append,toList_append,Nat.toString_eq_repr,Nat.toList_repr] at hc
  rcases mem_append.1 hc with hc | hc
  · exact uri.host_inside c hc
  · rcases mem_append.1 hc with hc | hc
    · rw [mem_singleton.1 hc]
      decide
    · have hdigit := Nat.isDigit_of_mem_toDigits (by decide) (by decide) hc
      refine ⟨?_,?_,?_,?_⟩ <;>
        · intro heq
          rw [heq] at hdigit
          exact absurd hdigit (by decide)

theorem slashText_inside : ∀ c∈uri.slashText.toList,c = '/' := by
  unfold slashText
  split_ifs
  · exact forall_mem_singleton.2 rfl
  · exact forall_mem_nil _

theorem place_inside : ∀ c∈(uri.hostPort++uri.slashText).toList,c ≠ '@' ∧ c ≠ '?' ∧ c ≠ '#' := by
  intro c hc
  rw [toList_append] at hc
  rcases mem_append.1 hc with hc | hc
  · have h := uri.hostPort_inside c hc
    exact ⟨h.1,h.2.2⟩
  · rw [uri.slashText_inside c hc]
    decide

theorem toList_main : uri.main.toList =
    uri.userinfo.text.toList ++ '@' :: (uri.hostPort++uri.slashText).toList := by
  rw [main,toList_append,toList_append]
  rfl

theorem main_inside : ∀ c∈uri.main.toList,c ≠ '?' ∧ c ≠ '#' := by
  intro c hc
  rw [toList_main] at hc
  rcases mem_append.1 hc with hc | hc
  · exact uri.userinfo_inside c hc
  · rcases mem_cons.1 hc with rfl | hc
    · decide
    · exact (uri.place_inside c hc).2

def front (uri : ShareUri) : String := uri.main++part "?" uri.query

theorem hash_not_mem_front : '#' ∉ uri.front.toList := by
  intro h
  rw [front,toList_append] at h
  rcases mem_append.1 h with h | h
  · exact (uri.main_inside _ h).2 rfl
  · cases hq : uri.query with
    | none =>
      rw [hq] at h
      exact nomatch h
    | some q =>
      rw [hq,part,toList_append] at h
      rcases mem_append.1 h with h | h
      · exact absurd h (by decide)
      · exact uri.query_inside q hq h

theorem toList_rest_of_fragment {f : String} (h : uri.fragment=some f) :
    uri.rest.toList=uri.front.toList ++ '#' :: f.toList := by
  rw [rest,h,part,← front,toList_append,toList_append]
  rfl

theorem rest_of_no_fragment (h : uri.fragment=none) : uri.rest=uri.front := by
  rw [rest,h,part,String.append_empty,front]

theorem withoutFragment_rest : withoutFragment uri.rest=uri.front := by
  unfold withoutFragment
  cases hf : uri.fragment with
  | none =>
    rw [uri.rest_of_no_fragment hf,splitOnce_of_not_mem uri.hash_not_mem_front]
  | some f =>
    rw [splitOnce_of_toList (uri.toList_rest_of_fragment hf) uri.hash_not_mem_front]

theorem headD_split_rest : (split uri.rest '#').headD uri.rest=uri.front := by
  cases hf : uri.fragment with
  | none =>
    rw [uri.rest_of_no_fragment hf,headD_split_of_not_mem uri.hash_not_mem_front]
  | some f => exact headD_split_of_toList (uri.toList_rest_of_fragment hf) uri.hash_not_mem_front _

theorem splitQuery_rest : splitQuery uri.rest=(uri.main,uri.query.getD "") := by
  unfold splitQuery
  rw [withoutFragment_rest]
  dsimp only
  have hmain : '?' ∉ uri.main.toList := fun h => (uri.main_inside _ h).1 rfl
  cases hq : uri.query with
  | none =>
    rw [front,hq,part,String.append_empty,splitOnce_of_not_mem hmain]
    rfl
  | some q =>
    have hfront : uri.front.toList=uri.main.toList ++ '?' :: q.toList := by
      rw [front,hq,part,toList_append,toList_append]
      rfl
    rw [splitOnce_of_toList hfront hmain]
    rfl

theorem rsplitOnce_main :
    rsplitOnce uri.main '@' = some (uri.userinfo.text,uri.hostPort++uri.slashText) :=
  rsplitOnce_of_toList uri.toList_main fun h => (uri.place_inside _ h).1 rfl

theorem getLast?_hostPort : uri.hostPort.toList.getLast?≠some '/' := by
  intro h
  exact (uri.hostPort_inside _ (mem_of_getLast? h)).2.1 rfl

theorem stripTrailingSlash_place :
    stripTrailingSlash (uri.hostPort++uri.slashText)=uri.hostPort := by
  unfold slashText
  split_ifs
  · exact stripTrailingSlash_append _
  · rw [String.append_empty]
    exact stripTrailingSlash_of_last uri.getLast?_hostPort

theorem hostPort_ne_empty : uri.hostPort ≠ "" := by
  intro h
  have hmem : ':' ∈ uri.hostPort.toList := by
    rw [hostPort,toList_append,toList_append]
    exact mem_append_right _ (mem_append_left _ (by decide))
  rw [h] at hmem
  exact nomatch hmem

theorem schemeOf_text : schemeOf uri.text=some (uri.scheme,uri.rest) := by
  have hknown := uri.known
  rw [text]
  generalize uri.start=start,uri.scheme=scheme,uri.rest=rest at hknown ⊢
  simp only [schemes,mem_cons,not_mem_nil,or_false,Prod.mk.injEq] at hknown
  rcases hknown with ⟨rfl,rfl⟩ | ⟨rfl,rfl⟩ | ⟨rfl,rfl⟩ | ⟨rfl,rfl⟩ | ⟨rfl,rfl⟩ | ⟨rfl,rfl⟩ |
    ⟨rfl,rfl⟩
  all_goals
    simp (disch := decide) only [schemeOf,schemes,findSome?_cons,stripStart_append,
      stripStart_of_differ,map_none,map_some]

end ShareUri

section Query

variable (n : NodeFields) (p : String×String)

theorem trojanQuery_toOutboundNode : (trojanQuery n p).toOutboundNode=n.toOutboundNode := by
  unfold trojanQuery
  split <;> rfl

theorem tuicQuery_toOutboundNode : (tuicQuery n p).toOutboundNode=n.toOutboundNode := by
  unfold tuicQuery
  split <;> rfl

theorem juicityQuery_toOutboundNode : (juicityQuery n p).toOutboundNode=n.toOutboundNode := by
  unfold juicityQuery
  split <;> rfl

theorem vmessQuery_toOutboundNode : (vmessQuery n p).toOutboundNode=n.toOutboundNode := by
  unfold vmessQuery
  split
  all_goals first | rfl | (split <;> rfl)

theorem foldl_toOutboundNode {step : NodeFields → String×String → NodeFields}
    (h : ∀ n p,(step n p).toOutboundNode=n.toOutboundNode) (pairs : List (String×String)) :
    ∀ n,(pairs.foldl step n).toOutboundNode=n.toOutboundNode := by
  induction pairs with
  | nil => exact fun n => rfl
  | cons p pairs ih =>
    intro n
    rw [foldl_cons,ih,h]

end Query

theorem value?_finishImport (complete : Bool) (url : String) (n : NodeFields) :
    value? (finishImport complete url n)=if complete then some n else none := by
  cases complete <;> rfl

namespace ShareUri

variable {uri : ShareUri} {env : ImportEnv} {name : String} {node : NodeFields}

def queryParts (uri : ShareUri) : List String := (split (uri.query.getD "") '&').filter (· ≠ "")

theorem splitUrl_rest (uri : ShareUri) :
    splitUrl uri.rest=(queryPairs uri.queryParts).map fun pairs => (uri.main,pairs) := by
  rw [splitUrl,splitQuery_rest,queryParts]

theorem readBack_iff : uri.ReadBack env name node ↔
    ∃ n,value? (parseImportUrl env name uri.text node)=some n ∧ n.address=uri.hostPort ∧
      uri.scheme.Holds node.toOutboundNode n.toOutboundNode uri.userinfo := by
  simp only [ReadBack,value?_eq_some_iff]

theorem readBack_iff_of_query (n₀ : NodeFields) {step : NodeFields → String×String → NodeFields}
    (hkeeps : ∀ n p,(step n p).toOutboundNode=n.toOutboundNode)
    (hparse : value? (parseImportUrl env name uri.text node) =
      (queryPairs uri.queryParts).map fun pairs => pairs.foldl step n₀)
    (haddress : n₀.address=uri.hostPort)
    (hholds : uri.scheme.Holds node.toOutboundNode n₀.toOutboundNode uri.userinfo ↔
      '%' ∉ uri.userinfo.text.toList) :
    uri.ReadBack env name node ↔
      '%' ∉ uri.userinfo.text.toList ∧ ∀ v∈queryValues (uri.query.getD ""),¬LoneQuote v := by
  rw [readBack_iff,hparse,queryValues,← queryParts,← queryPairs_ne_none_iff,← hholds]
  cases queryPairs uri.queryParts with
  | none => exact iff_of_false (fun h => nomatch h.choose_spec.1) fun h => h.2 rfl
  | some pairs =>
    have hsame := foldl_toOutboundNode hkeeps pairs n₀
    constructor
    · intro h
      obtain ⟨n,hn,-,hn'⟩ := h
      cases hn
      rw [hsame] at hn'
      exact ⟨hn',nofun⟩
    · intro h
      refine ⟨pairs.foldl step n₀,rfl,?_,?_⟩
      · rw [hsame]
        exact haddress
      · rw [hsame]
        exact h.1

theorem assignUser_main (set : String → NodeFields → NodeFields) (uri : ShareUri)
    (node : NodeFields) :
    assignUser set uri.main node =
      pure { set uri.userinfo.text node with address := uri.hostPort } := by
  rw [assignUser,rsliceFound_eq,rsplitOnce_main,orPanic_bind]
  dsimp only
  rw [stripTrailingSlash_place]

theorem readBack_trojan {w : Escaped} (hs : uri.scheme=.trojan) (hu : uri.userinfo=.word w) :
    uri.ReadBack env name node ↔
      '%' ∉ uri.userinfo.text.toList ∧ ∀ v∈queryValues (uri.query.getD ""),¬LoneQuote v := by
  refine readBack_iff_of_query { node with
    protocol := "trojan",password := some uri.userinfo.text,address := uri.hostPort }
    trojanQuery_toOutboundNode ?_ rfl ?_
  · rw [parseImportUrl,schemeOf_text,hs]
    dsimp only
    rw [parseTrojanImport,value?_bind,value?_orPanic,splitUrl_rest]
    cases queryPairs uri.queryParts with
    | none => rfl
    | some pairs =>
      simp only [map_some,bind_some,assignUser_main,pure_bind,
        value?_finishImport,foldl_toOutboundNode trojanQuery_toOutboundNode]
      rw [if_pos]
      simp [hostPort_ne_empty]
  · rw [hs,hu]
    exact w.some_text_eq_iff

theorem assignUuidPassword_main {first second : Escaped} {h : ':' ∉ first.text.toList}
    (hu : uri.userinfo=.pair first second h) (node : NodeFields) :
    assignUuidPassword uri.main node=pure { node with
      uuid := some first.text,password := some second.text,address := uri.hostPort } := by
  rw [assignUuidPassword,rsliceFound_eq,rsplitOnce_main,orPanic_bind]
  dsimp only
  rw [sliceFound_eq,hu,Userinfo.text,splitPat_pair h,orPanic_bind,
    stripTrailingSlash_place]

theorem pair_eq_iff (first second : Escaped) (h : ':' ∉ first.text.toList) :
    (some first.text=some first.value ∧ some second.text=some second.value) ↔
      '%' ∉ (Userinfo.pair first second h).text.toList := by
  rw [first.some_text_eq_iff,second.some_text_eq_iff,Userinfo.text,toList_append,
    toList_append,mem_append,mem_append,not_or,not_or]
  exact and_congr_right fun _ => ⟨fun h => ⟨by decide,h⟩,fun h => h.2⟩

theorem readBack_uuid {first second : Escaped} {h : ':' ∉ first.text.toList}
    {step : NodeFields → String×String → NodeFields} {protocol : String}
    (hkeeps : ∀ n p,(step n p).toOutboundNode=n.toOutboundNode)
    (hs : uri.scheme=.tuic ∨ uri.scheme=.juicity)
    (hparse : parseImportUrl env name uri.text node=parseUuidImport protocol step uri.rest node)
    (hu : uri.userinfo=.pair first second h) :
    uri.ReadBack env name node ↔
      '%' ∉ uri.userinfo.text.toList ∧ ∀ v∈queryValues (uri.query.getD ""),¬LoneQuote v := by
  refine readBack_iff_of_query { node with
    protocol,uuid := some first.text,password := some second.text,address := uri.hostPort }
    hkeeps ?_ rfl ?_
  · rw [hparse,parseUuidImport,value?_bind,value?_orPanic,splitUrl_rest]
    cases queryPairs uri.queryParts with
    | none => rfl
    | some pairs =>
      simp only [map_some,bind_some,assignUuidPassword_main hu,pure_bind,
        value?_finishImport,foldl_toOutboundNode hkeeps]
      rw [if_pos]
      simp [hostPort_ne_empty]
  · rw [hu]
    rcases hs with hs | hs
    all_goals
      rw [hs]
      exact pair_eq_iff first second h

end ShareUri

theorem base64Decode_eq_none {env : ImportEnv} (henv : env.StandardBase64) {s : String} {c : Char}
    (hc : c∈s.toList) (hspace : isWhitespace c=false) (hdigit : c∉Base64.standard)
    (hpad : c ≠ '=') : base64Decode env s=none := by
  unfold base64Decode
  dsimp only
  rw [bind_eq_none_iff]
  intro bytes hbytes
  have hmem := mem_trim hc hspace
  have hno := henv.rejects _ _ hbytes c
  split_ifs at hno
  · exact absurd (hno hmem) (not_or.2 ⟨hdigit,hpad⟩)
  · rw [toList_append] at hno
    exact absurd (hno (mem_append_left _ hmem)) (not_or.2 ⟨hdigit,hpad⟩)

namespace ShareUri

variable {uri : ShareUri} {env : ImportEnv} {name : String} {node : NodeFields}

theorem at_mem_front (uri : ShareUri) : '@' ∈ uri.front.toList := by
  rw [front,toList_append,toList_main]
  exact mem_append_left _ (mem_append_right _ mem_cons_self)

theorem at_mem_rest (uri : ShareUri) : '@' ∈ uri.rest.toList := by
  have h := at_mem_front uri
  rw [rest,← front,toList_append]
  exact mem_append_left _ h

theorem readBack_vmess (henv : env.StandardBase64) {w : Escaped} (hs : uri.scheme=.vmess)
    (hu : uri.userinfo=.word w) :
    uri.ReadBack env name node ↔
      '%' ∉ uri.userinfo.text.toList ∧ ∀ v∈queryValues (uri.query.getD ""),¬LoneQuote v := by
  have hjson : vmessJson env uri.rest=none := by
    rw [vmessJson,base64Decode_eq_none henv uri.at_mem_rest (by decide) (by decide) (by decide),
      bind_none]
  refine readBack_iff_of_query { node with
    protocol := "vmess",uuid := some uri.userinfo.text,address := uri.hostPort }
    vmessQuery_toOutboundNode ?_ rfl ?_
  · rw [parseImportUrl,schemeOf_text,hs]
    dsimp only
    rw [parseVmessImport,hjson]
    dsimp only
    rw [parseVmessUrl,value?_bind,value?_orPanic,splitUrl_rest]
    cases queryPairs uri.queryParts with
    | none => rfl
    | some pairs =>
      simp only [map_some,bind_some,assignUser_main,pure_bind,
        value?_finishImport,foldl_toOutboundNode vmessQuery_toOutboundNode]
      rw [if_pos]
      simp [hostPort_ne_empty]
  · rw [hs,hu]
    exact w.some_text_eq_iff

end ShareUri

theorem length_le_utf8ByteSize (l : List Char) : l.length≤(ofList l).utf8ByteSize := by
  induction l with
  | nil => exact Nat.zero_le _
  | cons c cs ih =>
    have hpos := c.utf8Size_pos
    rw [utf8ByteSize_ofList_cons,length_cons]
    omega

theorem size_le_base64Text (urlSafe padded : Bool) (s : String) :
    s.utf8ByteSize≤(base64Text urlSafe padded s).utf8ByteSize := by
  have hcode := Base64.length_le_encode (if urlSafe then Base64.urlSafe else Base64.standard) (utf8 s)
  rw [utf8,length_utf8,String.ofList_toList] at hcode
  have hpad (code : List Char) : code.length≤(if padded then Base64.pad code else code).length := by
    split_ifs
    · rw [Base64.pad,length_append]
      exact Nat.le_add_right _ _
    · exact Nat.le_refl _
  exact hcode.trans ((hpad _).trans (length_le_utf8ByteSize _))

theorem size_le_code {code : Escaped} {urlSafe padded : Bool} {s : String}
    (h : code.value=base64Text urlSafe padded s) : s.utf8ByteSize ≤ code.text.utf8ByteSize := by
  have hvalue := size_le_base64Text urlSafe padded s
  rw [← h] at hvalue
  exact hvalue.trans code.size_le

theorem size_lt_append (s t : String) :
    s.utf8ByteSize<(s++(String.singleton '@' ++ t)).utf8ByteSize := by
  rw [String.utf8ByteSize_append,String.utf8ByteSize_append,String.utf8ByteSize_singleton]
  have hpos := Char.utf8Size_pos '@'
  omega

theorem longer_ne_value (w : Escaped) (t : String) :
    some (w.text++(String.singleton '@' ++ t))≠some w.value := by
  intro heq
  have hlt := size_lt_append w.text t
  rw [Option.some.inj heq] at hlt
  exact absurd w.size_le (Nat.not_le.2 hlt)

namespace ShareUri

variable {uri : ShareUri} {env : ImportEnv} {name : String} {node : NodeFields}

theorem rsplitOnce_query (uri : ShareUri) (q : String) :
    ∃ x y,rsplitOnce (uri.main++("?" ++ q)) '@' = some (x,y) ∧
      ((x=uri.userinfo.text ∧ stripTrailingSlash y≠uri.hostPort) ∨
        ∃ t,x=uri.userinfo.text++(String.singleton '@' ++ t)) := by
  have hs : (uri.main++("?" ++ q)).toList=uri.userinfo.text.toList ++
      '@' :: (uri.hostPort++uri.slashText++("?" ++ q)).toList := by
    rw [toList_append,toList_main,append_assoc,cons_append,← toList_append]
  rcases rsplitOnce_cases hs with h | ⟨t,y,h⟩
  · refine ⟨_,_,h,.inl ⟨rfl,fun heq => ?_⟩⟩
    obtain ⟨q',hq'⟩ := stripTrailingSlash_query (uri.hostPort++uri.slashText) q
    have hmem : '?' ∈ uri.hostPort.toList := by
      rw [← heq,hq',toList_append,toList_append,toList_append]
      exact mem_append_right _ mem_cons_self
    exact (uri.hostPort_inside _ hmem).2.2.1 rfl
  · exact ⟨_,y,h,.inr ⟨t,rfl⟩⟩

theorem stripTrailingSlash_main (uri : ShareUri) :
    stripTrailingSlash uri.main=uri.userinfo.text++("@" ++ uri.hostPort) := by
  unfold main slashText
  split_ifs
  · have hassoc : uri.userinfo.text++("@" ++ (uri.hostPort ++ "/")) =
        uri.userinfo.text++("@" ++ uri.hostPort) ++ "/" := by
      rw [String.append_assoc,String.append_assoc]
    rw [hassoc,stripTrailingSlash_append]
  · rw [String.append_empty]
    refine stripTrailingSlash_of_last fun hlast => ?_
    rw [toList_append,toList_append,getLast?_append,getLast?_append] at hlast
    cases hc : uri.hostPort.toList.getLast? with
    | none => exact uri.hostPort_ne_empty (toList_inj.1 (getLast?_eq_none_iff.1 hc))
    | some c =>
      rw [hc,some_or,some_or] at hlast
      exact uri.getLast?_hostPort (hc.trans hlast)

section Socks5

variable {x y : String}

theorem value?_socks5_pair (hs : uri.scheme=.socks5)
    (hsplit : rsplitOnce (stripTrailingSlash uri.front) '@' = some (x,y)) {a b : String}
    (hcolon : splitPat x ":" = some (a,b)) :
    value? (parseImportUrl env name uri.text node)=some { node with
      protocol := "socks5",address := stripTrailingSlash y
      username := some a,password := some b } := by
  rw [parseImportUrl,schemeOf_text,hs]
  simp only [parseSocks5Import,withoutFragment_rest,rsliceFound_eq,hsplit,orPanic_bind,
    sliceFound_eq,hcolon,value?_pure]

theorem value?_socks5_user (hs : uri.scheme=.socks5)
    (hsplit : rsplitOnce (stripTrailingSlash uri.front) '@' = some (x,y))
    (hcolon : splitPat x ":" = none) :
    value? (parseImportUrl env name uri.text node)=some { node with
      protocol := "socks5",address := stripTrailingSlash y,username := some x } := by
  rw [parseImportUrl,schemeOf_text,hs]
  simp only [parseSocks5Import,withoutFragment_rest,rsliceFound_eq,hsplit,orPanic_bind,
    sliceFound_eq,hcolon,value?_pure]

theorem rsplitOnce_front (hq : uri.query=none) :
    rsplitOnce (stripTrailingSlash uri.front) '@' = some (uri.userinfo.text,uri.hostPort) := by
  have hfront : uri.front=uri.main := by rw [front,hq,part,String.append_empty]
  rw [hfront,stripTrailingSlash_main]
  refine rsplitOnce_of_toList ?_ fun h => (uri.hostPort_inside _ h).1 rfl
  rw [toList_append,toList_append]
  rfl

theorem front_of_query {q : String} (hq : uri.query=some q) : uri.front=uri.main++("?" ++ q) := by
  rw [front,hq,part]

theorem readBack_socks5_pair {first second : Escaped} {h : ':' ∉ first.text.toList}
    (hs : uri.scheme=.socks5) (hu : uri.userinfo=.pair first second h) :
    uri.ReadBack env name node ↔ '%' ∉ uri.userinfo.text.toList ∧ uri.query=none := by
  rw [readBack_iff]
  cases hq : uri.query with
  | none =>
    have hcolon : splitPat uri.userinfo.text ":" = some (first.text,second.text) := by
      rw [hu]
      exact splitPat_pair h second.text
    rw [value?_socks5_pair hs (rsplitOnce_front hq) hcolon,
      stripTrailingSlash_of_last uri.getLast?_hostPort,hs,hu,← pair_eq_iff]
    constructor
    · intro hread
      obtain ⟨n,hn,-,hholds⟩ := hread
      cases hn
      exact ⟨hholds,rfl⟩
    · intro hread
      exact ⟨_,rfl,rfl,hread.1⟩
  | some q =>
    refine iff_of_false (fun hread => ?_) fun hread => nomatch hread.2
    obtain ⟨q',hq'⟩ := stripTrailingSlash_query uri.main q
    obtain ⟨x,y,hsplit,hxy⟩ := uri.rsplitOnce_query q'
    rw [← hq',← front_of_query hq] at hsplit
    obtain ⟨n,hn,haddress,hholds⟩ := hread
    rcases hxy with ⟨hx,hy⟩ | ⟨t,hx⟩
    · have hcolon : splitPat x ":" = some (first.text,second.text) := by
        rw [hx,hu]
        exact splitPat_pair h second.text
      rw [value?_socks5_pair hs hsplit hcolon] at hn
      cases hn
      exact hy haddress
    · have hcolon : splitPat x ":" =some (first.text,second.text++(String.singleton '@' ++ t)) := by
        rw [hx,hu,Userinfo.text,String.append_assoc,String.append_assoc]
        exact splitPat_pair h _
      rw [value?_socks5_pair hs hsplit hcolon] at hn
      cases hn
      rw [hs,hu] at hholds
      exact longer_ne_value second t hholds.2

theorem readBack_socks5_user {w : Escaped} (hw : ':' ∉ w.text.toList) (hs : uri.scheme=.socks5)
    (hu : uri.userinfo=.word w) :
    uri.ReadBack env name node ↔ '%' ∉ uri.userinfo.text.toList ∧ uri.query=none := by
  rw [readBack_iff]
  have hcolon : splitPat uri.userinfo.text ":" = none := by
    rw [hu]
    exact splitPat_of_not_mem hw
  cases hq : uri.query with
  | none =>
    rw [value?_socks5_user hs (rsplitOnce_front hq) hcolon,
      stripTrailingSlash_of_last uri.getLast?_hostPort,hs,hu]
    constructor
    · intro hread
      obtain ⟨n,hn,-,hholds⟩ := hread
      cases hn
      exact ⟨w.some_text_eq_iff.1 hholds.1,rfl⟩
    · intro hread
      exact ⟨_,rfl,rfl,w.some_text_eq_iff.2 hread.1,rfl⟩
  | some q =>
    refine iff_of_false (fun hread => ?_) fun hread => nomatch hread.2
    obtain ⟨q',hq'⟩ := stripTrailingSlash_query uri.main q
    obtain ⟨x,y,hsplit,hxy⟩ := uri.rsplitOnce_query q'
    rw [← hq',← front_of_query hq] at hsplit
    obtain ⟨n,hn,haddress,hholds⟩ := hread
    rw [hs,hu] at hholds
    rcases hxy with ⟨rfl,hy⟩ | ⟨t,rfl⟩
    · rw [value?_socks5_user hs hsplit hcolon] at hn
      cases hn
      exact hy haddress
    · -- what is taken for the user name goes on behind the name
      have hat : ':' ∉ (w.text++String.singleton '@').toList := by
        rw [toList_append,mem_append]
        exact not_or.2 ⟨hw,by decide⟩
      have hfound := splitPat_append hat t
      rw [String.append_assoc] at hfound
      rw [hu,Userinfo.text] at hsplit
      cases ht : splitPat t ":" with
      | none =>
        rw [ht] at hfound
        rw [value?_socks5_user hs hsplit hfound] at hn
        cases hn
        exact longer_ne_value w t hholds.1
      | some r =>
        rw [ht,map_some,String.append_assoc] at hfound
        rw [value?_socks5_pair hs hsplit hfound] at hn
        cases hn
        exact longer_ne_value w r.1 hholds.1

end Socks5

end ShareUri

end DaeRs.Config
