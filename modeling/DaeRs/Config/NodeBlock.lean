import DaeRs.Config.NodeSetters

/-! The block of a node, and whether the order of its lines matters. -/

namespace DaeRs.Config

open Panicking RustStr List

/-- A line of a node block, by what is read of it. -/
inductive NodeLine where
  | blank
  | link (text : String)
  | field (key value : String)
  | malformed
  deriving DecidableEq

def content (raw : String) : String := trim (commentFree raw)

def nodeLine (raw : String) : NodeLine :=
  if content raw = "" || startsWith (content raw) "#" then .blank
  else
    match Parser.importLink (content raw) with
    | some text => .link text
    | none =>
      match kvOf (content raw) with
      | some (key,value) => .field key value
      | none => .malformed

namespace NodeLine

def isLink : NodeLine → Bool
  | link _ => true
  | _ => false

def url? : NodeLine → Option String
  | link text => unquote text
  | _ => none

def namesField : NodeLine → Bool
  | field key _ => (nodeFields.field key).isSome
  | _ => false

def readable : NodeLine → Bool
  | blank => true
  | link text => (unquote text).isSome
  | field key value => (nodeFields.setter key value).isSome
  | malformed => false

end NodeLine

/-- A node under way, with its last import link. -/
structure NodeDraft where
  node : NodeFields
  link : Option String

namespace NodeDraft

def new (name : String) : NodeDraft := ⟨.named name,none⟩

def read (d : NodeDraft) : NodeLine → Option NodeDraft
  | .blank => some d
  | .link text => (unquote text).map fun url => { d with link := some url }
  | .field key value =>
    if d.link.isSome then none
    else (nodeFields.setter key value).map fun set => { d with node := set d.node }
  | .malformed => none

def readAll (d : NodeDraft) : List NodeLine → Option NodeDraft
  | [] => some d
  | l::ls => (d.read l).bind fun d => d.readAll ls

def finish (env : ImportEnv) (name : String) (d : NodeDraft) : Option NodeFields :=
  match d.link with
  | some url => value? (parseImportUrl env name url d.node)
  | none => some d.node

theorem readable_of_read {d d' : NodeDraft} {l : NodeLine} (h : d.read l=some d') :
    l.readable=true := by
  cases l with
  | blank => rfl
  | link text =>
    obtain ⟨url,hurl,-⟩ := Option.map_eq_some_iff.1 h
    exact Option.isSome_of_mem hurl
  | field key value =>
    rw [read] at h
    split_ifs at h
    obtain ⟨set,hset,-⟩ := Option.map_eq_some_iff.1 h
    exact Option.isSome_of_mem hset
  | malformed => exact nomatch h

theorem readable_of_readAll {ls : List NodeLine} :
    ∀ {d d' : NodeDraft},d.readAll ls=some d' → ∀ l∈ls,l.readable=true := by
  induction ls with
  | nil => exact fun _ => forall_mem_nil _
  | cons l ls ih =>
    intro d d' h
    obtain ⟨next,hnext,hrest⟩ := Option.bind_eq_some_iff.1 h
    exact forall_mem_cons.2 ⟨readable_of_read hnext,ih hrest⟩

theorem link_eq_of_read {d d' : NodeDraft} {l : NodeLine} (h : d.read l=some d')
    (hl : l.isLink=false) : d'.link=d.link := by
  cases l with
  | blank =>
    cases h
    rfl
  | link text => exact nomatch hl
  | field key value =>
    rw [read] at h
    split_ifs at h
    obtain ⟨set,-,rfl⟩ := Option.map_eq_some_iff.1 h
    rfl
  | malformed => exact nomatch h

theorem readAll_of_no_link {ls : List NodeLine} :
    ∀ {d : NodeDraft},d.link=none → (∀ l∈ls,l.readable=true) →
      (∀ l∈ls,l.isLink=false) → ∃ d',d.readAll ls=some d' ∧ d'.link=none := by
  induction ls with
  | nil => exact fun {d} hd _ _ => ⟨d,rfl,hd⟩
  | cons l ls ih =>
    intro d hd hreadable hlink
    have hl := hreadable l mem_cons_self
    have hnot := hlink l mem_cons_self
    obtain ⟨next,hnext⟩ : ∃ next,d.read l=some next := by
      cases l with
      | blank => exact ⟨d,rfl⟩
      | link text => exact nomatch hnot
      | field key value =>
        obtain ⟨set,hset⟩ := Option.isSome_iff_exists.1 hl
        refine ⟨{ d with node := set d.node },?_⟩
        rw [read,hd,Option.isSome_none,if_neg Bool.false_ne_true,hset,Option.map_some]
      | malformed => exact nomatch hl
    obtain ⟨d',hrest,hd'⟩ := ih (d := next) ((link_eq_of_read hnext hnot).trans hd)
      (fun l h => hreadable l (mem_cons_of_mem _ h))
      (fun l h => hlink l (mem_cons_of_mem _ h))
    refine ⟨d',?_,hd'⟩
    rw [readAll,hnext,Option.bind_some,hrest]

theorem readAll_of_no_field {ls : List NodeLine} :
    ∀ {d : NodeDraft},(∀ l∈ls,l.readable=true) → (∀ l∈ls,l.namesField=false) →
      d.readAll ls=some ⟨d.node,(ls.filterMap NodeLine.url?).getLast?.or d.link⟩ := by
  induction ls with
  | nil => exact fun _ _ => rfl
  | cons l ls ih =>
    intro d hreadable hfield
    have hl := hreadable l mem_cons_self
    have hnot := hfield l mem_cons_self
    have hrest (d : NodeDraft) := ih (d := d) (fun l h => hreadable l (mem_cons_of_mem _ h))
      (fun l h => hfield l (mem_cons_of_mem _ h))
    cases l with
    | blank =>
      rw [readAll,read,Option.bind_some,hrest,filterMap_cons_none rfl]
    | link text =>
      obtain ⟨url,hurl⟩ := Option.isSome_iff_exists.1 hl
      have hlink : (NodeLine.link text).url?=some url := hurl
      rw [readAll,read,hurl,Option.map_some,Option.bind_some,hrest,
        filterMap_cons_some hlink,getLast?_cons,Option.some_or]
      cases (ls.filterMap NodeLine.url?).getLast? <;> rfl
    | field key value =>
      -- a field that is set is one that nodes have
      have hnone : nodeFields.field key=none :=
        Option.not_isSome_iff_eq_none.1 (Bool.eq_false_iff.1 hnot)
      rw [NodeLine.readable,Fields.setter,hnone] at hl
      exact nomatch hl
    | malformed => exact nomatch hl

end NodeDraft

def kvError (number : Nat) (line : String) : ParseError :=
  if (splitPat line ":").isSome then .syntaxError number s!"empty key name: '{line}'"
  else .syntaxError number s!"expected `key: value` format, got: '{line}'"

theorem parseKvPair_of_kvOf {α : Type} {line key value : String} (h : kvOf line=some (key,value))
    (number : Nat) (f : String → String → Parse α) : parseKvPair line number f=f key value := by
  unfold parseKvPair
  unfold kvOf at h
  rw [sliceFound_eq,orPanic_bind]
  cases hfound : splitPat line ":" with
  | none =>
    rw [hfound] at h
    exact nomatch h
  | some p =>
    rw [hfound] at h
    dsimp only at h ⊢
    split_ifs at h with hkey
    cases h
    rw [if_neg hkey]

theorem parseKvPair_of_kvOf_none {α : Type} {line : String} (h : kvOf line=none) (number : Nat)
    (f : String → String → Parse α) : parseKvPair line number f=throw (kvError number line) := by
  unfold parseKvPair kvError
  unfold kvOf at h
  rw [sliceFound_eq,orPanic_bind]
  cases hfound : splitPat line ":" with
  | none => rfl
  | some p =>
    rw [hfound] at h
    dsimp only at h ⊢
    split_ifs at h with hkey
    rw [if_pos hkey]
    rfl

def Parser.inNode (p : Parser) (name : String) (d : NodeDraft) : Parser :=
  { p with currentNode := d.node,importUrl := d.link,state := .outboundNode name }

namespace Parser

variable (env : ImportEnv) (p : Parser) (name : String)

theorem step_eq (number : Nat) (raw : String) : p.step env number raw =
      if content raw = "" || startsWith (content raw) "#" then pure p
      else p.stepLine env number (content raw) := by
  rw [step,stripInlineComment_eq,orPanic_bind]
  rfl

theorem steps_append (number : Nat) (first second : List String) :
    ∀ p : Parser,p.steps env number (first++second) =
      p.steps env number first >>= fun q => q.steps env (number+first.length) second := by
  induction first generalizing number with
  | nil => exact fun p => (pure_bind _ _).symm
  | cons raw raws ih =>
    intro p
    rw [cons_append,steps,steps,bind_assoc]
    refine congrArg _ (funext fun q => ?_)
    rw [ih,length_cons,Nat.add_right_comm,Nat.add_assoc]

variable {env p name}

section Step

variable {d : NodeDraft} {line : String} (number : Nat)

theorem stepOutboundNode_link {text : String} (hclose : closes line=false)
    (h : importLink line=some text) :
    (p.inNode name d).stepOutboundNode env name number line =
      orPanic (unquote text) >>= fun url => pure (p.inNode name { d with link := some url }) := by
  rw [stepOutboundNode,hclose,if_neg Bool.false_ne_true,parseImportLine,h]
  dsimp only
  cases unquote text <;> rfl

theorem stepOutboundNode_no_link (hclose : closes line=false) (h : importLink line=none) :
    (p.inNode name d).stepOutboundNode env name number line =
      parseKvPair line number ((p.inNode name d).nodeField name number) >>= fun node =>
        pure (p.inNode name { d with node }) := by
  rw [stepOutboundNode,hclose,if_neg Bool.false_ne_true,parseImportLine,h]
  rfl

def readLine (p : Parser) (name : String) (number : Nat) (line : String) (d : NodeDraft) :
    NodeLine → Parse Parser
  | .blank => pure (p.inNode name d)
  | .link text =>
    orPanic (unquote text) >>= fun url => pure (p.inNode name { d with link := some url })
  | .field key value =>
    (p.inNode name d).nodeField name number key value >>= fun node =>
      pure (p.inNode name { d with node })
  | .malformed => throw (kvError number line)

theorem step_inNode {raw : String} (hclose : closes (content raw)=false) :
    (p.inNode name d).step env number raw=p.readLine name number (content raw) d (nodeLine raw) := by
  rw [step_eq,nodeLine]
  split_ifs with hskip
  · rfl
  · rw [stepLine]
    change (p.inNode name d).stepOutboundNode env name number (content raw)=_
    cases hlink : importLink (content raw) with
    | some text => exact stepOutboundNode_link number hclose hlink
    | none =>
      rw [stepOutboundNode_no_link number hclose hlink]
      cases hkv : kvOf (content raw) with
      | some kv => rw [parseKvPair_of_kvOf hkv,readLine]
      | none =>
        rw [parseKvPair_of_kvOf_none hkv]
        rfl

theorem value?_step_inNode {raw : String} (hclose : closes (content raw)=false) :
    value? ((p.inNode name d).step env number raw) =
      (d.read (nodeLine raw)).map (p.inNode name) := by
  rw [step_inNode number hclose]
  cases nodeLine raw with
  | blank => rfl
  | link text =>
    rw [readLine,NodeDraft.read,value?_bind,value?_orPanic]
    cases unquote text <;> rfl
  | field key value =>
    rw [readLine,NodeDraft.read,value?_bind,nodeField]
    change (value? (if d.link.isSome then _ else nodeFields.apply number d.node key value)).bind _=_
    split_ifs
    · rfl
    · rw [value?_nodeFields_apply]
      cases nodeFields.setter key value <;> rfl
  | malformed => rfl

theorem errorsIn_step_inNode {raw : String} (hclose : closes (content raw)=false)
    (h : d.link=none ∨ (nodeLine raw).isLink=true) :
    ErrorsIn ParseError.NoConflict ((p.inNode name d).step env number raw) := by
  rw [step_inNode number hclose]
  cases hline : nodeLine raw with
  | blank => exact errorsIn_pure _
  | link text => exact errorsIn_bind (errorsIn_orPanic _) fun url _ => errorsIn_pure _
  | field key value =>
    rw [hline] at h
    have hlink : d.link=none := h.resolve_right nofun
    refine errorsIn_bind ?_ fun node _ => errorsIn_pure _
    rw [nodeField]
    change ErrorsIn _ (if d.link.isSome then _ else nodeFields.apply number d.node key value)
    rw [hlink,Option.isSome_none,if_neg Bool.false_ne_true]
    exact errorsIn_nodeFields_apply number d.node key value
  | malformed =>
    refine errorsIn_throw ?_
    unfold kvError
    split_ifs
    · exact nofun
    · exact nofun

end Step

theorem value?_steps_inNode {lines : List String} :
    ∀ {d : NodeDraft} (number : Nat),(∀ raw∈lines,closes (content raw)=false) →
      value? ((p.inNode name d).steps env number lines) =
        (d.readAll (lines.map nodeLine)).map (p.inNode name) := by
  induction lines with
  | nil => exact fun _ _ => rfl
  | cons raw raws ih =>
    intro d number hclose
    obtain ⟨hraw,hraws⟩ := forall_mem_cons.1 hclose
    rw [steps,value?_bind,value?_step_inNode number hraw,map_cons,NodeDraft.readAll]
    cases d.read (nodeLine raw) with
    | none => rfl
    | some next => exact ih (number+1) hraws

theorem content_close : content "\x7d" = "\x7d" := by decide

theorem step_close (d : NodeDraft) (number : Nat) : (p.inNode name d).step env number "\x7d" =
      (p.inNode name d).finishNode env name >>= fun node => pure { p with
        config := { p.config with nodes := p.config.nodes++[node] }
        currentNode := .named ""
        importUrl := d.link
        state := .outboundNodes } := by
  rw [step_eq,content_close]
  rfl

theorem isSome_step_close (d : NodeDraft) (number : Nat) :
    (value? ((p.inNode name d).step env number "\x7d")).isSome=(d.finish env name).isSome := by
  rw [step_close,value?_bind]
  have hfinish : value? ((p.inNode name d).finishNode env name)=d.finish env name := by
    unfold finishNode NodeDraft.finish inNode
    dsimp only
    cases d.link <;> rfl
  rw [hfinish]
  cases d.finish env name <;> rfl

theorem errorsIn_step_close (d : NodeDraft) (number : Nat) :
    ErrorsIn ParseError.NoConflict ((p.inNode name d).step env number "\x7d") := by
  rw [step_close]
  refine errorsIn_bind ?_ fun node _ => errorsIn_pure _
  unfold finishNode
  split
  · exact errorsIn_parseImportUrl env name _ _
  · exact errorsIn_pure _

theorem errorsIn_steps_links_last {lines : List String} :
    ∀ {d : NodeDraft} (number : Nat),(∀ raw∈lines,closes (content raw)=false) →
      lines.Pairwise (fun a b => (nodeLine a).isLink=true → (nodeLine b).isLink=true) →
      (d.link=none ∨ ∀ raw∈lines,(nodeLine raw).isLink=true) →
      ErrorsIn ParseError.NoConflict
        ((p.inNode name d).steps env number (lines++["\x7d"])) := by
  induction lines with
  | nil =>
    intro d number _ _ _
    rw [nil_append,steps]
    exact errorsIn_bind (errorsIn_step_close d number) fun q _ => errorsIn_pure q
  | cons raw raws ih =>
    intro d number hclose hlast hlink
    obtain ⟨hraw,hraws⟩ := forall_mem_cons.1 hclose
    obtain ⟨hafter,hlast⟩ := pairwise_cons.1 hlast
    rw [cons_append,steps]
    refine errorsIn_bind ?_ fun q hq => ?_
    · refine errorsIn_step_inNode number hraw ?_
      exact hlink.imp_right fun h => h raw mem_cons_self
    · -- the parser is still in the block, with the draft that the line left
      have hval : value? ((p.inNode name d).step env number raw)=_ := value?_step_inNode number hraw
      rw [hq,value?_pure] at hval
      obtain ⟨next,hnext,rfl⟩ := Option.map_eq_some_iff.1 hval.symm
      refine ih (number+1) hraws hlast ?_
      cases hkind : (nodeLine raw).isLink with
      | true => exact .inr fun raw' h => hafter raw' h hkind
      | false =>
        rcases hlink with hnone | hall
        · exact .inl ((NodeDraft.link_eq_of_read hnext hkind).trans hnone)
        · exact .inr fun raw' h => hall raw' (mem_cons_of_mem _ h)

end Parser

/-- The lines between the braces of a node. -/
structure NodeBlock where
  lines : List String
  inside : ∀ raw∈lines,Parser.closes (content raw)=false

namespace NodeBlock

theorem inside_of_perm {b : NodeBlock} {lines : List String} (h : lines.Perm b.lines) :
    ∀ raw∈lines,Parser.closes (content raw)=false :=
  fun raw hraw => b.inside raw (h.mem_iff.1 hraw)

def reorder (b : NodeBlock) (lines : List String) (h : lines.Perm b.lines) : NodeBlock :=
  ⟨lines,inside_of_perm h⟩

variable (env : ImportEnv) (p : Parser) (name : String) (number : Nat)

def parse (b : NodeBlock) : Parse Parser :=
  (p.inNode name (.new name)).steps env number (b.lines++["\x7d"])

def accepts (b : NodeBlock) : Bool := (value? (b.parse env p name number)).isSome

def Mixed (b : NodeBlock) : Prop := (∃ raw∈b.lines,(nodeLine raw).isLink=true) ∧
    ∃ raw∈b.lines,(nodeLine raw).namesField=true

/-- The order of the lines does not matter, and a link beside a field is a conflict. -/
def OrderFree (b : NodeBlock) : Prop := ∀ b' : NodeBlock,b'.lines.Perm b.lines →
    b'.accepts env p name number=b.accepts env p name number ∧
      (b.Mixed → b'.parse env p name number=throw (.importConflict name))

def HasBadLine (b : NodeBlock) : Prop := ∃ raw∈b.lines,(nodeLine raw).readable=false

def urls (b : NodeBlock) : List String := (b.lines.map nodeLine).filterMap NodeLine.url?

def importable (url : String) : Bool := (value? (parseImportUrl env name url (.named name))).isSome

def LinksAgree (b : NodeBlock) : Prop :=
  ∀ url∈b.urls,∀ url'∈b.urls,importable env name url=importable env name url'

variable {env p name number} {b : NodeBlock}

/-- The parser's own loop comes to the block by the line that declares the node. -/
theorem steps_declared (b : NodeBlock) {raw : String} (hstate : p.state=.outboundNodes)
    (hskip : (content raw = "" || startsWith (content raw) "#")=false)
    (hclose : Parser.closes (content raw)=false)
    (hname : Parser.entryName (content raw)=some name) :
    p.steps env number (raw::(b.lines++["\x7d"]))=b.parse env p name (number+1) := by
  have hstep : p.step env number raw=pure (p.inNode name (.new name)) := by
    rw [Parser.step_eq,hskip,if_neg Bool.false_ne_true,Parser.stepLine,hstate]
    dsimp only
    rw [Parser.stepOutboundNodes,Parser.stepEntries,hclose,if_neg Bool.false_ne_true,hname]
    rfl
  rw [Parser.steps,hstep,pure_bind,parse]

theorem accepts_eq (b : NodeBlock) : b.accepts env p name number =
      (((NodeDraft.new name).readAll (b.lines.map nodeLine)).bind
        (NodeDraft.finish env name)).isSome := by
  unfold accepts parse
  rw [Parser.steps_append,value?_bind,Parser.value?_steps_inNode number b.inside]
  cases (NodeDraft.new name).readAll (b.lines.map nodeLine) with
  | none => rfl
  | some d =>
    have hclose : (value? ((p.inNode name d).step env (number+b.lines.length) "\x7d")).isSome =
        (d.finish env name).isSome := Parser.isSome_step_close d _
    rw [Option.map_some,Option.bind_some,Option.bind_some,← hclose,Parser.steps,value?_bind]
    cases value? ((p.inNode name d).step env (number+b.lines.length) "\x7d") <;> rfl

theorem readable_of_accepts (h : b.accepts env p name number=true) :
    ∀ raw∈b.lines,(nodeLine raw).readable=true := by
  rw [accepts_eq] at h
  obtain ⟨node,hnode⟩ := Option.isSome_iff_exists.1 h
  obtain ⟨d,hd,-⟩ := Option.bind_eq_some_iff.1 hnode
  exact forall_mem_map.1 (NodeDraft.readable_of_readAll hd)

theorem exists_order_without_conflict (b : NodeBlock) : ∃ b' : NodeBlock,
    b'.lines.Perm b.lines ∧ b'.parse env p name number≠throw (.importConflict name) := by
  have hperm : (b.lines.filter (fun raw => !(nodeLine raw).isLink) ++
      b.lines.filter fun raw => (nodeLine raw).isLink).Perm b.lines :=
    perm_append_comm.trans (filter_append_perm _ _)
  refine ⟨b.reorder _ hperm,hperm,fun h => ?_⟩
  refine Parser.errorsIn_steps_links_last number (inside_of_perm hperm) ?_ (.inl rfl) _ h name rfl
  refine pairwise_append.2 ⟨?_,?_,?_⟩
  · refine pairwise_of_forall_mem_list fun raw hraw raw' _ hlink => ?_
    have hnot := (mem_filter.1 hraw).2
    rw [hlink] at hnot
    exact nomatch hnot
  · exact pairwise_of_forall_mem_list fun _ _ raw' hraw' _ => (mem_filter.1 hraw').2
  · exact fun _ _ raw' hraw' _ => (mem_filter.1 hraw').2

theorem exists_of_mem_urls {url : String} (h : url∈b.urls) :
    ∃ raw∈b.lines,(nodeLine raw).url?=some url := by
  obtain ⟨l,hl,hurl⟩ := mem_filterMap.1 h
  obtain ⟨raw,hraw,rfl⟩ := mem_map.1 hl
  exact ⟨raw,hraw,hurl⟩

section Readable

variable (hreadable : ∀ raw∈b.lines,(nodeLine raw).readable=true)
include hreadable

theorem accepts_of_no_link
    (hlink : ∀ raw∈b.lines,(nodeLine raw).isLink=false) :
    b.accepts env p name number=true := by
  obtain ⟨d,hd,hnone⟩ := NodeDraft.readAll_of_no_link (d := .new name) rfl
    (forall_mem_map.2 hreadable) (forall_mem_map.2 hlink)
  rw [accepts_eq,hd,Option.bind_some,NodeDraft.finish,hnone,Option.isSome_some]

theorem accepts_of_no_field
    (hfield : ∀ raw∈b.lines,(nodeLine raw).namesField=false) :
    b.accepts env p name number =
      (NodeDraft.finish env name ⟨.named name,b.urls.getLast?⟩).isSome := by
  rw [accepts_eq,NodeDraft.readAll_of_no_field (forall_mem_map.2 hreadable)
    (forall_mem_map.2 hfield),Option.bind_some,urls]
  simp only [NodeDraft.new,Option.or_none]

theorem urls_ne_nil
    (h : ∃ raw∈b.lines,(nodeLine raw).isLink=true) : ∃ url,url∈b.urls := by
  obtain ⟨raw,hraw,hlink⟩ := h
  have hread := hreadable raw hraw
  obtain ⟨url,hurl⟩ : ∃ url,(nodeLine raw).url?=some url := by
    cases hline : nodeLine raw with
    | link text =>
      rw [hline] at hread
      exact Option.isSome_iff_exists.1 hread
    | _ =>
      rw [hline] at hlink
      exact nomatch hlink
  exact ⟨url,mem_filterMap.2 ⟨nodeLine raw,mem_map_of_mem hraw,hurl⟩⟩

theorem exists_order_with_last_link
    (hfield : ∀ raw∈b.lines,(nodeLine raw).namesField=false) {url : String}
    (h : url∈b.urls) : ∃ b' : NodeBlock,
      b'.lines.Perm b.lines ∧ b'.accepts env p name number=importable env name url := by
  obtain ⟨raw,hraw,hurl⟩ := exists_of_mem_urls h
  have hperm : (b.lines.erase raw++[raw]).Perm b.lines :=
    (perm_append_singleton raw _).trans (perm_cons_erase hraw).symm
  refine ⟨b.reorder _ hperm,hperm,?_⟩
  have hlast : (b.reorder _ hperm).urls.getLast?=some url := by
    rw [urls,reorder,map_append,map_singleton,filterMap_append,
      filterMap_cons_some hurl,filterMap_nil,getLast?_concat]
  rw [accepts_of_no_field (b := b.reorder _ hperm)
    (fun raw h => hreadable raw (hperm.mem_iff.1 h))
    (fun raw h => hfield raw (hperm.mem_iff.1 h)),hlast]
  rfl

theorem accepts_of_linksAgree
    (hfield : ∀ raw∈b.lines,(nodeLine raw).namesField=false) (hagree : b.LinksAgree env name)
    {url : String} (h : url∈b.urls) :
    b.accepts env p name number=importable env name url := by
  have hlast := getLast?_eq_some_getLast (ne_nil_of_mem h)
  rw [accepts_of_no_field hreadable hfield,hlast]
  exact hagree _ (getLast_mem _) url h

end Readable

theorem isLink_of_mem_urls {url : String} (h : url∈b.urls) :
    ∃ raw∈b.lines,(nodeLine raw).isLink=true := by
  obtain ⟨raw,hraw,hurl⟩ := exists_of_mem_urls h
  refine ⟨raw,hraw,?_⟩
  cases hline : nodeLine raw with
  | link text => rfl
  | _ =>
    rw [hline] at hurl
    exact nomatch hurl

theorem no_field_of_not_mixed (hmixed : ¬b.Mixed) (h : ∃ raw∈b.lines,(nodeLine raw).isLink=true) :
    ∀ raw∈b.lines,(nodeLine raw).namesField=false := by
  intro raw hraw
  exact Bool.eq_false_iff.2 fun hfield => hmixed ⟨h,raw,hraw,hfield⟩

theorem readable_of_not_hasBadLine (h : ¬b.HasBadLine) :
    ∀ raw∈b.lines,(nodeLine raw).readable=true := by
  intro raw hraw
  exact Bool.not_eq_false _ ▸ fun hbad => h ⟨raw,hraw,hbad⟩

theorem accepts_of_hasBadLine (h : b.HasBadLine) : b.accepts env p name number=false := by
  obtain ⟨raw,hraw,hbad⟩ := h
  refine Bool.eq_false_iff.2 fun haccepts => ?_
  rw [readable_of_accepts haccepts raw hraw] at hbad
  exact nomatch hbad

/-- The order of the lines does not matter just for blocks that are not both imported and written
out, and have a bad line or links all good or all bad. -/
theorem orderFree_iff (b : NodeBlock) :
    b.OrderFree env p name number ↔ ¬b.Mixed ∧ (b.HasBadLine ∨ b.LinksAgree env name) := by
  constructor
  · intro h
    have hmixed : ¬b.Mixed := by
      intro hmixed
      obtain ⟨b',hperm,hne⟩ : ∃ b' : NodeBlock,b'.lines.Perm b.lines ∧
          b'.parse env p name number≠throw (.importConflict name) :=
        exists_order_without_conflict b
      exact hne ((h b' hperm).2 hmixed)
    refine ⟨hmixed,or_iff_not_imp_left.2 fun hbad url hurl url' hurl' => ?_⟩
    have hreadable := readable_of_not_hasBadLine hbad
    have hfield := no_field_of_not_mixed hmixed (isLink_of_mem_urls hurl)
    -- the block is accepted if one link is good, and if the other is
    obtain ⟨b₁,hperm₁,h₁⟩ : ∃ b₁ : NodeBlock,b₁.lines.Perm b.lines ∧
        b₁.accepts env p name number=importable env name url :=
      exists_order_with_last_link hreadable hfield hurl
    obtain ⟨b₂,hperm₂,h₂⟩ : ∃ b₂ : NodeBlock,b₂.lines.Perm b.lines ∧
        b₂.accepts env p name number=importable env name url' :=
      exists_order_with_last_link hreadable hfield hurl'
    rw [← h₁,← h₂,(h b₁ hperm₁).1,(h b₂ hperm₂).1]
  · intro h b' hperm
    obtain ⟨hmixed,hlines⟩ := h
    refine ⟨?_,fun h => absurd h hmixed⟩
    by_cases hbad : b.HasBadLine
    · have hbad' : b'.HasBadLine := by
        obtain ⟨raw,hraw,h⟩ := hbad
        exact ⟨raw,hperm.mem_iff.2 hraw,h⟩
      rw [accepts_of_hasBadLine hbad,accepts_of_hasBadLine hbad']
    · have hagree := hlines.resolve_left hbad
      have hreadable := readable_of_not_hasBadLine hbad
      have hreadable' : ∀ raw∈b'.lines,(nodeLine raw).readable=true :=
        fun raw h => hreadable raw (hperm.mem_iff.1 h)
      by_cases hlink : ∃ raw∈b.lines,(nodeLine raw).isLink=true
      · have hfield := no_field_of_not_mixed hmixed hlink
        obtain ⟨url,hurl⟩ := urls_ne_nil hreadable hlink
        have hurls : ∀ {url},url∈b'.urls ↔ url∈b.urls :=
          ((hperm.map nodeLine).filterMap NodeLine.url?).mem_iff
        rw [accepts_of_linksAgree hreadable hfield hagree hurl,
          accepts_of_linksAgree hreadable' (fun raw h => hfield raw (hperm.mem_iff.1 h))
            (fun u hu u' hu' => hagree u (hurls.1 hu) u' (hurls.1 hu')) (hurls.2 hurl)]
      · have hno : ∀ raw∈b.lines,(nodeLine raw).isLink=false :=
          fun raw hraw => Bool.eq_false_iff.2 fun h => hlink ⟨raw,hraw,h⟩
        rw [accepts_of_no_link hreadable hno,
          accepts_of_no_link hreadable' fun raw h => hno raw (hperm.mem_iff.1 h)]

def fieldThenLink : List String := ["password: x", "import: trojan://p@h:443"]

theorem inside_fieldThenLink : ∀ raw∈fieldThenLink,Parser.closes (content raw)=false := by
  decide

theorem reverse_fieldThenLink : fieldThenLink.reverse.Perm fieldThenLink :=
  reverse_perm fieldThenLink

def daefileOf (lines : List String) : String :=
  "outbounds \x7b\nnodes \x7b\nmain \x7b\n" ++ "\n".intercalate lines ++ "\n\x7d\n\x7d\n\x7d"

/-- A field before the link is accepted, and dropped; the same field after it is a conflict. -/
theorem field_before_link_accepted :
    let env : ImportEnv := ⟨fun _ => none,fun _ => none⟩
    let block : NodeBlock := ⟨fieldThenLink,inside_fieldThenLink⟩
    block.Mixed ∧ block.accepts env .new "main" 4=true ∧
      (block.reorder _ reverse_fieldThenLink).parse env .new "main" 4 =
        throw (.importConflict "main") ∧
      ¬block.OrderFree env .new "main" 4 ∧
      ((value? (parseDaefile ⟨env,id⟩ (daefileOf fieldThenLink))).map fun file =>
        file.nodes.map fun node => (node.address,node.password))=some [("h:443",some "p")] ∧
      parseDaefile ⟨env,id⟩ (daefileOf fieldThenLink.reverse) =throw (.importConflict "main") := by
  intro env block
  have hmixed : block.Mixed :=
    ⟨⟨"import: trojan://p@h:443",by decide,by decide⟩, "password: x",by decide,by decide⟩
  have haccepts : block.accepts env .new "main" 4=true := by decide +kernel
  refine ⟨hmixed,haccepts,rfl,fun h => ?_,by decide +kernel,eq_throw_iff.2 (by decide +kernel)⟩
  have hconflict := (h block (List.Perm.refl _)).2 hmixed
  unfold accepts at haccepts
  rw [hconflict] at haccepts
  exact nomatch haccepts

end NodeBlock

end DaeRs.Config
