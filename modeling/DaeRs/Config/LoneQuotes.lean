import DaeRs.Config.Parser

/-! The texts on which `parse_daefile` panics. -/

namespace DaeRs.Config

open Panicking RustStr List

theorem eq_append_of_beforeComment {l : List Char} :
    ∀ {inQuote : Option Char} {before : List Char},beforeComment inQuote l=some before →
      ∃ rest,l=before++rest := by
  induction l with
  | nil => exact nofun
  | cons c cs ih =>
    intro inQuote before h
    -- where the character is kept, the rest is what stands before a comment of the rest
    have hkept {quote : Option Char} (h : (beforeComment quote cs).map (c::·)=some before) :
        ∃ rest,c::cs=before++rest := by
      obtain ⟨tail,htail,rfl⟩ := Option.map_eq_some_iff.1 h
      obtain ⟨rest,rfl⟩ := ih htail
      exact ⟨rest,rfl⟩
    rw [beforeComment] at h
    dsimp only at h
    split_ifs at h
    · exact hkept h
    · exact hkept h
    · cases h
      exact ⟨c::cs,rfl⟩
    · exact hkept h

def commentFree (line : String) : String :=
  match beforeComment none line.toList with
  | some before => trimEnd (String.ofList before)
  | none => line

theorem stripInlineComment_eq (line : String) :
    stripInlineComment line=some (commentFree line) := by
  unfold stripInlineComment commentFree
  cases h : beforeComment none line.toList with
  | none => rfl
  | some before =>
    obtain ⟨rest,hrest⟩ := eq_append_of_beforeComment h
    have hline : line=String.ofList before++String.ofList rest := by
      rw [← String.toList_inj,String.toList_append,String.toList_ofList,String.toList_ofList,hrest]
    dsimp only
    rw [sliceTo_eq _ hline,Option.map_some]

namespace Parser

theorem returns_parseIds (field : String) (number : Nat) (ss : List String) :
    ∀ ids,Returns (parseIds field number ss ids) := by
  induction ss with
  | nil => exact fun ids => returns_pure _
  | cons s ss ih =>
    intro ids
    refine returns_bind_iff.2 ⟨returns_parseInteger u32Max s number field,fun id _ => ?_⟩
    exact ih (ids++[id])

variable (line : String)

def matchQuotes : List String :=
  match callArgs (trim line) "comm" with
  | some args => items args
  | none => []

variable (number : Nat)

theorem returns_parseMatchStmts_iff (cfg : ProcessMatchConfig) :
    Returns (parseMatchStmts line number cfg) ↔ ∀ v∈matchQuotes line,¬LoneQuote v := by
  unfold parseMatchStmts matchQuotes
  dsimp only
  generalize callArgs (trim line) "comm" = comm,callArgs (trim line) "pid" = pid,
    callArgs (trim line) "tgid" = tgid
  cases comm with
  | some args =>
    refine (returns_orPanic_bind_iff fun v => returns_pure _).trans ?_
    exact unquoteAll_ne_none_iff (items args)
  | none =>
    refine iff_of_true ?_ (forall_mem_nil _)
    cases pid with
    | some args =>
      exact returns_bind_iff.2 ⟨returns_parseIds _ _ _ _,fun ids _ => returns_pure _⟩
    | none =>
      cases tgid with
      | some args =>
        exact returns_bind_iff.2 ⟨returns_parseIds _ _ _ _,fun ids _ => returns_pure _⟩
      | none => exact returns_throw _

theorem returns_stepFields_iff {σ : Type} (fs : Fields σ) (current : σ) (set : σ → Parser)
    (number : Nat) (line : String) :
    Returns (stepFields fs current set number line) ↔ ∀ v∈fs.lineQuotes line,¬LoneQuote v := by
  unfold stepFields
  rw [returns_bind_iff_left fun c => returns_pure _]
  exact fs.returns_parse_iff line number current

def unlessCloses (quotes : List String) : List String :=
  if closes line then [] else quotes

theorem returns_unlessCloses_iff {line : String} {close inside : Parse Parser}
    {quotes : List String} (hclose : Returns close)
    (hinside : Returns inside ↔ ∀ v∈quotes,¬LoneQuote v) :
    Returns (if closes line then close else inside) ↔
      ∀ v∈unlessCloses line quotes,¬LoneQuote v := by
  unfold unlessCloses
  split_ifs
  · exact iff_of_true hclose (forall_mem_nil _)
  · exact hinside

variable (p : Parser)

theorem returns_stepTop (line : String) : Returns (p.stepTop number line) := by
  unfold stepTop
  split
  · split
    · exact returns_pure _
    · exact returns_throw _
  · exact returns_throw _

theorem returns_stepEntries (outer : ParseState) (declare : String → Parser)
    (message : String) (number : Nat) (line : String) :
    Returns (p.stepEntries outer declare message number line) := by
  unfold stepEntries
  split
  · exact returns_pure _
  · split
    · exact returns_pure _
    · exact returns_throw _

theorem returns_stepOutbounds (line : String) : Returns (p.stepOutbounds number line) := by
  unfold stepOutbounds
  split_ifs
  · exact returns_pure _
  · exact returns_pure _
  · exact returns_pure _
  · exact returns_throw _

theorem returns_stepRouting (line : String) : Returns (p.stepRouting number line) := by
  unfold stepRouting
  split
  · exact returns_pure _
  · split
    · exact returns_pure _
    · rw [sliceFound_eq,orPanic_bind]
      split
      · split
        · exact returns_pure _
        · exact returns_throw _
      · exact returns_throw _

def exclusionQuotes : List String :=
  if opensMatch line then
    match inlineMatch line with
    | some inner => matchQuotes inner
    | none => []
  else processExclusionFields.lineQuotes line

theorem returns_stepProcessExclusion_iff (line : String) :
    Returns (p.stepProcessExclusion number line) ↔
      ∀ v∈unlessCloses line (exclusionQuotes line),¬LoneQuote v := by
  refine returns_unlessCloses_iff (returns_pure _) ?_
  unfold exclusionQuotes stepOpensMatch
  split_ifs
  · generalize inlineMatch line=inline
    cases inline with
    | none => exact iff_of_true (returns_pure _) (forall_mem_nil _)
    | some inner =>
      dsimp only
      rw [returns_bind_iff_left fun cfg => returns_pure _]
      exact returns_parseMatchStmts_iff inner number p.processMatch
  · exact returns_stepFields_iff _ _ _ number line

theorem returns_stepProcessMatch_iff (line : String) : Returns (p.stepProcessMatch number line) ↔
      ∀ v∈unlessCloses line (matchQuotes line),¬LoneQuote v := by
  refine returns_unlessCloses_iff (returns_pure _) ?_
  rw [returns_bind_iff_left fun cfg => returns_pure _]
  exact returns_parseMatchStmts_iff line number p.processMatch

variable (env : ImportEnv)

def linkQuotes (p : Parser) : List String :=
  match p.importUrl with
  | some url => importQuotes env url
  | none => []

theorem returns_finishNode_iff (p : Parser) (name : String) :
    Returns (p.finishNode env name) ↔ ∀ v∈p.linkQuotes env,¬LoneQuote v := by
  unfold finishNode linkQuotes
  cases p.importUrl with
  | none => exact iff_of_true (returns_pure _) (forall_mem_nil _)
  | some url => exact returns_parseImportUrl_iff env name url p.currentNode

/-- Behind an `import` line no other field is looked at. -/
def nodeFieldQuotes (line : String) : List String :=
  if p.importUrl.isSome then [] else nodeFields.lineQuotes line

theorem returns_nodeField_iff (name : String) (number : Nat) (line : String) :
    Returns (parseKvPair line number (p.nodeField name number)) ↔
      ∀ v∈p.nodeFieldQuotes line,¬LoneQuote v := by
  unfold nodeFieldQuotes nodeField
  split_ifs
  · refine iff_of_true ?_ (forall_mem_nil _)
    exact returns_parseKvPair_iff.2 fun key value _ => returns_throw _
  · exact nodeFields.returns_parse_iff line number p.currentNode

def nodeQuotes (p : Parser) (line : String) : List String :=
  if closes line then p.linkQuotes env
  else
    match importLink line with
    | some link => [link]
    | none => p.nodeFieldQuotes line

theorem returns_stepOutboundNode_iff (p : Parser) (name : String) (number : Nat) (line : String) :
    Returns (p.stepOutboundNode env name number line) ↔ ∀ v∈p.nodeQuotes env line,¬LoneQuote v := by
  unfold stepOutboundNode nodeQuotes parseImportLine
  split_ifs
  · rw [returns_bind_iff_left fun node => returns_pure _]
    exact p.returns_finishNode_iff env name
  · generalize importLink line=link
    cases link with
    | none =>
      dsimp only
      rw [orPanic_bind,returns_bind_iff_left fun node => returns_pure _]
      exact p.returns_nodeField_iff name number line
    | some link =>
      dsimp only
      rw [forall_mem_singleton,← unquote_eq_none_iff]
      cases unquote link with
      | none => exact iff_of_false (fun h => h rfl) fun h => h rfl
      | some url => exact iff_of_true (returns_pure _) nofun

def selectorQuotes (content : String) : List String :=
  if content = "" then []
  else
    match regexPattern content with
    | some pattern => [pattern]
    | none => []

theorem readSelectors_ne_none_iff (content : String) :
    readSelectors content≠none ↔ ∀ v∈selectorQuotes content,¬LoneQuote v := by
  unfold readSelectors selectorQuotes
  by_cases hempty : content = ""
  · rw [if_pos hempty,if_pos hempty]
    exact iff_of_true nofun (forall_mem_nil _)
  · rw [if_neg hempty,if_neg hempty]
    generalize regexPattern content=found
    cases found with
    | none => exact iff_of_true nofun (forall_mem_nil _)
    | some pattern =>
      dsimp only
      rw [forall_mem_singleton,← unquote_eq_none_iff,ne_eq,Option.map_eq_none_iff]

def groupQuotes : List String :=
  match selectorContent line with
  | some content => selectorQuotes content
  | none => groupFields.lineQuotes line

theorem returns_stepOutboundGroup_iff (line : String) : Returns (p.stepOutboundGroup number line) ↔
      ∀ v∈unlessCloses line (groupQuotes line),¬LoneQuote v := by
  refine returns_unlessCloses_iff (returns_pure _) ?_
  unfold parseNodesSelector groupQuotes
  generalize selectorContent line=found
  cases found with
  | none =>
    dsimp only
    rw [orPanic_bind]
    exact returns_stepFields_iff groupFields p.currentGroup _ number line
  | some content =>
    dsimp only
    rw [← readSelectors_ne_none_iff]
    cases readSelectors content with
    | none => exact iff_of_false (fun h => h rfl) fun h => h rfl
    | some selectors => exact iff_of_true (returns_pure _) nofun

def quotes (p : Parser) (line : String) : List String :=
  match p.state with
  | .top | .outbounds | .outboundNodes | .outboundGroups | .routing | .ruleSet => []
  | .global => unlessCloses line (globalFields.lineQuotes line)
  | .interface => unlessCloses line (interfaceFields.lineQuotes line)
  | .processExclusion => unlessCloses line (exclusionQuotes line)
  | .processMatch => unlessCloses line (matchQuotes line)
  | .outboundNode _ => p.nodeQuotes env line
  | .outboundGroup _ => unlessCloses line (groupQuotes line)
  | .api => unlessCloses line (apiFields.lineQuotes line)
  | .dns => unlessCloses line (dnsFields.lineQuotes line)
  | .ruleSetEntry name => unlessCloses line ((ruleSetFields name).lineQuotes line)

theorem returns_stepLine_iff (p : Parser) (number : Nat) (line : String) :
    Returns (p.stepLine env number line) ↔ ∀ v∈p.quotes env line,¬LoneQuote v := by
  unfold stepLine quotes
  -- the states whose lines are sections of fields, apart from the closing one
  have hfields {σ : Type} (fs : Fields σ) (current : σ) (set : σ → Parser) (close : Parser) :
      Returns (if closes line then pure close else stepFields fs current set number line) ↔
        ∀ v∈unlessCloses line (fs.lineQuotes line),¬LoneQuote v :=
    returns_unlessCloses_iff (returns_pure _) (returns_stepFields_iff fs current set number line)
  cases p.state with
  | top => exact iff_of_true (p.returns_stepTop number line) (forall_mem_nil _)
  | global => exact hfields globalFields _ _ _
  | interface => exact hfields interfaceFields _ _ _
  | processExclusion => exact p.returns_stepProcessExclusion_iff number line
  | processMatch => exact p.returns_stepProcessMatch_iff number line
  | outbounds => exact iff_of_true (p.returns_stepOutbounds number line) (forall_mem_nil _)
  | outboundNodes | outboundGroups =>
    exact iff_of_true (p.returns_stepEntries _ _ _ number line) (forall_mem_nil _)
  | outboundNode name => exact p.returns_stepOutboundNode_iff env name number line
  | outboundGroup name => exact p.returns_stepOutboundGroup_iff number line
  | routing => exact iff_of_true (p.returns_stepRouting number line) (forall_mem_nil _)
  | api => exact hfields apiFields _ _ _
  | dns => exact hfields dnsFields _ _ _
  | ruleSet => exact iff_of_true (p.returns_stepEntries _ _ _ number line) (forall_mem_nil _)
  | ruleSetEntry name => exact hfields (ruleSetFields name) _ _ _

def lineQuotes (p : Parser) (raw : String) : List String :=
  let line := trim (commentFree raw)
  if line = "" || startsWith line "#" then [] else p.quotes env line

theorem returns_step_iff (p : Parser) (number : Nat) (raw : String) :
    Returns (p.step env number raw) ↔ ∀ v∈p.lineQuotes env raw,¬LoneQuote v := by
  unfold step lineQuotes
  rw [stripInlineComment_eq,orPanic_bind]
  dsimp only
  split_ifs
  · exact iff_of_true (returns_pure _) (forall_mem_nil _)
  · exact p.returns_stepLine_iff env number _

/-- No line up to the first error hands `unquote` a quote that stands alone. -/
def Fits (env : ImportEnv) (p : Parser) (number : Nat) : List String → Prop
  | [] => True
  | raw::raws =>
    (∀ v∈p.lineQuotes env raw,¬LoneQuote v) ∧
      ∀ next,p.step env number raw=pure next → Fits env next (number+1) raws

theorem returns_steps_iff (raws : List String) :
    ∀ (p : Parser) (number : Nat),Returns (p.steps env number raws) ↔ p.Fits env number raws := by
  induction raws with
  | nil => exact fun p number => iff_of_true (returns_pure _) trivial
  | cons raw raws ih =>
    intro p number
    rw [steps,Fits,returns_bind_iff,returns_step_iff]
    refine and_congr_right fun _ => ?_
    refine forall_congr' fun next => imp_congr_right fun _ => ?_
    exact ih next (number+1)

end Parser

/-- Parsing ends with a configuration or an error just if no line that is reached hands `unquote`
a text that is one quote. -/
theorem parseDaefile_returns_iff (env : ParserEnv) (input : String) :
    Returns (parseDaefile env input) ↔
      Parser.new.Fits env.toImportEnv 1 (lines (preprocessMultiline input)) := by
  rw [← Parser.returns_steps_iff]
  refine returns_bind_iff_left fun p => ?_
  split
  · exact returns_pure _
  · exact returns_throw _

/-- A log level whose closing quote is missing. -/
theorem lone_quote_panics : ¬Returns (parseDaefile ⟨⟨fun _ => none,fun _ => none⟩,id⟩
      "global \x7b\n  log_level: \x22\n\x7d\n") := by
  decide +kernel

end DaeRs.Config
