import DaeRs.Config.LoneQuotes

/-! The fields of a node as what their values set, and the errors that its lines can give. -/

namespace DaeRs.Config

open Panicking RustStr

namespace Field

variable {σ : Type}

def setter : Field σ → String → Option (σ → σ)
  | text set,value => (unquote value).map set
  | integer max set,value => (fromStrRadix 10 max value).toOption.map set
  | mark set,value => (value? (parseHexOrDecimal value 0 "")).map set
  | boolean set,value => (parseBool value).map set
  | list parts keeps set,value => (unquoteAll (parts value)).map fun vs => set (vs.filter keeps)
  | map set,value => (value? (parseMapValue value 0 "")).map set
  | word choose _ _,value => (unquote value).bind choose
  | plain _,_ => none

def Settled : Field σ → Prop
  | plain _ => False
  | _ => True

end Field

theorem value?_parseInteger (max : Nat) (value : String) (line : Nat) (field : String) :
    value? (parseInteger max value line field)=(fromStrRadix 10 max value).toOption := by
  unfold parseInteger
  cases fromStrRadix 10 max value <;> rfl

variable (value : String) (number : Nat) (field : String)

theorem value?_parseHexOrDecimal (line : Nat) (key : String) :
    value? (parseHexOrDecimal value line key)=value? (parseHexOrDecimal value 0 "") := by
  unfold parseHexOrDecimal
  split
  · rw [value?_bind,value?_bind]
    congr 1
    funext digits
    cases fromStrRadix 16 u32Max digits <;> rfl
  · rw [value?_parseInteger,value?_parseInteger]

theorem value?_parseMapEntries (entries : List String) :
    ∀ map,value? (parseMapEntries number field entries map) =
      value? (parseMapEntries 0 "" entries map) := by
  induction entries with
  | nil => exact fun map => rfl
  | cons entry entries ih =>
    intro map
    rw [parseMapEntries,parseMapEntries]
    split_ifs with hempty
    · exact ih map
    · rw [sliceFound_eq,orPanic_bind,orPanic_bind]
      cases splitPat (trim entry) ":" with
      | none => rw [value?_throw,value?_throw]
      | some p =>
        simp only [value?_bind,value?_orPanic]
        refine congrArg (Option.bind _) (funext fun key => ?_)
        refine congrArg (Option.bind _) (funext fun val => ?_)
        split_ifs
        · rw [value?_throw,value?_throw]
        · exact ih (insertEntry key val map)

theorem value?_parseMapValue :
    value? (parseMapValue value number field)=value? (parseMapValue value 0 "") := by
  unfold parseMapValue
  cases mapInner value with
  | none => rfl
  | some inner => exact value?_parseMapEntries number field (split inner ',') []

theorem Field.value?_apply {σ : Type} {f : Field σ} (hf : f.Settled) (line : Nat)
    (key value : String) (s : σ) :
    value? (f.apply line key value s)=(f.setter value).map fun set => set s := by
  cases f with
  | text set =>
    rw [Field.apply,Field.setter,value?_bind,value?_orPanic]
    cases unquote value <;> rfl
  | integer max set =>
    rw [Field.apply,Field.setter,value?_bind,value?_parseInteger]
    cases (fromStrRadix 10 max value).toOption <;> rfl
  | mark set =>
    rw [Field.apply,Field.setter,value?_bind,value?_parseHexOrDecimal]
    cases value? (parseHexOrDecimal value 0 "") <;> rfl
  | boolean set =>
    unfold Field.apply Field.setter
    dsimp only
    cases parseBool value <;> rfl
  | list parts keeps set =>
    rw [Field.apply,Field.setter,value?_bind,value?_orPanic]
    cases unquoteAll (parts value) <;> rfl
  | map set =>
    rw [Field.apply,Field.setter,value?_bind,value?_parseMapValue]
    cases value? (parseMapValue value 0 "") <;> rfl
  | word choose field message =>
    rw [Field.apply,Field.setter,value?_bind,value?_orPanic]
    cases unquote value with
    | none => rfl
    | some v =>
      dsimp only [Option.bind_some]
      cases choose v <;> rfl
  | plain read => exact hf.elim

def Fields.setter {σ : Type} (fs : Fields σ) (key value : String) : Option (σ → σ) :=
  (fs.field key).bind fun f => f.setter value

theorem settled_of_nodeFields {key : String} {f : Field NodeFields}
    (h : nodeFields.field key=some f) : f.Settled := by
  unfold nodeFields at h
  dsimp only at h
  split at h
  case h_20 => exact nomatch h
  all_goals
    cases h
    exact True.intro

theorem value?_nodeFields_apply (node : NodeFields) (key value : String) :
    value? (nodeFields.apply number node key value) =
      (nodeFields.setter key value).map fun set => set node := by
  unfold Fields.apply Fields.setter
  cases hfield : nodeFields.field key with
  | none => rfl
  | some f => exact Field.value?_apply (settled_of_nodeFields hfield) number key value node

def ParseError.NoConflict (e : ParseError) : Prop := ∀ name,e≠.importConflict name

theorem errorsIn_parseInteger (max : Nat) (value : String) (line : Nat) (field : String) :
    ErrorsIn ParseError.NoConflict (parseInteger max value line field) := by
  unfold parseInteger
  split
  · exact errorsIn_pure _
  · exact errorsIn_throw nofun

theorem errorsIn_parseHexOrDecimal (line : Nat) (key : String) :
    ErrorsIn ParseError.NoConflict (parseHexOrDecimal value line key) := by
  unfold parseHexOrDecimal
  split
  · refine errorsIn_bind (errorsIn_orPanic _) fun digits _ => ?_
    split
    · exact errorsIn_pure _
    · exact errorsIn_throw nofun
  · exact errorsIn_parseInteger u32Max value line key

theorem errorsIn_parseMapEntries (entries : List String) :
    ∀ map,ErrorsIn ParseError.NoConflict (parseMapEntries number field entries map) := by
  induction entries with
  | nil => exact fun map => errorsIn_pure _
  | cons entry entries ih =>
    intro map
    rw [parseMapEntries]
    split_ifs with hempty
    · exact ih map
    · refine errorsIn_bind (errorsIn_orPanic _) fun found _ => ?_
      cases found with
      | none => exact errorsIn_throw fun name h => by cases h
      | some p =>
        refine errorsIn_bind (errorsIn_orPanic _) fun key _ => ?_
        refine errorsIn_bind (errorsIn_orPanic _) fun val _ => ?_
        split_ifs
        · exact errorsIn_throw fun name h => by cases h
        · exact ih (insertEntry key val map)

theorem errorsIn_parseMapValue :
    ErrorsIn ParseError.NoConflict (parseMapValue value number field) := by
  unfold parseMapValue
  cases mapInner value with
  | none => exact errorsIn_throw nofun
  | some inner => exact errorsIn_parseMapEntries number field (split inner ',') []

theorem Field.errorsIn_apply {σ : Type} {f : Field σ} (hf : f.Settled) (line : Nat)
    (key value : String) (s : σ) :
    ErrorsIn ParseError.NoConflict (f.apply line key value s) := by
  cases f with
  | text set | list parts keeps set =>
    exact errorsIn_bind (errorsIn_orPanic _) fun v _ => errorsIn_pure _
  | integer max set =>
    exact errorsIn_bind (errorsIn_parseInteger max value line key) fun v _ => errorsIn_pure _
  | mark set =>
    exact errorsIn_bind (errorsIn_parseHexOrDecimal value line key) fun v _ => errorsIn_pure _
  | boolean set =>
    unfold Field.apply
    dsimp only
    split
    · exact errorsIn_pure _
    · exact errorsIn_throw nofun
  | map set =>
    exact errorsIn_bind (errorsIn_parseMapValue value line key) fun v _ => errorsIn_pure _
  | word choose field message =>
    refine errorsIn_bind (errorsIn_orPanic _) fun v _ => ?_
    split
    · exact errorsIn_pure _
    · exact errorsIn_throw nofun
  | plain read => exact hf.elim

theorem errorsIn_nodeFields_apply (node : NodeFields) (key value : String) :
    ErrorsIn ParseError.NoConflict (nodeFields.apply number node key value) := by
  unfold Fields.apply
  cases hfield : nodeFields.field key with
  | none => exact errorsIn_throw nofun
  | some f => exact Field.errorsIn_apply (settled_of_nodeFields hfield) number key value node

section Import

variable (env : ImportEnv)

theorem errorsIn_finishImport (complete : Bool) (url : String) (node : NodeFields) :
    ErrorsIn ParseError.NoConflict (finishImport complete url node) := by
  cases complete with
  | true => exact errorsIn_pure _
  | false => exact errorsIn_throw nofun

variable (rest : String) (node : NodeFields)

theorem errorsIn_parseSocks5Import :
    ErrorsIn ParseError.NoConflict (parseSocks5Import rest node) := by
  refine errorsIn_bind (errorsIn_orPanic _) fun found _ => ?_
  cases found with
  | none => exact errorsIn_pure _
  | some p =>
    refine errorsIn_bind (errorsIn_orPanic _) fun cred _ => ?_
    cases cred <;> exact errorsIn_pure _

theorem errorsIn_assignSsUserinfo (userinfo : String) (node : NodeFields) :
    ErrorsIn ParseError.NoConflict (assignSsUserinfo env userinfo node) := by
  refine errorsIn_bind (errorsIn_orPanic _) fun found _ => ?_
  cases found with
  | some p => exact errorsIn_pure _
  | none =>
    dsimp only
    split
    · exact errorsIn_pure _
    · refine errorsIn_bind (errorsIn_orPanic _) fun inner _ => ?_
      cases inner <;> exact errorsIn_pure _

theorem errorsIn_assignSs (text : String) (node : NodeFields) :
    ErrorsIn ParseError.NoConflict (assignSs env text node) := by
  refine errorsIn_bind (errorsIn_orPanic _) fun found _ => ?_
  cases found with
  | none => exact errorsIn_pure _
  | some p =>
    refine errorsIn_bind (errorsIn_assignSsUserinfo env _ _) fun o _ => ?_
    cases o <;> exact errorsIn_pure _

theorem errorsIn_parseSsImport : ErrorsIn ParseError.NoConflict (parseSsImport env rest node) := by
  refine errorsIn_bind (errorsIn_assignSs env _ _) fun plain _ => ?_
  refine errorsIn_bind ?_ fun x _ => errorsIn_finishImport _ _ _
  unfold assignSsDecoded
  split
  · exact errorsIn_pure _
  · split
    · exact errorsIn_assignSs env _ _
    · exact errorsIn_pure _

theorem errorsIn_assignUser (set : String → NodeFields → NodeFields) (main : String)
    (node : NodeFields) : ErrorsIn ParseError.NoConflict (assignUser set main node) := by
  refine errorsIn_bind (errorsIn_orPanic _) fun found _ => ?_
  cases found <;> exact errorsIn_pure _

theorem errorsIn_assignUuidPassword (main : String) (node : NodeFields) :
    ErrorsIn ParseError.NoConflict (assignUuidPassword main node) := by
  refine errorsIn_bind (errorsIn_orPanic _) fun found _ => ?_
  cases found with
  | none => exact errorsIn_pure _
  | some p =>
    refine errorsIn_bind (errorsIn_orPanic _) fun cred _ => ?_
    cases cred <;> exact errorsIn_pure _

theorem errorsIn_parseTrojanImport :
    ErrorsIn ParseError.NoConflict (parseTrojanImport rest node) := by
  refine errorsIn_bind (errorsIn_orPanic _) fun url _ => ?_
  exact errorsIn_bind (errorsIn_assignUser _ _ _) fun n _ => errorsIn_finishImport _ _ _

theorem errorsIn_parseUuidImport (protocol : String)
    (step : NodeFields → String×String → NodeFields) (rest : String) (node : NodeFields) :
    ErrorsIn ParseError.NoConflict (parseUuidImport protocol step rest node) := by
  refine errorsIn_bind (errorsIn_orPanic _) fun url _ => ?_
  exact errorsIn_bind (errorsIn_assignUuidPassword _ _) fun n _ => errorsIn_finishImport _ _ _

theorem noConflict_of_parseVmessJson {json : String → Option JsonValue} {node : NodeFields}
    {e : ParseError} (h : parseVmessJson json node=.error e) : e.NoConflict := by
  unfold parseVmessJson at h
  dsimp only at h
  split_ifs at h
  · cases h
    exact nofun

theorem errorsIn_parseVmessImport :
    ErrorsIn ParseError.NoConflict (parseVmessImport env rest node) := by
  unfold parseVmessImport
  split
  · exact errorsIn_fromExcept fun e h => noConflict_of_parseVmessJson h
  · refine errorsIn_bind (errorsIn_orPanic _) fun url _ => ?_
    exact errorsIn_bind (errorsIn_assignUser _ _ _) fun n _ => errorsIn_finishImport _ _ _

theorem errorsIn_parseImportUrl (name url : String) (node : NodeFields) :
    ErrorsIn ParseError.NoConflict (parseImportUrl env name url node) := by
  unfold parseImportUrl
  split
  · exact errorsIn_parseSocks5Import _ _
  · exact errorsIn_parseSsImport env _ _
  · exact errorsIn_parseTrojanImport _ _
  · exact errorsIn_parseUuidImport _ _ _ _
  · exact errorsIn_parseUuidImport _ _ _ _
  · exact errorsIn_parseVmessImport env _ _
  · exact errorsIn_throw nofun

end Import

end DaeRs.Config
