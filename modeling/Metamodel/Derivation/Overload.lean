import Metamodel.Attempt
import Metamodel.Config.Basic
import Metamodel.Model.Basic

/-!
# Overloads

An attribute of a text type gets an overload of type `int`, so that the text can be given by a
resource. There is one overload for a name at most, none if the model has an attribute of that name
and type `int`, and none if the field of the overload is there already.

The overloads are found in the order of the attributes, and are appended after the search. So the
model does not change while it is searched, and a second search finds nothing.

* `appendOverloads_run`: the overloads are appended one by one.
* `synthesizeInPlace_run`: what the derivation returns, what it leaves and what it reports.
* `synthesize_attributes`: the attributes of the model stay, and the overloads follow.
-/

namespace Metamodel

/-- The type of overloads. -/
def resourceType : TypeRef := .primitive .int

/-- What the search makes of one attribute. -/
inductive OverloadOutcome where
  /-- The attribute gets no overload, and need not be reported. -/
  | none
  /-- The field of the overload is there already. -/
  | skipped (field : String)
  /-- The attribute gets an overload. -/
  | found (overload : Attribute)
deriving DecidableEq, Repr

namespace Attribute

/-- The overload of an attribute. -/
def overload (config : Config) (source : Attribute) : Attribute :=
  let base := ofType source.name resourceType source.originSetter (.overload source.fieldName)
  { base.markAccessors [.ofName config.resourceMarker] with
    flags := { base.flags with optional := source.flags.optional } }

end Attribute

namespace Model

/-- What the search makes of an attribute, given the overloads that were found before it. -/
def overloadOutcome (config : Config) (m : Model) (pending : List Attribute) (a : Attribute) :
    OverloadOutcome :=
  let field := Attribute.fieldNameFor a.name resourceType
  if !config.isTextType a.type then .none
  else if m.hasAttribute a.name resourceType || pending.any (·.name = a.name) then .none
  else if m.hasField field then .skipped field
  else .found (a.overload config)

/-- The overloads of attributes behind those that were found before them, and the fields that kept
further overloads from being found. -/
def searchOverloads (config : Config) (m : Model) (pending : List Attribute) :
    List Attribute → List Attribute × List String
  | [] => (pending, [])
  | a :: rest =>
    match m.overloadOutcome config pending a with
    | .none => m.searchOverloads config pending rest
    | .skipped field =>
      let (found, skipped) := m.searchOverloads config pending rest
      (found, field :: skipped)
    | .found overload => m.searchOverloads config (pending ++ [overload]) rest

/-- The overloads that the model lacks. -/
def overloads (config : Config) (m : Model) : List Attribute :=
  (m.searchOverloads config [] m.attributes).1

/-- The fields that keep an overload from being derived. -/
def skippedFields (config : Config) (m : Model) : List String :=
  (m.searchOverloads config [] m.attributes).2

/-- Overloads are appended to a model in place, each after it is reported. -/
def appendOverloads (overloads : List Attribute) : Attempt Model Unit :=
  forM overloads fun a => do
    Attempt.report (.overloadSynthesized (← Attempt.current).generated a.fieldName)
    Attempt.change fun m => m.appendAttributes [a]

/-- The overloads of a model are derived in place. First all of them are searched for, and then they
are appended. The result is their number. -/
def synthesizeInPlace (config : Config) : Attempt Model Nat := do
  let m ← Attempt.current
  Attempt.reportAll ((m.skippedFields config).map (.overloadSkipped m.generated))
  appendOverloads (m.overloads config)
  return (m.overloads config).length

/-- The model with its overloads. -/
def synthesize (config : Config) (m : Model) : Model :=
  ((synthesizeInPlace config).after m).value

/-- What is reported while the overloads of the model are derived. -/
def synthesisEvents (config : Config) (m : Model) : List Event :=
  ((synthesizeInPlace config).after m).events

/-! ## Runs -/

/-- The overloads are appended one by one. -/
theorem appendOverloads_run (overloads : List Attribute) (m : Model) (log : List Event) :
    (appendOverloads overloads).run ⟨m, log⟩ = .ok () ⟨m.appendAttributes overloads,
      log ++ overloads.map fun a => .overloadSynthesized m.generated a.fieldName⟩ := by
  induction overloads generalizing m log with
  | nil => simp [appendOverloads, appendAttributes]
  | cons a rest ih =>
    unfold appendOverloads at ih ⊢
    simp only [List.forM_cons, EStateM.run_bind, Attempt.run_current, Attempt.run_report,
      Attempt.run_change]
    rw [ih]
    simp [appendAttributes]

/-- The derivation of overloads always succeeds. It returns their number, leaves the model with them
at the end, and reports first what it passed over and then what it appended. -/
theorem synthesizeInPlace_run (config : Config) (m : Model) (log : List Event) :
    (synthesizeInPlace config).run ⟨m, log⟩ = .ok (m.overloads config).length
      ⟨m.appendAttributes (m.overloads config), log ++
        ((m.skippedFields config).map (.overloadSkipped m.generated) ++
          (m.overloads config).map fun a => .overloadSynthesized m.generated a.fieldName)⟩ := by
  simp only [synthesizeInPlace, EStateM.run_bind, EStateM.run_pure, Attempt.run_current,
    Attempt.run_reportAll, appendOverloads_run, List.append_assoc]

/-- The overloads are appended, and nothing else changes. -/
theorem synthesize_eq (config : Config) (m : Model) :
    m.synthesize config = m.appendAttributes (m.overloads config) := by
  rw [synthesize, Attempt.after, synthesizeInPlace_run]

@[simp] theorem synthesize_component (config : Config) (m : Model) :
    (m.synthesize config).component = m.component := by
  rw [synthesize_eq]
  rfl

@[simp] theorem synthesize_generated (config : Config) (m : Model) :
    (m.synthesize config).generated = m.generated := by
  rw [synthesize_eq]
  rfl

@[simp] theorem synthesize_resetActions (config : Config) (m : Model) :
    (m.synthesize config).resetActions = m.resetActions := by
  rw [synthesize_eq]
  rfl

theorem synthesisEvents_eq (config : Config) (m : Model) :
    m.synthesisEvents config = (m.skippedFields config).map (.overloadSkipped m.generated) ++
      (m.overloads config).map fun a => .overloadSynthesized m.generated a.fieldName := by
  rw [synthesisEvents, Attempt.after, synthesizeInPlace_run, List.nil_append]

/-- The result of the derivation in place, said by the model that it leaves and by its reports. -/
theorem synthesizeInPlace_eq_ok (config : Config) (m : Model) (log : List Event) :
    (synthesizeInPlace config).run ⟨m, log⟩ = .ok (m.overloads config).length
      ⟨m.synthesize config, log ++ m.synthesisEvents config⟩ := by
  rw [synthesizeInPlace_run, synthesize_eq, synthesisEvents_eq]

/-- The attributes stay, and the overloads follow them. -/
theorem synthesize_attributes (config : Config) (m : Model) :
    (m.synthesize config).attributes = m.attributes ++ m.overloads config := by
  rw [synthesize_eq]
  rfl

end Model

end Metamodel
