import Metamodel.Derivation.Model
import Metamodel.Derivation.Overload
import Metamodel.Rules.Member

/-!
# The registry of models

The registry holds the models of a round in the order in which their components were found. Two
indexes lead from a component to the place of its model, and from the name of a generated class to
the component that it is generated for. A component is registered once, and so is a generated
class.

Registration, attachment and the adding of reset methods change a registry in place, and leave it as
it was if they fail. What they come to is said apart from that.

* `registerInPlace_run`, `register_eq`: what a registration leaves, and what it comes to.
* `register_models`: a model that is registered stands at the end.
* `onOwner?_run`: an attempt at the model of a member.
* `attachInPlace_run`, `addResetInPlace_run`: what a property setter and a reset method leave.
-/

namespace Metamodel

/-- The models of a round, with their indexes. -/
structure Registry where
  /-- The models in order. -/
  models : List Model
  /-- The place of the model of each component. -/
  places : List (DeclId × Nat)
  /-- The component of each generated class, by its qualified name. -/
  origins : List (String × DeclId)
deriving DecidableEq, Repr

namespace Registry

/-- No models. -/
def empty : Registry :=
  ⟨[], [], []⟩

instance : EmptyCollection Registry := ⟨empty⟩

/-- The number of models. -/
def size (r : Registry) : Nat :=
  r.models.length

/-- There are no models. -/
def isEmpty (r : Registry) : Bool :=
  r.models.isEmpty

/-! ## Registration -/

/-- A model is registered in place. Both checks come before all changes: the generated class is
entered first, then the component, and the model is appended last. -/
def registerInPlace (m : Model) : Attempt Registry Unit := do
  let r ← Attempt.current
  match r.origins.lookup m.generated.qualifiedName with
  | some previous => throw (.duplicateGeneratedName m.generated.qualifiedName previous)
  | none =>
    match r.places.lookup m.component with
    | some _ => throw (.registeredTwice m.component)
    | none =>
      Attempt.change fun r =>
        { r with origins := (m.generated.qualifiedName, m.component) :: r.origins }
      Attempt.change fun r => { r with places := (m.component, r.models.length) :: r.places }
      Attempt.change fun r => { r with models := r.models ++ [m] }

/-- The registry with one more model. -/
def register (r : Registry) (m : Model) : Except Rejection Registry :=
  ((registerInPlace m).outcome r).map (·.1)

/-- What a registration comes to, by the indexes. -/
theorem register_eq (r : Registry) (m : Model) :
    r.register m =
      match r.origins.lookup m.generated.qualifiedName with
      | some previous => .error (.duplicateGeneratedName m.generated.qualifiedName previous)
      | none =>
        match r.places.lookup m.component with
        | some _ => .error (.registeredTwice m.component)
        | none => .ok
            { models := r.models ++ [m]
              places := (m.component, r.models.length) :: r.places
              origins := (m.generated.qualifiedName, m.component) :: r.origins } := by
  unfold register registerInPlace Attempt.outcome
  rw [EStateM.run_bind, Attempt.run_current]
  dsimp only
  cases r.origins.lookup m.generated.qualifiedName with
  | some previous => rfl
  | none => cases r.places.lookup m.component <;> rfl

/-- A registration that fails leaves the registry as it was. -/
theorem registerInPlace_run (r : Registry) (m : Model) (log : List Event) :
    (registerInPlace m).run ⟨r, log⟩ =
      match r.register m with
      | .ok s => .ok () ⟨s, log⟩
      | .error rejection => .error rejection ⟨r, log⟩ := by
  rw [register_eq]
  unfold registerInPlace
  rw [EStateM.run_bind, Attempt.run_current]
  dsimp only
  cases r.origins.lookup m.generated.qualifiedName with
  | some previous => rfl
  | none => cases r.places.lookup m.component <;> rfl

/-- A model that is registered stands at the end. -/
theorem register_models {r s : Registry} {m : Model} (h : r.register m = .ok s) :
    s.models = r.models ++ [m] := by
  rw [register_eq] at h
  split at h
  · cases h
  · split at h
    · cases h
    · cases h
      rfl

/-! ## Access -/

/-- The place of the model of a component. -/
def place? (r : Registry) (component : DeclId) : Option Nat :=
  r.places.lookup component

/-- The model of a component. -/
def get? (r : Registry) (component : DeclId) : Option Model :=
  (r.place? component).bind fun i => r.models[i]?

/-- The place of the model that a member belongs to, and the model. The member belongs to the
declaration around it, whatever its own identity. -/
def owner? (r : Registry) (member : Declaration) : Option (Nat × Model) :=
  member.enclosing.bind fun component =>
    (r.place? component).bind fun i => r.models[i]?.map fun m => (i, m)

/-- The registry with another model at a place. -/
def replace (r : Registry) (i : Nat) (m : Model) : Registry :=
  { r with models := r.models.set i m }

/-- What is at the place of the model of a member stays if it is that model. -/
theorem replace_of_owner? {r : Registry} {member : Declaration} {i : Nat} {m : Model}
    (h : r.owner? member = some (i, m)) : r.replace i m = r := by
  unfold owner? at h
  obtain ⟨component, -, h⟩ := Option.bind_eq_some_iff.mp h
  obtain ⟨j, -, h⟩ := Option.bind_eq_some_iff.mp h
  obtain ⟨n, hn, h⟩ := Option.map_eq_some_iff.mp h
  cases h
  obtain ⟨hlt, rfl⟩ := List.getElem?_eq_some_iff.mp hn
  rw [replace, List.set_getElem_self]

/-! ## Members -/

/-- An attempt at the model that a member belongs to, in its place. If the member belongs to no
model, nothing is done. -/
def onOwner? {α : Type} (member : Declaration) (attempt : Attempt Model α) :
    Attempt Registry (Option α) := do
  match (← Attempt.current).owner? member with
  | none => return none
  | some (i, m) => return some (← attempt.onPart m fun r n => r.replace i n)

/-- The attribute of a property setter is attached in place to the model that the setter belongs to,
if there is one. -/
def attachInPlace (config : Config) (d : Declaration) : Attempt Registry (Option Attribute) :=
  onOwner? d (Model.attachInPlace config d)

/-- A reset method is added in place to the model that it belongs to, if there is one. -/
def addResetInPlace (d : Declaration) : Attempt Registry (Option Unit) :=
  onOwner? d (Attempt.change fun m => m.appendReset d.name)

/-- The registry in which the attribute of a property setter is attached to the model that the
setter belongs to, with the attribute; `none` if it belongs to no model. -/
def attach? (config : Config) (r : Registry) (d : Declaration) :
    Option (Except Rejection (Registry × Model × Attribute)) :=
  (r.owner? d).map fun (i, m) =>
    (m.attachLast config d).map fun (attached, a) => (r.replace i attached, m, a)

/-- An attribute that is attached is the one that the property setter sets. -/
theorem attach?_eq (config : Config) (r : Registry) (d : Declaration) :
    r.attach? config d = (r.owner? d).map fun (i, m) =>
      (m.attachment config d).map fun a => (r.replace i (m.appendAttributes [a]), m, a) := by
  unfold attach?
  congr 1
  funext owner
  simp only [Model.attachLast_eq]
  cases owner.2.attachment config d <;> rfl

/-- The registry in which a reset method is added to the model that it belongs to, with that model;
`none` if it belongs to no model. -/
def addReset? (r : Registry) (d : Declaration) : Option (Registry × Model) :=
  (r.owner? d).map fun (i, m) =>
    let changed := m.appendReset d.name
    (r.replace i changed, changed)

/-- What an attempt leaves of a model stands in the place of the model, and nothing else changes. -/
theorem onOwner?_run {α : Type} (member : Declaration) (attempt : Attempt Model α) (r : Registry)
    (log : List Event) :
    (onOwner? member attempt).run ⟨r, log⟩ =
      match r.owner? member with
      | none => .ok none ⟨r, log⟩
      | some (i, m) =>
        match attempt.run ⟨m, log⟩ with
        | .ok a left => .ok (some a) ⟨r.replace i left.value, left.events⟩
        | .error rejection left => .error rejection ⟨r.replace i left.value, left.events⟩ := by
  unfold onOwner?
  rw [EStateM.run_bind, Attempt.run_current]
  dsimp only
  cases r.owner? member with
  | none => rfl
  | some owner =>
    obtain ⟨i, m⟩ := owner
    dsimp only
    rw [EStateM.run_bind, Attempt.run_onPart]
    cases attempt.run ⟨m, log⟩ <;> rfl

/-- A property setter that is not attached leaves the registry as it was. -/
theorem attachInPlace_run (config : Config) (r : Registry) (d : Declaration) (log : List Event) :
    (attachInPlace config d).run ⟨r, log⟩ =
      match r.attach? config d with
      | none => .ok none ⟨r, log⟩
      | some (.ok (s, m, a)) => .ok (some a) ⟨s, log ++ [m.attachmentEvent a]⟩
      | some (.error rejection) => .error rejection ⟨r, log⟩ := by
  rw [attachInPlace, onOwner?_run, attach?_eq]
  cases ho : r.owner? d with
  | none => rfl
  | some owner =>
    obtain ⟨i, m⟩ := owner
    dsimp only [Option.map_some]
    rw [Model.attachInPlace_run]
    cases m.attachment config d with
    | error rejection => simp only [Except.map, replace_of_owner? ho]
    | ok a => rfl

/-- A reset method is added to the model that it belongs to. -/
theorem addResetInPlace_run (r : Registry) (d : Declaration) (log : List Event) :
    (addResetInPlace d).run ⟨r, log⟩ =
      match r.addReset? d with
      | none => .ok none ⟨r, log⟩
      | some (s, _) => .ok (some ()) ⟨s, log⟩ := by
  rw [addResetInPlace, onOwner?_run, addReset?]
  cases r.owner? d <;> rfl

/-! ## All models -/

/-- The registry in which every model has its overloads. -/
def synthesize (config : Config) (r : Registry) : Registry :=
  { r with models := r.models.map (·.synthesize config) }

/-- What is reported while the overloads of all models are derived. -/
def synthesisEvents (config : Config) (r : Registry) : List Event :=
  r.models.flatMap (·.synthesisEvents config)

/-- The models, and the registry without them. -/
def takeModels (r : Registry) : List Model × Registry :=
  (r.models, empty)

end Registry

end Metamodel
