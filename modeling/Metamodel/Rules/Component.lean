import Metamodel.Config.Basic
import Metamodel.Rejection

/-!
# Rules for components

A component is a concrete class that is not private, stands in a package or is a static member of
another class, and extends the base type of components. The first rule that is broken is the reason
of the rejection.

* `checkComponent_eq_ok`: what a component is.
-/

namespace Metamodel

/-- The class has no need of an instance of the class around it. -/
def Declaration.isDetached (d : Declaration) : Bool :=
  !d.nesting.isNested || (d.nesting = .member && d.hasModifier .static)

/-- The candidate may become a component. -/
def checkComponent (config : Config) (d : Declaration) : Except Rejection Unit :=
  let marker := Config.markerLabel config.componentMarker
  if d.kind ≠ .classType then .error (.notAClass marker d.name)
  else if d.hasModifier .abstract then .error (.abstractClass marker d.name)
  else if d.hasModifier .privateAccess then .error (.privateClass marker d.name)
  else if !d.isDetached then .error (.nestedClass marker d.name)
  else if !d.isSubtypeOf config.baseViewType then
    .error (.notASubtype marker d.name config.baseViewType)
  else .ok ()

/-- What a component is. -/
theorem checkComponent_eq_ok {config : Config} {d : Declaration} :
    checkComponent config d = .ok () ↔
      d.kind = .classType ∧ d.hasModifier .abstract = false ∧
        d.hasModifier .privateAccess = false ∧ d.isDetached = true ∧
          d.isSubtypeOf config.baseViewType = true := by
  unfold checkComponent
  dsimp only
  split
  · simp_all
  split
  · simp_all
  split
  · simp_all
  split
  · simp_all
  split <;> simp_all

end Metamodel
