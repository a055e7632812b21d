import Metamodel.Config.Basic
import Metamodel.Rejection

/-!
# Rules for members

A property setter is a method with one parameter and a reset method is one without parameters.
Neither is private or static. The first rule that is broken is the reason of the rejection.

* `checkMember_eq_ok`: what a member of either role is.
-/

namespace Metamodel

/-- What a member does for its component. -/
inductive MemberRole where
  /-- The member sets a property. -/
  | property
  /-- The member resets the component. -/
  | reset
deriving DecidableEq, Repr

namespace MemberRole

/-- The number of parameters. -/
def arity : MemberRole → Nat
  | property => 1
  | reset => 0

/-- The mark of the role as it is written in messages. -/
def marker (role : MemberRole) (config : Config) : String :=
  match role with
  | property => Config.markerLabel config.propertyMarker
  | reset => Config.markerLabel config.resetMarker

end MemberRole

/-- The candidate may become a member of the role. -/
def checkMember (config : Config) (role : MemberRole) (d : Declaration) : Except Rejection Unit :=
  let marker := role.marker config
  if d.kind ≠ .method then .error (.notAMethod marker d.name)
  else if d.parameters.length ≠ role.arity then
    .error (.wrongArity marker d.name role.arity d.parameters.length)
  else if d.hasModifier .privateAccess || d.hasModifier .static then
    .error (.privateOrStatic marker d.name)
  else .ok ()

/-- The rejection of a member without a component. -/
def orphan (config : Config) (role : MemberRole) (d : Declaration) : Rejection :=
  .orphanMember (role.marker config) (Config.markerLabel config.componentMarker) d.name

/-- What a member is. -/
theorem checkMember_eq_ok {config : Config} {role : MemberRole} {d : Declaration} :
    checkMember config role d = .ok () ↔
      d.kind = .method ∧ d.parameters.length = role.arity ∧
        d.hasModifier .privateAccess = false ∧ d.hasModifier .static = false := by
  unfold checkMember
  dsimp only
  split
  · simp_all
  split
  · simp_all
  cases d.hasModifier .privateAccess <;> cases d.hasModifier .static <;> simp_all

end Metamodel
