import Metamodel.Config.Basic
import Metamodel.Literal
import Metamodel.Model.DefaultValue
import Metamodel.Rejection

/-!
# Default values of properties

The mark of a property setter has a member for each primitive type that can have a default value.
Its text, without blanks around it, is a literal of the type; a floating point literal may end in
the letter of its type. Without the member the value is zero or false.

* `resolveDefault_of_not_primitive`: only primitive types have a default value.
-/

namespace Metamodel

namespace DefaultValue

/-- The member of the mark for the default value of a primitive type. -/
def member? : Primitive → Option String
  | .int => some "intDefault"
  | .float => some "floatDefault"
  | .double => some "doubleDefault"
  | .boolean => some "booleanDefault"
  | _ => none

/-- The characters of a literal without one of two letters at the end. -/
def dropLetter (lower upper : Char) (cs : List Char) : List Char :=
  match cs.getLast? with
  | some c => if c = lower ∨ c = upper then cs.dropLast else cs
  | none => cs

/-- The value of a literal of a primitive type. -/
def ofLiteral? (p : Primitive) (cs : List Char) : Option DefaultValue :=
  match p with
  | .int => (Literal.readInt32 cs).map int
  | .float => (Literal.readBinary .single (dropLetter 'f' 'F' cs)).map float
  | .double => (Literal.readBinary .double (dropLetter 'd' 'D' cs)).map double
  | .boolean => (Literal.readBool cs).map boolean
  | _ => none

end DefaultValue

/-- The text of the default value that a property setter gives for a primitive type. -/
def defaultText? (config : Config) (d : Declaration) (member : String) : Option String :=
  (d.mark? config.propertyMarker).bind (·.member? member)

/-- The default value of a property of a type. -/
def resolveDefault (config : Config) (d : Declaration) (type : TypeRef) :
    Except Rejection (Option DefaultValue) :=
  match type with
  | .primitive p =>
    match DefaultValue.member? p with
    | none => .ok none
    | some member =>
      match defaultText? config d member with
      | none => .ok (DefaultValue.zero? p)
      | some raw =>
        match DefaultValue.ofLiteral? p (Text.trimChars raw.toList) with
        | some value => .ok (some value)
        | none => .error (.invalidDefault d.name member raw type)
  | _ => .ok none

/-- Only primitive types have a default value. -/
theorem resolveDefault_of_not_primitive {config : Config} {d : Declaration} {type : TypeRef}
    (h : type.primitive? = none) : resolveDefault config d type = .ok none := by
  cases type <;> simp_all [resolveDefault, TypeRef.primitive?]

end Metamodel
