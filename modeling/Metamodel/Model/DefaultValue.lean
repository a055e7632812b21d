import Metamodel.Binary.Layout
import Metamodel.Json.Decoder
import Metamodel.TypeRef.Primitive

/-!
# Default values

The value that an attribute of a primitive type has as long as no caller sets it. Four primitive
types can have one. As source text, floating point numbers end in a letter for their width.

* `zero?_isSome`: which primitive types have a default value.
-/

namespace Metamodel

/-- The initial value of an attribute. -/
inductive DefaultValue where
  /-- An integer of 32 bits. -/
  | int (value : Int32)
  /-- A floating point number of 32 bits. -/
  | float (value : Binary .single)
  /-- A floating point number of 64 bits. -/
  | double (value : Binary .double)
  /-- A truth value. -/
  | boolean (value : Bool)
deriving DecidableEq, Repr

namespace DefaultValue

/-- The value of a primitive type that can have a default value, unless another one is given. -/
def zero? : Primitive → Option DefaultValue
  | .int => some (int 0)
  | .float => some (float .zero)
  | .double => some (double .zero)
  | .boolean => some (boolean false)
  | _ => none

/-- Four primitive types have a default value. -/
theorem zero?_isSome (p : Primitive) :
    (zero? p).isSome = (p ∈ [.int, .float, .double, Primitive.boolean]) := by
  cases p <;> simp [zero?]

/-- The primitive type of a default value. -/
def primitive : DefaultValue → Primitive
  | int _ => .int
  | float _ => .float
  | double _ => .double
  | boolean _ => .boolean

/-! ## Source text -/

/-- In source text, numbers from `10 ^ -4` up to below `10 ^ 16` are plain, and the greater of two
equally near decimals is spelled. -/
def sourceLayout : NumberLayout := ⟨-4, 15, .bare, .greater⟩

/-- A floating point number in source text. -/
def binaryText {F : BinaryFormat} (x : Binary F) : String :=
  if x.isFinite then String.ofList (sourceLayout.ofBinary x).text
  else if x.negative then "-inf"
  else "inf"

/-- The value as source text. -/
def text : DefaultValue → String
  | int n => String.ofList (Numeral.ofInt n.toInt).text
  | float x => binaryText x ++ "f"
  | double x => binaryText x ++ "d"
  | boolean b => if b then "true" else "false"

instance : ToString DefaultValue where
  toString := text

/-! ## JSON form -/

/-- In JSON, numbers of 32 bits are plain from `10 ^ -6` up to below `10 ^ 13`, and of two equally
near decimals the one that ends in an even digit is spelled. -/
def singleLayout : NumberLayout := ⟨-6, 12, .plus, .even⟩

/-- In JSON, numbers of 64 bits are plain from `10 ^ -5` up to below `10 ^ 16`, and of two equally
near decimals the one that ends in an even digit is spelled. -/
def doubleLayout : NumberLayout := ⟨-5, 15, .plus, .even⟩

/-- A floating point number; JSON has none for infinity. -/
def binaryToJson (layout : NumberLayout) {F : BinaryFormat} (x : Binary F) : Json :=
  if x.isFinite then .number (layout.ofBinary x) else .null

/-- An object with one member, which is named for the type of the value. -/
def toJson : DefaultValue → Json
  | int n => .object [("int", .number (.ofInt n.toInt))]
  | float x => .object [("float", binaryToJson singleLayout x)]
  | double x => .object [("double", binaryToJson doubleLayout x)]
  | boolean b => .object [("boolean", .bool b)]

/-- The default value of an object. -/
def ofJson : Json.Decoder DefaultValue
  | depth + 1, .object [(kind, json)] =>
    if kind = "int" then (Json.decodeInt32 depth json).map .int
    else if kind = "float" then (Json.decodeBinary .single depth json).map .float
    else if kind = "double" then (Json.decodeBinary .double depth json).map .double
    else if kind = "boolean" then (Json.decodeBool depth json).map .boolean
    else none
  | _, _ => none

end DefaultValue

end Metamodel
