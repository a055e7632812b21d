import Metamodel.Text.Upper
import Metamodel.TypeRef.ClassRef
import Metamodel.TypeRef.Primitive

/-!
# References to types

The type of a parameter, and of the attribute that is generated for it. A type has a text in the
form of the source language and a token, which is short enough to be part of a field name.

* `same_iff`: the structural comparison decides equality, which gives `DecidableEq`.
-/

namespace Metamodel

/-- A type as it is written in a declaration. -/
inductive TypeRef where
  /-- A primitive type. -/
  | primitive (p : Primitive)
  /-- A class without type arguments. -/
  | declared (c : ClassRef)
  /-- An array of a type. -/
  | array (element : TypeRef)
  /-- A class with type arguments. -/
  | parameterized (raw : ClassRef) (arguments : List TypeRef)
  /-- A type variable. -/
  | typeVariable (name : String)
deriving Inhabited, Repr

namespace TypeRef

/-- The class of a qualified name. -/
def ofName (qualified : String) : TypeRef :=
  declared (.parse qualified)

/-- The primitive type, if it is one. -/
def primitive? : TypeRef → Option Primitive
  | primitive p => some p
  | _ => none

/-- The class of a type with or without type arguments. -/
def class? : TypeRef → Option ClassRef
  | declared c => some c
  | parameterized raw _ => some raw
  | _ => none

/-- The type is the given primitive type. -/
def isPrimitive (t : TypeRef) (p : Primitive) : Bool :=
  t.primitive? = some p

/-- The part of a field name that tells types apart: innermost class names, without type arguments,
and a word for every array. Types that differ may have the same token. -/
def token : TypeRef → String
  | primitive p => p.token
  | declared c => c.simpleName
  | array element => element.token ++ "Array"
  | parameterized raw _ => raw.simpleName
  | typeVariable name => Text.capitalize name

/-! ## Text -/

mutual

/-- The type as it is written in source text. -/
def text : TypeRef → String
  | primitive p => p.keyword
  | declared c => toString c
  | array element => element.text ++ "[]"
  | parameterized raw arguments => toString raw ++ "<" ++ textOfArguments arguments ++ ">"
  | typeVariable name => name

/-- Type arguments, with a comma and a blank between neighbours. -/
def textOfArguments : List TypeRef → String
  | [] => ""
  | t :: rest => t.text ++ textOfFurther rest

/-- Type arguments, each behind a comma and a blank. -/
def textOfFurther : List TypeRef → String
  | [] => ""
  | t :: rest => ", " ++ t.text ++ textOfFurther rest

end

instance : ToString TypeRef where
  toString := text

/-! ## Equality -/

mutual

/-- Structural equality. -/
def same : TypeRef → TypeRef → Bool
  | primitive p, primitive q => p = q
  | declared c, declared d => c = d
  | array s, array t => s.same t
  | parameterized c ss, parameterized d ts => c = d && sameList ss ts
  | typeVariable m, typeVariable n => m = n
  | _, _ => false

/-- Structural equality of lists of types. -/
def sameList : List TypeRef → List TypeRef → Bool
  | [], [] => true
  | s :: ss, t :: ts => s.same t && sameList ss ts
  | _, _ => false

end

mutual

/-- The structural comparison decides equality. -/
theorem same_iff : ∀ s t : TypeRef, s.same t = true ↔ s = t
  | primitive p, t => by cases t <;> simp [same]
  | declared c, t => by cases t <;> simp [same]
  | array s, t => by
    cases t with
    | array t => simp [same, same_iff s t]
    | _ => simp [same]
  | parameterized c ss, t => by
    cases t with
    | parameterized d ts => simp [same, sameList_iff ss ts]
    | _ => simp [same]
  | typeVariable m, t => by cases t <;> simp [same]

/-- The structural comparison of lists decides equality. -/
theorem sameList_iff : ∀ ss ts : List TypeRef, sameList ss ts = true ↔ ss = ts
  | [], ts => by cases ts <;> simp [sameList]
  | s :: ss, ts => by
    cases ts with
    | nil => simp [sameList]
    | cons t ts => simp [sameList, same_iff s t, sameList_iff ss ts]

end

instance : DecidableEq TypeRef := fun s t => decidable_of_iff (s.same t = true) (same_iff s t)

/-! ## Order -/

/-- The place of a type among the kinds of types. -/
def kindIndex : TypeRef → Nat
  | primitive _ => 0
  | declared _ => 1
  | array _ => 2
  | parameterized _ _ => 3
  | typeVariable _ => 4

mutual

/-- By kind, then by the parts in their order. -/
def order : TypeRef → TypeRef → Ordering
  | primitive p, primitive q => compare p q
  | declared c, declared d => compare c d
  | array s, array t => s.order t
  | parameterized c ss, parameterized d ts => (compare c d).then (orderList ss ts)
  | typeVariable m, typeVariable n => compare m n
  | s, t => compare s.kindIndex t.kindIndex

/-- By the first items that differ; a list comes before its continuations. -/
def orderList : List TypeRef → List TypeRef → Ordering
  | [], [] => .eq
  | [], _ :: _ => .lt
  | _ :: _, [] => .gt
  | s :: ss, t :: ts => (s.order t).then (orderList ss ts)

end

instance : Ord TypeRef where
  compare := order

end TypeRef

end Metamodel
