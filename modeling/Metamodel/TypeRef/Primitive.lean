/-!
# Primitive types

The primitive types of the source language that a property may have. They are ordered by their
keywords.
-/

namespace Metamodel

/-- A primitive type, named by its keyword. -/
inductive Primitive where
  /-- Truth values. -/
  | boolean
  /-- Integers of 8 bits. -/
  | byte
  /-- UTF-16 code units. -/
  | char
  /-- Floating point numbers of 64 bits. -/
  | double
  /-- Floating point numbers of 32 bits. -/
  | float
  /-- Integers of 32 bits. -/
  | int
  /-- Integers of 64 bits. -/
  | long
  /-- Integers of 16 bits. -/
  | short
deriving DecidableEq, Repr

namespace Primitive

/-- All primitive types, in the order of their keywords. -/
def all : List Primitive :=
  [boolean, byte, char, double, float, int, long, short]

/-- The keyword of the source language. -/
def keyword : Primitive → String
  | boolean => "boolean"
  | byte => "byte"
  | char => "char"
  | double => "double"
  | float => "float"
  | int => "int"
  | long => "long"
  | short => "short"

/-- The primitive type with a keyword. -/
def ofKeyword? (s : String) : Option Primitive :=
  all.find? fun p => p.keyword = s

/-- The keyword with its first letter in upper case. -/
def token : Primitive → String
  | boolean => "Boolean"
  | byte => "Byte"
  | char => "Char"
  | double => "Double"
  | float => "Float"
  | int => "Int"
  | long => "Long"
  | short => "Short"

/-- Neither a truth value nor a character. -/
def isNumeric : Primitive → Bool
  | boolean => false
  | char => false
  | _ => true

/-- The place of a primitive type among all of them. -/
def index : Primitive → Nat
  | boolean => 0
  | byte => 1
  | char => 2
  | double => 3
  | float => 4
  | int => 5
  | long => 6
  | short => 7

instance : Ord Primitive where
  compare p q := compare p.index q.index

end Primitive

end Metamodel
