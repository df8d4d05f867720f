/-
Module: Assay.Json.Basic
Purpose: JSON documents as they are written. A number keeps its digits, since whether it is an
  integer, a float or out of range depends on who reads it; text and key are decoded, and what holds
  half a surrogate pair is kept as a value that can be skipped and not read.
Main exports: Numeral, Json
-/

namespace Assay

/-- A JSON number as it is written. -/
structure Numeral where
  /-- Whether it starts with a minus sign. -/
  negative : Bool
  /-- The digits before the point; at least one. -/
  whole : List Char
  /-- The digits behind the point; none if there is no point. -/
  fraction : List Char
  /-- Sign and digits of the exponent, where `true` is a minus sign; the digits are empty if there
  is no exponent. -/
  exponent : Bool × List Char
deriving DecidableEq, Repr

inductive Json where
  | null
  | bool (value : Bool)
  /-- A number as written. -/
  | number (numeral : Numeral)
  | text (chars : String)
  | list (items : List Json)
  /-- An object, its members in written order. -/
  | object (members : List (String × Json))
  /-- A text, or an object with a key, in which one half of a surrogate pair stands alone. -/
  | unreadable

end Assay
