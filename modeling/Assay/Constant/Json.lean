/-
Module: Assay.Constant.Json
Purpose: Constants in JSON: an object with one member, whose name tells the sort of constant.
Main exports: Constant.writeJson, Constant.ofJson?, Constant.read?
-/
import Assay.Constant.Basic
import Assay.Json.Reader
import Assay.Json.Record
import Assay.Json.Writer

namespace Assay.Constant

open Json

mutual

/-- Writes a constant. -/
def writeJson : Constant → List Char
  | .text chars => writeObject [("string", writeText chars)]
  | .integer value => writeObject [("integer", writeInt value.toInt)]
  | .float value => writeObject [("float", writeFloat value)]
  | .boolean value => writeObject [("boolean", writeBool value)]
  | .character value => writeObject [("character", writeText (String.singleton value))]
  | .member type variant =>
    writeObject [("enum", writeObject [("ty", writeText type), ("variant", writeText variant)])]
  | .list items => writeObject [("list", writeList (writeItems items))]

/-- Writes the items of a list. -/
def writeItems : List Constant → List (List Char)
  | [] => []
  | item :: items => writeJson item :: writeItems items

end

/-- A text of one character. -/
def asChar? (document : Json) : Option Char :=
  match (asText? document).map String.toList with
  | some [c] => some c
  | _ => none

/-- A member of an enumeration, written as a record of its type and its variant. -/
def asMember? (document : Json) : Option Constant :=
  match fields? ["ty", "variant"] document with
  | some [some type, some variant] => do return .member (← asText? type) (← asText? variant)
  | _ => none

mutual

/-- The constant that a document stands for, if its lists and objects nest at most `room` deep. -/
def ofJson? (room : Nat) : Json → Option Constant
  | .object [(tag, content)] =>
    if room = 0 then none
    else match tag, content with
      | "string", content => (asText? content).map .text
      | "integer", content => (asInt64? content).map .integer
      | "float", content => (asFloat? content).map .float
      | "boolean", content => (asBool? content).map .boolean
      | "character", content => (asChar? content).map .character
      | "enum", content => if room = 1 then none else asMember? content
      | "list", .list items => if room = 1 then none else (ofItems? (room - 2) items).map .list
      | _, _ => none
  | _ => none

/-- The constants that the items of a list stand for. -/
def ofItems? (room : Nat) : List Json → Option (List Constant)
  | [] => some []
  | item :: items => do return (← ofJson? room item) :: (← ofItems? room items)

end

/-- How deep lists and objects may nest in a text that is read. -/
def nestingLimit : Nat := 127

/-- Reads a constant from a text. -/
def read? (text : String) : Option Constant :=
  (Json.read? text.toList).bind (ofJson? nestingLimit)

end Assay.Constant
