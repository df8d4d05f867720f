/-
Module: Assay.Constant.Basic
Purpose: The constants that a description of a type may mention: arguments of rules and keys of
  services. Their text shows strings and characters between quotes.
Main exports: Constant, Constant.kind, Constant.toString, Constant.describe
-/
import Assay.Decimal.Layout
import Assay.Text.Quoted

namespace Assay

/-- A constant attached to a rule or used as the key of a service. -/
inductive Constant where
  | text (chars : String)
  | integer (value : Int64)
  | float (value : Float)
  | boolean (value : Bool)
  | character (value : Char)
  | member (type variant : String)
  | list (items : List Constant)

instance : Inhabited Constant := ⟨.list []⟩

namespace Constant

/-- What sort of constant this is, in a word. -/
def kind : Constant → String
  | .text _ => "string"
  | .integer _ => "integer"
  | .float _ => "float"
  | .boolean _ => "boolean"
  | .character _ => "character"
  | .member _ _ => "enum"
  | .list _ => "list"

mutual

/-- The text of a constant. -/
def toString : Constant → String
  | .text chars => Text.quoted chars
  | .integer value => ToString.toString value.toInt
  | .float value => Decimal.Layout.plain.render value
  | .boolean value => if value then "true" else "false"
  | .character value => Text.quotedChar value
  | .member type variant => type ++ "::" ++ variant
  | .list items => Text.bracketed (toStrings items)

/-- The texts of the items of a list. -/
def toStrings : List Constant → List String
  | [] => []
  | item :: items => toString item :: toStrings items

end

instance : ToString Constant := ⟨toString⟩

mutual

def describe : Constant → String
  | .text chars => "String(" ++ Text.quoted chars ++ ")"
  | .integer value => "Integer(" ++ ToString.toString value.toInt ++ ")"
  | .float value => "Float(" ++ Decimal.Layout.detailed.render value ++ ")"
  | .boolean value => "Boolean(" ++ (if value then "true" else "false") ++ ")"
  | .character value => "Character(" ++ Text.quotedChar value ++ ")"
  | .member type variant =>
    Text.record "Enum" [("ty", Text.quoted type), ("variant", Text.quoted variant)]
  | .list items => "List(" ++ Text.bracketed (describeItems items) ++ ")"

def describeItems : List Constant → List String
  | [] => []
  | item :: items => describe item :: describeItems items

end

end Constant

end Assay
