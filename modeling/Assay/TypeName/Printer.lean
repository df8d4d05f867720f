/-
Module: Assay.TypeName.Printer
Purpose: The one spelling of a type: name, arguments in angle brackets, and a question mark for a
  value that may be absent.
Main exports: TypeName.spelling, TypeName.toString, TypeName.describe
-/
import Assay.Text.Quoted
import Assay.TypeName.Basic

namespace Assay.TypeName

mutual

/-- The characters a type is written with. -/
def spelling : TypeName → List Char
  | ⟨name, args, nullable⟩ =>
    name.toList ++ spellingOfArgs args ++ (if nullable then ['?'] else [])

/-- The argument list in its brackets; no arguments are written as nothing. -/
def spellingOfArgs : List TypeName → List Char
  | [] => []
  | arg :: more => '<' :: spelling arg ++ spellingOfMore more ++ ['>']

/-- The arguments after the first, each behind a comma and a space. -/
def spellingOfMore : List TypeName → List Char
  | [] => []
  | arg :: more => ',' :: ' ' :: spelling arg ++ spellingOfMore more

end

/-- The text of a type. -/
def toString (type : TypeName) : String :=
  String.ofList type.spelling

instance : ToString TypeName := ⟨toString⟩

mutual

def describe : TypeName → String
  | ⟨name, args, nullable⟩ =>
    Text.record "TypeName" [
      ("name", Text.quoted name),
      ("args", Text.bracketed (describeArgs args)),
      ("nullable", if nullable then "true" else "false")]

def describeArgs : List TypeName → List String
  | [] => []
  | arg :: args => describe arg :: describeArgs args

end

end Assay.TypeName
