/-
Module: Assay.Message.Json
Purpose: Messages in JSON: a record of text, key and arguments, where no arguments are written as no
  member at all. Which sort of argument a document stands for follows from its form.
Main exports: Message.toJson, Message.ofJson?, Message.read?, Message.argsJson
-/
import Assay.Json.Reader
import Assay.Json.Record
import Assay.Json.Writer
import Assay.Message.Basic

namespace Assay

open Json

namespace MessageArg

def writeJson : MessageArg → List Char
  | .null => writeNull
  | .bool value => writeBool value
  | .int value => writeInt value.toInt
  | .float value => writeFloat value
  | .text chars => writeText chars

/-- The argument that a document stands for; an integer beyond 64 signed bits is a float. -/
def ofJson? : Json → Option MessageArg
  | .null => some .null
  | .bool value => some (.bool value)
  | .number numeral =>
    match numeral.value? with
    | some (.int value) =>
      some (if fitsInt64 value then .int (Int64.ofInt value) else .float (floatOfInt value))
    | some (.float value) => some (.float value)
    | none => none
  | .text chars => some (.text chars)
  | _ => none

end MessageArg

namespace Message

def writeArgs (message : Message) : List Char :=
  writeList (message.args.map MessageArg.writeJson)

def writeJson (message : Message) : List Char :=
  writeObject ([("text", writeText message.text), ("key", writeText message.key)] ++
    (if message.args.isEmpty then [] else [("args", message.writeArgs)]))

def toJson (message : Message) : String :=
  String.ofList message.writeJson

def argsJson (message : Message) : String :=
  String.ofList message.writeArgs

/-- The arguments that a document stands for; a missing document stands for none. -/
def argsOfJson? : Option Json → Option (List MessageArg)
  | none => some []
  | some (.list items) => items.mapM MessageArg.ofJson?
  | some _ => none

def ofJson? (document : Json) : Option Message :=
  match fields? ["text", "key", "args"] document with
  | some [some text, some key, args] => do
    return ⟨← asText? text, ← asText? key, ← argsOfJson? args⟩
  | _ => none

def read? (text : String) : Option Message :=
  (Json.read? text.toList).bind ofJson?

end Message

end Assay
