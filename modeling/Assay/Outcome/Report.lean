/-
Module: Assay.Outcome.Report
Purpose: Outcomes as text: as JSON for those who read the result, and as descriptions of values.
Main exports: Outcome.writeJson, Outcome.toJson, Outcome.fieldToJson, Outcome.describe,
  Outcome.describeField
-/
import Assay.Message.Json
import Assay.Outcome.Basic

namespace Assay.Outcome

open Json

mutual

def writeMembers : Outcome → List (String × List Char)
  | ⟨messages, ⟨fields, capacity⟩⟩ => [
      ("success", writeBool (isSuccess ⟨messages, ⟨fields, capacity⟩⟩)),
      ("messages", writeList (messages.items.map Message.writeJson)),
      ("fields", writeList (writeFields fields))]
termination_by structural outcome => outcome

/-- Writes field outcomes, each as its path followed by the members of its outcome. -/
def writeFields : List FieldOutcome → List (List Char)
  | [] => []
  | ⟨path, outcome⟩ :: fields =>
    writeObject (("path", writeText path) :: outcome.writeMembers) :: writeFields fields
termination_by structural fields => fields

end

def writeJson (outcome : Outcome) : List Char :=
  writeObject outcome.writeMembers

def toJson (outcome : Outcome) : String :=
  String.ofList outcome.writeJson

/-- The text of a field outcome in JSON: its path followed by the members of its outcome. -/
def fieldToJson (field : FieldOutcome) : String :=
  String.ofList (writeObject (("path", writeText field.path) :: field.outcome.writeMembers))

mutual

def describe : Outcome → String
  | ⟨messages, ⟨fields, capacity⟩⟩ =>
    Text.record "Outcome" [
      ("success", if isSuccess ⟨messages, ⟨fields, capacity⟩⟩ then "true" else "false"),
      ("messages", Text.bracketed (messages.items.map Message.describe)),
      ("fields", Text.bracketed (describeFields fields))]
termination_by structural outcome => outcome

def describeFields : List FieldOutcome → List String
  | [] => []
  | ⟨path, outcome⟩ :: fields =>
    Text.record "FieldOutcome" [("path", Text.quoted path), ("outcome", outcome.describe)] ::
      describeFields fields
termination_by structural fields => fields

end

def describeField (field : FieldOutcome) : String :=
  Text.record "FieldOutcome" [
    ("path", Text.quoted field.path), ("outcome", field.outcome.describe)]

end Assay.Outcome
