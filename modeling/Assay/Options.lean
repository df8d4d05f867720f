/-
Module: Assay.Options
Purpose: The settings of a validator, and what a described type may set for itself. A type's own
  settings win over the validator's.
Main exports: Options, Options.read?, TypeSettings, TypeSettings.read?, TypeSettings.toJson
-/
import Assay.Json.Reader
import Assay.Json.Record
import Assay.Json.Writer

namespace Assay

open Json

structure Options where
  /-- Whether rules are added that follow from the declaration of a field. -/
  autoRules : Bool := false
  /-- Whether an object is left at its first failure. -/
  failFast : Bool := false
  /-- How many messages an object has room for, before rounding by the pool. -/
  globalMessageCapacity : Nat := 16
  /-- How many messages a field has room for, before rounding by the pool. -/
  fieldMessageCapacity : Nat := 16
  /-- How many idle outcomes are kept; unset, the pool's default holds. -/
  outcomePoolSize : Option Nat := none
deriving DecidableEq, Repr, Inhabited

namespace Options

def names : List String :=
  ["auto_rules", "fail_fast", "global_message_capacity", "field_message_capacity",
    "outcome_pool_size"]

/-- The value of a setting, or its default if it is not set. -/
def setting? {α : Type} (decode : Json → Option α) (default : α) : Option Json → Option α
  | none => some default
  | some document => decode document

/-- The options that a document stands for; what it does not set has its default. -/
def ofJson? (document : Json) : Option Options := do
  let defaults : Options := {}
  match fields? names document with
  | some [autoRules, failFast, globalCapacity, fieldCapacity, poolSize] =>
    return {
      autoRules := ← setting? asBool? defaults.autoRules autoRules
      failFast := ← setting? asBool? defaults.failFast failFast
      globalMessageCapacity := ← setting? asSize? defaults.globalMessageCapacity globalCapacity
      fieldMessageCapacity := ← setting? asSize? defaults.fieldMessageCapacity fieldCapacity
      outcomePoolSize := ← setting? (fun size => (asSize? size).map some) none poolSize }
  | _ => none

def read? (text : String) : Option Options :=
  (Json.read? text.toList).bind ofJson?

end Options

structure TypeSettings where
  /-- Whether rules are added that follow from the declaration of a field, if set. -/
  autoRules : Option Bool := none
  /-- Whether an object of the type is left at its first failure, if set. -/
  failFast : Option Bool := none
deriving DecidableEq, Repr, Inhabited

namespace TypeSettings

/-- An optional truth value; the literal for nothing leaves it unset. -/
def flag? : Json → Option (Option Bool)
  | .null => some none
  | document => (asBool? document).map some

/-- The settings that a document stands for. An object may leave a setting out, a list may not. -/
def ofJson? : Json → Option TypeSettings
  | .list [autoRules, failFast] => do return ⟨← flag? autoRules, ← flag? failFast⟩
  | document =>
    match members? ["auto_rules", "fail_fast"] document with
    | some [autoRules, failFast] => do
      return ⟨← Options.setting? flag? none autoRules,
        ← Options.setting? flag? none failFast⟩
    | _ => none

/-- Reads settings from a text. -/
def read? (text : String) : Option TypeSettings :=
  (Json.read? text.toList).bind ofJson?

/-- Writes an optional truth value. -/
def writeFlag : Option Bool → List Char
  | some value => writeBool value
  | none => writeNull

/-- The text of the settings in JSON. -/
def toJson (settings : TypeSettings) : String :=
  String.ofList (writeObject [
    ("auto_rules", writeFlag settings.autoRules), ("fail_fast", writeFlag settings.failFast)])

end TypeSettings

end Assay
