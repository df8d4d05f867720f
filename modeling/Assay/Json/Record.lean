/-
Module: Assay.Json.Record
Purpose: Reading JSON documents as records and values. A record may be written as an object, whose
  unknown members are skipped and whose known ones may each stand once, or as a list of its fields
  in their order.
Main exports: Json.members?, Json.fields?, Json.asBool?, Json.asText?, Json.asSize?, Json.asInt64?,
  Json.asFloat?
-/
import Assay.Json.Number

namespace Assay.Json

/-- The member of that name, if it stands at most once; the inner option tells whether it stands. -/
def member? (members : List (String × Json)) (name : String) : Option (Option Json) :=
  match members.filter fun member => member.1 == name with
  | [] => some none
  | [member] => some (some member.2)
  | _ => none

/-- The fields of a record, by name, out of an object. -/
def members? (names : List String) : Json → Option (List (Option Json))
  | .object members => names.mapM (member? members)
  | _ => none

/-- The fields of a record out of an object or out of a list, where fields at the end may be left
out. -/
def fields? (names : List String) : Json → Option (List (Option Json))
  | .list items =>
    if items.length ≤ names.length then
      some (items.map some ++ List.replicate (names.length - items.length) none)
    else none
  | document => members? names document

def asBool? : Json → Option Bool
  | .bool value => some value
  | _ => none

def asText? : Json → Option String
  | .text chars => some chars
  | _ => none

/-- A size of 64 bits. -/
def asSize? : Json → Option Nat
  | .number numeral =>
    match numeral.value? with
    | some (.int value) => if 0 ≤ value then some value.toNat else none
    | _ => none
  | _ => none

def fitsInt64 (value : Int) : Bool :=
  Int64.minValue.toInt ≤ value && value ≤ Int64.maxValue.toInt

/-- An integer of 64 signed bits. -/
def asInt64? : Json → Option Int64
  | .number numeral =>
    match numeral.value? with
    | some (.int value) => if fitsInt64 value then some (Int64.ofInt value) else none
    | _ => none
  | _ => none

/-- The float nearest to an integer of 64 bits. -/
def floatOfInt (value : Int) : Float :=
  if value < 0 then (Int64.ofInt value).toFloat else (UInt64.ofNat value.toNat).toFloat

def asFloat? : Json → Option Float
  | .number numeral =>
    match numeral.value? with
    | some (.int value) => some (floatOfInt value)
    | some (.float value) => some value
    | none => none
  | _ => none

end Assay.Json
