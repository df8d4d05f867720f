/-
Module: Assay.Payload
Purpose: Values that validation hands on without looking into them: services, the values of a
  context, and field values of foreign types. Whoever receives one asks for the type expected and
  gets nothing if it is another one.
Main exports: Payload, Payload.integer?, Payload.text?, Payload.clock?
-/

namespace Assay

/-- A value that only its receiver looks into. -/
inductive Payload where
  | integer (value : Int64)
  | text (chars : String)
  /-- A clock that shows a fixed time. -/
  | clock (now : Int64)
deriving DecidableEq, Repr, Inhabited

namespace Payload

def integer? : Payload → Option Int64
  | .integer value => some value
  | _ => none

def text? : Payload → Option String
  | .text chars => some chars
  | _ => none

def clock? : Payload → Option Int64
  | .clock now => some now
  | _ => none

end Payload

end Assay
