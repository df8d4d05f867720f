/-
Module: Assay.Error
Purpose: Everything that can end a validation before it has an outcome. A value that breaks a rule
  is no error: it is a message in the outcome. Errors are a description that cannot be compiled, a
  service that cannot be had, a cancelled call, and a call that may not wait for rules that have to.
Main exports: ArgumentFault, CompileError, ResolveError, ValidateError
-/
import Assay.TypeName.Parser

namespace Assay

/-- What is wrong with an argument of a rule. -/
inductive ArgumentFault where
  | negative
  /-- A count is no integer but a constant of another kind. -/
  | notInteger (kind : String)
  /-- A list of names is no list but a constant of another kind. -/
  | notList (kind : String)
  /-- A list of names holds a constant that is no name. -/
  | notNames (kind : String)
  | missing
  /-- The lower bound exceeds the upper one. -/
  | aboveMax
  /-- The unit of a length is neither characters nor bytes. -/
  | unknownUnit
  /-- A reason in the words of the rule's owner. -/
  | described (reason : String)
deriving DecidableEq, Repr

def ArgumentFault.reason : ArgumentFault → String
  | .negative => "must not be negative"
  | .notInteger kind => "must be an integer, got " ++ kind
  | .notList kind => "must be a list, got " ++ kind
  | .notNames kind => "must contain strings, got " ++ kind
  | .missing => "is required"
  | .aboveMax => "must not exceed max"
  | .unknownUnit => "must be \"chars\" or \"bytes\""
  | .described reason => reason

/-- Why the description of a type does not compile. -/
inductive CompileError where
  /-- Two fields of a type have one name. -/
  | duplicateField (type field : String)
  /-- A field asks for a rule that the catalog does not have. -/
  | unknownRule (field rule : String)
  /-- A rule does not accept one of its arguments. -/
  | invalidArgument (rule argument : String) (fault : ArgumentFault)
  /-- A parameter's key is not a constant, or not one that services have as keys. -/
  | nonConstantKey (owner parameter : String)
  /-- A text is no type. -/
  | malformedType (text : String) (fault : TypeFault)
  /-- A nested field has no type that could be validated. -/
  | nestedTypeMissing (field : String)
deriving DecidableEq, Repr

def CompileError.message : CompileError → String
  | .duplicateField type field => s!"type `{type}` declares field `{field}` more than once"
  | .unknownRule field rule => s!"field `{field}` references unknown rule `{rule}`"
  | .invalidArgument rule argument fault =>
    let reason := fault.reason
    s!"rule `{rule}`: argument `{argument}` {reason}"
  | .nonConstantKey owner parameter =>
    s!"parameter `{parameter}` of `{owner}` must use a constant key"
  | .malformedType text fault =>
    let reason := fault.reason
    s!"malformed type `{text}`: {reason}"
  | .nestedTypeMissing field => s!"nested field `{field}` has no validatable type"

/-- Why a service cannot be had. -/
inductive ResolveError where
  /-- No service is registered under the type, or under the type and the key. -/
  | serviceNotFound (type : String) (key : Option String)
  /-- The provider answers no lookups with a key. -/
  | unsupported (type : String)
deriving DecidableEq, Repr

def ResolveError.message : ResolveError → String
  | .serviceNotFound type none => s!"no service registered for `{type}`"
  | .serviceNotFound type (some key) => s!"no service registered for `{type}` with key {key}"
  | .unsupported type => s!"provider does not support keyed lookup of `{type}`"

/-- Why a call ends without an outcome. -/
inductive ValidateError where
  /-- A service that a rule declares cannot be had. -/
  | configuration (error : ResolveError)
  /-- The type, or a type nested in it, does not compile. -/
  | compile (error : CompileError)
  | cancelled
  /-- The call may not wait, and rules of the type have to. -/
  | requiresSuspension (type : String)
deriving DecidableEq, Repr

namespace ValidateError

def message : ValidateError → String
  | .configuration error => "configuration error: " ++ error.message
  | .compile error => "compile error: " ++ error.message
  | .cancelled => "validation cancelled"
  | .requiresSuspension type => s!"validation of `{type}` requires an async context"

def isConfiguration : ValidateError → Bool
  | .configuration _ => true
  | _ => false

def isCancelled : ValidateError → Bool
  | .cancelled => true
  | _ => false

end ValidateError

/-- Reads the text of a type in a description. -/
def TypeName.parse (text : String) : Except CompileError TypeName :=
  match TypeName.read text.toList with
  | .ok type => .ok type
  | .error fault => .error (.malformedType text fault)

end Assay
