/-
Module: Assay.Signature
Purpose: What a rule declares about itself: its extra parameters and what it returns, as texts that
  are read when the type it belongs to is compiled.
Main exports: KeyExpr, Parameter, Signature, ParsedSignature, Signature.parse
-/
import Assay.Constant.Basic
import Assay.Error
import Assay.TypeName.Printer

namespace Assay

/-- The key that a parameter asks for its service under. -/
inductive KeyExpr where
  | constant (value : Constant)
  /-- An expression, which is not known before the rule runs. -/
  | expression (text : String)

def KeyExpr.describe : KeyExpr → String
  | .constant value => "Const(" ++ value.describe ++ ")"
  | .expression text => "Expr(" ++ Text.quoted text ++ ")"

/-- A declared parameter. -/
structure Parameter where
  /-- The text of the type. -/
  type : String
  /-- The key, if the service is one of several of its type. -/
  key : Option KeyExpr := none

def Parameter.describe (parameter : Parameter) : String :=
  Text.record "ParamDescriptor" [
    ("type_name", Text.quoted parameter.type),
    ("key", Text.optional (parameter.key.map KeyExpr.describe))]

/-- What a rule declares about itself. -/
structure Signature where
  parameters : List Parameter := []
  /-- The text of the type returned. -/
  returns : String

def Signature.describe (signature : Signature) : String :=
  Text.record "Signature" [
    ("params", Text.bracketed (signature.parameters.map Parameter.describe)),
    ("returns", Text.quoted signature.returns)]

/-- A parameter with its type read. -/
structure ParsedParameter where
  type : TypeName
  /-- The key, if the service is one of several of its type. -/
  key : Option KeyExpr

def ParsedParameter.describe (parameter : ParsedParameter) : String :=
  Text.record "ParsedParam" [
    ("type_name", parameter.type.describe),
    ("key", Text.optional (parameter.key.map KeyExpr.describe))]

/-- A signature with its types read. -/
structure ParsedSignature where
  parameters : List ParsedParameter
  returns : TypeName

def ParsedSignature.describe (signature : ParsedSignature) : String :=
  Text.record "ParsedSignature" [
    ("params", Text.bracketed (signature.parameters.map ParsedParameter.describe)),
    ("returns", signature.returns.describe)]

/-- Reads the type of a parameter. -/
def Parameter.parse (parameter : Parameter) : Except CompileError ParsedParameter := do
  return ⟨← TypeName.parse parameter.type, parameter.key⟩

/-- Reads the types of a signature: those of the parameters in their order, then the one
returned. -/
def Signature.parse (signature : Signature) : Except CompileError ParsedSignature := do
  let parameters ← signature.parameters.mapM Parameter.parse
  let returns ← TypeName.parse signature.returns
  return ⟨parameters, returns⟩

end Assay
