/-
Module: Assay.Service.Dependency
Purpose: What rules ask providers for: a service of a type, by itself or under a key. Keys are the
  constants that can be compared for good, which floats and lists cannot.
Main exports: ServiceKey, ServiceKey.ofConstant?, Dependency, Provider, noServices
-/
import Assay.Constant.Basic
import Assay.Error
import Assay.Payload

namespace Assay

inductive ServiceKey where
  | text (chars : String)
  | integer (value : Int64)
  | boolean (value : Bool)
  | character (value : Char)
  | member (type variant : String)
deriving DecidableEq, Repr, Inhabited

namespace ServiceKey

/-- The constant that a key is. -/
def toConstant : ServiceKey → Constant
  | .text chars => .text chars
  | .integer value => .integer value
  | .boolean value => .boolean value
  | .character value => .character value
  | .member type variant => .member type variant

/-- The key that a constant is, unless it is a float or a list. -/
def ofConstant? : Constant → Option ServiceKey
  | .text chars => some (.text chars)
  | .integer value => some (.integer value)
  | .boolean value => some (.boolean value)
  | .character value => some (.character value)
  | .member type variant => some (.member type variant)
  | .float _ | .list _ => none

/-- A constant is a key exactly if it is the constant of that key. -/
theorem ofConstant?_eq_some_iff {constant : Constant} {key : ServiceKey} :
    ofConstant? constant = some key ↔ constant = key.toConstant := by
  cases constant <;> cases key <;> simp [ofConstant?, toConstant]

def toString (key : ServiceKey) : String :=
  key.toConstant.toString

instance : ToString ServiceKey := ⟨toString⟩

end ServiceKey

/-- A service that a rule declares. -/
structure Dependency where
  /-- The normalized name of the service's type. -/
  type : String
  /-- The key, if the service is one of several of its type. -/
  key : Option ServiceKey := none
deriving DecidableEq, Repr, Inhabited

namespace Dependency

def toString (dependency : Dependency) : String :=
  match dependency.key with
  | some key => dependency.type ++ "[" ++ key.toString ++ "]"
  | none => dependency.type

instance : ToString Dependency := ⟨toString⟩

end Dependency

/-- Whoever answers for services. -/
abbrev Provider := Dependency → Except ResolveError Payload

/-- The provider that has no services, and knows of no keys. -/
def noServices : Provider
  | ⟨type, none⟩ => .error (.serviceNotFound type none)
  | ⟨type, some _⟩ => .error (.unsupported type)

end Assay
