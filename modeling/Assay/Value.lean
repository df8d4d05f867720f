/-
Module: Assay.Value
Purpose: What is validated. An object has a type and hands out the values of its fields by name; a
  field value may be an object again.
Main exports: TypeKey, Value, Object, Object.field, Value.describe, Value.toArg
-/
import Assay.Decimal.Layout
import Assay.Message.Basic
import Assay.Payload
import Assay.Text.Quoted
import Assay.TypeName.Basic

namespace Assay

/-- A type that can be validated, by its qualified name. -/
structure TypeKey where
  /-- The qualified name. -/
  name : String
deriving DecidableEq, Repr, Inhabited

def TypeKey.describe (key : TypeKey) : String :=
  "TypeKey(" ++ Text.quoted key.name ++ ")"

/-- The name that the type goes by in declarations. -/
def TypeKey.simpleName (key : TypeKey) : String :=
  TypeName.simpleName key.name

mutual

/-- The value of a field. -/
inductive Value where
  | null
  | text (chars : String)
  | integer (value : Int64)
  | float (value : Float)
  | boolean (value : Bool)
  | character (value : Char)
  /-- A member of an enumeration, by its name. -/
  | member (name : String)
  | object (held : Object)
  /-- A value of a type that validation does not know. -/
  | foreign (content : Payload)

/-- An object: its type and the values of its fields. -/
inductive Object where
  /-- An object of that type with these fields. -/
  | mk (type : TypeKey) (fields : List (String × Value))

end

instance : Inhabited Value := ⟨.null⟩

instance : Inhabited Object := ⟨.mk default []⟩

namespace Object

/-- The type of an object. -/
def type : Object → TypeKey
  | .mk type _ => type

/-- The fields that an object holds, by name. -/
def fields : Object → List (String × Value)
  | .mk _ fields => fields

/-- The value of a field; a field that the object does not hold is absent. -/
def field (object : Object) (name : String) : Value :=
  (object.fields.lookup name).getD .null

/-- Whether the object is of that type. -/
def isOf (object : Object) (type : TypeKey) : Bool :=
  object.type == type

end Object

namespace Value

/-- Whether the value is absent. -/
def isNull : Value → Bool
  | .null => true
  | _ => false

def text? : Value → Option String
  | .text chars => some chars
  | _ => none

def integer? : Value → Option Int64
  | .integer value => some value
  | _ => none

/-- The object that the value is. -/
def object? : Value → Option Object
  | .object held => some held
  | _ => none

/-- The content of a value that validation does not know. -/
def foreign? : Value → Option Payload
  | .foreign content => some content
  | _ => none

/-- The value as an object of that type. -/
def objectOf? (value : Value) (type : TypeKey) : Option Object :=
  value.object?.filter (·.isOf type)

/-- A value as descriptions show it; of an object only the type is shown. -/
def describe : Value → String
  | .null => "Null"
  | .text chars => "Str(" ++ Text.quoted chars ++ ")"
  | .integer value => "Int(" ++ toString value.toInt ++ ")"
  | .float value => "Float(" ++ Decimal.Layout.detailed.render value ++ ")"
  | .boolean value => "Bool(" ++ (if value then "true" else "false") ++ ")"
  | .character value => "Char(" ++ Text.quotedChar value ++ ")"
  | .member name => "Enum(" ++ Text.quoted name ++ ")"
  | .object held => "Object(" ++ Text.quoted held.type.name ++ ")"
  | .foreign _ => "Other(..)"

/-- What a value puts into a message: texts and members by their characters, objects by their
type. -/
def toArg : Value → MessageArg
  | .null => .null
  | .text chars | .member chars => .text chars
  | .integer value => .int value
  | .float value => .float value
  | .boolean value => .bool value
  | .character value => .text (String.singleton value)
  | .object held => .text held.type.name
  | .foreign _ => .text "other"

end Value

/-- A field value that is an object is smaller than the object that holds it, so that descending
into objects ends. -/
theorem Object.sizeOf_lt_of_field_eq_object {object child : Object} {name : String}
    (held : object.field name = .object child) : sizeOf child < sizeOf object := by
  obtain ⟨type, fields⟩ := object
  simp only [Object.field, Object.fields] at held
  have found : fields.lookup name = some (.object child) := by
    cases known : fields.lookup name with
    | none => simp [known] at held
    | some value => simpa [known] using held
  have smaller : sizeOf child < sizeOf fields := by
    clear held
    induction fields with
    | nil => simp at found
    | cons entry fields ih =>
      obtain ⟨label, value⟩ := entry
      simp only [List.lookup_cons] at found
      simp only [List.cons.sizeOf_spec, Prod.mk.sizeOf_spec]
      split at found
      · cases found
        simp only [Value.object.sizeOf_spec]
        omega
      · have := ih found
        omega
  simp only [Object.mk.sizeOf_spec]
  omega

end Assay
