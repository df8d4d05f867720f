/-
Module: Assay.TypeName.Basic
Purpose: The small trees that type texts are read into: a base name, its type arguments, and whether
  the value may be absent. Names are normalized, so that a type is called the same however its text
  qualifies it.
Main exports: TypeName, TypeName.named, TypeName.compose, TypeName.simpleName
-/
import Assay.Text.Scan
import Assay.Unicode.Classes

namespace Assay

/-- A type as the library sees it: a normalized base name, the type arguments, and a mark that the
value may be absent. -/
structure TypeName where
  /-- The base name, without path and leading words. -/
  name : String
  /-- The type arguments in order; lifetimes are not among them. -/
  args : List TypeName
  /-- Whether the value may be absent. -/
  nullable : Bool

namespace TypeName

instance : Inhabited TypeName := ⟨⟨"", [], false⟩⟩

mutual

/-- Equality of types, decided node by node. -/
def decideEq : (a b : TypeName) → Decidable (a = b)
  | ⟨name, args, nullable⟩, ⟨name', args', nullable'⟩ =>
    if sameName : name = name' then
      if sameMark : nullable = nullable' then
        match decideEqList args args' with
        | isTrue sameArgs => isTrue (by rw [sameName, sameMark, sameArgs])
        | isFalse differ => isFalse fun same => differ (by injection same)
      else isFalse fun same => sameMark (by injection same)
    else isFalse fun same => sameName (by injection same)

/-- Equality of argument lists. -/
def decideEqList : (as bs : List TypeName) → Decidable (as = bs)
  | [], [] => isTrue rfl
  | [], _ :: _ => isFalse nofun
  | _ :: _, [] => isFalse nofun
  | a :: as, b :: bs =>
    match decideEq a b with
    | isFalse differ => isFalse fun same => differ (by injection same)
    | isTrue sameHead =>
      match decideEqList as bs with
      | isTrue sameTail => isTrue (by rw [sameHead, sameTail])
      | isFalse differ => isFalse fun same => differ (by injection same)

end

instance : DecidableEq TypeName := decideEq

/-! ### Names -/

/-- The words and signs before a type that do not change which type is meant. -/
def leads : List (List Char) :=
  [['&'], ['m', 'u', 't', ' '], ['d', 'y', 'n', ' '], ['i', 'm', 'p', 'l', ' ']]

/-- What follows one lead, if the text starts with one. -/
def afterLead? (text : List Char) : Option (List Char) :=
  leads.findSome? fun lead => Text.after? lead text

/-- A lead is never empty, so that taking one off makes progress. -/
theorem length_lt_of_afterLead?_eq_some {text rest : List Char}
    (found : afterLead? text = some rest) :
    rest.length < text.length := by
  obtain ⟨lead, isLead, taken⟩ := List.exists_of_findSome?_eq_some found
  have longer := Text.length_of_after?_eq_some taken
  have filled : 0 < lead.length := by
    simp only [leads, List.mem_cons, List.not_mem_nil, or_false] at isLead
    rcases isLead with rfl | rfl | rfl | rfl <;> simp
  omega

/-- A text without its leads and the blanks between them. -/
def dropLeads (text : List Char) : List Char :=
  match _found : afterLead? text with
  | some rest => dropLeads (Unicode.trimStart rest)
  | none => text
termination_by text.length
decreasing_by
  have := length_lt_of_afterLead?_eq_some _found
  have := Unicode.length_trimStart_le rest
  omega

/-- What follows the last double colon of a text, if it has one. -/
def afterLastPath? : List Char → Option (List Char)
  | [] => none
  | c :: rest =>
    match afterLastPath? rest with
    | some segment => some segment
    | none =>
      match c, rest with
      | ':', ':' :: segment => some segment
      | _, _ => none

/-- The last segment of a path: what follows the last double colon, or the whole text. -/
def lastSegment (path : List Char) : List Char :=
  (afterLastPath? path).getD path

/-- The name a type text goes by: leads, arguments and path are left out. -/
def simpleName (text : String) : String :=
  let bare := (dropLeads (Unicode.trim text.toList)).takeWhile (· ≠ '<')
  String.ofList (Unicode.trim (lastSegment bare))

/-! ### Building types -/

/-- The type of that name without arguments; the text may be qualified as in a signature. -/
def named (text : String) : TypeName :=
  ⟨simpleName text, [], false⟩

/-- The unit type. -/
def unit : TypeName := named "()"

/-- The type with one more argument. -/
def withArg (type arg : TypeName) : TypeName :=
  { type with args := type.args ++ [arg] }

/-- The type with its value marked as possibly absent. -/
def orNull (type : TypeName) : TypeName :=
  { type with nullable := true }

/-- Whether this is the unit type. -/
def isUnit (type : TypeName) : Bool :=
  type.name == "()"

/-- The first type argument. -/
def firstArg? (type : TypeName) : Option TypeName :=
  type.args.head?

/-- The wrapper whose argument may be absent. -/
def optionName : String := "Option"

/-- The wrappers that own or share their argument and are read as that argument. -/
def transparentNames : List String := ["Box", "Pin", "Arc", "Rc"]

/-- The type with base name `name` over `args`. A wrapper with exactly one argument is read as the
argument itself, which the option wrapper and the mark `nullable` make nullable. -/
def compose (name : String) (args : List TypeName) (nullable : Bool) : TypeName :=
  match args with
  | [inner] =>
    if name = optionName ∨ name ∈ transparentNames then
      { inner with nullable := inner.nullable || nullable || name = optionName }
    else ⟨name, args, nullable⟩
  | _ => ⟨name, args, nullable⟩

end TypeName

end Assay
