/-
Module: Assay.Text.Quoted
Purpose: Texts and characters as descriptions of values show them: between quotes, on one line, and
  so that every character is visible. A character that would end the text, break the line, join the
  character before it or not show at all is written as an escape.
Main exports: escape, quoted, quotedChar
-/
import Assay.Unicode.Classes

namespace Assay.Text

/-- The escape of a code point by its number in hexadecimal. -/
def escapeByNumber (c : Char) : List Char :=
  ['\\', 'u', '\x7b'] ++ Nat.toDigits 16 c.toNat ++ ['\x7d']

/-- How one character is written between two `quote` marks. -/
def escape (quote c : Char) : List Char :=
  match c with
  | '\x00' => ['\\', '0']
  | '\t' => ['\\', 't']
  | '\n' => ['\\', 'n']
  | '\r' => ['\\', 'r']
  | '\\' => ['\\', '\\']
  | c =>
    if c = quote then ['\\', c]
    else if Unicode.joinsPrevious c ∨ ¬Unicode.isPrintable c then escapeByNumber c
    else [c]

def quoted (text : String) : String :=
  String.ofList ('"' :: text.toList.flatMap (escape '"') ++ ['"'])

def quotedChar (c : Char) : String :=
  String.ofList ('\'' :: escape '\'' c ++ ['\''])

/-- Items in brackets, as descriptions of values show a list. -/
def bracketed (items : List String) : String :=
  "[" ++ ", ".intercalate items ++ "]"

/-- An optional part, as descriptions of values show it. -/
def optional : Option String → String
  | some shown => "Some(" ++ shown ++ ")"
  | none => "None"

/-- A record with its named parts, as descriptions of values show it. -/
def record (name : String) (parts : List (String × String)) : String :=
  let shown := parts.map fun part => part.1 ++ ": " ++ part.2
  name ++ " \x7b " ++ ", ".intercalate shown ++ " \x7d"

/-- A record that does not show all of its parts. -/
def openRecord (name : String) (parts : List (String × String)) : String :=
  let shown := parts.map fun part => part.1 ++ ": " ++ part.2
  name ++ " \x7b " ++ ", ".intercalate (shown ++ [".."]) ++ " \x7d"

end Assay.Text
