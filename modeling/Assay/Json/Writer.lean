/-
Module: Assay.Json.Writer
Purpose: Writing JSON on one line without blanks. Inside a text the quote, the backslash and the
  control characters are escaped, all else stands for itself.
Main exports: Json.writeText, Json.writeInt, Json.writeFloat, Json.writeList, Json.writeObject
-/
import Assay.Decimal.Layout

namespace Assay.Json

def hexDigit (n : Nat) : Char :=
  if n < 10 then Char.ofNat ('0'.toNat + n) else Char.ofNat ('a'.toNat + n - 10)

/-- How a character is written inside a text. -/
def escape (c : Char) : List Char :=
  match c with
  | '"' => ['\\', '"']
  | '\\' => ['\\', '\\']
  | '\x08' => ['\\', 'b']
  | '\x0c' => ['\\', 'f']
  | '\n' => ['\\', 'n']
  | '\r' => ['\\', 'r']
  | '\t' => ['\\', 't']
  | c =>
    if c.toNat < 0x20 then ['\\', 'u', '0', '0', hexDigit (c.toNat / 16), hexDigit (c.toNat % 16)]
    else [c]

def writeText (text : String) : List Char :=
  '"' :: text.toList.flatMap escape ++ ['"']

def writeNat (n : Nat) : List Char :=
  Nat.toDigits 10 n

def writeInt (n : Int) : List Char :=
  if n < 0 then '-' :: writeNat n.natAbs else writeNat n.natAbs

/-- A float; what is not finite has no number in the format. -/
def writeFloat (x : Float) : List Char :=
  if x.isNaN || x.isInf then "null".toList else (Decimal.Layout.json.render x).toList

def writeBool (b : Bool) : List Char :=
  (if b then "true" else "false").toList

def writeNull : List Char :=
  "null".toList

/-- Parts with a comma between them. -/
def separated : List (List Char) → List Char
  | [] => []
  | [part] => part
  | part :: more => part ++ ',' :: separated more

/-- A list of documents that are already written. -/
def writeList (items : List (List Char)) : List Char :=
  '[' :: separated items ++ [']']

/-- An object whose members are already written. -/
def writeObject (members : List (String × List Char)) : List Char :=
  let written := members.map fun member => writeText member.1 ++ ':' :: member.2
  '\x7b' :: separated written ++ ['\x7d']

end Assay.Json
