/-
Module: Assay.Json.Reader
Purpose: Reading a JSON document off the front of a text, after the grammar of the format: no
  trailing commas, no leading zeros, no raw control characters inside a text. Each part hands on a
  strictly shorter rest of the text, which is why reading ends.
Main exports: Json.read?, Json.readValue, Json.readText, Json.readNumeral?
-/
import Assay.Json.Basic
import Assay.Text.Scan

namespace Assay.Json

/-- A value read off the front of `text`, and the strictly shorter text behind it. -/
structure Read (α : Type) (text : List Char) where
  value : α
  /-- What is left of the text. -/
  rest : List Char
  /-- Reading takes at least one character. -/
  shorter : rest.length < text.length

/-- What was read off an inner text, seen from a text at least as long. -/
def Read.within {α : Type} {inner : List Char} (read : Read α inner) (outer : List Char)
    (inside : inner.length ≤ outer.length) : Read α outer :=
  ⟨read.value, read.rest, Nat.lt_of_lt_of_le read.shorter inside⟩

/-- The same reading of another value. -/
def Read.map {α β : Type} {text : List Char} (f : α → β) (read : Read α text) :
    Read β text :=
  ⟨f read.value, read.rest, read.shorter⟩

/-- A part that may be missing at the front of `text`, and the text behind it. -/
structure Part (α : Type) (text : List Char) where
  /-- What was read, or what stands for a missing part. -/
  value : α
  /-- What is left of the text. -/
  rest : List Char
  /-- Reading never lengthens the text. -/
  noLonger : rest.length ≤ text.length

/-! ### Blanks -/

/-- The four blanks of the format. -/
def isSpace (c : Char) : Bool :=
  c == ' ' || c == '\n' || c == '\t' || c == '\r'

def skipSpace (text : List Char) : List Char :=
  text.dropWhile isSpace

theorem length_skipSpace_le (text : List Char) : (skipSpace text).length ≤ text.length :=
  (List.dropWhile_suffix isSpace).length_le

/-! ### Numbers -/

theorem length_dropWhile_isDigit_le (text : List Char) :
    (text.dropWhile Char.isDigit).length ≤ text.length :=
  (List.dropWhile_suffix Char.isDigit).length_le

/-- Reads a run of digits, at least one. -/
def readDigits? : (text : List Char) → Option (Read (List Char) text)
  | [] => none
  | c :: rest =>
    if c.isDigit then
      some ⟨c :: rest.takeWhile Char.isDigit, rest.dropWhile Char.isDigit,
        Nat.lt_succ_of_le (length_dropWhile_isDigit_le rest)⟩
    else none

/-- Reads the digits before the point; a zero in front stands alone. -/
def readWhole? (text : List Char) : Option (Read (List Char) text) :=
  match readDigits? text with
  | none => none
  | some digits =>
    if digits.value.head? = some '0' ∧ digits.value ≠ ['0'] then none else some digits

/-- Reads the point and the digits behind it, if there is a point. -/
def readFraction? (text : List Char) : Option (Part (List Char) text) :=
  match text with
  | '.' :: behind =>
    match readDigits? behind with
    | none => none
    | some digits => some ⟨digits.value, digits.rest, by
        have := digits.shorter
        simp only [List.length_cons]
        omega⟩
  | text => some ⟨[], text, Nat.le_refl _⟩

/-- The sign in front of a number, where `true` is a minus sign. A plus sign counts only where
`plusAllowed`. -/
def takeSign (plusAllowed : Bool) (text : List Char) : Part Bool text :=
  match text with
  | '-' :: rest => ⟨true, rest, by simp⟩
  | '+' :: rest =>
    if plusAllowed then ⟨false, rest, by simp⟩ else ⟨false, '+' :: rest, Nat.le_refl _⟩
  | text => ⟨false, text, Nat.le_refl _⟩

/-- Reads the letter, the sign and the digits of an exponent, if there is one. -/
def readExponent? (text : List Char) : Option (Part (Bool × List Char) text) :=
  match text with
  | [] => some ⟨(false, []), [], Nat.le_refl _⟩
  | c :: behind =>
    if c = 'e' ∨ c = 'E' then
      let sign := takeSign true behind
      match readDigits? sign.rest with
      | none => none
      | some digits => some ⟨(sign.value, digits.value), digits.rest, by
          have := digits.shorter
          have := sign.noLonger
          simp only [List.length_cons]
          omega⟩
    else some ⟨(false, []), c :: behind, Nat.le_refl _⟩

/-- Reads a number. -/
def readNumeral? (text : List Char) : Option (Read Numeral text) :=
  let sign := takeSign false text
  match readWhole? sign.rest with
  | none => none
  | some whole =>
    match readFraction? whole.rest with
    | none => none
    | some fraction =>
      match readExponent? fraction.rest with
      | none => none
      | some exponent =>
        some ⟨⟨sign.value, whole.value, fraction.value, exponent.value⟩, exponent.rest, by
          have := sign.noLonger
          have := whole.shorter
          have := fraction.noLonger
          have := exponent.noLonger
          omega⟩

/-! ### Text -/

/-- The value of a hexadecimal digit. -/
def hexDigit? (c : Char) : Option Nat :=
  if '0' ≤ c ∧ c ≤ '9' then some (c.toNat - '0'.toNat)
  else if 'a' ≤ c ∧ c ≤ 'f' then some (c.toNat - 'a'.toNat + 10)
  else if 'A' ≤ c ∧ c ≤ 'F' then some (c.toNat - 'A'.toNat + 10)
  else none

/-- The value of four hexadecimal digits. -/
def hexUnit? (a b c d : Char) : Option Nat :=
  match hexDigit? a, hexDigit? b, hexDigit? c, hexDigit? d with
  | some a, some b, some c, some d => some (((a * 16 + b) * 16 + c) * 16 + d)
  | _, _, _, _ => none

/-- The character that a one-letter escape stands for. -/
def shortEscape? : Char → Option Char
  | '"' => some '"'
  | '\\' => some '\\'
  | '/' => some '/'
  | 'b' => some '\x08'
  | 'f' => some '\x0c'
  | 'n' => some '\n'
  | 'r' => some '\r'
  | 't' => some '\t'
  | _ => none

/-- Whether a 16-bit unit is the first half of a surrogate pair. -/
def isHighHalf (unit : Nat) : Bool :=
  0xD800 ≤ unit && unit ≤ 0xDBFF

/-- Whether a 16-bit unit is the second half of a surrogate pair. -/
def isLowHalf (unit : Nat) : Bool :=
  0xDC00 ≤ unit && unit ≤ 0xDFFF

/-- Reads an escape by number: a 16-bit unit. -/
def readUnit? (text : List Char) : Option (Read Nat text) :=
  match text with
  | '\\' :: 'u' :: a :: b :: c :: d :: rest =>
    (hexUnit? a b c d).map fun unit => ⟨unit, rest, by simp only [List.length_cons]; omega⟩
  | _ => none

/-- Reads an escape by number together with the second half of its pair, if it starts one. The value
is `none` for a half that stands alone. -/
def readNumberEscape? (text : List Char) : Option (Read (Option Char) text) :=
  match readUnit? text with
  | none => none
  | some unit =>
    if isHighHalf unit.value then
      match readUnit? unit.rest with
      | some low =>
        if isLowHalf low.value then
          let point := 0x10000 + (unit.value - 0xD800) * 0x400 + (low.value - 0xDC00)
          some ⟨some (Char.ofNat point), low.rest, Nat.lt_trans low.shorter unit.shorter⟩
        else some (unit.map fun _ => none)
      | none => some (unit.map fun _ => none)
    else if isLowHalf unit.value then some (unit.map fun _ => none)
    else some (unit.map fun unit => some (Char.ofNat unit))

/-- Reads one character of a text, escaped or as it stands. -/
def readChar? (text : List Char) : Option (Read (Option Char) text) :=
  match text with
  | [] => none
  | '\\' :: letter :: rest =>
    if letter = 'u' then readNumberEscape? ('\\' :: letter :: rest)
    else
      (shortEscape? letter).map fun c => ⟨some c, rest, by simp only [List.length_cons]; omega⟩
  | c :: rest => if c = '\\' ∨ c.toNat < 0x20 then none else some ⟨some c, rest, by simp⟩

/-- A character in front of a text, where both can be read. -/
def consReadable : Option Char → Option (List Char) → Option (List Char)
  | some c, some chars => some (c :: chars)
  | _, _ => none

/-- Reads a text behind its opening quote, to the closing one. The value is `none` if half a
surrogate pair stands alone in it. -/
def readText (text : List Char) : Option (Read (Option (List Char)) text) :=
  match text with
  | '"' :: rest => some ⟨some [], rest, by simp⟩
  | text =>
    match readChar? text with
    | none => none
    | some first =>
      match readText first.rest with
      | none => none
      | some more =>
        some ((more.map (consReadable first.value)).within text (Nat.le_of_lt first.shorter))
termination_by text.length
decreasing_by exact first.shorter

/-! ### Documents -/

/-- A text as a document. -/
def ofReadable : Option (List Char) → Json
  | some chars => .text (String.ofList chars)
  | none => .unreadable

/-- Members as a document, which a key that cannot be read makes unreadable as a whole. -/
def ofMembers (members : List (Option (List Char) × Json)) : Json :=
  match members.mapM fun member => member.1.map fun key => (String.ofList key, member.2) with
  | some members => .object members
  | none => .unreadable

/-- Reads a number or one of the three words. -/
def readScalar? (text : List Char) : Option (Read Json text) :=
  match text with
  | 'n' :: 'u' :: 'l' :: 'l' :: rest =>
    some ⟨.null, rest, by simp only [List.length_cons]; omega⟩
  | 't' :: 'r' :: 'u' :: 'e' :: rest =>
    some ⟨.bool true, rest, by simp only [List.length_cons]; omega⟩
  | 'f' :: 'a' :: 'l' :: 's' :: 'e' :: rest =>
    some ⟨.bool false, rest, by simp only [List.length_cons]; omega⟩
  | text => (readNumeral? text).map (Read.map .number)

mutual

/-- Reads one document, with blanks in front of it. -/
def readValue (text : List Char) : Option (Read Json text) :=
  have blanks := length_skipSpace_le text
  match _start : skipSpace text with
  | '"' :: rest =>
    (readText rest).map fun read =>
      (read.map ofReadable).within text (by simp only [_start, List.length_cons] at blanks; omega)
  | '[' :: rest =>
    have inside : rest.length < text.length := by
      simp only [_start, List.length_cons] at blanks
      omega
    match readItems true rest with
    | none => none
    | some items => some ((items.map .list).within text (Nat.le_of_lt inside))
  | '\x7b' :: rest =>
    have inside : rest.length < text.length := by
      simp only [_start, List.length_cons] at blanks
      omega
    match readMembers true rest with
    | none => none
    | some members => some ((members.map ofMembers).within text (Nat.le_of_lt inside))
  | start => (readScalar? start).map fun read => read.within text (_start ▸ blanks)
termination_by 2 * text.length

/-- Reads the items of a list and the bracket that closes it. Before the `first` item the bracket
may close at once. -/
def readItems (first : Bool) (text : List Char) : Option (Read (List Json) text) :=
  match closed : first, _start : skipSpace text with
  | true, ']' :: rest =>
    some ⟨[], rest, by
      have := length_skipSpace_le text
      simp only [_start, List.length_cons] at this
      omega⟩
  | _, _ =>
    match readValue text with
    | none => none
    | some item =>
      have behind := length_skipSpace_le item.rest
      have shorter := item.shorter
      match _follow : skipSpace item.rest with
      | ']' :: rest =>
        some ⟨[item.value], rest, by simp only [_follow, List.length_cons] at behind; omega⟩
      | ',' :: rest =>
        have inside : rest.length < text.length := by
          simp only [_follow, List.length_cons] at behind
          omega
        match readItems false rest with
        | none => none
        | some more => some ((more.map (item.value :: ·)).within text (Nat.le_of_lt inside))
      | _ => none
termination_by 2 * text.length + 1

/-- Reads the members of an object and the brace that closes it. Before the `first` member the brace
may close at once. -/
def readMembers (first : Bool) (text : List Char) :
    Option (Read (List (Option (List Char) × Json)) text) :=
  have blanks := length_skipSpace_le text
  match _start : skipSpace text with
  | '\x7d' :: rest =>
    if first then some ⟨[], rest, by simp only [_start, List.length_cons] at blanks; omega⟩
    else none
  | '"' :: rest =>
    match readText rest with
    | none => none
    | some key =>
      have pastKey := key.shorter
      have blanks' := length_skipSpace_le key.rest
      match _colon : skipSpace key.rest with
      | ':' :: rest' =>
        have inside : rest'.length < text.length := by
          simp only [_start, _colon, List.length_cons] at blanks blanks'
          omega
        match readValue rest' with
        | none => none
        | some value =>
          have pastValue := value.shorter
          have behind := length_skipSpace_le value.rest
          match _follow : skipSpace value.rest with
          | '\x7d' :: last =>
            some ⟨[(key.value, value.value)], last, by
              simp only [_follow, List.length_cons] at behind
              omega⟩
          | ',' :: next =>
            have nextInside : next.length < text.length := by
              simp only [_follow, List.length_cons] at behind
              omega
            match readMembers false next with
            | none => none
            | some more =>
              some
                ((more.map ((key.value, value.value) :: ·)).within text (Nat.le_of_lt nextInside))
          | _ => none
      | _ => none
  | _ => none
termination_by 2 * text.length + 1

end

/-- Reads a whole text as one document, with blanks around it. -/
def read? (text : List Char) : Option Json :=
  match readValue text with
  | none => none
  | some read => if skipSpace read.rest = [] then some read.value else none

end Assay.Json
