/-
Module: Assay.Text.Scan
Purpose: The steps every reader of this library is made of: take a fixed word off the front of a
  text, measure a text in bytes of UTF-8, and read digits as a number.
Main exports: after?, utf8Length, natOfDigits, after?_eq_some_iff
-/

namespace Assay.Text

/-- What follows `word`, if the text starts with it. -/
def after? : (word text : List Char) → Option (List Char)
  | [], text => some text
  | _ :: _, [] => none
  | w :: word, c :: text => if w = c then after? word text else none

/-- The word and what follows it are together the whole text, and no other split is accepted. -/
theorem after?_eq_some_iff {word text rest : List Char} :
    after? word text = some rest ↔ text = word ++ rest := by
  induction word generalizing text with
  | nil => simp [after?, eq_comm]
  | cons w word ih =>
    cases text with
    | nil => simp [after?]
    | cons c text =>
      by_cases sameHead : w = c
      · simp [after?, sameHead, ih]
      · simp [after?, sameHead, Ne.symm sameHead]

/-- Taking a word off makes the text shorter by the word's length. -/
theorem length_of_after?_eq_some {word text rest : List Char}
    (found : after? word text = some rest) :
    text.length = word.length + rest.length := by
  rw [after?_eq_some_iff.1 found, List.length_append]

/-- The number of bytes a text takes in UTF-8. -/
def utf8Length (text : List Char) : Nat :=
  text.foldr (fun c size => c.utf8Size + size) 0

@[simp] theorem utf8Length_nil : utf8Length [] = 0 := rfl

@[simp] theorem utf8Length_cons (c : Char) (text : List Char) :
    utf8Length (c :: text) = c.utf8Size + utf8Length text := rfl

@[simp] theorem utf8Length_append (front back : List Char) :
    utf8Length (front ++ back) = utf8Length front + utf8Length back := by
  induction front with
  | nil => simp
  | cons c front ih => simp [ih, Nat.add_assoc]

def digitValue (c : Char) : Nat :=
  c.toNat - '0'.toNat

/-- The number that decimal digits denote. -/
def natOfDigits (digits : List Char) : Nat :=
  digits.foldl (fun n c => n * 10 + digitValue c) 0

end Assay.Text
