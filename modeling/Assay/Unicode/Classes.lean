/-
Module: Assay.Unicode.Classes
Purpose: The character classes that type names, passwords and quoted text are written in. ASCII is
  decided by comparison, the rest by the tables of Unicode 17.0; both give the property of the
  standard, the split only keeps the frequent case out of the tables.
Main exports: isAlphabetic, isNumeric, isAlphanumeric, isUppercase, isBlank, joinsPrevious,
  isPrintable
-/
import Assay.Unicode.Alphabetic
import Assay.Unicode.GraphemeExtend
import Assay.Unicode.Numeric
import Assay.Unicode.Unprintable
import Assay.Unicode.Uppercase

namespace Assay.Unicode

/-- Whether a code point lies in one of the closed ranges. -/
def inRanges (ranges : List (Nat × Nat)) (point : Nat) : Bool :=
  ranges.any fun range => range.1 ≤ point && point ≤ range.2

/-- The class that `ascii` gives below U+0080 and the ranges give from there on. -/
def classify (ascii : Char → Bool) (ranges : List (Nat × Nat)) (c : Char) : Bool :=
  if c.toNat < 0x80 then ascii c else inRanges ranges c.toNat

/-- The property Alphabetic. -/
def isAlphabetic (c : Char) : Bool :=
  classify Char.isAlpha alphabeticRanges c

/-- The general categories Nd, Nl and No. -/
def isNumeric (c : Char) : Bool :=
  classify Char.isDigit numericRanges c

def isAlphanumeric (c : Char) : Bool :=
  isAlphabetic c || isNumeric c

/-- The property Uppercase. -/
def isUppercase (c : Char) : Bool :=
  classify Char.isUpper uppercaseRanges c

/-- The code points of the property White_Space, which are few enough to stand here. -/
def blankRanges : List (Nat × Nat) :=
  [(0x09, 0x0D), (0x20, 0x20), (0x85, 0x85), (0xA0, 0xA0), (0x1680, 0x1680), (0x2000, 0x200A),
    (0x2028, 0x2029), (0x202F, 0x202F), (0x205F, 0x205F), (0x3000, 0x3000)]

/-- The property White_Space. -/
def isBlank (c : Char) : Bool :=
  inRanges blankRanges c.toNat

/-- The halfwidth voiced and semi-voiced sound marks. They have the property Grapheme_Extend, but
stand in a cell of their own behind the letter they belong to. -/
def halfwidthSoundMarks : List (Nat × Nat) := [(0xFF9E, 0xFF9F)]

/-- Characters that are drawn into the character before them: those with the property
Grapheme_Extend, which no ASCII character has, except the halfwidth sound marks. -/
def joinsPrevious (c : Char) : Bool :=
  classify (fun _ => false) graphemeExtendRanges c && !inRanges halfwidthSoundMarks c.toNat

/-- The Hangul fillers: the letters with the property Default_Ignorable_Code_Point. All else with
that property is unprintable by its category or joins the character before it. -/
def fillerRanges : List (Nat × Nat) := [(0x115F, 0x1160), (0x3164, 0x3164), (0xFFA0, 0xFFA0)]

/-- Characters that stand for themselves on paper: neither a control, a format character, a private
or unassigned code point, a separator other than the space, nor a letter that shows nothing. -/
def isPrintable (c : Char) : Bool :=
  !classify (fun c => c.toNat < 0x20 || c.toNat == 0x7F) unprintableRanges c &&
    !inRanges fillerRanges c.toNat

def trimStart (text : List Char) : List Char :=
  text.dropWhile isBlank

def trimEnd (text : List Char) : List Char :=
  (text.reverse.dropWhile isBlank).reverse

def trim (text : List Char) : List Char :=
  trimEnd (trimStart text)

/-- The blanks a text leads with are all that `trimStart` takes off it. -/
theorem takeWhile_append_trimStart (text : List Char) :
    text.takeWhile isBlank ++ trimStart text = text :=
  List.takeWhile_append_dropWhile

/-- Trimming never lengthens a text. -/
theorem length_trimStart_le (text : List Char) : (trimStart text).length ≤ text.length :=
  (List.dropWhile_suffix isBlank).length_le

end Assay.Unicode
