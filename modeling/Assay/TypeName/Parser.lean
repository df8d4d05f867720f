/-
Module: Assay.TypeName.Parser
Purpose: Reading a type out of a signature's text. The reader normalizes while it reads: references
  and leading words, lifetimes and bounds are skipped, a binding stands for its value, and a wrapper
  with one argument stands for that argument. Every step hands on a strictly shorter rest of the
  text, which is why reading ends; where it fails, what is left of the text gives the byte offset of
  the failure.
Main exports: TypeFault, TypeName.readType, TypeName.read
-/
import Assay.TypeName.Basic

namespace Assay

/-- Why a text is no type. Offsets count bytes of UTF-8 from the start of the text. -/
inductive TypeFault where
  /-- No name stands where a type has to start. -/
  | expectedName (offset : Nat)
  /-- Neither a comma nor a closing bracket follows a type argument. -/
  | expectedSeparator (offset : Nat)
  /-- The text goes on after the type. -/
  | unexpectedInput (offset : Nat)
  /-- A reason in a caller's own words. -/
  | described (reason : String)
deriving DecidableEq, Repr

/-- The reason in words. -/
def TypeFault.reason : TypeFault → String
  | .expectedName offset => s!"expected a type name at offset {offset}"
  | .expectedSeparator offset => s!"expected `,` or `>` at offset {offset}"
  | .unexpectedInput offset => s!"unexpected input at offset {offset}"
  | .described reason => reason

namespace TypeName

open Unicode

/-! ### Skipping -/

/-- The characters that names and paths are made of. -/
def isNameChar (c : Char) : Bool :=
  isAlphanumeric c || c == '_' || c == ':'

/-- What is left behind a run of name characters. -/
def dropName (text : List Char) : List Char :=
  text.dropWhile isNameChar

theorem length_dropName_le (text : List Char) : (dropName text).length ≤ text.length :=
  (List.dropWhile_suffix isNameChar).length_le

/-- Skips a lifetime, if the text starts with one. -/
def skipLifetime : List Char → List Char
  | '\'' :: rest => dropName rest
  | text => text

theorem length_skipLifetime_le (text : List Char) : (skipLifetime text).length ≤ text.length := by
  unfold skipLifetime
  split
  · have := length_dropName_le ‹_›
    simp only [List.length_cons]
    omega
  · exact Nat.le_refl _

/-- Skips blanks, references, leading words and the lifetimes of references. -/
def skipLeads (text : List Char) : List Char :=
  match _found : afterLead? (trimStart text) with
  | some rest => skipLeads (skipLifetime rest)
  | none => trimStart text
termination_by text.length
decreasing_by
  have := length_lt_of_afterLead?_eq_some _found
  have := length_trimStart_le text
  have := length_skipLifetime_le rest
  omega

theorem length_skipLeads_le (text : List Char) : (skipLeads text).length ≤ text.length := by
  fun_induction skipLeads text with
  | case1 text rest found shorter =>
    have := length_lt_of_afterLead?_eq_some found
    have := length_trimStart_le text
    have := length_skipLifetime_le rest
    omega
  | case2 text => exact length_trimStart_le text

/-- A quote or nothing: what a bound may start with. -/
def skipQuote : List Char → List Char
  | '\'' :: rest => rest
  | text => text

theorem length_skipQuote_le (text : List Char) : (skipQuote text).length ≤ text.length := by
  unfold skipQuote
  split <;> simp

/-- What is left behind the name of a bound. -/
def dropBound (text : List Char) : List Char :=
  dropName (skipQuote (trimStart text))

theorem length_dropBound_le (text : List Char) : (dropBound text).length ≤ text.length := by
  have := length_dropName_le (skipQuote (trimStart text))
  have := length_skipQuote_le (trimStart text)
  have := length_trimStart_le text
  unfold dropBound
  omega

/-- Skips blanks and bounds such as a marker or a lifetime behind a plus sign. -/
def skipBounds (text : List Char) : List Char :=
  match _found : trimStart text with
  | '+' :: rest => skipBounds (dropBound rest)
  | rest => rest
termination_by text.length
decreasing_by
  have := length_trimStart_le text
  have := length_dropBound_le rest
  have := congrArg List.length _found
  simp only [List.length_cons] at this
  omega

theorem length_skipBounds_le (text : List Char) : (skipBounds text).length ≤ text.length := by
  fun_induction skipBounds text with
  | case1 text rest found shorter =>
    have := length_trimStart_le text
    have := length_dropBound_le rest
    have := congrArg List.length found
    simp only [List.length_cons] at this
    omega
  | case2 text => exact length_trimStart_le text

/-! ### Reading -/

/-- What the reader expected where it stopped, with what was left of the text there. -/
inductive Stop where
  /-- A name was expected. -/
  | name (rest : List Char)
  /-- A comma or a closing bracket was expected. -/
  | separator (rest : List Char)

/-- A value read off the front of `text`, and the strictly shorter text behind it. -/
structure Read (α : Type) (text : List Char) where
  value : α
  /-- What is left of the text. -/
  rest : List Char
  /-- Reading takes at least one character. -/
  shorter : rest.length < text.length

/-- What was read off an inner text, seen from a text at least as long. -/
def Read.within {α : Type} {inner : List Char} (read : Read α inner) (outer : List Char)
    (inside : inner.length ≤ outer.length) : Read α outer :=
  ⟨read.value, read.rest, Nat.lt_of_lt_of_le read.shorter inside⟩

/-- How a type starts: with the two brackets of the unit type, or with a name. -/
inductive Head where
  | unit
  /-- A name without its path; it has at least one character. -/
  | name (chars : List Char)

/-- A text that does not start with a name character has no name to offer. -/
theorem takeWhile_isNameChar_ne_nil {text : List Char}
    (named : lastSegment (text.takeWhile isNameChar) ≠ []) :
    (dropName text).length < text.length := by
  cases text with
  | nil => simp [lastSegment, afterLastPath?] at named
  | cons c rest =>
    by_cases isName : isNameChar c = true
    · have := length_dropName_le rest
      simp only [dropName, List.dropWhile_cons, isName, if_true, List.length_cons] at *
      omega
    · simp [isName, lastSegment, afterLastPath?] at named

/-- Reads how a type starts. -/
def readHead (text : List Char) : Except Stop (Read Head text) :=
  match unit : Text.after? ['(', ')'] (skipLeads text) with
  | some rest =>
    .ok ⟨.unit, rest, by
      have := length_skipLeads_le text
      have := Text.length_of_after?_eq_some unit
      simp only [List.length_cons, List.length_nil] at this
      omega⟩
  | none =>
    if unnamed : lastSegment ((skipLeads text).takeWhile isNameChar) = [] then
      .error (.name (skipLeads text))
    else
      .ok ⟨.name (lastSegment ((skipLeads text).takeWhile isNameChar)), dropName (skipLeads text),
        Nat.lt_of_lt_of_le (takeWhile_isNameChar_ne_nil unnamed) (length_skipLeads_le text)⟩

/-- Splits the mark of an absent value off the front of a text. -/
def takeMark : List Char → Bool × List Char
  | '?' :: rest => (true, rest)
  | text => (false, text)

theorem length_takeMark_le (text : List Char) : (takeMark text).2.length ≤ text.length := by
  unfold takeMark
  split <;> simp

/-- The type with that name and those arguments, marked if the text behind it starts with a mark. -/
def finish {text : List Char} (name : String) (args : List TypeName) (behind : List Char)
    (shorter : behind.length < text.length) : Read TypeName text :=
  ⟨compose name args (takeMark behind).1, (takeMark behind).2,
    Nat.lt_of_le_of_lt (length_takeMark_le behind) shorter⟩

mutual

/-- Reads one type off the front of a text. -/
def readType (text : List Char) : Except Stop (Read TypeName text) :=
  match readHead text with
  | .error stop => .error stop
  | .ok ⟨.unit, behind, shorter⟩ =>
    .ok (finish "()" [] (trimStart behind)
      (Nat.lt_of_le_of_lt (length_trimStart_le behind) shorter))
  | .ok ⟨.name chars, behind, shorter⟩ =>
    have blanks := length_trimStart_le behind
    match _follow : trimStart behind with
    | '=' :: bound =>
      have inside : bound.length < text.length := by
        simp only [_follow, List.length_cons] at blanks
        omega
      match readType bound with
      | .error stop => .error stop
      | .ok read => .ok (read.within text (Nat.le_of_lt inside))
    | '<' :: list =>
      have inside : list.length < text.length := by
        simp only [_follow, List.length_cons] at blanks
        omega
      match readArgs list with
      | .error stop => .error stop
      | .ok args =>
        .ok (finish (String.ofList chars) args.value (skipBounds args.rest) (by
          have := length_skipBounds_le args.rest
          have := args.shorter
          omega))
    | rest =>
      .ok (finish (String.ofList chars) [] (skipBounds rest) (by
        have := length_skipBounds_le rest
        simp only [_follow] at blanks
        omega))
termination_by 2 * text.length

/-- Reads type arguments and the bracket that closes them. -/
def readArgs (text : List Char) : Except Stop (Read (List TypeName) text) :=
  have blanks := length_trimStart_le text
  match _start : trimStart text with
  | '>' :: rest =>
    .ok ⟨[], rest, by
      simp only [_start, List.length_cons] at blanks
      omega⟩
  | '\'' :: label =>
    have inside : (skipBounds (dropName label)).length < text.length := by
      have := length_skipBounds_le (dropName label)
      have := length_dropName_le label
      simp only [_start, List.length_cons] at blanks
      omega
    match readMore (skipBounds (dropName label)) with
    | .error stop => .error stop
    | .ok more => .ok (more.within text (Nat.le_of_lt inside))
  | start =>
    have inside : start.length ≤ text.length := _start ▸ blanks
    match readType start with
    | .error stop => .error stop
    | .ok arg =>
      have behind : (skipBounds arg.rest).length < text.length := by
        have := length_skipBounds_le arg.rest
        have := arg.shorter
        omega
      match readMore (skipBounds arg.rest) with
      | .error stop => .error stop
      | .ok more =>
        .ok ⟨arg.value :: more.value, more.rest, Nat.lt_trans more.shorter behind⟩
termination_by 2 * text.length + 1

/-- Reads what stands behind a type argument: the closing bracket, or a comma and what follows
it. -/
def readMore (text : List Char) : Except Stop (Read (List TypeName) text) :=
  match text with
  | ',' :: rest =>
    match readArgs rest with
    | .error stop => .error stop
    | .ok more => .ok (more.within (',' :: rest) (by simp))
  | '>' :: rest => .ok ⟨[], rest, by simp⟩
  | rest => .error (.separator rest)
termination_by 2 * text.length

end

/-- The offset in bytes at which `rest` starts, for a `rest` that ends the text. -/
def offsetOf (text rest : List Char) : Nat :=
  Text.utf8Length text - Text.utf8Length rest

/-- What a stop means for the whole text. -/
def Stop.fault (text : List Char) : Stop → TypeFault
  | .name rest => .expectedName (offsetOf text rest)
  | .separator rest => .expectedSeparator (offsetOf text rest)

/-- Reads a whole text as one type, with blanks around it. -/
def read (text : List Char) : Except TypeFault TypeName :=
  match readType text with
  | .error stop => .error (stop.fault text)
  | .ok read =>
    match trimStart read.rest with
    | [] => .ok read.value
    | rest => .error (.unexpectedInput (offsetOf text rest))

end TypeName

end Assay
