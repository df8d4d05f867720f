/-
Module: Assay.Proofs.Substitution
Purpose: Rendering a message substitutes once and where a placeholder stands. What is no placeholder is
  kept, a text whose braces are all closed is rendered apart from what follows it, and each text falls
  into characters and placeholders whatever its arguments say. So an argument is never scanned: braces
  in it come out as they are.
Main exports: Message.Completes, Message.Piece, Message.renderChars_append, Message.render_substitutes
-/
import Assay.Message.Basic
import Mathlib.Data.List.TakeWhile

namespace Assay.Message

variable {args : List MessageArg} {text tail inside rest more : List Char} {count index : Nat}
  {arg : MessageArg}

/-! ### Placeholders -/

/-- What makes an index: decimal digits with or without a plus sign, and a number of 64 bits. -/
theorem index?_eq_some_iff :
    index? inside = some index ↔
      ∃ digits, (inside = digits ∨ inside = '+' :: digits) ∧ digits ≠ [] ∧
        (∀ c ∈ digits, c.isDigit = true) ∧ Text.natOfDigits digits = index ∧ index < UInt64.size := by
  unfold index?
  constructor
  · intro found
    simp only [Option.ite_none_right_eq_some, Option.some.injEq, List.all_eq_true] at found
    obtain ⟨⟨filled, only, bounded⟩, rfl⟩ := found
    refine ⟨_, ?_, filled, only, rfl, bounded⟩
    split
    · exact .inr rfl
    · exact .inl rfl
  · rintro ⟨digits, rfl | rfl, filled, only, rfl, bounded⟩
    · obtain ⟨c, more, rfl⟩ := List.exists_cons_of_ne_nil filled
      have unsigned : c ≠ '+' := by
        rintro rfl
        exact absurd (only '+' List.mem_cons_self) (by decide)
      simp [unsigned, bounded, List.all_eq_true.2 only]
    · simp [filled, bounded, List.all_eq_true.2 only]

/-- Behind an opening brace, a text completes a placeholder for one of `count` arguments: up to the next
closing brace stands the index of the argument. -/
structure Completes (count : Nat) (text : List Char) (index : Nat) (rest : List Char) : Prop where
  written : ∃ inside, text = inside ++ '\x7d' :: rest ∧ '\x7d' ∉ inside ∧ index? inside = some index
  bounded : index < count

theorem not_mem_of_index? (found : index? inside = some index) : '\x7d' ∉ inside := by
  obtain ⟨digits, split, _, only, _⟩ := index?_eq_some_iff.1 found
  intro member
  have digit : '\x7d' ∈ digits := by
    rcases split with rfl | rfl
    · exact member
    · simpa using member
  exact absurd (only _ digit) (by decide)

theorem placeholder?_of_unclosed (unclosed : '\x7d' ∉ text) : placeholder? args text = none := by
  have behind : text.dropWhile (· ≠ '\x7d') = [] := by
    rw [List.dropWhile_eq_nil_iff]
    intro c member
    simpa using fun same : c = '\x7d' => unclosed (same ▸ member)
  rw [placeholder?, behind]

/-- Only what stands before the first closing brace decides whether it ends a placeholder. -/
theorem placeholder?_of_closed (unclosed : '\x7d' ∉ inside) :
    placeholder? args (inside ++ '\x7d' :: rest) =
      (index? inside).bind fun index => args[index]?.map (·, rest) := by
  have all : ∀ c ∈ inside, decide (c ≠ '\x7d') = true := by
    intro c member
    simpa using fun same : c = '\x7d' => unclosed (same ▸ member)
  have behind : (inside ++ '\x7d' :: rest).dropWhile (· ≠ '\x7d') = '\x7d' :: rest := by
    rw [List.dropWhile_append_of_pos all]
    rfl
  have front : (inside ++ '\x7d' :: rest).takeWhile (· ≠ '\x7d') = inside := by
    rw [List.takeWhile_append_of_pos all]
    exact List.append_nil inside
  rw [placeholder?, behind, front]
  cases index? inside <;> rfl

/-- A placeholder is found exactly where one is completed, and stands for the argument of its index. -/
theorem placeholder?_eq_some_iff :
    placeholder? args text = some (arg, rest) ↔
      ∃ index, Completes args.length text index rest ∧ args[index]? = some arg := by
  constructor
  · intro found
    by_cases closed : '\x7d' ∈ text
    · obtain ⟨inside, behind, rfl, unclosed⟩ := List.eq_append_cons_of_mem closed
      rw [placeholder?_of_closed unclosed] at found
      obtain ⟨index, isIndex, taken⟩ := Option.bind_eq_some_iff.1 found
      obtain ⟨_, held, same⟩ := Option.map_eq_some_iff.1 taken
      cases same
      exact ⟨index, ⟨⟨inside, rfl, unclosed, isIndex⟩, (List.getElem?_eq_some_iff.1 held).1⟩, held⟩
    · rw [placeholder?_of_unclosed closed] at found
      cases found
  · rintro ⟨index, ⟨⟨inside, rfl, unclosed, isIndex⟩, bounded⟩, held⟩
    rw [placeholder?_of_closed unclosed, isIndex, Option.bind_some, held, Option.map_some]

theorem placeholder?_eq_none_iff :
    placeholder? args text = none ↔ ∀ index rest, ¬Completes args.length text index rest := by
  constructor
  · intro none index rest completes
    have found := placeholder?_eq_some_iff.2
      ⟨index, completes, List.getElem?_eq_getElem completes.bounded⟩
    cases none.symm.trans found
  · intro incomplete
    cases found : placeholder? args text with
    | none => rfl
    | some found' =>
      obtain ⟨index, completes, _⟩ := placeholder?_eq_some_iff.1 found
      exact absurd completes (incomplete index _)

/-- Text behind a closing brace has no part in the placeholder before it. -/
theorem placeholder?_append (closed : '\x7d' ∈ text) :
    placeholder? args (text ++ more) =
      (placeholder? args text).map fun found => (found.1, found.2 ++ more) := by
  obtain ⟨inside, rest, rfl, unclosed⟩ := List.eq_append_cons_of_mem closed
  rw [List.append_assoc, List.cons_append, placeholder?_of_closed unclosed,
    placeholder?_of_closed unclosed]
  cases index? inside with
  | none => rfl
  | some index =>
    rw [Option.bind_some, Option.bind_some]
    cases args[index]? <;> rfl

/-! ### Rendering -/

theorem renderChars_nil : renderChars args [] = [] := by
  rw [renderChars]

theorem renderChars_of_ne {c : Char} (plain : c ≠ '\x7b') :
    renderChars args (c :: tail) = c :: renderChars args tail := by
  rw [renderChars, if_neg plain]

theorem renderChars_of_some (found : placeholder? args tail = some (arg, rest)) :
    renderChars args ('\x7b' :: tail) = arg.toString.toList ++ renderChars args rest := by
  rw [renderChars, if_pos rfl]
  split <;> simp_all

theorem renderChars_of_none (none : placeholder? args tail = none) :
    renderChars args ('\x7b' :: tail) = '\x7b' :: renderChars args tail := by
  rw [renderChars, if_pos rfl]
  split <;> simp_all

/-- Nowhere in a text does an opening brace start a placeholder for one of `count` arguments. -/
def IsPlain (count : Nat) (text : List Char) : Prop :=
  ∀ front tail, text = front ++ '\x7b' :: tail → ∀ index rest, ¬Completes count tail index rest

/-- Each opening brace of a text has a closing brace somewhere behind it. -/
def IsClosed (text : List Char) : Prop :=
  ∀ front tail, text = front ++ '\x7b' :: tail → '\x7d' ∈ tail

theorem IsPlain.of_cons {c : Char} (plain : IsPlain count (c :: tail)) : IsPlain count tail := by
  rintro front tail rfl
  exact plain (c :: front) tail rfl

theorem IsClosed.of_append (front : List Char) (closed : IsClosed (front ++ rest)) :
    IsClosed rest := by
  rintro front' tail rfl
  exact closed (front ++ front') tail (List.append_assoc _ _ _).symm

/-- A text without placeholders is rendered as it is. -/
theorem renderChars_of_isPlain (plain : IsPlain args.length text) :
    renderChars args text = text := by
  induction text with
  | nil => exact renderChars_nil
  | cons c tail ih =>
    by_cases brace : c = '\x7b'
    · subst brace
      rw [renderChars_of_none (placeholder?_eq_none_iff.2 (plain [] tail rfl)), ih plain.of_cons]
    · rw [renderChars_of_ne brace, ih plain.of_cons]

/-- A text whose braces are all closed is rendered apart from the text behind it. -/
theorem renderChars_append (closed : IsClosed text) :
    renderChars args (text ++ more) = renderChars args text ++ renderChars args more := by
  fun_induction renderChars args text with
  | case1 => rfl
  | case2 tail arg rest found ih =>
    have later : '\x7d' ∈ tail := closed [] tail rfl
    have found' : placeholder? args (tail ++ more) = some (arg, rest ++ more) := by
      rw [placeholder?_append later, found, Option.map_some]
    obtain ⟨index, ⟨⟨inside, rfl, _⟩, _⟩, _⟩ := placeholder?_eq_some_iff.1 found
    have behind : IsClosed rest := IsClosed.of_append ('\x7b' :: (inside ++ ['\x7d']))
      (by simpa using closed)
    rw [List.cons_append, renderChars_of_some found', ih behind, List.append_assoc]
  | case3 tail missed ih =>
    have later : '\x7d' ∈ tail := closed [] tail rfl
    have missed' : placeholder? args (tail ++ more) = none := by
      rw [placeholder?_append later, missed, Option.map_none]
    rw [List.cons_append, renderChars_of_none missed', ih (IsClosed.of_append ['\x7b'] closed),
      List.cons_append]
  | case4 c tail plain ih =>
    rw [List.cons_append, renderChars_of_ne plain, ih (IsClosed.of_append [c] closed),
      List.cons_append]

/-- A placeholder alone is rendered as its argument. -/
theorem renderChars_placeholder (isIndex : index? inside = some index) (held : args[index]? = some arg) :
    renderChars args ('\x7b' :: (inside ++ ['\x7d'])) = arg.toString.toList := by
  have found : placeholder? args (inside ++ ['\x7d']) = some (arg, []) := by
    rw [placeholder?_of_closed (not_mem_of_index? isIndex), isIndex, Option.bind_some, held,
      Option.map_some]
  rw [renderChars_of_some found, renderChars_nil, List.append_nil]

/-! ### Pieces -/

/-- A piece of a text: a character that stands for itself, or a placeholder. -/
inductive Piece where
  | char (c : Char)
  | slot (inside : List Char) (index : Nat)

namespace Piece

/-- A piece as it is written in the text. -/
def written : Piece → List Char
  | char c => [c]
  | slot inside _ => '\x7b' :: (inside ++ ['\x7d'])

/-- A piece as it is rendered. -/
def filled (args : List MessageArg) : Piece → List Char
  | char c => [c]
  | slot _ index => (args[index]?.map fun arg => arg.toString.toList).getD []

/-- A placeholder is written with the index of one of `count` arguments. -/
def Fits (count : Nat) : Piece → Prop
  | char _ => True
  | slot inside index => index? inside = some index ∧ index < count

end Piece

/-- Each text falls into pieces that are rendered one by one. What the pieces are depends on the number
of arguments, and not on what they say. -/
theorem exists_pieces (count : Nat) (text : List Char) :
    ∃ pieces : List Piece, (∀ piece ∈ pieces, piece.Fits count) ∧
      text = pieces.flatMap Piece.written ∧
      ∀ args, args.length = count → renderChars args text = pieces.flatMap (Piece.filled args) := by
  match text with
  | [] => exact ⟨[], List.forall_mem_nil _, rfl, fun _ _ => renderChars_nil⟩
  | c :: tail =>
    by_cases found : c = '\x7b' ∧ ∃ index rest, Completes count tail index rest
    · obtain ⟨rfl, index, rest, ⟨inside, rfl, _, isIndex⟩, bounded⟩ := found
      obtain ⟨pieces, fit, whole, filled⟩ := exists_pieces count rest
      refine ⟨.slot inside index :: pieces, List.forall_mem_cons.2 ⟨⟨isIndex, bounded⟩, fit⟩, ?_, ?_⟩
      · rw [List.flatMap_cons, ← whole, Piece.written]
        simp
      · rintro args rfl
        have held : args[index]? = some args[index] := List.getElem?_eq_getElem bounded
        have taken : placeholder? args (inside ++ '\x7d' :: rest) = some (args[index], rest) :=
          placeholder?_eq_some_iff.2
            ⟨index, ⟨⟨inside, rfl, not_mem_of_index? isIndex, isIndex⟩, bounded⟩, held⟩
        rw [renderChars_of_some taken, filled args rfl, List.flatMap_cons, Piece.filled, held,
          Option.map_some, Option.getD_some]
    · obtain ⟨pieces, fit, whole, filled⟩ := exists_pieces count tail
      refine ⟨.char c :: pieces, List.forall_mem_cons.2 ⟨trivial, fit⟩, ?_, ?_⟩
      · rw [List.flatMap_cons, ← whole, Piece.written, List.singleton_append]
      · rintro args rfl
        have kept : renderChars args (c :: tail) = c :: renderChars args tail := by
          by_cases brace : c = '\x7b'
          · subst brace
            refine renderChars_of_none (placeholder?_eq_none_iff.2 fun index rest completes => ?_)
            exact found ⟨rfl, index, rest, completes⟩
          · exact renderChars_of_ne brace
        rw [kept, filled args rfl, List.flatMap_cons, Piece.filled, List.singleton_append]
termination_by text.length

/-- Rendering substitutes once and where a placeholder stands. A text without placeholders is rendered as
it is; a text whose braces are all closed is rendered apart from what follows; a placeholder is rendered
as its argument; and the pieces that a text falls into are the same for all arguments, so that no
argument is scanned for placeholders, in whatever position and however often it is put in. -/
theorem render_substitutes (args : List MessageArg) (key : String) :
    (∀ text : String, IsPlain args.length text.toList → render ⟨text, key, args⟩ = text) ∧
    (∀ front back : String, IsClosed front.toList →
      render ⟨front ++ back, key, args⟩ = render ⟨front, key, args⟩ ++ render ⟨back, key, args⟩) ∧
    (∀ inside index arg, index? inside = some index → args[index]? = some arg →
      render ⟨String.ofList ('\x7b' :: (inside ++ ['\x7d'])), key, args⟩ = arg.toString) ∧
    (∀ text : String, ∃ pieces : List Piece, (∀ piece ∈ pieces, piece.Fits args.length) ∧
      text.toList = pieces.flatMap Piece.written ∧
      ∀ others : List MessageArg, others.length = args.length →
        render ⟨text, key, others⟩ = String.ofList (pieces.flatMap (Piece.filled others))) := by
  refine ⟨?_, ?_, ?_, ?_⟩
  · intro text plain
    rw [render, renderChars_of_isPlain plain, String.ofList_toList]
  · intro front back closed
    simp only [render, String.toList_append]
    rw [renderChars_append closed, String.ofList_append]
  · intro inside index arg isIndex held
    rw [render, String.toList_ofList, renderChars_placeholder isIndex held, String.ofList_toList]
  · intro text
    obtain ⟨pieces, fit, whole, filled⟩ := exists_pieces args.length text.toList
    exact ⟨pieces, fit, whole, fun others same => by rw [render, filled others same]⟩

/-- Arguments that look like placeholders are put in as they are; an index that is too large, a closing
brace that stands alone and an opening one without a closing one are kept. -/
theorem nested_placeholders_render :
    render ⟨"\x7b7\x7d \x7d all", "key", [.text "\x7b1\x7d", .text "\x7b0\x7d"]⟩ =
        "\x7b7\x7d \x7d all" ∧
      render ⟨"\x7b\x7b+01\x7d" ++ "\x7b0", "key", [.text "\x7b1\x7d", .text "\x7b0\x7d"]⟩ =
        render ⟨"\x7b\x7b+01\x7d", "key", [.text "\x7b1\x7d", .text "\x7b0\x7d"]⟩ ++
          render ⟨"\x7b0", "key", [.text "\x7b1\x7d", .text "\x7b0\x7d"]⟩ ∧
      render ⟨"\x7b+01\x7d", "key", [.text "\x7b1\x7d", .text "\x7b0\x7d"]⟩ = "\x7b0\x7d" ∧
      ∃ pieces : List Piece, "\x7b0\x7d\x7b1\x7d".toList = pieces.flatMap Piece.written ∧
        render ⟨"\x7b0\x7d\x7b1\x7d", "key", [.null, .text "\x7b0\x7d"]⟩ =
          String.ofList (pieces.flatMap (Piece.filled [.null, .text "\x7b0\x7d"])) := by
  obtain ⟨kept, apart, alone, pieces⟩ :=
    render_substitutes [.text "\x7b1\x7d", .text "\x7b0\x7d"] "key"
  have plain : IsPlain 2 "\x7b7\x7d \x7d all".toList := by
    intro front tail whole
    cases front with
    | nil =>
      obtain rfl : tail = "7\x7d \x7d all".toList := (List.cons.inj whole).2.symm
      have missed : placeholder? [.null, .null] "7\x7d \x7d all".toList = none := rfl
      exact placeholder?_eq_none_iff.1 missed
    | cons c front =>
      have member : '\x7b' ∈ "7\x7d \x7d all".toList := by
        rw [show "7\x7d \x7d all".toList = front ++ '\x7b' :: tail from (List.cons.inj whole).2]
        simp
      exact absurd member (by decide)
  have closed : IsClosed "\x7b\x7b+01\x7d".toList := by
    intro front tail whole
    have last : ('\x7b' :: tail).getLast? = some '\x7d' := by
      have same := congrArg List.getLast? whole
      rw [List.getLast?_append, List.getLast?_cons, Option.some_or, ← List.getLast?_cons] at same
      exact same.symm
    simpa using List.mem_of_getLast? last
  obtain ⟨parts, _, written, filled⟩ := pieces "\x7b0\x7d\x7b1\x7d"
  exact ⟨kept _ plain, apart _ _ closed, alone ['+', '0', '1'] 1 _ (by decide +kernel) rfl, parts,
    written, filled _ rfl⟩

end Assay.Message
