/-
Module: Assay.Proofs.Turns
Purpose: The reader of types turn by turn. A state is an offset in bytes, what is skipped next, the point
  that reading has got to, and the lists of arguments that are still open; a turn skips a run of blanks or
  of name characters, or takes one word, and says where reading goes on. Only where a character starts, or
  where the text ends, is there a text to take a turn on.
  Every turn takes something off the text or goes down in rank. Hence offsets never go back, no loop comes
  round twice at one offset, and a number of turns linear in the length of the text is enough.
Main exports: TypeName.turn?, TypeName.run, TypeName.moves_of_turn?, TypeName.passes_run, TypeName.Before,
  TypeName.Passes.length_le, TypeName.Passes.pairwise_before
-/
import Assay.Proofs.Scanning

namespace Assay.TypeName

open Text Unicode

/-! ### States -/

/-- What is skipped before a text is looked at. -/
inductive Skip where
  | blanks
  | name
deriving DecidableEq

/-- A name with the arguments that are read for it so far. -/
structure Listing where
  name : String
  args : List TypeName

/-- What bounds stand behind: an argument of an open list, or a whole type. -/
inductive Behind where
  | argument (list : Listing)
  | type (list : Listing)

/-- The points that reading a type goes through. -/
inductive Point where
  /-- A type starts. -/
  | type
  /-- A lead may follow. -/
  | lead
  /-- Behind a lead a lifetime may follow. -/
  | lifetime
  /-- The brackets of the unit type may follow. -/
  | unit
  /-- A name has to follow. -/
  | name
  /-- These characters stood where a name has to start. -/
  | named (start : Nat) (chars : List Char)
  /-- Behind a name the value of a binding or a list of arguments may follow. -/
  | follow (name : String)
  /-- An argument or the end of the list has to follow. -/
  | argument (list : Listing)
  /-- A bound may follow. -/
  | plus (behind : Behind)
  /-- Behind a plus sign a lifetime or a name may follow. -/
  | quote (behind : Behind)
  /-- A comma or the end of the list has to follow. -/
  | separator (list : Listing)
  /-- The mark of an absent value may follow. -/
  | mark (list : Listing)
  /-- A type is read. -/
  | done (type : TypeName)
  /-- The text has to end. -/
  | finish (type : TypeName)

def Behind.point : Behind → Point
  | .argument list => .separator list
  | .type list => .mark list

/-- How far reading has got: an offset in bytes, what is skipped there, the point, and the lists of arguments
around it, from the inside out. -/
structure State where
  offset : Nat
  skips : List Skip
  point : Point
  outer : List Listing

/-- A turn goes on to a state or ends with an answer. -/
inductive Turn where
  | on (state : State)
  | off (answer : Except TypeFault TypeName)

/-! ### Turns -/

/-- The text from an offset on, if a character starts there or the text ends there. -/
def fromByte? : (text : List Char) → (offset : Nat) → Option (List Char)
  | text, 0 => some text
  | [], _ + 1 => none
  | c :: text, offset + 1 =>
    if c.utf8Size ≤ offset + 1 then fromByte? text (offset + 1 - c.utf8Size) else none

/-- Whether a text starts with a word. -/
def eats (word rest : List Char) : Bool :=
  (after? word rest).isSome

/-- The offset behind what is skipped: blanks are measured by what they leave of the text, names by their
own length. -/
def Skip.past (text rest : List Char) (offset : Nat) : Skip → Nat
  | .blanks => utf8Length text - utf8Length (trimStart rest)
  | .name => offset + utf8Length (rest.takeWhile isNameChar)

/-- One turn at a point, on what is left of the text. -/
def act (text rest : List Char) (offset : Nat) (outer : List Listing) : Point → Turn
  | .type => .on ⟨offset, [.blanks], .lead, outer⟩
  | .lead =>
    match leads.find? fun lead => eats lead rest with
    | some lead => .on ⟨offset + utf8Length lead, [], .lifetime, outer⟩
    | none => .on ⟨offset, [], .unit, outer⟩
  | .lifetime =>
    if eats ['\''] rest then .on ⟨offset + utf8Length ['\''], [.name, .blanks], .lead, outer⟩
    else .on ⟨offset, [.blanks], .lead, outer⟩
  | .unit =>
    if eats ['(', ')'] rest then
      .on ⟨offset + utf8Length ['(', ')'], [.blanks], .mark ⟨"()", []⟩, outer⟩
    else .on ⟨offset, [], .name, outer⟩
  | .name =>
    let chars := rest.takeWhile isNameChar
    .on ⟨offset + utf8Length chars, [], .named offset chars, outer⟩
  | .named start chars =>
    if lastSegment chars = [] then .off (.error (.expectedName start))
    else .on ⟨offset, [.blanks], .follow (String.ofList (lastSegment chars)), outer⟩
  | .follow name =>
    if eats ['='] rest then .on ⟨offset + utf8Length ['='], [], .type, outer⟩
    else if eats ['<'] rest then
      .on ⟨offset + utf8Length ['<'], [.blanks], .argument ⟨name, []⟩, outer⟩
    else .on ⟨offset, [.blanks], .plus (.type ⟨name, []⟩), outer⟩
  | .argument list =>
    if eats ['>'] rest then .on ⟨offset + utf8Length ['>'], [.blanks], .plus (.type list), outer⟩
    else if eats ['\''] rest then
      .on ⟨offset + utf8Length ['\''], [.name, .blanks], .plus (.argument list), outer⟩
    else .on ⟨offset, [], .type, list :: outer⟩
  | .plus behind =>
    if eats ['+'] rest then .on ⟨offset + utf8Length ['+'], [.blanks], .quote behind, outer⟩
    else .on ⟨offset, [], behind.point, outer⟩
  | .quote behind =>
    if eats ['\''] rest then
      .on ⟨offset + utf8Length ['\''], [.name, .blanks], .plus behind, outer⟩
    else .on ⟨offset, [.name, .blanks], .plus behind, outer⟩
  | .separator list =>
    if eats [','] rest then .on ⟨offset + utf8Length [','], [.blanks], .argument list, outer⟩
    else if eats ['>'] rest then
      .on ⟨offset + utf8Length ['>'], [.blanks], .plus (.type list), outer⟩
    else .off (.error (.expectedSeparator offset))
  | .mark list =>
    if eats ['?'] rest then
      .on ⟨offset + utf8Length ['?'], [], .done (compose list.name list.args true), outer⟩
    else .on ⟨offset, [], .done (compose list.name list.args false), outer⟩
  | .done type =>
    match outer with
    | [] => .on ⟨offset, [.blanks], .finish type, []⟩
    | list :: outer =>
      .on ⟨offset, [.blanks], .plus (.argument ⟨list.name, list.args ++ [type]⟩), outer⟩
  | .finish type =>
    if offset = utf8Length text then .off (.ok type) else .off (.error (.unexpectedInput offset))

/-- One turn, if the offset is one at which the text can be cut. -/
def turn? (text : List Char) (state : State) : Option Turn :=
  match fromByte? text state.offset with
  | none => none
  | some rest =>
    match state.skips with
    | skip :: skips =>
      some (.on { state with offset := skip.past text rest state.offset, skips := skips })
    | [] => some (act text rest state.offset state.outer state.point)

/-- Takes turns from a state on, at most as many as there is fuel: the states that a turn was taken in, and
the answer if there is one. -/
def run (text : List Char) : (fuel : Nat) → State → List State × Option (Except TypeFault TypeName)
  | 0, _ => ([], none)
  | fuel + 1, state =>
    match turn? text state with
    | none => ([state], none)
    | some (.off answer) => ([state], some answer)
    | some (.on next) => (state :: (run text fuel next).1, (run text fuel next).2)

/-- A text is read from its start as one type. -/
def start : State := ⟨0, [], .type, []⟩

/-! ### Offsets -/

/-- The rest of a text starts at that offset. -/
structure At (text rest : List Char) (offset : Nat) : Prop where
  suffix : rest <:+ text
  size : offset + utf8Length rest = utf8Length text

variable {text rest word : List Char} {offset : Nat}

namespace At

theorem start : At text text 0 where
  suffix := List.suffix_refl text
  size := Nat.zero_add _

theorem skip {front : List Char} (here : At text (front ++ rest) offset) :
    At text rest (offset + utf8Length front) where
  suffix := (List.suffix_append front rest).trans here.suffix
  size := by
    have size := here.size
    rw [utf8Length_append] at size
    omega

theorem offset_eq (here : At text rest offset) : offset = offsetOf text rest := by
  have size := here.size
  unfold offsetOf
  omega

theorem le (here : At text rest offset) : offset ≤ utf8Length text :=
  here.size ▸ Nat.le_add_right offset _

/-- What follows a run of characters starts where that run ends. -/
theorem dropWhile (here : At text rest offset) (class' : Char → Bool) :
    At text (rest.dropWhile class') (offset + utf8Length (rest.takeWhile class')) := by
  rw [← List.takeWhile_append_dropWhile (p := class') (l := rest)] at here
  exact here.skip

theorem eaten (here : At text rest offset) (eaten : eats word rest = true) :
    ∃ behind, rest = word ++ behind ∧ At text behind (offset + utf8Length word) := by
  obtain ⟨behind, found⟩ := Option.isSome_iff_exists.1 eaten
  have split := after?_eq_some_iff.1 found
  exact ⟨behind, split, (split ▸ here).skip⟩

end At

theorem utf8Length_pos (filled : word ≠ []) : 0 < utf8Length word := by
  cases word with
  | nil => exact absurd rfl filled
  | cons c word => exact Nat.lt_of_lt_of_le c.utf8Size_pos (Nat.le_add_right _ _)

theorem fromByte?_append (front rest : List Char) :
    fromByte? (front ++ rest) (utf8Length front) = some rest := by
  induction front with
  | nil => cases rest <;> rfl
  | cons c front ih =>
    have filled : utf8Length (c :: front) ≠ 0 := (utf8Length_pos (List.cons_ne_nil c front)).ne'
    obtain ⟨size, positive⟩ := Nat.exists_eq_add_one_of_ne_zero filled
    have inside : c.utf8Size ≤ size + 1 := positive ▸ Nat.le_add_right _ _
    have behind : size + 1 - c.utf8Size = utf8Length front := by
      rw [← positive, utf8Length_cons, Nat.add_sub_cancel_left]
    rw [positive, List.cons_append, fromByte?, if_pos inside, behind, ih]

theorem At.of_fromByte? (cut : fromByte? text offset = some rest) : At text rest offset := by
  fun_induction fromByte? text offset with
  | case1 text =>
    cases cut
    exact .start
  | case2 => cases cut
  | case3 c text offset inside ih =>
    have behind := ih cut
    have size := behind.size
    constructor
    · exact behind.suffix.trans (List.suffix_cons c text)
    · rw [utf8Length_cons]
      omega
  | case4 => cases cut

/-- A text can be cut exactly where one of its rests starts. -/
theorem fromByte?_eq_some_iff : fromByte? text offset = some rest ↔ At text rest offset := by
  constructor
  · exact At.of_fromByte?
  · intro here
    obtain ⟨front, whole⟩ := here.suffix
    have size := here.size
    subst whole
    rw [utf8Length_append, Nat.add_right_cancel_iff] at size
    rw [size, fromByte?_append]

theorem utf8ByteSize_ofList (chars : List Char) :
    (String.ofList chars).utf8ByteSize = utf8Length chars := by
  induction chars with
  | nil => rfl
  | cons c chars ih =>
    rw [String.ofList_cons, String.utf8ByteSize_append, ih, utf8Length_cons]
    simp

theorem utf8Length_toList (text : String) : utf8Length text.toList = text.utf8ByteSize := by
  rw [← utf8ByteSize_ofList, String.ofList_toList]

/-- Where a rest of a text starts, a character starts or the text ends. -/
theorem At.isValid {text : String} (here : At text.toList rest offset) :
    String.Pos.Raw.IsValid text ⟨offset⟩ := by
  obtain ⟨front, whole⟩ := here.suffix
  have size := here.size
  rw [← whole, utf8Length_append, Nat.add_right_cancel_iff, ← utf8ByteSize_ofList] at size
  refine String.Pos.Raw.isValid_iff_exists_append.2 ⟨String.ofList front, String.ofList rest, ?_, ?_⟩
  · rw [← String.ofList_append, whole, String.ofList_toList]
  · rw [size]
    rfl

/-- What a skip leaves of a text. -/
def Skip.left (rest : List Char) : Skip → List Char
  | .blanks => trimStart rest
  | .name => dropName rest

theorem At.past (here : At text rest offset) (skip : Skip) :
    At text (skip.left rest) (skip.past text rest offset) := by
  cases skip with
  | blanks =>
    have there : At text (trimStart rest) _ := here.dropWhile isBlank
    have past : Skip.blanks.past text rest offset = _ := there.offset_eq.symm
    exact past ▸ there
  | name => exact here.dropWhile isNameChar

theorem At.le_past (here : At text rest offset) (skip : Skip) : offset ≤ skip.past text rest offset := by
  cases skip with
  | blanks =>
    have there : At text (trimStart rest) _ := here.dropWhile isBlank
    exact Nat.le_trans (Nat.le_add_right _ _) (Nat.le_of_eq there.offset_eq)
  | name => exact Nat.le_add_right _ _

/-! ### What a turn does -/

section turns

variable {skip : Skip} {skips : List Skip} {point : Point} {outer : List Listing}

theorem turn?_skip (here : At text rest offset) :
    turn? text ⟨offset, skip :: skips, point, outer⟩ =
      some (.on ⟨skip.past text rest offset, skips, point, outer⟩) := by
  simp only [turn?, fromByte?_eq_some_iff.2 here]

theorem turn?_act (here : At text rest offset) :
    turn? text ⟨offset, [], point, outer⟩ = some (act text rest offset outer point) := by
  simp only [turn?, fromByte?_eq_some_iff.2 here]

/-- A turn is taken wherever the text can be cut. -/
theorem exists_turn {state : State} (here : At text rest state.offset) :
    ∃ turn, turn? text state = some turn := by
  obtain ⟨offset, skips, point, outer⟩ := state
  cases skips with
  | nil => exact ⟨_, turn?_act here⟩
  | cons skip skips => exact ⟨_, turn?_skip here⟩

/-- Where a turn is taken the text can be cut. -/
theorem exists_at {state : State} {turn : Turn} (done : turn? text state = some turn) :
    ∃ rest, At text rest state.offset := by
  unfold turn? at done
  split at done
  case h_1 => cases done
  case h_2 rest cut => exact ⟨rest, .of_fromByte? cut⟩

end turns

def Behind.rank : Behind → Nat
  | .argument _ => 0
  | .type _ => 4

/-- Ranks go down where nothing is taken off the text. -/
def Point.rank : Point → Nat
  | .type => 5
  | .lead => 3
  | .lifetime => 5
  | .unit => 2
  | .name => 1
  | .named _ chars => if chars = [] then 0 else 9
  | .follow _ => 7
  | .argument _ => 6
  | .plus behind => behind.rank + 1
  | .quote _ => 8
  | .separator _ => 0
  | .mark _ => 4
  | .done _ => 3
  | .finish _ => 0

def State.rank (state : State) : Nat :=
  state.skips.length + state.point.rank

theorem Behind.rank_point (behind : Behind) : behind.point.rank = behind.rank := by
  cases behind <;> rfl

theorem Behind.rank_le (behind : Behind) : behind.rank ≤ 4 := by
  cases behind <;> simp [Behind.rank]

/-- The offset at which a name should have started. -/
def Point.start? : Point → Option Nat
  | .named start _ => some start
  | _ => none

theorem Behind.start?_point (behind : Behind) : behind.point.start? = none := by
  cases behind <;> rfl

/-- The offset that a fault names. -/
def offsetOf? : TypeFault → Option Nat
  | .expectedName offset => some offset
  | .expectedSeparator offset => some offset
  | .unexpectedInput offset => some offset
  | .described _ => none

/-- What a turn that goes on does: it goes on where the text can be cut, no offset goes back, and where the
offset stays the rank goes down. The start of a name is noted when its characters are taken. -/
structure Moves (text : List Char) (state next : State) : Prop where
  placed : ∃ rest, At text rest next.offset
  onward : state.offset ≤ next.offset
  descends : next.offset = state.offset → next.rank < state.rank
  near : next.rank ≤ state.rank + 8
  noted : next.point.start? = none ∨ next.point.start? = some state.offset ∨
    next.point.start? = state.point.start?

/-- A turn moves, or ends with an answer; a fault names the offset that reading has got to, or the one at
which a name should have started. -/
def Turn.Moves (text : List Char) (state : State) : Turn → Prop
  | .on next => TypeName.Moves text state next
  | .off (.ok _) => True
  | .off (.error fault) =>
    ∃ named, offsetOf? fault = some named ∧ (state.offset = named ∨ state.point.start? = some named)

section moves

variable {skips skips' : List Skip} {point point' : Point} {outer outer' : List Listing}

theorem Turn.Moves.stay (here : At text rest offset)
    (noted : point'.start? = none ∨ point'.start? = some offset)
    (lower : skips'.length + point'.rank < skips.length + point.rank) :
    (Turn.on ⟨offset, skips', point', outer'⟩).Moves text ⟨offset, skips, point, outer⟩ where
  placed := ⟨rest, here⟩
  onward := Nat.le_refl offset
  descends _ := lower
  near := Nat.le_add_right_of_le (Nat.le_of_lt lower)
  noted := noted.imp_right .inl

theorem Turn.Moves.take {front behind : List Char} (here : At text (front ++ behind) offset)
    (noted : point'.start? = none ∨ point'.start? = some offset) (filled : front ≠ [])
    (near : skips'.length + point'.rank ≤ skips.length + point.rank + 8) :
    (Turn.on ⟨offset + utf8Length front, skips', point', outer'⟩).Moves text
      ⟨offset, skips, point, outer⟩ where
  placed := ⟨behind, here.skip⟩
  onward := Nat.le_add_right offset _
  descends same := by
    have longer := utf8Length_pos filled
    dsimp only at same
    omega
  near := near
  noted := noted.imp_right .inl

theorem Turn.Moves.eat (here : At text rest offset) (taken : eats word rest = true)
    (unnamed : point'.start? = none) (filled : word ≠ [])
    (near : skips'.length + point'.rank ≤ skips.length + point.rank + 8) :
    (Turn.on ⟨offset + utf8Length word, skips', point', outer'⟩).Moves text
      ⟨offset, skips, point, outer⟩ := by
  obtain ⟨behind, split, _⟩ := here.eaten taken
  exact .take (split ▸ here) (.inl unnamed) filled near

theorem moves_act (here : At text rest offset) :
    (act text rest offset outer point).Moves text ⟨offset, [], point, outer⟩ := by
  cases point with
  | type => exact .stay here (.inl rfl) (by decide)
  | lead =>
    simp only [act]
    split
    case h_1 lead found =>
      have taken : eats lead rest = true := by simpa using List.find?_some found
      have filled : lead ≠ [] := by
        intro vacant
        have known := List.mem_of_find?_eq_some found
        simp [vacant, leads] at known
      exact .eat here taken rfl filled (by decide)
    case h_2 => exact .stay here (.inl rfl) (by decide)
  | name =>
    cases front : rest.takeWhile isNameChar with
    | nil =>
      simp only [act, front, utf8Length_nil, Nat.add_zero]
      exact .stay here (.inr rfl) (by simp [Point.rank])
    | cons c chars =>
      simp only [act, front]
      rw [← List.takeWhile_append_dropWhile (p := isNameChar) (l := rest), front] at here
      exact .take here (.inr rfl) (List.cons_ne_nil c chars) (by simp [Point.rank])
  | named start chars =>
    simp only [act]
    split
    case isTrue => exact ⟨start, rfl, .inr rfl⟩
    case isFalse named =>
      have filled : chars ≠ [] := by
        intro vacant
        exact named (by simp [vacant, lastSegment, afterLastPath?])
      exact .stay here (.inl rfl) (by simp [Point.rank, filled])
  | done type => cases outer with
    | nil => exact .stay here (.inl rfl) (by simp [Point.rank])
    | cons list outer => exact .stay here (.inl rfl) (by simp [Point.rank, Behind.rank])
  | finish type =>
    simp only [act]
    split
    case isTrue => trivial
    case isFalse => exact ⟨offset, rfl, .inl rfl⟩
  | unit | lifetime | mark =>
    simp only [act]
    split
    case isTrue taken => exact .eat here taken rfl (by decide) (by simp [Point.rank])
    case isFalse => exact .stay here (.inl rfl) (by simp [Point.rank])
  | plus behind =>
    simp only [act]
    split
    case isTrue taken => exact .eat here taken rfl (by decide) (by simp [Point.rank])
    case isFalse =>
      have lower : behind.point.rank < behind.rank + 1 := behind.rank_point ▸ Nat.lt_succ_self _
      exact .stay here (.inl behind.start?_point) (Nat.add_lt_add_left lower _)
  | quote behind =>
    have low := behind.rank_le
    simp only [act]
    split
    case isTrue taken => exact .eat here taken rfl (by decide) (by simp [Point.rank]; omega)
    case isFalse => exact .stay here (.inl rfl) (by simp [Point.rank]; omega)
  | follow | argument =>
    simp only [act]
    split
    case isTrue taken => exact .eat here taken rfl (by decide) (by simp [Point.rank, Behind.rank])
    case isFalse =>
      split
      case isTrue taken => exact .eat here taken rfl (by decide) (by simp [Point.rank, Behind.rank])
      case isFalse => exact .stay here (.inl rfl) (by simp [Point.rank, Behind.rank])
  | separator =>
    simp only [act]
    split
    case isTrue taken => exact .eat here taken rfl (by decide) (by simp [Point.rank])
    case isFalse =>
      split
      case isTrue taken => exact .eat here taken rfl (by decide) (by simp [Point.rank, Behind.rank])
      case isFalse => exact ⟨offset, rfl, .inl rfl⟩

/-- Every turn moves, whichever state it is taken in. -/
theorem moves_of_turn? {state : State} {turn : Turn} (done : turn? text state = some turn) :
    turn.Moves text state := by
  obtain ⟨rest, here⟩ := exists_at done
  obtain ⟨offset, skips, point, outer⟩ := state
  cases skips with
  | nil =>
    rw [turn?_act here] at done
    cases done
    exact moves_act here
  | cons skip skips =>
    rw [turn?_skip here] at done
    cases done
    have lower : skips.length + point.rank < (skip :: skips).length + point.rank := by simp
    exact ⟨⟨_, here.past skip⟩, here.le_past skip, fun _ => lower,
      Nat.le_add_right_of_le (Nat.le_of_lt lower), .inr (.inr rfl)⟩

end moves

/-! ### Runs -/

variable {state next : State}

/-- How many turns a state is good for: nine for each byte that is left, and its rank. -/
def State.weight (text : List Char) (state : State) : Nat :=
  9 * (utf8Length text - state.offset) + state.rank

theorem Moves.weight_lt (moves : Moves text state next) : next.weight text < state.weight text := by
  obtain ⟨rest, there⟩ := moves.placed
  have onward := moves.onward
  have descends := moves.descends
  have near := moves.near
  have inside := there.le
  unfold State.weight
  omega

/-- The states that are passed from a state on, and the answer if one is reached. -/
inductive Passes (text : List Char) : State → List State → Option (Except TypeFault TypeName) → Prop where
  | out (state : State) : Passes text state [] none
  | off {state : State} {answer : Except TypeFault TypeName}
      (done : turn? text state = some (.off answer)) : Passes text state [state] (some answer)
  | on {state next : State} {states : List State} {answer : Option (Except TypeFault TypeName)}
      (done : turn? text state = some (.on next)) (more : Passes text next states answer) :
    Passes text state (state :: states) answer

/-- A run is never stuck: it goes on until there is an answer or the fuel is used up. -/
theorem passes_run (fuel : Nat) (here : At text rest state.offset) :
    Passes text state (run text fuel state).1 (run text fuel state).2 := by
  induction fuel generalizing state rest with
  | zero => exact .out state
  | succ fuel ih =>
    obtain ⟨turn, done⟩ := exists_turn here
    rw [run, done]
    cases turn with
    | off answer => exact .off done
    | on next =>
      have moves : Moves text state next := moves_of_turn? done
      obtain ⟨behind, there⟩ := moves.placed
      exact .on done (ih there)

/-- One state comes before another in the order of offsets, and of ranks where offsets are the same. -/
def Precedes (state later : State) : Prop :=
  state.offset < later.offset ∨ state.offset = later.offset ∧ later.rank < state.rank

theorem Precedes.trans {latest : State} (first : Precedes state next) (second : Precedes next latest) :
    Precedes state latest := by
  unfold Precedes at *
  omega

theorem Moves.precedes (moves : Moves text state next) : Precedes state next := by
  have onward := moves.onward
  have descends := moves.descends
  unfold Precedes
  omega

namespace Passes

variable {states : List State} {answer : Option (Except TypeFault TypeName)}

theorem length_le (passes : Passes text state states answer) :
    states.length ≤ state.weight text + 1 := by
  induction passes with
  | out state => exact Nat.zero_le _
  | off done => exact Nat.le_add_left 1 _
  | @on state next states answer done more ih =>
    have moves : Moves text state next := moves_of_turn? done
    exact Nat.succ_le_succ (Nat.le_trans ih moves.weight_lt)

/-- In all states of a run the text can be cut. -/
theorem placed (passes : Passes text state states answer) :
    ∀ passed ∈ states, ∃ rest, At text rest passed.offset := by
  induction passes with
  | out state => exact List.forall_mem_nil _
  | off done => simpa using exists_at done
  | on done more ih => exact List.forall_mem_cons.2 ⟨exists_at done, ih⟩

theorem eq_or_precedes (passes : Passes text state states answer) :
    ∀ passed ∈ states, passed = state ∨ Precedes state passed := by
  induction passes with
  | out state => exact List.forall_mem_nil _
  | off done => simp
  | @on state next states answer done more ih =>
    have moves : Moves text state next := moves_of_turn? done
    intro passed member
    rcases List.mem_cons.1 member with same | later
    · exact .inl same
    · rcases ih passed later with same | precedes
      · exact .inr (same ▸ moves.precedes)
      · exact .inr (moves.precedes.trans precedes)

theorem offset_le (passes : Passes text state states answer) :
    ∀ passed ∈ states, state.offset ≤ passed.offset := by
  intro passed member
  rcases passes.eq_or_precedes passed member with same | precedes
  · exact same ▸ Nat.le_refl _
  · unfold Precedes at precedes
    omega

end Passes

/-! ### Rounds -/

/-- What comes round again and again: the reading of types, and the three loops in it. -/
inductive Loop where
  | types
  | leads
  | arguments
  | bounds
deriving DecidableEq

/-- The loop of which a round begins in a state. -/
def State.begins? : State → Option Loop
  | ⟨_, [], .type, _⟩ => some .types
  | ⟨_, [.blanks], .lead, _⟩ => some .leads
  | ⟨_, [.blanks], .argument _, _⟩ => some .arguments
  | ⟨_, [.blanks], .plus _, _⟩ => some .bounds
  | _ => none

/-- Whether a plus sign stands behind the blanks, so that a round of bounds does not end its loop. -/
def State.GoesOn (text : List Char) (state : State) : Prop :=
  ∃ rest behind, fromByte? text state.offset = some rest ∧ trimStart rest = '+' :: behind

/-- What is true of two states of a run, of which one is passed before the other: the offset does not go
back, and it is greater where both begin a round of one loop. Only two rounds of bounds of which neither goes
on, as behind an argument and behind the list that it ends, may begin at one offset. -/
def Before (text : List Char) (state later : State) : Prop :=
  state.offset ≤ later.offset ∧
    ∀ loop, state.begins? = some loop → later.begins? = some loop →
      (loop = .bounds → state.GoesOn text ∨ later.GoesOn text) → state.offset < later.offset

/-- Rounds of one loop have one rank, save those of bounds. -/
theorem rank_eq_of_begins? {loop : Loop} {later : State} (begins : state.begins? = some loop)
    (again : later.begins? = some loop) (unbound : loop ≠ .bounds) : state.rank = later.rank := by
  unfold State.begins? at begins again
  split at begins <;> cases begins <;> split at again <;> cases again
  all_goals first | rfl | exact absurd rfl unbound

theorem begins?_eq_bounds (begins : state.begins? = some .bounds) :
    ∃ behind, state.skips = [.blanks] ∧ state.point = .plus behind := by
  unfold State.begins? at begins
  split at begins <;> cases begins
  exact ⟨_, rfl, rfl⟩

namespace Passes

variable {states : List State} {answer : Option (Except TypeFault TypeName)}

/-- A round of bounds that goes on takes a plus sign, so that it has no other round at its offset. -/
theorem lt_of_goesOn (passes : Passes text state states answer) (begins : state.begins? = some .bounds)
    (goesOn : state.GoesOn text) :
    ∀ passed ∈ states, passed.begins? = some .bounds → passed = state ∨ state.offset < passed.offset := by
  obtain ⟨rest, behind, cut, plus⟩ := goesOn
  obtain ⟨list, skips, point⟩ := begins?_eq_bounds begins
  obtain ⟨offset, _, _, outer⟩ := state
  subst skips point
  have here : At text rest offset := .of_fromByte? cut
  have there : At text ('+' :: behind) (Skip.blanks.past text rest offset) := plus ▸ here.past .blanks
  have onward := here.le_past .blanks
  intro passed member round
  cases passes with
  | out => cases member
  | off done => exact .inl (List.mem_singleton.1 member)
  | on done more =>
    rw [turn?_skip here] at done
    cases done
    rcases List.mem_cons.1 member with same | later
    · exact .inl same
    · cases more with
      | out => cases later
      | off done' =>
        cases List.mem_singleton.1 later
        cases round
      | on done' more =>
        rw [turn?_act there] at done'
        cases done'
        rcases List.mem_cons.1 later with same | latest
        · cases same
          cases round
        · have behindPlus := more.offset_le passed latest
          have plusSize : utf8Length ['+'] = 1 := rfl
          dsimp only at behindPlus ⊢
          omega

theorem pairwise_before (passes : Passes text state states answer) : states.Pairwise (Before text) := by
  induction passes with
  | out state => exact .nil
  | off done => exact List.pairwise_singleton _ _
  | @on state next states answer done more ih =>
    refine List.pairwise_cons.2 ⟨?_, ih⟩
    intro later member
    have moves : Moves text state next := moves_of_turn? done
    have precedes : Precedes state later := by
      rcases more.eq_or_precedes later member with same | precedes
      · exact same ▸ moves.precedes
      · exact moves.precedes.trans precedes
    have onward : state.offset ≤ later.offset := by
      unfold Precedes at precedes
      omega
    refine ⟨onward, fun loop begins again bounds => ?_⟩
    by_contra stays
    have same : state.offset = later.offset := by omega
    have lower : later.rank < state.rank := by
      unfold Precedes at precedes
      omega
    by_cases unbound : loop = .bounds
    · subst unbound
      have goesOn : state.GoesOn text := by
        rcases bounds rfl with here | there
        · exact here
        · obtain ⟨rest, behind, cut, plus⟩ := there
          exact ⟨rest, behind, same ▸ cut, plus⟩
      have whole : Passes text state (state :: states) answer := .on done more
      rcases whole.lt_of_goesOn begins goesOn later (List.mem_cons_of_mem _ member) again with alike | less
      · rw [alike] at lower
        exact Nat.lt_irrefl _ lower
      · exact stays less
    · rw [rank_eq_of_begins? begins again unbound] at lower
      exact Nat.lt_irrefl _ lower

end Passes

/-! ### Faults -/

/-- A fault names the offset of a state that was passed, save where a name should have started earlier. -/
theorem Passes.offsetOf?_eq {states : List State} {fault : TypeFault}
    (passes : Passes text state states (some (.error fault))) :
    ∃ named, offsetOf? fault = some named ∧
      ((∃ passed ∈ states, passed.offset = named) ∨ state.point.start? = some named) := by
  generalize whole : some (Except.error fault) = answer at passes
  induction passes with
  | out state => cases whole
  | @off state answer done =>
    cases whole
    obtain ⟨named, names, here⟩ := moves_of_turn? done
    exact ⟨named, names, here.imp_left fun same => ⟨state, List.mem_singleton_self state, same⟩⟩
  | @on state next states answer done more ih =>
    have moves : Moves text state next := moves_of_turn? done
    obtain ⟨named, names, ⟨passed, member, same⟩ | noted⟩ := ih whole
    · exact ⟨named, names, .inl ⟨passed, List.mem_cons_of_mem state member, same⟩⟩
    · rcases moves.noted with none | here | earlier
      · cases noted.symm.trans none
      · have same : state.offset = named := Option.some.inj (here.symm.trans noted)
        exact ⟨named, names, .inl ⟨state, List.mem_cons_self, same⟩⟩
      · exact ⟨named, names, .inr (earlier ▸ noted)⟩

end Assay.TypeName
