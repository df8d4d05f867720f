/-
Module: Assay.Proofs.Progress
Purpose: Reading a type always gets on. Taken turn by turn, the reader ends with what it returns, after a
  number of turns that is linear in the length of the text; on the way every round of a loop starts behind
  the round before it, and every offset, also one that an error names, is one at which a character starts or
  the text ends.
Main exports: TypeName.Gives, TypeName.gives_type, TypeName.parse_gets_on
-/
import Assay.Proofs.Readings
import Assay.Proofs.Turns

namespace Assay.TypeName

open Text Unicode

/-- Wherever that rest of a text starts, reading goes on to that answer. -/
def Gives (text rest : List Char) (skips : List Skip) (point : Point) (outer : List Listing)
    (answer : Except TypeFault TypeName) : Prop :=
  ∀ offset, At text rest offset → ∀ fuel, State.weight text ⟨offset, skips, point, outer⟩ < fuel →
    (run text fuel ⟨offset, skips, point, outer⟩).2 = some answer

variable {text rest behind : List Char} {skips skips' : List Skip} {point point' : Point}
  {outer outer' : List Listing} {answer : Except TypeFault TypeName}

namespace Gives

/-! ### One turn -/

theorem turn (next : Gives text behind skips' point' outer' answer)
    (on : ∀ offset, At text rest offset → ∃ offset', At text behind offset' ∧
      turn? text ⟨offset, skips, point, outer⟩ = some (.on ⟨offset', skips', point', outer'⟩)) :
    Gives text rest skips point outer answer := by
  intro offset here fuel enough
  obtain ⟨offset', there, done⟩ := on offset here
  have moves : Moves text _ _ := moves_of_turn? done
  have less := moves.weight_lt
  cases fuel with
  | zero => exact absurd enough (Nat.not_lt_zero _)
  | succ fuel =>
    rw [run, done]
    exact next offset' there fuel (by omega)

theorem skip {skip : Skip} (next : Gives text (skip.left rest) skips point outer answer) :
    Gives text rest (skip :: skips) point outer answer :=
  next.turn fun _ here => ⟨_, here.past skip, turn?_skip here⟩

/-- A turn that takes nothing. -/
theorem stay (next : Gives text rest skips' point' outer' answer)
    (acts : ∀ offset, act text rest offset outer point = .on ⟨offset, skips', point', outer'⟩) :
    Gives text rest [] point outer answer :=
  next.turn fun offset here => ⟨offset, here, (turn?_act here).trans (by rw [acts])⟩

/-- A turn that takes something off the front. -/
theorem take {front : List Char} (next : Gives text behind skips' point' outer' answer)
    (acts : ∀ offset, act text (front ++ behind) offset outer point =
      .on ⟨offset + utf8Length front, skips', point', outer'⟩) :
    Gives text (front ++ behind) [] point outer answer :=
  next.turn fun _ here => ⟨_, here.skip, (turn?_act here).trans (by rw [acts])⟩

theorem stop (acts : ∀ offset, At text rest offset → act text rest offset outer point = .off answer) :
    Gives text rest [] point outer answer := by
  intro offset here fuel enough
  cases fuel with
  | zero => exact absurd enough (Nat.not_lt_zero _)
  | succ fuel => rw [run, turn?_act here, acts offset here]

end Gives

/-! ### Words -/

theorem eats_append (word behind : List Char) : eats word (word ++ behind) = true := by
  simp [eats, after?_eq_some_iff.2 rfl]

@[simp] theorem eats_sign (c : Char) (behind : List Char) : eats [c] (c :: behind) = true :=
  eats_append [c] behind

theorem eats_sign_eq_false {c : Char} (apart : ∀ behind, rest ≠ c :: behind) : eats [c] rest = false := by
  cases found : after? [c] rest with
  | none => simp [eats, found]
  | some behind => exact absurd (after?_eq_some_iff.1 found) (apart behind)

theorem find?_leads_of_some (found : afterLead? text = some rest) :
    ∃ lead, leads.find? (fun lead => eats lead text) = some lead ∧ text = lead ++ rest := by
  obtain ⟨before, lead, later, split, taken, missed⟩ := List.findSome?_eq_some_iff.1 found
  refine ⟨lead, List.find?_eq_some_iff_append.2 ⟨by simp [eats, taken], before, later, split, ?_⟩,
    after?_eq_some_iff.1 taken⟩
  intro other member
  simp [eats, missed other member]

theorem find?_leads_of_none (unled : afterLead? text = none) :
    leads.find? (fun lead => eats lead text) = none := by
  rw [List.find?_eq_none]
  intro lead member
  simp [eats, List.findSome?_eq_none_iff.1 unled lead member]

namespace Gives

/-! ### Loops -/

/-- A turn that takes one character. -/
theorem sign {c : Char} (next : Gives text behind skips' point' outer' answer)
    (acts : ∀ offset, act text (c :: behind) offset outer point =
      .on ⟨offset + utf8Length [c], skips', point', outer'⟩) :
    Gives text (c :: behind) [] point outer answer := by
  have taken : Gives text ([c] ++ behind) [] point outer answer := take next acts
  exact taken

theorem blanks (next : Gives text (trimStart rest) skips point outer answer) :
    Gives text rest (.blanks :: skips) point outer answer :=
  next.skip

theorem lifetime (next : Gives text (skipLifetime rest) [.blanks] .lead outer answer) :
    Gives text rest [] .lifetime outer answer := by
  unfold skipLifetime at next
  split at next
  case h_1 label =>
    have label : Gives text label [.name, .blanks] .lead outer answer := next.skip
    exact label.sign fun offset => by simp only [act, eats_sign, if_true]
  case h_2 unquoted =>
    exact next.stay fun offset => by simp [act, eats_sign_eq_false unquoted]

theorem leads (next : Gives text (skipLeads rest) [] .unit outer answer) :
    Gives text rest [.blanks] .lead outer answer := by
  fun_induction skipLeads rest with
  | case1 rest behind found ih =>
    apply blanks
    obtain ⟨lead, first, split⟩ := find?_leads_of_some found
    rw [split] at first ⊢
    exact (ih next).lifetime.take fun offset => by simp only [act, first]
  | case2 rest unled =>
    apply blanks
    exact next.stay fun offset => by simp only [act, find?_leads_of_none unled]

/-- Behind a plus sign a bound is dropped. -/
theorem bound {behind : Behind} (next : Gives text (dropBound rest) [.blanks] (.plus behind) outer answer) :
    Gives text rest [.blanks] (.quote behind) outer answer := by
  apply blanks
  unfold dropBound at next
  generalize trimStart rest = bare at next
  unfold skipQuote at next
  split at next
  case h_1 label =>
    have label : Gives text label [.name, .blanks] (.plus behind) outer answer := next.skip
    exact label.sign fun offset => by simp only [act, eats_sign, if_true]
  case h_2 unquoted =>
    have bare : Gives text bare [.name, .blanks] (.plus behind) outer answer := next.skip
    exact bare.stay fun offset => by simp [act, eats_sign_eq_false unquoted]

theorem bounds {behind : Behind} (next : Gives text (skipBounds rest) [] behind.point outer answer) :
    Gives text rest [.blanks] (.plus behind) outer answer := by
  fun_induction skipBounds rest with
  | case1 rest bound found ih =>
    apply blanks
    rw [found]
    exact (ih next).bound.sign fun offset => by simp only [act, eats_sign, if_true]
  | case2 rest unbound =>
    apply blanks
    exact next.stay fun offset => by simp [act, eats_sign_eq_false unbound]

/-- Behind its name and its arguments a type is composed. -/
theorem mark {name : String} {args : List TypeName}
    (next : Gives text (takeMark rest).2 [] (.done (compose name args (takeMark rest).1)) outer answer) :
    Gives text rest [] (.mark ⟨name, args⟩) outer answer := by
  unfold takeMark at next
  split at next
  case h_1 => exact next.sign fun offset => by simp only [act, eats_sign, if_true]
  case h_2 unmarked => exact next.stay fun offset => by simp [act, eats_sign_eq_false unmarked]

/-- The characters of a name are taken, whether or not they are enough for a name. -/
theorem name (next : Gives text (dropName rest) []
      (.named (offsetOf text rest) (rest.takeWhile isNameChar)) outer answer) :
    Gives text rest [] .name outer answer := by
  refine next.turn fun offset here => ⟨_, here.dropWhile isNameChar, ?_⟩
  rw [turn?_act here, ← here.offset_eq]
  rfl

end Gives

/-! ### Types -/

variable {α : Type}

/-- What reading goes on from when a reader ends: its value and the rest it leaves, or the fault at which
it stops. -/
def Resumes (text : List Char) (answer : Except TypeFault TypeName) (onward : α → List Char → Prop) :
    Except Stop (Read α rest) → Prop
  | .ok read => onward read.value read.rest
  | .error stop => answer = .error (stop.fault text)

/-- What a type goes on with behind its head. -/
def Continues (text : List Char) (outer : List Listing) (answer : Except TypeFault TypeName)
    (head : Head) (rest : List Char) : Prop :=
  match head with
  | .unit => Gives text rest [.blanks] (.mark ⟨"()", []⟩) outer answer
  | .name chars => Gives text rest [.blanks] (.follow (String.ofList chars)) outer answer

theorem gives_head (resumes : Resumes text answer (Continues text outer answer) (readHead rest)) :
    Gives text rest [] .type outer answer := by
  have type (next : Gives text (skipLeads rest) [] .unit outer answer) :
      Gives text rest [] .type outer answer := next.leads.stay fun offset => rfl
  apply type
  unfold readHead at resumes
  split at resumes
  case h_1 behind brackets =>
    rw [after?_eq_some_iff.1 brackets]
    exact Gives.take resumes fun offset => by simp only [act, eats_append, if_true]
  case h_2 unbracketed =>
    have missed : eats ['(', ')'] (skipLeads rest) = false := by simp [eats, unbracketed]
    have name (next : Gives text (skipLeads rest) [] .name outer answer) :
        Gives text (skipLeads rest) [] .unit outer answer :=
      next.stay fun offset => by simp [act, missed]
    apply name
    apply Gives.name
    split at resumes
    case isTrue unnamed =>
      refine Gives.stop fun offset here => ?_
      simp only [act, unnamed, if_true]
      exact congrArg Turn.off resumes.symm
    case isFalse named =>
      exact Gives.stay resumes fun offset => by simp only [act, named, if_false]

/-- Behind its arguments a type is finished. -/
theorem gives_finish {name : String} {args : List TypeName}
    {shorter : (skipBounds rest).length < behind.length}
    (next : Resumes text answer (fun type rest => Gives text rest [] (.done type) outer answer)
      (.ok (finish name args (skipBounds rest) shorter))) :
    Gives text rest [.blanks] (.plus (.type ⟨name, args⟩)) outer answer :=
  Gives.bounds (Gives.mark next)

mutual

theorem gives_type {text rest : List Char} {outer : List Listing} {answer : Except TypeFault TypeName}
    (resumes : Resumes text answer (fun type rest => Gives text rest [] (.done type) outer answer)
      (readType rest)) : Gives text rest [] .type outer answer := by
  apply gives_head
  rw [readType] at resumes
  split at resumes
  case h_1 stop head =>
    rw [head]
    exact resumes
  case h_2 behind shorter head =>
    rw [head]
    have mark : Gives text (trimStart behind) [] (.mark ⟨"()", []⟩) outer answer := Gives.mark resumes
    exact mark.blanks
  case h_3 chars behind shorter head =>
    rw [head]
    apply Gives.blanks
    split at resumes
    case h_1 value follows =>
      have inside := Nat.lt_trans (length_lt_of_start follows) shorter
      have bound : Gives text value [] .type outer answer := by
        apply gives_type
        revert resumes
        cases readType value with
        | error stop => exact id
        | ok read => exact id
      rw [follows]
      exact bound.sign fun offset => by simp only [act, eats_sign, if_true]
    case h_2 list follows =>
      have inside := Nat.lt_trans (length_lt_of_start follows) shorter
      have listed : Gives text list [.blanks] (.argument ⟨String.ofList chars, []⟩) outer answer := by
        apply gives_args
        revert resumes
        cases readArgs list with
        | error stop => exact id
        | ok args => exact gives_finish
      have unbound : ∀ value, '<' :: list ≠ '=' :: value := fun value same => nomatch same
      rw [follows]
      exact listed.sign fun offset => by simp [act, eats_sign_eq_false unbound]
    case h_3 unbound unapplied =>
      have behind : Gives text (trimStart behind) [.blanks] (.plus (.type ⟨String.ofList chars, []⟩))
          outer answer := gives_finish resumes
      exact behind.stay fun offset => by
        simp [act, eats_sign_eq_false unbound, eats_sign_eq_false unapplied]
termination_by 2 * rest.length

theorem gives_args {text rest : List Char} {outer : List Listing} {answer : Except TypeFault TypeName}
    {name : String} {args : List TypeName}
    (resumes : Resumes text answer (fun more rest =>
      Gives text rest [.blanks] (.plus (.type ⟨name, args ++ more⟩)) outer answer) (readArgs rest)) :
    Gives text rest [.blanks] (.argument ⟨name, args⟩) outer answer := by
  apply Gives.blanks
  rw [readArgs] at resumes
  split at resumes
  case h_1 behind start =>
    have closed : Gives text behind [.blanks] (.plus (.type ⟨name, args⟩)) outer answer := by
      simpa [Resumes] using resumes
    rw [start]
    exact closed.sign fun offset => by simp only [act, eats_sign, if_true]
  case h_2 label start =>
    have inside := length_lt_of_start start
    have skipped := length_dropName_le label
    have bounds := length_skipBounds_le (dropName label)
    have more : Gives text (skipBounds (dropName label)) [] (.separator ⟨name, args⟩) outer answer := by
      apply gives_more
      revert resumes
      cases readMore (skipBounds (dropName label)) with
      | error stop => exact id
      | ok more => exact id
    have lifetime : Gives text label [.name, .blanks] (.plus (.argument ⟨name, args⟩)) outer answer :=
      Gives.skip (Gives.bounds more)
    have unclosed : ∀ behind, '\'' :: label ≠ '>' :: behind := fun behind same => nomatch same
    rw [start]
    exact lifetime.sign fun offset => by simp [act, eats_sign_eq_false unclosed]
  case h_3 unclosed unquoted =>
    have blanks := length_trimStart_le rest
    have type : Gives text (trimStart rest) [] .type (⟨name, args⟩ :: outer) answer := by
      apply gives_type
      revert resumes
      cases readType (trimStart rest) with
      | error stop => exact id
      | ok arg =>
        intro resumes
        have inside := arg.shorter
        have bounds := length_skipBounds_le arg.rest
        have more : Gives text (skipBounds arg.rest) [] (.separator ⟨name, args ++ [arg.value]⟩) outer
            answer := by
          apply gives_more
          dsimp only at resumes
          revert resumes
          cases readMore (skipBounds arg.rest) with
          | error stop => exact id
          | ok more => simp [Resumes]
        exact (Gives.bounds more).stay fun offset => rfl
    exact type.stay fun offset => by
      simp [act, eats_sign_eq_false unclosed, eats_sign_eq_false unquoted]
termination_by 2 * rest.length + 1

theorem gives_more {text rest : List Char} {outer : List Listing} {answer : Except TypeFault TypeName}
    {name : String} {args : List TypeName}
    (resumes : Resumes text answer (fun more rest =>
      Gives text rest [.blanks] (.plus (.type ⟨name, args ++ more⟩)) outer answer) (readMore rest)) :
    Gives text rest [] (.separator ⟨name, args⟩) outer answer := by
  unfold readMore at resumes
  split at resumes
  case h_1 behind =>
    have inside : behind.length < (',' :: behind).length := by simp
    have listed : Gives text behind [.blanks] (.argument ⟨name, args⟩) outer answer := by
      apply gives_args
      revert resumes
      cases readArgs behind with
      | error stop => exact id
      | ok more => exact id
    exact listed.sign fun offset => by simp only [act, eats_sign, if_true]
  case h_2 behind =>
    have closed : Gives text behind [.blanks] (.plus (.type ⟨name, args⟩)) outer answer := by
      simpa [Resumes] using resumes
    have unparted : ∀ next, '>' :: behind ≠ ',' :: next := fun next same => nomatch same
    exact closed.sign fun offset => by simp [act, eats_sign_eq_false unparted]
  case h_3 unparted unclosed =>
    refine Gives.stop fun offset here => ?_
    have answers : answer = .error (.expectedSeparator (offsetOf text rest)) := resumes
    simp [act, eats_sign_eq_false unparted, eats_sign_eq_false unclosed, answers, here.offset_eq]
termination_by 2 * rest.length

end

/-! ### Whole texts -/

/-- Behind a whole type only blanks may follow. -/
theorem gives_end {type : TypeName}
    (ends : ∀ offset, At text (trimStart rest) offset →
      act text (trimStart rest) offset [] (.finish type) = .off answer) :
    Gives text rest [] (.done type) [] answer := by
  have finish : Gives text (trimStart rest) [] (.finish type) [] answer := Gives.stop ends
  exact finish.blanks.stay fun offset => rfl

/-- Taken turn by turn, a text is read as what the reader returns for it. -/
theorem gives_read (text : List Char) : Gives text text [] .type [] (read text) := by
  apply gives_type
  unfold read
  cases readType text with
  | error stop => rfl
  | ok read =>
    apply gives_end
    intro offset here
    have size := here.size
    cases behind : trimStart read.rest with
    | nil =>
      rw [behind] at size
      have whole : offset = utf8Length text := size
      simp [act, whole, behind]
    | cons c rest =>
      have positive : 0 < utf8Length (c :: rest) := utf8Length_pos (List.cons_ne_nil c rest)
      rw [behind] at size
      have inside : offset ≠ utf8Length text := by omega
      have same : offset = offsetOf text (c :: rest) := behind ▸ here.offset_eq
      simp only [act, inside, if_false, behind]
      rw [same]

/-- Reading a type always gets on, whatever the text. Taken turn by turn from its start, with fuel for nine
turns a byte and six more, reading ends with what the reader returns, and it passes no more states than that.
No offset goes back; where two states begin the reading of a type, or rounds of one loop of which one goes on,
the later offset is greater. A character starts at each of these offsets, or the text ends there, and a fault
names one of them. -/
theorem parse_gets_on (text : String) (spare : Nat) :
    ∃ states,
      run text.toList (9 * text.utf8ByteSize + 6 + spare) start = (states, some (read text.toList)) ∧
      states.length ≤ 9 * text.utf8ByteSize + 6 ∧
      states.Pairwise (Before text.toList) ∧
      (∀ state ∈ states, state.offset ≤ text.utf8ByteSize ∧ String.Pos.Raw.IsValid text ⟨state.offset⟩) ∧
      ∀ error, TypeName.parse text = .error error →
        ∃ fault, error = .malformedType text fault ∧
          ∃ state ∈ states, offsetOf? fault = some state.offset := by
  have here : At text.toList text.toList start.offset := .start
  have weight : start.weight text.toList = 9 * text.utf8ByteSize + 5 := by
    rw [State.weight, utf8Length_toList]
    rfl
  have enough : start.weight text.toList < 9 * text.utf8ByteSize + 6 + spare := by omega
  have passes := passes_run (9 * text.utf8ByteSize + 6 + spare) here
  have answers : (run text.toList _ start).2 = some (read text.toList) := gives_read _ 0 here _ enough
  generalize run text.toList (9 * text.utf8ByteSize + 6 + spare) start = reached at passes answers
  obtain ⟨states, answer⟩ := reached
  dsimp only at passes answers
  subst answers
  have short := passes.length_le
  rw [weight] at short
  refine ⟨states, rfl, short, passes.pairwise_before, ?_, ?_⟩
  · intro state member
    obtain ⟨rest, there⟩ := passes.placed state member
    exact ⟨utf8Length_toList text ▸ there.le, there.isValid⟩
  · intro error failed
    rw [TypeName.parse] at failed
    cases done : read text.toList with
    | ok type =>
      rw [done] at failed
      cases failed
    | error fault =>
      rw [done] at failed passes
      cases failed
      obtain ⟨named, names, ⟨state, member, same⟩ | noted⟩ := passes.offsetOf?_eq
      · exact ⟨fault, rfl, state, member, same ▸ names⟩
      · cases noted

/-- A list of arguments that stops behind a bound, at a byte that is not counted in characters. -/
theorem unseparated_gets_on :
    TypeName.parse "Vec<&'a é + 'b; B>" =
        .error (.malformedType "Vec<&'a é + 'b; B>" (.expectedSeparator 15)) ∧
      ∃ states, (run "Vec<&'a é + 'b; B>".toList 177 start).1 = states ∧
        states.Pairwise (Before "Vec<&'a é + 'b; B>".toList) ∧ ∃ state ∈ states, state.offset = 15 := by
  have failed : TypeName.parse "Vec<&'a é + 'b; B>" =
      .error (.malformedType "Vec<&'a é + 'b; B>" (.expectedSeparator 15)) := by decide +kernel
  obtain ⟨states, ran, _, pairwise, _, faults⟩ := parse_gets_on "Vec<&'a é + 'b; B>" 0
  obtain ⟨fault, same, state, member, names⟩ := faults _ failed
  cases same
  exact ⟨failed, states, congrArg Prod.fst ran, pairwise, state, member, (Option.some.inj names).symm⟩

/-- Of two rounds of bounds at one offset neither goes on. -/
example : (run "Vec<&é + 'b>".toList 150 start).1.filterMap
      (fun state => state.begins?.map fun loop => (loop, state.offset)) =
    [(.types, 0), (.leads, 0), (.arguments, 4), (.types, 4), (.leads, 4), (.leads, 5), (.bounds, 8),
      (.bounds, 12), (.bounds, 12), (.bounds, 13)] := by
  decide +kernel

end Assay.TypeName
