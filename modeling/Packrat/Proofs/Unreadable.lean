import Packrat.Proofs.Joining
import Packrat.Proofs.Readers
import Packrat.Proofs.Slices
import Packrat.Proofs.Spacing

namespace Packrat

/-!
# Where reading stops

A longest beginning of a text is found again when the text is cut somewhere behind it, and so is
the end of a triple-quoted string.  A string mark without a string is read alike too, because what
is read of it never depends on more than the character after its quote.  So the part of a source
before the place where reading stops can be read on its own, and has the same lexemes there.

The error tells this place, and whether what could not be read begins a string.  All of this is
shown of every documented reader.
-/

namespace Shape

variable {Reading : Type} {live : List (Shape Reading)} {reading : Reading}
  {text more : List Char} {length : Nat}

/-- A longest beginning is longest in every part of the text that has it. -/
theorem longest?_of_append (found : longest? live (text ++ more) = some (reading, length))
    (inside : length ≤ text.length) : longest? live text = some (reading, length) := by
  rcases longest?_eq_some_iff.mp found with ⟨-, reads, longest⟩
  refine longest?_eq_some_iff.mpr ⟨inside, ?_, fun further beyond within => ?_⟩
  · rw [← reads, List.take_append_of_le_length inside]
  · rw [← longest further beyond (Nat.le_trans within (by simp)),
      List.take_append_of_le_length within]

end Shape

namespace Lexeme

variable {text body more : List Char} {kind : Kind} {quote c : Char} {length offset : Nat}

/-! ## Cutting a text behind its first lexeme -/

theorem Closes.of_append (closes : Closes quote (text ++ more) length)
    (inside : length ≤ text.length) : Closes quote text length := by
  refine ⟨inside, ?_, fun fewer before => ?_⟩
  · rw [← List.take_append_of_le_length inside]
    exact closes.matched
  · have within : fewer ≤ text.length := Nat.le_of_lt (Nat.lt_of_lt_of_le before inside)
    rw [← List.take_append_of_le_length within]
    exact closes.first fewer before

/-- A string mark before a quote with less behind it is read alike, if what is read of it is still
there. -/
theorem brokenString?_of_append {size : Nat}
    (broken : brokenString? size (body ++ more) = some (kind, length))
    (inside : length ≤ size + 1 + body.length) :
    brokenString? size body = some (kind, length) := by
  by_cases cut : more = []
  · rw [cut, List.append_nil] at broken
    exact broken
  · cases body with
    | nil =>
      -- Nothing is left behind the quote, so the backslash is not a part of what is read.
      unfold brokenString? at broken
      split at broken <;> cases broken
      · rfl
      · rfl
      · rfl
      · simp at inside
    | cons d body =>
      have several : d :: (body ++ more) ≠ ['\\'] := by
        intro single
        have empty := (List.cons.inj single).2
        exact cut (List.append_eq_nil_iff.mp empty).2
      unfold brokenString? at broken
      split at broken
      case h_1 impossible => cases impossible
      case h_2 same | h_3 same =>
        cases (List.cons.inj same).1
        exact broken
      case h_4 single => exact absurd single several
      case h_5 => cases broken

/-- A first lexeme is the first one in every part of the text that has it. -/
theorem first?_of_append (found : first? (text ++ more) = some (kind, length))
    (inside : length ≤ text.length) : first? text = some (kind, length) := by
  rw [first?_eq_some_iff]
  cases first?_eq_some_iff.mp found with
  | whole longest unmarked =>
    refine .whole (Shape.longest?_of_append longest inside) fun named c body rest => ?_
    have further := unmarked named c (body ++ more)
    rw [List.drop_append_of_le_length inside, List.take_append_of_le_length inside, rest] at further
    exact further rfl
  | @quoted quote size further longest closed =>
    have within : size ≤ text.length := Nat.le_trans (Nat.le_add_right size further) inside
    have spec := Shape.longest?_spec shapes (text ++ more)
    rw [longest] at spec
    have notBackslash := quote_of_longest spec
    have closes := (closing?_eq_some_iff notBackslash).mp closed
    rw [List.drop_append_of_le_length within] at closes
    have still : further ≤ (text.drop size).length := by
      rw [List.length_drop]
      omega
    exact .quoted (Shape.longest?_of_append longest within)
      ((closing?_eq_some_iff notBackslash).mpr (closes.of_append still))
  | @marked size c body _ _ longest rest marks broken =>
    have within : size ≤ text.length := Nat.le_trans (le_of_brokenString? broken) inside
    have longest' := Shape.longest?_of_append longest within
    rw [List.drop_append_of_le_length within] at rest
    rw [List.take_append_of_le_length within] at marks
    cases tail : text.drop size with
    | nil =>
      -- The text ends with the mark, which is a name there.
      have ends := List.drop_eq_nil_iff.mp tail
      have same : length = size :=
        Nat.le_antisymm (Nat.le_trans inside ends) (le_of_brokenString? broken)
      rw [same, name_of_brokenString? broken]
      refine .whole longest' fun _ d others some => ?_
      rw [tail] at some
      cases some
    | cons d others =>
      rw [tail] at rest
      cases rest
      have sizes := congrArg List.length tail
      rw [List.length_drop, List.length_cons] at sizes
      exact .marked longest' tail marks (brokenString?_of_append broken (by omega))

/-! ## What is read before reading stops -/

/-- What is read of a text is read alike without the rest. -/
theorem scan_flatMap_text (offset : Nat) (text : List Char) :
    scan offset ((scan offset text).1.flatMap Lexeme.text) = ((scan offset text).1, []) := by
  fun_induction scan offset text with
  | case1 => rw [List.flatMap_nil, scan]
  | case2 offset c rest kind length found lexeme lexemes left again inductionHypothesis =>
    rw [again] at inductionHypothesis
    have split := scan_append lexeme.stop (rest.drop length)
    rw [again] at split
    have inside : length ≤ rest.length := Nat.le_of_succ_le_succ (first?_le found)
    have size : lexeme.text.length = length.succ := by
      rw [List.length_cons, List.length_take, Nat.min_eq_left inside]
    have whole : (lexeme.text ++ lexemes.flatMap Lexeme.text) ++ left = c :: rest := by
      rw [List.append_assoc, split]
      exact congrArg (c :: ·) (List.take_append_drop length rest)
    rw [← whole, ← size] at found
    have first := first?_of_append found (by simp)
    rw [List.flatMap_cons, scan_first first (List.cons_ne_nil _ _)]
    exact congrArg (fun scanned : List Lexeme × List Char => (lexeme :: scanned.1, scanned.2))
      inductionHypothesis
  | case3 => rw [List.flatMap_nil, scan]

/-! ## The error -/

/-- A documented reader that cannot read a source stops in front of a character.  What is before it
can be read on its own, and has the lexemes that the source has up to there; at the character
nothing can be read.  The error is about a string when what is left begins one, and about the
character otherwise, although it is classified by no more than the reader reports. -/
theorem ofSource_stops {reader : Reader} (documented : reader.Documented) {source : String}
    {error : LexError} (failed : ofSource source reader = .error error) :
    Exists fun front => Exists fun c => Exists fun rest => Exists fun lexemes =>
      Source.slice? source.toList 0 error.position.offset = some front ∧
        Source.textFrom? source.toList error.position.offset = some (c :: rest) ∧
        error.position.offset < Source.byteLength source.toList ∧
        error.position = (Source.Lines.ofString source).position error.position.offset ∧
        ofSource (String.ofList front) reader = .ok lexemes ∧
        scan 0 source.toList reader.read? = (lexemes, c :: rest) ∧
        reader.read? (c :: rest) = none ∧
        ((OpensString (c :: rest) ∧ error = .unterminatedString error.position) ∨
          ¬ OpensString (c :: rest) ∧ error = .unexpectedCharacter c error.position) := by
  rw [documented.ofSource_eq] at failed
  rcases ofSource_eq_error_iff.mp failed with ⟨lexemes, c, rest, scanned, same⟩
  have whole := scan_append 0 source.toList
  have alone := scan_flatMap_text 0 source.toList
  have unread := first?_left 0 source.toList
  rw [scanned] at whole alone unread
  simp only at whole alone unread
  have nothing : first? (c :: rest) = none := unread (List.cons_ne_nil c rest)
  rw [Reader.documented_standard.unreadable_reported nothing] at same
  generalize lexemes.flatMap Lexeme.text = front at same whole alone
  let position := (Source.Lines.ofString source).position (Source.byteLength front)
  have place : error.position = position := by
    rw [← same, position_unreadable]
  have offset : error.position.offset = Source.byteLength front := by
    rw [place]
    rfl
  simp only [documented.ofSource_eq, documented.read?_eq]
  refine ⟨front, c, rest, lexemes, ?_, ?_, ?_, ?_, ?_, scanned, nothing, ?_⟩
  · rw [offset]
    exact Source.slice?_eq_some_iff.mpr ⟨[], c :: rest, whole.symm, rfl, rfl⟩
  · rw [offset, ← whole]
    exact Source.textFrom?_append _ _
  · rw [offset, ← whole, Source.byteLength_append]
    exact Nat.lt_add_of_pos_right (Source.byteLength_pos (List.cons_ne_nil c rest))
  · rw [offset, place]
  · exact ofSource_eq_ok_iff.mpr (by rw [String.toList_ofList, alone])
  · rw [place, ← same, unreadable]
    by_cases opens : startsString (c :: rest) = true
    · exact Or.inl ⟨startsString_iff.mp opens, if_pos opens⟩
    · exact Or.inr ⟨fun begins => opens (startsString_iff.mpr begins), if_neg opens⟩

/-- The letters before the quote are no name here, since a character of a string follows; without
the rest of the source they are not even read.  The characters up to the line break are reported. -/
theorem ofSource_stops_marked :
    let source := "\u00e9=1e+rb'a\n$"
    let front := "\u00e9=1e+".toList
    let error : LexError := .unterminatedString ⟨6, 0, 5⟩
    Reader.standard.Documented ∧ Reader.standard.reported "rb'a\n$".toList = 4 ∧
      ofSource source .standard = .error error ∧
      Source.slice? source.toList 0 6 = some front ∧ OpensString "rb'a\n$".toList ∧
      Exists fun lexemes => ofSource (String.ofList front) .standard = .ok lexemes ∧
        scan 0 source.toList = (lexemes, "rb'a\n$".toList) := by
  intro source front error
  have documented := Reader.documented_standard
  have failed : ofSource source .standard = .error error := by decide +kernel
  rcases ofSource_stops documented failed with
    ⟨before, c, rest, lexemes, cut, left, -, -, alone, scanned, -, opens | ⟨-, other⟩⟩
  · have cut' : Source.slice? source.toList 0 6 = some front := by decide +kernel
    have left' : Source.textFrom? source.toList 6 = some "rb'a\n$".toList := by decide +kernel
    have reported : Reader.standard.reported "rb'a\n$".toList = 4 := by decide +kernel
    cases cut.symm.trans cut'
    have same := Option.some.inj (left.symm.trans left')
    rw [same] at opens scanned
    exact ⟨documented, reported, failed, cut', opens.1, lexemes, alone, scanned⟩
  · exact LexError.noConfusion other

end Lexeme
end Packrat
