import Packrat.Proofs.Quotation
import Packrat.Proofs.Tiling

namespace Packrat
namespace Lexeme

/-!
# Reading takes the longest lexeme

What a lexeme is follows from the languages of the shapes alone: a text in the language of a shape,
where the opening of a triple-quoted string goes on to its end.  A text is read from its beginning,
each time by a longest lexeme, and gets stuck where there is none or where a triple-quoted string
has no end.

Reading by derivatives does exactly this.  The one exception are marks of strings directly before a
quote where no string ends; sources without them are read as the languages say.
-/

/-! ## The longest lexeme of a text -/

/-- The first characters of a text are in the language of a shape with a reading. -/
def Fits (text : List Char) (reading : Reading) (length : Nat) : Prop :=
  length ≤ text.length ∧ Shape.Accepts shapes reading (text.take length)

/-- The first characters of a text are a lexeme: they are in a language of its kind, or they are an
opening and what a triple-quoted string has after it. -/
inductive Begins (text : List Char) : Kind -> Nat -> Prop
  | whole {kind length} : Fits text (.whole kind) length -> Begins text kind length
  | quoted {quote length more} : Fits text (.opening quote) length ->
      Closes quote (text.drop length) more -> Begins text .string (length + more)

/-- A longest lexeme at the beginning of a text.  Its length is determined, and its kind is one of
those that lexemes of this length can have. -/
structure Munches (text : List Char) (kind : Kind) (length : Nat) : Prop where
  begins : Begins text kind length
  longest : forall other more, Begins text other more -> more ≤ length

/-- A text that is not at its end and cannot be read on: nothing fits, or a triple-quoted string is
never closed. -/
def Stuck (text : List Char) : Prop :=
  text ≠ [] ∧ ((forall reading length, ¬ Fits text reading length) ∨
    Exists fun quote => Exists fun length => Fits text (.opening quote) length ∧
      forall more, ¬ Closes quote (text.drop length) more)

/-- A text that begins with a string mark directly before a quote, but not with a whole string. -/
def MarksNoString (text : List Char) : Prop :=
  (Exists fun mark => Exists fun quote => Exists fun body => text = mark ++ quote :: body ∧
    stringMark.Matches mark ∧ isQuote quote = true) ∧
    forall length, ¬ Begins text .string length

/-- Scanning a text whose first byte is at an offset takes a longest lexeme as often as it likes;
the text that is left then is what it has reached. -/
inductive Scans : Nat -> List Char -> List Lexeme -> List Char -> Prop
  | here {offset text} : Scans offset text [] text
  | next {offset text kind length lexemes rest} :
      ¬ Stuck text -> Munches text kind length ->
      Scans (offset + Source.byteLength (text.take length)) (text.drop length) lexemes rest ->
      Scans offset text (⟨kind, text.take length, offset⟩ :: lexemes) rest

variable {text rest : List Char} {kind : Kind} {reading : Reading} {quote : Char}
  {length offset : Nat} {lexemes : List Lexeme}

/-! ## Openings -/

/-- When an opening fits, it is what fits longest. -/
theorem eq_opening_of_longest {more : Nat} (longest : Shape.IsLongest shapes text reading length)
    (fits : Fits text (.opening quote) more) : reading = .opening quote ∧ length = more := by
  have inside : more ≤ length := by
    rcases Nat.lt_or_ge length more with beyond | inside
    · exact absurd fits.2 (longest.longest _ more beyond fits.1)
    · exact inside
  have parts : text.take length = text.take more ++ (text.drop more).take (length - more) := by
    rw [← List.take_add, Nat.add_sub_cancel' inside]
  have accepted := longest.accepted
  rw [parts] at accepted
  rcases accepts_opening_append fits.2 accepted with ⟨reads, ends⟩
  refine ⟨reads, ?_⟩
  have size := congrArg List.length ends
  rw [List.length_take, List.length_drop, List.length_nil] at size
  have := longest.length_le
  omega

theorem fits_of_longest (longest : Shape.IsLongest shapes text reading length) :
    Fits text reading length :=
  ⟨longest.length_le, longest.accepted⟩

theorem le_of_longest {other : Reading} {more : Nat}
    (longest : Shape.IsLongest shapes text reading length) (fits : Fits text other more) :
    more ≤ length := by
  rcases Nat.lt_or_ge length more with beyond | inside
  · exact absurd fits.2 (longest.longest other more beyond fits.1)
  · exact inside

/-- Where a whole lexeme fits longest, it is the longest lexeme and reading is not stuck. -/
theorem munches_whole (longest : Shape.IsLongest shapes text (.whole kind) length) :
    ¬ Stuck text ∧ Munches text kind length := by
  have fits := fits_of_longest longest
  refine ⟨?_, ⟨.whole fits, fun other more begins => ?_⟩⟩
  · rintro ⟨-, nothing | ⟨quote, more, opens, -⟩⟩
    · exact nothing _ _ fits
    · cases (eq_opening_of_longest longest opens).1
  · cases begins with
    | whole fits' => exact le_of_longest longest fits'
    | quoted opens => cases (eq_opening_of_longest longest opens).1

/-- Where an opening fits longest, the string that it opens is the longest lexeme. -/
theorem munches_quoted {more : Nat}
    (longest : Shape.IsLongest shapes text (.opening quote) length)
    (closes : Closes quote (text.drop length) more) :
    ¬ Stuck text ∧ Munches text .string (length + more) := by
  have fits := fits_of_longest longest
  refine ⟨?_, ⟨.quoted fits closes, fun other further begins => ?_⟩⟩
  · rintro ⟨-, nothing | ⟨other, further, opens, never⟩⟩
    · exact nothing _ _ fits
    · rcases eq_opening_of_longest longest opens with ⟨same, rfl⟩
      cases same
      exact never more closes
  · cases begins with
    | whole fits' => exact Nat.le_add_right_of_le (le_of_longest longest fits')
    | @quoted other size end_ opens closes' =>
      rcases eq_opening_of_longest longest opens with ⟨same, rfl⟩
      cases same
      rcases Nat.lt_or_ge more end_ with before | bound
      · exact absurd closes.matched (closes'.first more before)
      · exact Nat.add_le_add_left bound length

/-- A name that is a string mark before a quote marks no string when it is what fits longest. -/
theorem marksNoString_of_longest {c : Char} {body : List Char}
    (longest : Shape.IsLongest shapes text (.whole .name) length)
    (found : text.drop length = c :: body) (quotes : isQuote c = true)
    (marks : isStringMark (text.take length) = true) : MarksNoString text := by
  have mark : stringMark.Matches (text.take length) := Pattern.accepts_iff.mp marks
  have nothing_else : forall other more, Fits text other more -> other = .whole .name := by
    intro other more fits
    have inside := le_of_longest longest fits
    have part : text.take more = (text.take length).take more := by
      rw [List.take_take, Nat.min_eq_left inside]
    have accepted := fits.2
    rw [part] at accepted
    refine accepts_take_mark mark ?_ accepted
    rw [List.length_take]
    exact Nat.le_min.mpr ⟨inside, fits.1⟩
  refine ⟨⟨text.take length, c, body, ?_, mark, quotes⟩, fun more begins => ?_⟩
  · rw [← found, List.take_append_drop]
  · cases begins with
    | whole fits => cases nothing_else _ _ fits
    | quoted opens => cases nothing_else _ _ opens

/-! ## The first lexeme -/

theorem quote_of_longest (longest : Shape.IsLongest shapes text (.opening quote) length) :
    quote ≠ '\\' :=
  quote_ne_backslash (accepts_opening longest.accepted).1

/-- The first lexeme of a text is the longest one, unless the text is stuck. -/
theorem first?_spec (nonempty : text ≠ []) (unbroken : ¬ MarksNoString text) :
    match first? text with
    | some (kind, length) => ¬ Stuck text ∧ Munches text kind length
    | none => Stuck text := by
  have spec := Shape.longest?_spec shapes text
  unfold first?
  cases found : Shape.longest? shapes text with
  | none =>
    rw [found] at spec
    exact ⟨nonempty, Or.inl fun reading length fits => spec reading length fits.1 fits.2⟩
  | some answer =>
    rcases answer with ⟨kind | quote, length⟩
    · rw [found] at spec
      cases kind with
      | name =>
        cases after : text.drop length with
        | nil =>
          simp only [after]
          exact munches_whole spec
        | cons c body =>
          have unmarked : ¬ (isQuote c && isStringMark (text.take length)) = true := by
            intro both
            rcases Bool.and_eq_true_iff.mp both with ⟨quotes, marks⟩
            exact unbroken (marksNoString_of_longest spec after quotes marks)
          simp only [after, if_neg unmarked]
          exact munches_whole spec
      | _ => exact munches_whole spec
    · rw [found] at spec
      have notBackslash := quote_of_longest spec
      cases closed : closing? quote (text.drop length) with
      | none =>
        simp only [closed, Option.map_none]
        refine ⟨nonempty, Or.inr ⟨quote, length, fits_of_longest spec, ?_⟩⟩
        exact (closing?_eq_none_iff notBackslash).mp closed
      | some more =>
        simp only [closed, Option.map_some]
        exact munches_quoted spec ((closing?_eq_some_iff notBackslash).mp closed)

/-! ## Scanning -/

theorem Begins.length_pos (begins : Begins text kind length) : 0 < length := by
  have positive : forall reading size, Fits text reading size -> 0 < size := by
    intro reading size fits
    rcases Nat.eq_zero_or_pos size with rfl | positive
    · exact absurd fits.2 not_accepts_shapes_nil
    · exact positive
  cases begins with
  | whole fits => exact positive _ _ fits
  | quoted opens => exact Nat.add_pos_left (positive _ _ opens) _

theorem Begins.length_le (begins : Begins text kind length) : length ≤ text.length := by
  cases begins with
  | whole fits => exact fits.1
  | quoted opens closes =>
    have inside := closes.length_le
    rw [List.length_drop] at inside
    have := opens.1
    omega

theorem Munches.length_unique {other : Kind} {more : Nat} (munches : Munches text kind length)
    (again : Munches text other more) : length = more :=
  Nat.le_antisymm (again.longest _ _ munches.begins) (munches.longest _ _ again.begins)

theorem not_munches_nil : ¬ Munches [] kind length := by
  intro munches
  exact absurd munches.begins.length_pos (Nat.not_lt_of_ge munches.begins.length_le)

theorem Scans.not_stuck {others : List Lexeme} (ends : Scans offset text lexemes [])
    (scans : Scans offset text others rest) : ¬ Stuck rest := by
  induction scans generalizing lexemes with
  | here =>
    cases ends with
    | here => exact fun stuck => stuck.1 rfl
    | next free _ _ => exact free
  | next _ munches _ inductionHypothesis =>
    cases ends with
    | here => exact absurd munches not_munches_nil
    | next _ again further =>
      cases munches.length_unique again
      exact inductionHypothesis further

/-- What is read is reached by scanning, and what is left is the end or cannot be read on. -/
theorem scan_scans (offset : Nat) (text : List Char)
    (unbroken : forall lexemes rest, Scans offset text lexemes rest -> ¬ MarksNoString rest) :
    Scans offset text (scan offset text).1 (scan offset text).2 ∧
      ((scan offset text).2 = [] ∨ Stuck (scan offset text).2) := by
  fun_induction scan offset text with
  | case1 => exact ⟨.here, Or.inl rfl⟩
  | case2 offset c rest kind length found lexeme lexemes left again inductionHypothesis =>
    have spec := first?_spec (List.cons_ne_nil c rest) (unbroken _ _ .here)
    rw [found] at spec
    rcases spec with ⟨free, munches⟩
    rw [again] at inductionHypothesis
    rcases inductionHypothesis fun _ _ further => unbroken _ _ (.next free munches further) with
      ⟨scans, reached⟩
    exact ⟨.next free munches scans, reached⟩
  | case3 offset c rest nothing =>
    have spec := first?_spec (List.cons_ne_nil c rest) (unbroken _ _ .here)
    refine ⟨.here, Or.inr ?_⟩
    cases found : first? (c :: rest) with
    | none =>
      rw [found] at spec
      exact spec
    | some answer =>
      rcases answer with ⟨kind, _ | length⟩
      · rw [found] at spec
        exact absurd spec.2.begins.length_pos (Nat.lt_irrefl 0)
      · exact absurd found (nothing kind length)

/-- Reading is maximal munch.  Where no string mark stands before a quote without a string, a source
is read exactly when scanning never gets stuck.  Its lexemes then are the longest ones, none of them
is empty, and they cover the source without gaps.  Otherwise the error is where scanning got
stuck. -/
theorem ofSource_maximal_munch (source : String)
    (unbroken : forall lexemes text, Scans 0 source.toList lexemes text -> ¬ MarksNoString text) :
    ((Exists fun lexemes => ofSource source = .ok lexemes) <->
      forall lexemes text, Scans 0 source.toList lexemes text -> ¬ Stuck text) ∧
    match ofSource source with
    | .ok lexemes => Scans 0 source.toList lexemes [] ∧
        lexemes.flatMap Lexeme.text = source.toList ∧
        Tiles 0 lexemes (Source.byteLength source.toList)
    | .error error => Exists fun lexemes => Exists fun text =>
        Scans 0 source.toList lexemes text ∧ Stuck text ∧ error.position =
          (Source.Lines.ofString source).position
            (Source.byteLength (lexemes.flatMap Lexeme.text)) := by
  rcases scan_scans 0 source.toList unbroken with ⟨scans, reached⟩
  cases read : ofSource source with
  | ok lexemes =>
    have whole := ofSource_eq_ok_iff.mp read
    rw [whole] at scans
    refine ⟨⟨fun _ _ _ further => scans.not_stuck further, fun _ => ⟨lexemes, rfl⟩⟩, scans, ?_⟩
    exact tiles_of_ofSource read
  | error error =>
    rcases ofSource_eq_error_iff.mp read with ⟨lexemes, c, rest, left, rfl⟩
    rw [left] at scans reached
    have stuck : Stuck (c :: rest) := reached.resolve_left (List.cons_ne_nil c rest)
    refine ⟨⟨fun ⟨_, impossible⟩ => ?_, fun free => absurd stuck (free _ _ scans)⟩,
      lexemes, c :: rest, scans, stuck, position_unreadable ..⟩
    cases impossible

theorem Scans.suffix (scans : Scans offset text lexemes rest) : rest <:+ text := by
  induction scans with
  | here => exact List.suffix_rfl
  | @next _ text _ length _ _ _ _ _ inductionHypothesis =>
    exact inductionHypothesis.trans (List.drop_suffix length text)

/-- The string marks with a quote after them. -/
def markedQuotes : List (List Char) :=
  stringMarks.flatMap fun mark => [mark ++ ['\''], mark ++ ['"']]

theorem MarksNoString.prefixed (marks : MarksNoString text) :
    Exists fun marked => marked ∈ markedQuotes ∧ marked <+: text := by
  rcases marks with ⟨⟨mark, quote, body, rfl, matched, quotes⟩, -⟩
  refine ⟨mark ++ [quote], List.mem_flatMap.mpr ⟨mark, mem_stringMarks matched, ?_⟩, body, by simp⟩
  rcases quote_cases quotes with rfl | rfl
  · exact List.mem_cons_self
  · exact List.mem_cons_of_mem _ List.mem_cons_self

/-- A number that a sign would go on with if digits followed, and two strings. -/
theorem ofSource_maximal_munch_fallback :
    let source := "1e+'a'''"
    let lexemes : List Lexeme := [⟨.number, ['1'], 0⟩, ⟨.name, ['e'], 1⟩, ⟨.operator, ['+'], 2⟩,
      ⟨.string, ['\'', 'a', '\''], 3⟩, ⟨.string, ['\'', '\''], 6⟩]
    (forall lexemes text, Scans 0 source.toList lexemes text -> ¬ MarksNoString text) ∧
      ofSource source = .ok lexemes ∧ Scans 0 source.toList lexemes [] := by
  intro source lexemes
  have unmarked : forall size, size < source.toList.length + 1 ->
      forall marked, marked ∈ markedQuotes -> ¬ marked <+: source.toList.drop size := by
    decide +kernel
  have unbroken : forall lexemes text, Scans 0 source.toList lexemes text ->
      ¬ MarksNoString text := by
    intro reached text scans marks
    rcases marks.prefixed with ⟨marked, listed, begins⟩
    rw [List.suffix_iff_eq_drop.mp scans.suffix] at begins
    exact unmarked _ (Nat.lt_succ_of_le (Nat.sub_le _ _)) marked listed begins
  have read : ofSource source = .ok lexemes := ofSource_eq_ok_iff.mpr (by decide +kernel)
  have munched := (ofSource_maximal_munch source unbroken).2
  rw [read] at munched
  exact ⟨unbroken, read, munched.1⟩

end Lexeme
end Packrat
