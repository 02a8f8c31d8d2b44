import Packrat.Lexeme.Quote
import Packrat.Proofs.Longest

namespace Packrat
namespace Lexeme

/-!
# Where triple-quoted strings end

The text of a triple-quoted string after its opening is given by a pattern: characters, a backslash
together with the one after it, and then three quotes.  The string ends with the shortest such
text, and that is what the search for its end finds.

The openings of triple-quoted strings are few.  After each of them only the opening itself is left
of all shapes, so that nothing competes with it.  In the same way a string mark is a beginning of
nothing but names, as long as no quote has been read.
-/

open Pattern

variable {quote c : Char} {text rest : List Char} {length : Nat}

/-! ## The end of a triple-quoted string -/

/-- A character of a triple-quoted string; a backslash takes the next one along. -/
def tripleElement : Pattern :=
  either (one fun c => c != '\\') (append (char '\\') (one fun _ => true))

def tripleQuote (quote : Char) : Pattern :=
  inOrder [char quote, char quote, char quote]

/-- A triple-quoted string without its opening. -/
def tripleRest (quote : Char) : Pattern :=
  append (many tripleElement) (tripleQuote quote)

/-- A triple-quoted string ends after some characters of a text: no fewer of them are the rest of
such a string. -/
structure Closes (quote : Char) (text : List Char) (length : Nat) : Prop where
  length_le : length ≤ text.length
  matched : (tripleRest quote).Matches (text.take length)
  first : forall fewer, fewer < length -> ¬ (tripleRest quote).Matches (text.take fewer)

theorem quote_cases (known : isQuote quote = true) : quote = '\'' ∨ quote = '"' := by
  rw [isQuote, Bool.or_eq_true, beq_iff_eq, beq_iff_eq] at known
  exact known

theorem matches_char_iff : (char c).Matches text <-> text = [c] := by
  simp only [char, matches_one_iff, beq_iff_eq, exists_eq_left]

theorem matches_oneOf_iff {allowed : String} :
    (oneOf allowed).Matches text <-> Exists fun c => c ∈ allowed.toList ∧ text = [c] := by
  simp only [oneOf, matches_one_iff, List.contains_iff_mem]

theorem matches_tripleQuote_iff :
    (tripleQuote quote).Matches text <-> text = [quote, quote, quote] := by
  simp only [tripleQuote, inOrder, matches_append_iff, matches_char_iff]
  constructor
  · rintro ⟨_, _, rfl, ⟨_, _, rfl, rfl, rfl⟩, rfl⟩
    rfl
  · rintro rfl
    exact ⟨[quote], [quote, quote], rfl, ⟨[quote], [quote], rfl, rfl, rfl⟩, rfl⟩

theorem not_matches_tripleRest_nil : ¬ (tripleRest quote).Matches [] := by
  rw [← acceptsEmpty_iff]
  exact Bool.false_ne_true

theorem length_of_matches_tripleRest (matched : (tripleRest quote).Matches text) :
    3 ≤ text.length := by
  rcases matches_append_iff.mp matched with ⟨elements, quotes, -, closing, rfl⟩
  rw [matches_tripleQuote_iff.mp closing, List.length_append]
  exact Nat.le_add_left _ _

/-- An ordinary character is an element, or it is a quote and closes the string with two more. -/
theorem matches_tripleRest_plain_iff (plain : c ≠ '\\') :
    (tripleRest quote).Matches (c :: text) <->
      (tripleRest quote).Matches text ∨ c :: text = [quote, quote, quote] := by
  have derivative : (tripleRest quote).after c =
      alternative (tripleRest quote) ((tripleQuote quote).after c) := by
    simp [tripleRest, tripleElement, char, after, join, alternative, acceptsEmpty, plain]
  rw [← matches_after, derivative, matches_alternative_iff, matches_after, matches_tripleQuote_iff]

theorem matches_tripleRest_escape_iff (notBackslash : quote ≠ '\\') :
    (tripleRest quote).Matches ('\\' :: text) <->
      Exists fun c => Exists fun rest => text = c :: rest ∧ (tripleRest quote).Matches rest := by
  have derivative : (tripleRest quote).after '\\' =
      append (append (one fun _ => true) (many tripleElement)) (tripleQuote quote) := by
    simp [tripleRest, tripleElement, tripleQuote, inOrder, char, after, join, alternative,
      acceptsEmpty, notBackslash.symm]
  rw [← matches_after, derivative]
  simp only [tripleRest, matches_append_iff, matches_one_iff]
  constructor
  · rintro ⟨_, last, ⟨_, middle, ⟨c, -, rfl⟩, elements, rfl⟩, quotes, rfl⟩
    exact ⟨c, middle ++ last, rfl, middle, last, elements, quotes, rfl⟩
  · rintro ⟨c, _, rfl, middle, last, elements, quotes, rfl⟩
    exact ⟨c :: middle, last, ⟨[c], middle, ⟨c, trivial, rfl⟩, elements, rfl⟩, quotes, rfl⟩

/-- What the search for the end finds is the rest of a triple-quoted string. -/
theorem closing?_matches {more : Nat} (notBackslash : quote ≠ '\\')
    (closed : closing? quote text = some more) :
    more ≤ text.length ∧ (tripleRest quote).Matches (text.take more) := by
  fun_induction closing? quote text generalizing more with
  | case1 => cases closed
  | case2 c rest inductionHypothesis =>
    rcases Option.map_eq_some_iff.mp closed with ⟨further, found, rfl⟩
    rcases inductionHypothesis found with ⟨inside, matched⟩
    exact ⟨Nat.add_le_add_right inside 2,
      (matches_tripleRest_escape_iff notBackslash).mpr ⟨c, _, rfl, matched⟩⟩
  | case3 c rest _ closes =>
    cases closed
    simp only [Bool.and_eq_true, decide_eq_true_eq, beq_iff_eq] at closes
    rcases closes with ⟨rfl, quotes⟩
    have enough : 2 ≤ rest.length := by
      have size := congrArg List.length quotes
      rw [List.length_take] at size
      simp only [List.length_cons, List.length_nil] at size
      omega
    refine ⟨Nat.succ_le_succ enough, ?_⟩
    rw [List.take_succ_cons, quotes]
    exact (matches_tripleRest_plain_iff notBackslash).mpr (Or.inr rfl)
  | case4 c rest notEscape _ inductionHypothesis =>
    rcases Option.map_eq_some_iff.mp closed with ⟨further, found, rfl⟩
    rcases inductionHypothesis found with ⟨inside, matched⟩
    -- A backslash with nothing after it closes nothing.
    have plain : c ≠ '\\' := by
      rintro rfl
      cases rest with
      | nil => cases found
      | cons head tail => exact notEscape head tail rfl rfl
    exact ⟨Nat.succ_le_succ inside, (matches_tripleRest_plain_iff plain).mpr (Or.inl matched)⟩

/-- Wherever the rest of a triple-quoted string ends, the search has found an end. -/
theorem closing?_le {more : Nat} (notBackslash : quote ≠ '\\')
    (matched : (tripleRest quote).Matches (text.take more)) :
    Exists fun found => closing? quote text = some found ∧ found ≤ more := by
  fun_induction closing? quote text generalizing more with
  | case1 =>
    rw [List.take_nil] at matched
    exact absurd matched not_matches_tripleRest_nil
  | case2 c rest inductionHypothesis =>
    cases more with
    | zero => exact absurd matched not_matches_tripleRest_nil
    | succ more =>
      rw [List.take_succ_cons, matches_tripleRest_escape_iff notBackslash] at matched
      rcases matched with ⟨c, tail, shape, matched⟩
      cases more with
      | zero => cases shape
      | succ more =>
        cases shape
        rcases inductionHypothesis matched with ⟨found, same, bound⟩
        exact ⟨found + 2, by rw [same]; rfl, Nat.add_le_add_right bound 2⟩
  | case3 c rest _ closes =>
    simp only [Bool.and_eq_true, decide_eq_true_eq, beq_iff_eq] at closes
    rcases closes with ⟨rfl, -⟩
    have long := length_of_matches_tripleRest matched
    rw [List.length_take] at long
    exact ⟨3, rfl, by omega⟩
  | case4 c rest notEscape goesOn inductionHypothesis =>
    cases more with
    | zero => exact absurd matched not_matches_tripleRest_nil
    | succ more =>
      rw [List.take_succ_cons] at matched
      by_cases plain : c = '\\'
      · subst plain
        rw [matches_tripleRest_escape_iff notBackslash] at matched
        rcases matched with ⟨c, tail, shape, -⟩
        cases rest with
        | nil => rw [List.take_nil] at shape; cases shape
        | cons head tail => exact absurd rfl (notEscape head tail rfl)
      · rcases (matches_tripleRest_plain_iff plain).mp matched with matched | quotes
        · rcases inductionHypothesis matched with ⟨found, same, bound⟩
          exact ⟨found + 1, by rw [same]; rfl, Nat.succ_le_succ bound⟩
        · rcases List.cons.inj quotes with ⟨rfl, quotes⟩
          have closes : rest.take 2 = [c, c] := by
            rw [← List.take_append_drop more rest, quotes]
            rfl
          simp [closes] at goesOn

theorem quote_ne_backslash (known : quote ∈ ['\'', '"']) : quote ≠ '\\' := by
  rintro rfl
  simp at known

/-- The search finds where a triple-quoted string ends. -/
theorem closing?_eq_some_iff (notBackslash : quote ≠ '\\') :
    closing? quote text = some length <-> Closes quote text length := by
  constructor
  · intro closed
    rcases closing?_matches notBackslash closed with ⟨inside, matched⟩
    refine ⟨inside, matched, fun fewer before again => ?_⟩
    rcases closing?_le notBackslash again with ⟨found, same, bound⟩
    cases closed.symm.trans same
    exact absurd before (Nat.not_lt_of_ge bound)
  · intro closes
    rcases closing?_le notBackslash closes.matched with ⟨found, same, bound⟩
    rcases Nat.lt_or_eq_of_le bound with before | rfl
    · exact absurd (closing?_matches notBackslash same).2 (closes.first found before)
    · exact same

theorem closing?_eq_none_iff (notBackslash : quote ≠ '\\') :
    closing? quote text = none <-> forall length, ¬ Closes quote text length := by
  constructor
  · intro missing length closes
    rw [(closing?_eq_some_iff notBackslash).mpr closes] at missing
    cases missing
  · intro none_closes
    cases found : closing? quote text with
    | none => rfl
    | some length =>
      exact absurd ((closing?_eq_some_iff notBackslash).mp found) (none_closes length)

/-! ## String marks and openings -/

/-- The string marks. -/
def stringMarks : List (List Char) :=
  let letters := "rRbBuUfF".toList.map fun c => [c]
  let raw := "rR".toList.flatMap fun r => "bBfF".toList.flatMap fun c => [[r, c], [c, r]]
  letters ++ raw

def isEmptyPattern : Pattern -> Bool
  | .empty => true
  | _ => false

theorem mem_stringMarks (matched : stringMark.Matches text) : text ∈ stringMarks := by
  simp only [stringMark, anyOf, matches_either_iff, matches_append_iff,
    matches_oneOf_iff] at matched
  rcases matched with ⟨c, letter, rfl⟩ | ⟨_, _, ⟨r, raw, rfl⟩, ⟨c, letter, rfl⟩, rfl⟩ |
    ⟨_, _, ⟨c, letter, rfl⟩, ⟨r, raw, rfl⟩, rfl⟩
  · exact List.mem_append_left _ (List.mem_map_of_mem letter)
  · refine List.mem_append_right _ (List.mem_flatMap.mpr ⟨r, raw, ?_⟩)
    exact List.mem_flatMap.mpr ⟨c, letter, List.mem_cons_self⟩
  · refine List.mem_append_right _ (List.mem_flatMap.mpr ⟨r, raw, ?_⟩)
    exact List.mem_flatMap.mpr ⟨c, letter, List.mem_cons_of_mem _ List.mem_cons_self⟩

theorem matches_tripleOpening (matched : (tripleOpening quote).Matches text) :
    Exists fun mark => mark ∈ [] :: stringMarks ∧ text = mark ++ [quote, quote, quote] := by
  rcases matches_append_iff.mp matched with ⟨mark, quotes, marks, closing, rfl⟩
  refine ⟨mark, ?_, by rw [matches_tripleQuote_iff.mp closing]⟩
  rcases matches_either_iff.mp marks with some | none
  · exact List.mem_cons_of_mem _ (mem_stringMarks some)
  · rw [matches_empty_iff.mp none]
    exact List.mem_cons_self

/-! ## What competes with a quotation -/

theorem eq_nil_of_isEmptyPattern {pattern : Pattern} (empty : isEmptyPattern pattern = true)
    (matched : pattern.Matches text) : text = [] := by
  cases pattern <;> cases empty
  exact matches_empty_iff.mp matched

private theorem leftAfter_opening :
    (([] :: stringMarks).all fun mark => ['\'', '"'].all fun quote =>
      (Shape.leftAfter shapes (mark ++ [quote, quote, quote])).all fun shape =>
        shape.reading = .opening quote && isEmptyPattern shape.pattern) = true := by
  decide

private theorem leftAfter_mark : forall mark, mark ∈ stringMarks ->
    forall size, size ∈ List.range (mark.length + 1) ->
      forall shape, shape ∈ Shape.leftAfter shapes (mark.take size) ->
        shape.pattern.acceptsEmpty = true -> shape.reading = .whole .name := by
  decide

private theorem acceptsEmpty_shapes : forall shape, shape ∈ shapes ->
    shape.pattern.acceptsEmpty = false := by
  decide

theorem not_accepts_shapes_nil {reading : Reading} : ¬ Shape.Accepts shapes reading [] := by
  rintro ⟨shape, member, -, matched⟩
  rw [← acceptsEmpty_iff, acceptsEmpty_shapes shape member] at matched
  cases matched

/-- Only the shapes of openings read an opening. -/
theorem accepts_opening (accepts : Shape.Accepts shapes (.opening quote) text) :
    quote ∈ ['\'', '"'] ∧ (tripleOpening quote).Matches text := by
  rcases accepts with ⟨shape, member, reads, matched⟩
  unfold shapes at member
  simp only [List.mem_append, List.mem_map, List.mem_cons, List.not_mem_nil, or_false] at member
  rcases member with (((others | ⟨_, -, rfl⟩) | strings) | ⟨_, -, rfl⟩) | brackets
  · rcases others with rfl | rfl | rfl | rfl | rfl <;> cases reads
  · cases reads
  · rcases strings with rfl | rfl | rfl | rfl <;> cases reads
    · exact ⟨List.mem_cons_self, matched⟩
    · exact ⟨List.mem_cons_of_mem _ List.mem_cons_self, matched⟩
  · cases reads
  · rcases brackets with rfl | rfl <;> cases reads

/-- After the opening of a triple-quoted string nothing else is read. -/
theorem accepts_opening_append {reading : Reading} {opening more : List Char}
    (opens : Shape.Accepts shapes (.opening quote) opening)
    (accepts : Shape.Accepts shapes reading (opening ++ more)) :
    reading = .opening quote ∧ more = [] := by
  rcases accepts_opening opens with ⟨known, matched⟩
  rcases matches_tripleOpening matched with ⟨mark, listed, rfl⟩
  rcases Shape.accepts_leftAfter_iff.mpr accepts with ⟨shape, left, rfl, matched⟩
  have computed := List.all_eq_true.mp leftAfter_opening mark listed
  have alone := List.all_eq_true.mp (List.all_eq_true.mp computed quote known) shape left
  rcases Bool.and_eq_true_iff.mp alone with ⟨reads, empty⟩
  exact ⟨of_decide_eq_true reads, eq_nil_of_isEmptyPattern empty matched⟩

/-- Every beginning of a string mark is read as a name or not at all. -/
theorem accepts_take_mark {reading : Reading} {mark : List Char} {size : Nat}
    (marks : stringMark.Matches mark) (inside : size ≤ mark.length)
    (accepts : Shape.Accepts shapes reading (mark.take size)) : reading = .whole .name := by
  rw [← List.append_nil (mark.take size)] at accepts
  rcases Shape.accepts_leftAfter_iff.mpr accepts with ⟨shape, left, rfl, matched⟩
  exact leftAfter_mark mark (mem_stringMarks marks) size
    (List.mem_range.mpr (Nat.lt_succ_of_le inside)) shape left (acceptsEmpty_iff.mpr matched)

end Lexeme
end Packrat
