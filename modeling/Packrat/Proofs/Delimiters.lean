import Mathlib.Order.Bounds.Basic
import Packrat.Proofs.Quotation
import Packrat.Proofs.Slices

namespace Packrat
namespace Lexeme

/-!
# The delimiter of a triple-quoted string

The text after an opening falls into units: a backslash with the character after it, or one other
character.  A triple-quoted string ends at the first boundary between units at which three quotes
follow.  So no escaped quote begins the delimiter, and in a longer run of quotes the first three do.

The program searches for the delimiter by offsets in bytes.  Such an offset is always one of a
boundary between units, hence of one between characters, where the text can be cut.
-/

open Source

variable {quote c : Char} {text rest front unit : List Char} {others : List (List Char)}
  {length count : Nat}

/-! ## Units -/

/-- The units of a text: a backslash with the character after it, if there is one, or one other
character. -/
def units : List Char -> List (List Char)
  | [] => []
  | '\\' :: c :: rest => ['\\', c] :: units rest
  | c :: rest => [c] :: units rest

/-- Behind some units, before the last one ends, the delimiter of a triple-quoted string follows. -/
def Delimits (quote : Char) (units : List (List Char)) (count : Nat) : Prop :=
  count < units.length ∧ [quote, quote, quote] <+: (units.drop count).flatten

/-- The first delimiter of a text follows behind some units, and some characters are all up to its
end. -/
structure EndsBehind (quote : Char) (text : List Char) (length count : Nat) : Prop where
  first : IsLeast {count | Delimits quote (units text) count} count
  length_le : length ≤ text.length
  consumed : text.take length = ((units text).take count).flatten ++ [quote, quote, quote]

theorem flatten_units (text : List Char) : (units text).flatten = text := by
  fun_induction units text with
  | case1 => rfl
  | case2 c rest inductionHypothesis | case3 c rest _ inductionHypothesis =>
    rw [List.flatten_cons, inductionHypothesis]
    rfl

/-- A character that escapes nothing is a unit. -/
theorem units_cons (notEscape : forall d others, c = '\\' -> rest = d :: others -> False) :
    units (c :: rest) = [c] :: units rest := by
  rw [units]
  rintro d others ⟨⟩ ⟨⟩
  exact notEscape _ _ rfl rfl

theorem delimits_zero_iff :
    Delimits quote (units text) 0 <-> [quote, quote, quote] <+: text := by
  rw [Delimits, List.drop_zero, flatten_units]
  refine and_iff_right_of_imp fun follows => List.length_pos_iff.mpr fun none => ?_
  have whole := flatten_units text
  rw [none] at whole
  cases whole
  cases List.prefix_nil.mp follows

theorem delimits_succ_iff :
    Delimits quote (unit :: others) (count + 1) <-> Delimits quote others count := by
  simp only [Delimits, List.length_cons, Nat.add_lt_add_iff_right, List.drop_succ_cons]

/-- A unit with no delimiter at its beginning comes before the first one. -/
theorem EndsBehind.unit_append (ends : EndsBehind quote rest length count)
    (splits : units (unit ++ rest) = unit :: units rest)
    (open_ : ¬ [quote, quote, quote] <+: unit ++ rest) :
    EndsBehind quote (unit ++ rest) (length + unit.length) (count + 1) := by
  have none_before := mt delimits_zero_iff.mp open_
  rw [splits] at none_before
  refine ⟨?_, ?_, ?_⟩
  · rw [splits]
    refine ⟨delimits_succ_iff.mpr ends.first.1, fun other delimits => ?_⟩
    cases other with
    | zero => exact absurd delimits none_before
    | succ other => exact Nat.succ_le_succ (ends.first.2 (delimits_succ_iff.mp delimits))
  · rw [List.length_append, Nat.add_comm length]
    exact Nat.add_le_add_left ends.length_le _
  · rw [Nat.add_comm length, List.take_length_add_append, ends.consumed, splits,
      List.take_succ_cons, List.flatten_cons, List.append_assoc]

theorem EndsBehind.length_eq {length' count' : Nat} (ends : EndsBehind quote text length count)
    (ends' : EndsBehind quote text length' count') : length = length' := by
  have same : count = count' := ends.first.unique ends'.first
  have consumed := ends.consumed
  rw [same, ← ends'.consumed] at consumed
  have lengths := congrArg List.length consumed
  rw [List.length_take_of_le ends.length_le, List.length_take_of_le ends'.length_le] at lengths
  exact lengths

/-! ## The first delimiter -/

/-- The search for the end asks whether the text goes on with the delimiter. -/
theorem closes_iff : (decide (c = quote) && rest.take 2 == [quote, quote]) = true <->
    [quote, quote, quote] <+: c :: rest := by
  rw [Bool.and_eq_true, decide_eq_true_eq, beq_iff_eq, List.cons_prefix_cons,
    List.prefix_iff_eq_take, eq_comm (a := quote), eq_comm (b := rest.take _)]
  rfl

theorem not_prefix_escape (notBackslash : quote ≠ '\\') (rest : List Char) :
    ¬ [quote, quote, quote] <+: '\\' :: rest :=
  fun follows => notBackslash (List.cons_prefix_cons.mp follows).1

theorem endsBehind_of_closing? (notBackslash : quote ≠ '\\')
    (closed : closing? quote text = some length) :
    Exists fun count => EndsBehind quote text length count := by
  fun_induction closing? quote text generalizing length with
  | case1 => cases closed
  | case2 c rest inductionHypothesis =>
    rcases Option.map_eq_some_iff.mp closed with ⟨further, found, rfl⟩
    rcases inductionHypothesis found with ⟨count, ends⟩
    have splits : units (['\\', c] ++ rest) = ['\\', c] :: units rest := rfl
    have later := ends.unit_append splits (not_prefix_escape notBackslash (c :: rest))
    exact ⟨count + 1, later⟩
  | case3 c rest notEscape closes =>
    cases closed
    have follows := closes_iff.mp closes
    refine ⟨0, ⟨delimits_zero_iff.mpr follows, fun other _ => Nat.zero_le other⟩,
      follows.length_le, ?_⟩
    exact (List.prefix_iff_eq_take.mp follows).symm
  | case4 c rest notEscape goesOn inductionHypothesis =>
    rcases Option.map_eq_some_iff.mp closed with ⟨further, found, rfl⟩
    rcases inductionHypothesis found with ⟨count, ends⟩
    have splits : units ([c] ++ rest) = [c] :: units rest := units_cons notEscape
    exact ⟨count + 1, ends.unit_append splits (mt closes_iff.mpr goesOn)⟩

/-- Where a delimiter follows behind some units, the search finds one. -/
theorem exists_closing?_of_delimits (notBackslash : quote ≠ '\\')
    (delimits : Delimits quote (units text) count) :
    Exists fun length => closing? quote text = some length := by
  fun_induction closing? quote text generalizing count with
  | case1 => exact absurd delimits.1 (Nat.not_lt_zero count)
  | case2 c rest inductionHypothesis =>
    cases count with
    | zero => exact absurd (delimits_zero_iff.mp delimits) (not_prefix_escape notBackslash _)
    | succ count =>
      rcases inductionHypothesis (delimits_succ_iff.mp delimits) with ⟨length, found⟩
      exact ⟨length + 2, Option.map_eq_some_iff.mpr ⟨length, found, rfl⟩⟩
  | case3 => exact ⟨3, rfl⟩
  | case4 c rest notEscape goesOn inductionHypothesis =>
    cases count with
    | zero => exact absurd (delimits_zero_iff.mp delimits) (mt closes_iff.mpr goesOn)
    | succ count =>
      rw [units_cons notEscape] at delimits
      rcases inductionHypothesis (delimits_succ_iff.mp delimits) with ⟨length, found⟩
      exact ⟨length + 1, Option.map_eq_some_iff.mpr ⟨length, found, rfl⟩⟩

/-- The search finds the first delimiter. -/
theorem closing?_eq_some_iff_endsBehind (notBackslash : quote ≠ '\\') :
    closing? quote text = some length <->
      Exists fun count => EndsBehind quote text length count := by
  refine ⟨endsBehind_of_closing? notBackslash, ?_⟩
  rintro ⟨count, ends⟩
  rcases exists_closing?_of_delimits notBackslash ends.first.1 with ⟨length', found⟩
  rcases endsBehind_of_closing? notBackslash found with ⟨count', ends'⟩
  rw [found, ends'.length_eq ends]

/-- The search finds something if there is a delimiter. -/
theorem exists_closing?_iff (notBackslash : quote ≠ '\\') :
    (Exists fun length => closing? quote text = some length) <->
      Exists fun count => Delimits quote (units text) count := by
  constructor
  · rintro ⟨length, found⟩
    rcases endsBehind_of_closing? notBackslash found with ⟨count, ends⟩
    exact ⟨count, ends.first.1⟩
  · rintro ⟨count, delimits⟩
    exact exists_closing?_of_delimits notBackslash delimits

/-! ## The search by offsets -/

/-- The search for a delimiter in a text from an offset on, and the offset behind the delimiter if
there is one.  At every offset the text is cut; if it cannot be cut there, the search fails. -/
def searchFrom (delimiter text : List Char) (offset : Nat) : Option (Option Nat) :=
  if offset < byteLength text then
    match textFrom? text offset with
    | none => none
    | some rest =>
      if delimiter.isPrefixOf rest then some (some (offset + byteLength delimiter))
      else
        match rest with
        | [] => some none
        | '\\' :: escaped :: _ => searchFrom delimiter text (offset + 1 + escaped.utf8Size)
        | c :: _ => searchFrom delimiter text (offset + c.utf8Size)
  else some none
termination_by byteLength text - offset
decreasing_by
  · have positive := escaped.utf8Size_pos
    omega
  · have positive := c.utf8Size_pos
    omega

/-- The end of a triple-quoted string behind its opening, whose last three bytes are the
delimiter. -/
def tripleQuoted? (opening text : List Char) : Option (Option Nat) := do
  let offset ← minus? (byteLength opening) 3
  let delimiter ← textFrom? opening offset
  searchFrom delimiter text 0

section

variable {delimiter : List Char}

theorem byteLength_lt_append (front : List Char) (c : Char) (rest : List Char) :
    byteLength front < byteLength (front ++ c :: rest) := by
  rw [byteLength_append, byteLength_cons]
  have positive := c.utf8Size_pos
  omega

theorem searchFrom_delimiter (follows : delimiter <+: c :: rest) :
    searchFrom delimiter (front ++ c :: rest) (byteLength front) =
      some (some (byteLength front + byteLength delimiter)) := by
  rw [searchFrom, if_pos (byteLength_lt_append front c rest), textFrom?_append]
  exact if_pos (List.isPrefixOf_iff_prefix.mpr follows)

theorem searchFrom_escape (open_ : ¬ delimiter <+: '\\' :: c :: rest) :
    searchFrom delimiter (front ++ '\\' :: c :: rest) (byteLength front) =
      searchFrom delimiter (front ++ ['\\', c] ++ rest) (byteLength (front ++ ['\\', c])) := by
  have size : byteLength (front ++ ['\\', c]) = byteLength front + 1 + c.utf8Size := by
    rw [byteLength_append, Nat.add_assoc]
    rfl
  rw [List.append_assoc, size, searchFrom, if_pos (byteLength_lt_append front _ _),
    textFrom?_append]
  exact if_neg (mt List.isPrefixOf_iff_prefix.mp open_)

theorem searchFrom_plain (open_ : ¬ delimiter <+: c :: rest)
    (notEscape : forall d others, c = '\\' -> rest = d :: others -> False) :
    searchFrom delimiter (front ++ c :: rest) (byteLength front) =
      searchFrom delimiter (front ++ [c] ++ rest) (byteLength (front ++ [c])) := by
  have size : byteLength (front ++ [c]) = byteLength front + c.utf8Size := by
    rw [byteLength_append]
    rfl
  rw [List.append_assoc, size, searchFrom, if_pos (byteLength_lt_append front _ _),
    textFrom?_append]
  refine (if_neg (mt List.isPrefixOf_iff_prefix.mp open_)).trans ?_
  split
  · contradiction
  · rename_i same
    cases same
    exact (notEscape _ _ rfl rfl).elim
  · rename_i same
    cases same
    rfl

end

theorem map_byteLength_unit (front unit rest : List Char) (found : Option Nat) :
    (found.map fun length => byteLength (front ++ unit) + byteLength (rest.take length)) =
      (found.map (· + unit.length)).map fun length =>
        byteLength front + byteLength ((unit ++ rest).take length) := by
  rw [Option.map_map]
  refine congrArg (Option.map · found) (funext fun length => ?_)
  rw [Function.comp_apply, Nat.add_comm length, List.take_length_add_append, byteLength_append,
    byteLength_append, Nat.add_assoc]

theorem ne_backslash_of_isQuote (known : isQuote quote = true) : quote ≠ '\\' := by
  rcases quote_cases known with rfl | rfl <;> decide

theorem byteLength_delimiter (known : isQuote quote = true) :
    byteLength [quote, quote, quote] = 3 := by
  rcases quote_cases known with rfl | rfl <;> rfl

/-- Behind any part of a text, the search by offsets finds what the search by characters finds. -/
theorem searchFrom_append (notBackslash : quote ≠ '\\') (front text : List Char) :
    searchFrom [quote, quote, quote] (front ++ text) (byteLength front) =
      some ((closing? quote text).map fun length =>
        byteLength front + byteLength (text.take length)) := by
  -- Each step moves a unit to the front, whose length the offset remains.
  fun_induction closing? quote text generalizing front with
  | case1 =>
    rw [List.append_nil, searchFrom, if_neg (Nat.lt_irrefl _)]
    rfl
  | case2 c rest inductionHypothesis =>
    rw [searchFrom_escape (not_prefix_escape notBackslash _), inductionHypothesis,
      map_byteLength_unit]
    rfl
  | case3 c rest notEscape closes =>
    have follows := closes_iff.mp closes
    have delimiter : (c :: rest).take 3 = [quote, quote, quote] :=
      (List.prefix_iff_eq_take.mp follows).symm
    rw [searchFrom_delimiter follows, Option.map_some, delimiter]
  | case4 c rest notEscape goesOn inductionHypothesis =>
    rw [searchFrom_plain (mt closes_iff.mpr goesOn) notEscape, inductionHypothesis,
      map_byteLength_unit]
    rfl

/-- Behind an opening the string is searched for the quotes at the end of the opening. -/
theorem tripleQuoted?_eq {opening : List Char}
    (opens : Shape.Accepts shapes (.opening quote) opening) (known : isQuote quote = true)
    (text : List Char) : tripleQuoted? opening text =
      some ((closing? quote text).map fun length => byteLength (text.take length)) := by
  rcases matches_tripleOpening (accepts_opening opens).2 with ⟨mark, -, rfl⟩
  have offset : minus? (byteLength (mark ++ [quote, quote, quote])) 3 = some (byteLength mark) := by
    rw [byteLength_append, byteLength_delimiter known, minus?, if_pos (Nat.le_add_left _ _),
      Nat.add_sub_cancel]
  have found := searchFrom_append (ne_backslash_of_isQuote known) [] text
  simp only [byteLength_nil, Nat.zero_add, List.nil_append] at found
  rw [tripleQuoted?, offset, Option.bind_eq_bind, Option.bind_some, textFrom?_append]
  exact found

/-- A triple-quoted string ends with the first delimiter after its opening, and nowhere else.  An
end is found if and only if a delimiter follows behind some units of the text, and then it is the
end of the first such delimiter.  The search by offsets always stops and finds the same end, and it
can cut the text at every offset where it does so. -/
theorem closing?_first_delimiter (known : isQuote quote = true) (text : List Char) :
    (units text).flatten = text ∧
    ((Exists fun length => closing? quote text = some length) <->
      Exists fun count => Delimits quote (units text) count) ∧
    (forall length, closing? quote text = some length <->
      Exists fun count => EndsBehind quote text length count) ∧
    forall opening, Shape.Accepts shapes (.opening quote) opening ->
      tripleQuoted? opening text =
        some ((closing? quote text).map fun length => byteLength (text.take length)) := by
  have notBackslash := ne_backslash_of_isQuote known
  exact ⟨flatten_units text, exists_closing?_iff notBackslash,
    fun length => closing?_eq_some_iff_endsBehind notBackslash,
    fun opening opens => tripleQuoted?_eq opens known text⟩

/-- An escaped character of two bytes, two quotes, an escaped quote and a run of four quotes, of
which the first three close the string.  If two quotes and a backslash at the end of the text stand
in their place, it is not closed. -/
theorem closing?_first_delimiter_escapes :
    let closed := "\\é''\\'a'''' x".toList
    let open_ := "\\é''\\'a''\\".toList
    isQuote '\'' = true ∧ Shape.Accepts shapes (.opening '\'') "Rb'''".toList ∧
      (Exists fun count => EndsBehind '\'' closed 10 count) ∧
      tripleQuoted? "Rb'''".toList closed = some (some 11) ∧
      (forall count, ¬ Delimits '\'' (units open_) count) ∧
      tripleQuoted? "Rb'''".toList open_ = some none := by
  intro closed open_
  have known : isQuote '\'' = true := rfl
  have opens : Shape.Accepts shapes (.opening '\'') "Rb'''".toList :=
    Shape.accepts_of_reading? (by decide)
  have found : closing? '\'' closed = some 10 := by decide
  have missing : closing? '\'' open_ = none := by decide
  rcases closing?_first_delimiter known closed with ⟨-, -, first, search⟩
  rcases closing?_first_delimiter known open_ with ⟨-, none_found, -, search'⟩
  refine ⟨known, opens, (first 10).mp found, ?_, fun count delimits => ?_, ?_⟩
  · rw [search _ opens, found]
    decide
  · rcases none_found.mpr ⟨count, delimits⟩ with ⟨length, some_found⟩
    rw [missing] at some_found
    cases some_found
  · rw [search' _ opens, missing]
    rfl

end Lexeme
end Packrat
