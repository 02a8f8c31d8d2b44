import Mathlib.Data.List.Basic
import Packrat.Proofs.Joining

namespace Packrat

/-!
# Lexemes of a text with carriage returns

A text in which every line feed has a carriage return before it is read as the text without them:
its lexemes are the same, with carriage returns of their own.

Shapes that have a line feed in them are few: line breaks, line continuations and short strings,
where a backslash stands before it.  Each of them has the pair wherever it has the line feed.  None
is longest between the two characters of the pair, for what could end there could end behind the
pair as well.
-/

namespace Source

def withReturn (c : Char) : List Char :=
  if c = '\n' then ['\r', '\n'] else [c]

/-- A text with a carriage return before every line feed. -/
def withReturns (text : List Char) : List Char :=
  text.flatMap withReturn

variable {text first rest : List Char} {c : Char}

@[simp] theorem withReturns_nil : withReturns [] = [] :=
  rfl

theorem withReturns_feed (rest : List Char) :
    withReturns ('\n' :: rest) = '\r' :: '\n' :: withReturns rest :=
  rfl

theorem withReturns_cons (other : c ≠ '\n') (rest : List Char) :
    withReturns (c :: rest) = c :: withReturns rest := by
  rw [withReturns, List.flatMap_cons, withReturn, if_neg other]
  rfl

@[simp] theorem withReturns_append (first rest : List Char) :
    withReturns (first ++ rest) = withReturns first ++ withReturns rest :=
  List.flatMap_append

theorem withReturns_eq_self (plain : '\n' ∉ text) : withReturns text = text := by
  induction text with
  | nil => rfl
  | cons c rest inductionHypothesis =>
    rw [List.mem_cons, not_or] at plain
    rw [withReturns_cons (Ne.symm plain.1), inductionHypothesis plain.2]

theorem feed_mem_withReturns (member : '\n' ∈ text) : '\n' ∈ withReturns text :=
  List.mem_flatMap.mpr ⟨'\n', member, by decide⟩

theorem withReturns_eq_nil_iff : withReturns text = [] <-> text = [] := by
  cases text with
  | nil => simp
  | cons c rest =>
    by_cases feed : c = '\n'
    · subst feed
      simp [withReturns_feed]
    · simp [withReturns_cons feed]

theorem withReturns_cons_cases (c : Char) (rest : List Char) :
    (c = '\n' ∧ withReturns (c :: rest) = '\r' :: '\n' :: withReturns rest) ∨
      (c ≠ '\n' ∧ withReturns (c :: rest) = c :: withReturns rest) := by
  by_cases feed : c = '\n'
  · subst feed
    exact Or.inl ⟨rfl, rfl⟩
  · exact Or.inr ⟨feed, withReturns_cons feed rest⟩

theorem withReturns_ne_feed : withReturns text ≠ '\n' :: rest := by
  cases text with
  | nil => nofun
  | cons c others =>
    rcases withReturns_cons_cases c others with ⟨-, same⟩ | ⟨other, same⟩
    · rw [same]
      simp
    · rw [same]
      exact fun impossible => other (List.cons.inj impossible).1

/-- Behind a carriage return is its line feed. -/
theorem of_withReturns_return (plain : '\r' ∉ text)
    (begins : withReturns text = '\r' :: rest) :
    Exists fun others => text = '\n' :: others ∧ rest = '\n' :: withReturns others := by
  cases text with
  | nil => cases begins
  | cons c others =>
    rcases withReturns_cons_cases c others with ⟨rfl, same⟩ | ⟨-, same⟩
    · exact ⟨others, rfl, (List.cons.inj (begins.symm.trans same)).2⟩
    · rw [same] at begins
      exact absurd ((List.cons.inj begins).1 ▸ List.mem_cons_self) plain

/-- Any other first character is the first one without carriage returns as well. -/
theorem of_withReturns_cons (notReturn : c ≠ '\r') (begins : withReturns text = c :: rest) :
    Exists fun others => text = c :: others ∧ c ≠ '\n' ∧ rest = withReturns others := by
  cases text with
  | nil => cases begins
  | cons d others =>
    rcases withReturns_cons_cases d others with ⟨rfl, same⟩ | ⟨notFeed, same⟩
    · rw [same] at begins
      exact absurd (List.cons.inj begins).1.symm notReturn
    · rw [same] at begins
      rcases List.cons.inj begins with ⟨rfl, further⟩
      exact ⟨others, rfl, notFeed, further.symm⟩

/-! ## Beginnings -/

/-- A beginning of a text with carriage returns is one with all of them, or it ends between a
carriage return and its line feed. -/
theorem split_withReturns {front back : List Char} (split : withReturns text = front ++ back) :
    Exists fun first => Exists fun rest => text = first ++ rest ∧
      (front = withReturns first ∨
        front = withReturns first ++ ['\r'] ∧ Exists fun others => rest = '\n' :: others) := by
  induction text generalizing front with
  | nil => exact ⟨[], [], rfl, Or.inl (List.append_eq_nil_iff.mp split.symm).1⟩
  | cons c others inductionHypothesis =>
    cases front with
    | nil => exact ⟨[], c :: others, rfl, Or.inl rfl⟩
    | cons d front =>
      rcases withReturns_cons_cases c others with ⟨rfl, same⟩ | ⟨other, same⟩
      · rw [same, List.cons_append, List.cons.injEq] at split
        rcases split with ⟨rfl, split⟩
        cases front with
        | nil => exact ⟨[], _, rfl, Or.inr ⟨rfl, others, rfl⟩⟩
        | cons e front =>
          rw [List.cons_append, List.cons.injEq] at split
          rcases split with ⟨rfl, split⟩
          rcases inductionHypothesis split with ⟨first, rest, rfl, rfl | ⟨rfl, later⟩⟩
          · exact ⟨'\n' :: first, rest, rfl, Or.inl rfl⟩
          · exact ⟨'\n' :: first, rest, rfl, Or.inr ⟨rfl, later⟩⟩
      · rw [same, List.cons_append, List.cons.injEq] at split
        rcases split with ⟨rfl, split⟩
        have front_eq := withReturns_cons other
        rcases inductionHypothesis split with ⟨first, rest, rfl, rfl | ⟨rfl, later⟩⟩
        · exact ⟨c :: first, rest, rfl, Or.inl (front_eq first).symm⟩
        · exact ⟨c :: first, rest, rfl, Or.inr ⟨by rw [front_eq]; rfl, later⟩⟩

/-- The length of a beginning with its carriage returns. -/
def lengthWithReturns (text : List Char) (length : Nat) : Nat :=
  (withReturns (text.take length)).length

theorem withReturns_take_drop (text : List Char) (length : Nat) :
    withReturns text = withReturns (text.take length) ++ withReturns (text.drop length) := by
  rw [← withReturns_append, List.take_append_drop]

theorem take_lengthWithReturns (text : List Char) (length : Nat) :
    (withReturns text).take (lengthWithReturns text length) = withReturns (text.take length) := by
  rw [withReturns_take_drop text length]
  exact List.take_left

theorem drop_lengthWithReturns (text : List Char) (length : Nat) :
    (withReturns text).drop (lengthWithReturns text length) = withReturns (text.drop length) := by
  rw [withReturns_take_drop text length]
  exact List.drop_left

theorem lengthWithReturns_le (text : List Char) (length : Nat) :
    lengthWithReturns text length ≤ (withReturns text).length := by
  rw [withReturns_take_drop text length, List.length_append]
  exact Nat.le_add_right _ _

theorem lengthWithReturns_add (text : List Char) (length more : Nat) :
    lengthWithReturns text (length + more) =
      lengthWithReturns text length + lengthWithReturns (text.drop length) more := by
  rw [lengthWithReturns, List.take_add, withReturns_append, List.length_append]
  rfl

theorem lengthWithReturns_succ (c : Char) (rest : List Char) (length : Nat) :
    lengthWithReturns (c :: rest) (length + 1) =
      (withReturn c).length + lengthWithReturns rest length := by
  rw [lengthWithReturns, List.take_succ_cons, withReturns, List.flatMap_cons, List.length_append]
  rfl

theorem length_withReturn (other : c ≠ '\n') : (withReturn c).length = 1 := by
  rw [withReturn, if_neg other]
  rfl

theorem lengthWithReturns_mono (text : List Char) {length more : Nat} (within : length ≤ more) :
    lengthWithReturns text length ≤ lengthWithReturns text more := by
  rcases Nat.exists_eq_add_of_le within with ⟨further, rfl⟩
  rw [lengthWithReturns_add]
  exact Nat.le_add_right _ _

/-- The beginnings of a text with carriage returns by those of the text. -/
theorem take_withReturns (text : List Char) {size : Nat}
    (inside : size ≤ (withReturns text).length) :
    Exists fun length => length ≤ text.length ∧
      ((size = lengthWithReturns text length ∧
          (withReturns text).take size = withReturns (text.take length)) ∨
        (length < text.length ∧ size + 1 = lengthWithReturns text (length + 1) ∧
          (withReturns text).take size = withReturns (text.take length) ++ ['\r'] ∧
          text.take (length + 1) = text.take length ++ ['\n'])) := by
  have split := (List.take_append_drop size (withReturns text)).symm
  have sized : ((withReturns text).take size).length = size :=
    (List.length_take ..).trans (Nat.min_eq_left inside)
  rcases split_withReturns split with ⟨first, rest, rfl, whole | ⟨between, others, rfl⟩⟩
  · refine ⟨first.length, by simp, Or.inl ⟨?_, ?_⟩⟩
    · rw [lengthWithReturns, List.take_left, ← whole, sized]
    · rw [List.take_left, whole]
  · have more : (first ++ '\n' :: others).take (first.length + 1) = first ++ ['\n'] :=
      List.take_length_add_append 1
    refine ⟨first.length, by simp, Or.inr ⟨by simp, ?_, ?_, ?_⟩⟩
    · have size_eq := congrArg List.length between
      rw [sized, List.length_append, List.length_singleton] at size_eq
      rw [lengthWithReturns, more, withReturns_append, List.length_append, size_eq]
      rfl
    · rw [List.take_left, between]
    · rw [more, List.take_left]

/-- A test that fails for the characters of the pair divides both texts alike. -/
theorem span_withReturns {test : Char -> Bool} (feed : test '\n' = false)
    (return_ : test '\r' = false) (text : List Char) :
    (withReturns text).takeWhile test = text.takeWhile test ∧
      (withReturns text).dropWhile test = withReturns (text.dropWhile test) := by
  induction text with
  | nil => exact ⟨rfl, rfl⟩
  | cons c rest inductionHypothesis =>
    rcases withReturns_cons_cases c rest with ⟨rfl, same⟩ | ⟨other, same⟩
    · simp [same, feed, return_]
    · rw [same, List.dropWhile_cons, List.dropWhile_cons, List.takeWhile_cons,
        List.takeWhile_cons, inductionHypothesis.1, inductionHypothesis.2]
      cases test c with
      | true => exact ⟨rfl, rfl⟩
      | false => exact ⟨rfl, same.symm⟩

/-- Where a text with carriage returns begins without any, the text begins alike. -/
theorem of_withReturns_append {front : List Char} (noReturn : '\r' ∉ front)
    (begins : withReturns text = front ++ rest) :
    Exists fun others => text = front ++ others ∧ rest = withReturns others := by
  induction front generalizing text with
  | nil => exact ⟨text, rfl, begins.symm⟩
  | cons c front inductionHypothesis =>
    rw [List.mem_cons, not_or] at noReturn
    rcases of_withReturns_cons (Ne.symm noReturn.1) begins with ⟨others, rfl, -, further⟩
    rcases inductionHypothesis noReturn.2 further.symm with ⟨last, rfl, same⟩
    exact ⟨last, rfl, same⟩

end Source

namespace Lexeme

open Pattern Source

variable {text rest elements : List Char} {quote c : Char} {kind : Kind} {pattern : Pattern}

/-! ## Patterns with line feeds -/

/-- A pattern without line feeds does not see carriage returns before them. -/
theorem matches_withReturns_of_avoids (avoids : pattern.avoids '\n' = true) :
    pattern.Matches (withReturns text) <-> pattern.Matches text := by
  constructor
  · intro matched
    have plain : '\n' ∉ text := fun member =>
      not_mem_of_avoids matched avoids (feed_mem_withReturns member)
    rw [withReturns_eq_self plain] at matched
    exact matched
  · intro matched
    rw [withReturns_eq_self (not_mem_of_avoids matched avoids)]
    exact matched

theorem matches_lineBreak_withReturns (plain : '\r' ∉ text) :
    lineBreak.Matches (withReturns text) <-> lineBreak.Matches text := by
  rw [matches_lineBreak_iff, matches_lineBreak_iff]
  constructor
  · rintro (same | same | same)
    · rcases of_withReturns_return plain same with ⟨others, rfl, further⟩
      rw [withReturns_eq_nil_iff.mp (List.cons.inj further).2.symm]
      exact Or.inr (Or.inl rfl)
    · exact absurd same withReturns_ne_feed
    · rcases of_withReturns_return plain same with ⟨others, -, impossible⟩
      cases impossible
  · rintro (rfl | rfl | rfl)
    · exact absurd List.mem_cons_self plain
    · exact Or.inl rfl
    · exact absurd List.mem_cons_self plain

theorem matches_lineContinuation_iff :
    (append (char '\\') lineBreak).Matches text <->
      Exists fun rest => text = '\\' :: rest ∧ lineBreak.Matches rest := by
  rw [matches_append_iff]
  constructor
  · rintro ⟨first, rest, backslash, breaks, rfl⟩
    rw [matches_char_iff.mp backslash]
    exact ⟨rest, rfl, breaks⟩
  · rintro ⟨rest, rfl, breaks⟩
    exact ⟨['\\'], rest, matches_char_iff.mpr rfl, breaks, rfl⟩

theorem matches_lineContinuation_withReturns (plain : '\r' ∉ text) :
    (append (char '\\') lineBreak).Matches (withReturns text) <->
      (append (char '\\') lineBreak).Matches text := by
  rw [matches_lineContinuation_iff, matches_lineContinuation_iff]
  constructor
  · rintro ⟨rest, same, breaks⟩
    rcases of_withReturns_cons (by decide) same with ⟨others, rfl, -, rfl⟩
    rw [List.mem_cons, not_or] at plain
    exact ⟨others, rfl, (matches_lineBreak_withReturns plain.2).mp breaks⟩
  · rintro ⟨rest, rfl, breaks⟩
    rw [List.mem_cons, not_or] at plain
    exact ⟨withReturns rest, withReturns_cons (by decide) rest,
      (matches_lineBreak_withReturns plain.2).mpr breaks⟩

/-! ## Strings -/

theorem ne_lineBreak_of_isQuote (known : isQuote quote = true) : quote ≠ '\n' ∧ quote ≠ '\r' := by
  rcases quote_cases known with rfl | rfl <;> decide

theorem matches_escape (notReturn : c ≠ '\r') : (stringElement quote).Matches ['\\', c] := by
  have allowed : (noneOf "\r").Matches [c] := by
    refine matches_one_iff.mpr ⟨c, ?_, rfl⟩
    simpa using notReturn
  exact .second (.append (matches_char_iff.mpr rfl) (.second (.first allowed)))

theorem matches_escapedBreak : (stringElement quote).Matches ['\\', '\r', '\n'] := by
  have pair : (literal "\r\n").Matches ['\r', '\n'] := matches_chars_iff.mpr rfl
  exact .second (.append (matches_char_iff.mpr rfl) (.first pair))

/-- The elements of a string are elements with carriage returns too. -/
theorem elements_withReturns (plain : '\r' ∉ elements)
    (matched : (many (stringElement quote)).Matches elements) :
    (many (stringElement quote)).Matches (withReturns elements) := by
  generalize same : many (stringElement quote) = pattern at matched
  induction matched with
  | empty | one | append | first | second => cases same
  | stop => exact same ▸ .stop
  | @more _ first rest element _ _ restHypothesis =>
    cases same
    rw [List.mem_append, not_or] at plain
    rw [withReturns_append]
    refine .more ?_ (restHypothesis plain.2 rfl)
    rcases element_cases element with ⟨c, rfl, -, -, -, notFeed⟩ | ⟨c, rfl⟩ | rfl
    · rw [withReturns_cons notFeed]
      exact element
    · rw [withReturns_cons (by decide)]
      by_cases feed : c = '\n'
      · subst feed
        exact matches_escapedBreak
      · rw [withReturns_cons feed]
        exact element
    · simp at plain

/-- Elements in a text with carriage returns, not before a line feed, are elements of the text. -/
theorem elements_of_withReturns (known : isQuote quote = true) (plain : '\r' ∉ text)
    (matched : (many (stringElement quote)).Matches elements)
    (split : withReturns text = elements ++ rest) (ends : rest.head? ≠ some '\n') :
    Exists fun first => Exists fun last => text = first ++ last ∧ rest = withReturns last ∧
      (many (stringElement quote)).Matches first := by
  generalize same : many (stringElement quote) = pattern at matched
  induction matched generalizing text with
  | empty | one | append | first | second => cases same
  | stop => exact ⟨[], text, rfl, split.symm, same ▸ .stop⟩
  | @more _ begun others element further _ restHypothesis =>
    cases same
    rcases element_cases element with ⟨c, rfl, -, -, notReturn, -⟩ | ⟨c, rfl⟩ | rfl
    · rcases of_withReturns_cons notReturn split with ⟨behind, rfl, -, split⟩
      rw [List.mem_cons, not_or] at plain
      rcases restHypothesis plain.2 split.symm rfl with ⟨first, last, rfl, same, inside⟩
      exact ⟨c :: first, last, rfl, same, .more element inside⟩
    · rcases of_withReturns_cons (by decide) split with ⟨behind, rfl, -, split⟩
      rw [List.mem_cons, not_or] at plain
      by_cases return_ : c = '\r'
      · -- The line feed would be the next element or stand behind the elements.
        subst return_
        rcases of_withReturns_return plain.2 split.symm with ⟨last, -, feed⟩
        cases others with
        | nil =>
          have feed : rest = '\n' :: withReturns last := feed
          rw [feed] at ends
          exact absurd rfl ends
        | cons d others =>
          exact absurd (List.cons.inj feed).1 (ne_lineBreak_of_elements known further).2
      · rcases of_withReturns_cons return_ split.symm with ⟨behind, rfl, -, split⟩
        have plain := plain.2
        rw [List.mem_cons, not_or] at plain
        rcases restHypothesis plain.2 split.symm rfl with ⟨first, last, rfl, same, inside⟩
        exact ⟨'\\' :: c :: first, last, rfl, same, .more element inside⟩
    · rcases of_withReturns_cons (by decide) split with ⟨behind, rfl, -, split⟩
      rw [List.mem_cons, not_or] at plain
      have paired : withReturns behind = '\r' :: '\n' :: (others ++ rest) := split.symm
      rcases of_withReturns_return plain.2 paired with ⟨behind, rfl, onward⟩
      have plain := plain.2
      rw [List.mem_cons, not_or] at plain
      rcases restHypothesis plain.2 (List.cons.inj onward).2.symm rfl with
        ⟨first, last, rfl, same, inside⟩
      exact ⟨'\\' :: '\n' :: first, last, rfl, same, .more (matches_escape (by decide)) inside⟩

private theorem marks_without_return : (([] :: stringMarks).all fun mark =>
    !mark.contains '\r') = true := by
  decide

theorem shortString_of_elements {mark : List Char} (marks : mark ∈ [] :: stringMarks)
    (matched : (many (stringElement quote)).Matches elements) :
    (shortString quote).Matches (mark ++ (quote :: (elements ++ [quote]))) := by
  have marked : (perhaps stringMark).Matches mark := by
    rcases List.mem_cons.mp marks with rfl | listed
    · exact .second .empty
    · exact .first (matches_of_mem_stringMarks listed)
  have closed := Matches.append matched (matches_char_iff.mpr (rfl : [quote] = [quote]))
  exact .append marked (.append (matches_char_iff.mpr rfl) closed)

theorem matches_shortString_withReturns (known : isQuote quote = true) (plain : '\r' ∉ text) :
    (shortString quote).Matches (withReturns text) <-> (shortString quote).Matches text := by
  rcases ne_lineBreak_of_isQuote known with ⟨notFeed, notReturn⟩
  have noReturn : forall mark, mark ∈ [] :: stringMarks -> '\r' ∉ mark := by
    intro mark marks
    have computed := List.all_eq_true.mp marks_without_return mark marks
    simpa using computed
  constructor
  · intro matched
    rcases matches_shortString matched with ⟨mark, elements, marks, inside, split⟩
    rw [List.append_assoc, List.cons_append] at split
    rcases of_withReturns_append (noReturn mark marks) split with ⟨others, rfl, opened⟩
    rcases of_withReturns_cons notReturn opened.symm with ⟨body, rfl, -, further⟩
    rw [List.mem_append, List.mem_cons, not_or, not_or] at plain
    have ends : [quote].head? ≠ some '\n' := fun same => notFeed (Option.some.inj same)
    rcases elements_of_withReturns known plain.2.2 inside further.symm ends with
      ⟨first, last, rfl, closed, inside⟩
    rcases of_withReturns_cons notReturn closed.symm with ⟨rest, rfl, -, empty⟩
    rw [withReturns_eq_nil_iff.mp empty.symm]
    exact shortString_of_elements marks inside
  · intro matched
    rcases matches_shortString matched with ⟨mark, elements, marks, inside, rfl⟩
    have unmarked : '\n' ∉ mark := fun member => (plain_of_mem_marks marks _ member).1 rfl
    have inner : '\r' ∉ elements := fun member => plain (by simp [member])
    rw [List.append_assoc, withReturns_append, withReturns_eq_self unmarked, List.cons_append,
      withReturns_cons notFeed, withReturns_append, withReturns_cons notFeed]
    exact shortString_of_elements marks (elements_withReturns inner inside)

/-! ## Shapes -/

private theorem avoids_breaks : (shapes.all fun shape =>
    shape.reading = .whole .newline || shape.reading = .whole .lineContinuation ||
      shape.reading = .whole .string ||
        (shape.pattern.avoids '\n' && shape.pattern.avoids '\r')) = true := by
  decide

/-- The shapes with line breaks in them are known. -/
theorem shape_cases {shape : Shape Reading} (member : shape ∈ shapes) :
    shape.pattern = lineBreak ∨ shape.pattern = append (char '\\') lineBreak ∨
      (Exists fun quote => isQuote quote = true ∧ shape.pattern = shortString quote) ∨
        (shape.pattern.avoids '\n' = true ∧ shape.pattern.avoids '\r' = true) := by
  have listed : forall reading, shape.reading = reading ->
      shape ∈ shapes.filter fun shape => shape.reading = reading :=
    fun reading reads => List.mem_filter.mpr ⟨member, decide_eq_true reads⟩
  have computed := List.all_eq_true.mp avoids_breaks shape member
  simp only [Bool.or_eq_true, decide_eq_true_eq, Bool.and_eq_true, or_assoc] at computed
  rcases computed with newline | continuation | string | avoids
  · have only : shapes.filter (fun shape => shape.reading = .whole .newline) =
        [⟨.whole .newline, lineBreak⟩] := rfl
    have found := listed _ newline
    rw [only] at found
    exact Or.inl (congrArg Shape.pattern (List.mem_singleton.mp found))
  · have only : shapes.filter (fun shape => shape.reading = .whole .lineContinuation) =
        [⟨.whole .lineContinuation, append (char '\\') lineBreak⟩] := rfl
    have found := listed _ continuation
    rw [only] at found
    exact Or.inr (Or.inl (congrArg Shape.pattern (List.mem_singleton.mp found)))
  · have only : shapes.filter (fun shape => shape.reading = .whole .string) =
        [⟨.whole .string, shortString '\''⟩, ⟨.whole .string, shortString '"'⟩] := rfl
    have found := listed _ string
    rw [only] at found
    rcases List.mem_cons.mp found with same | found
    · exact Or.inr (Or.inr (Or.inl ⟨'\'', rfl, congrArg Shape.pattern same⟩))
    · refine Or.inr (Or.inr (Or.inl ⟨'"', rfl, ?_⟩))
      exact congrArg Shape.pattern (List.mem_singleton.mp found)
  · exact Or.inr (Or.inr (Or.inr avoids))

theorem not_feed_of_whitespace (accepts : Shape.Accepts shapes (.whole .whitespace) text) :
    '\n' ∉ text := by
  rcases accepts with ⟨shape, member, reads, matched⟩
  have computed := List.all_eq_true.mp avoids_breaks shape member
  simp only [reads, Bool.or_eq_true, decide_eq_true_eq, Bool.and_eq_true] at computed
  rcases computed with ((same | same) | same) | avoids
  · cases same
  · cases same
  · cases same
  · exact not_mem_of_avoids matched avoids.1

theorem accepts_withReturns {shape : Shape Reading} (member : shape ∈ shapes)
    (plain : '\r' ∉ text) :
    shape.pattern.accepts (withReturns text) = shape.pattern.accepts text := by
  rw [Bool.eq_iff_iff, accepts_iff, accepts_iff]
  rcases shape_cases member with same | same | ⟨quote, known, same⟩ | ⟨avoids, -⟩
  · rw [same]
    exact matches_lineBreak_withReturns plain
  · rw [same]
    exact matches_lineContinuation_withReturns plain
  · rw [same]
    exact matches_shortString_withReturns known plain
  · exact matches_withReturns_of_avoids avoids

/-- A text with carriage returns is read as the text without them. -/
theorem reading?_withReturns (plain : '\r' ∉ text) :
    Shape.reading? shapes (withReturns text) = Shape.reading? shapes text := by
  have agree : forall live : List (Shape Reading), (forall shape, shape ∈ live -> shape ∈ shapes) ->
      Shape.reading? live (withReturns text) = Shape.reading? live text := by
    intro live among
    induction live with
    | nil => rfl
    | cons shape live inductionHypothesis =>
      have later := inductionHypothesis fun other member =>
        among other (List.mem_cons_of_mem shape member)
      unfold Shape.reading? at later ⊢
      rw [List.find?_cons, List.find?_cons,
        accepts_withReturns (among shape List.mem_cons_self) plain]
      cases shape.pattern.accepts text with
      | true => rfl
      | false => exact later
  exact agree shapes fun _ member => member

theorem eq_nil_of_lineBreak_return (breaks : lineBreak.Matches (text ++ ['\r'])) : text = [] := by
  have ends : (text ++ ['\r']).getLast? = some '\r' := List.getLast?_concat
  rcases matches_lineBreak_iff.mp breaks with same | same | same
  · rw [same] at ends
    cases ends
  · rw [same] at ends
    cases ends
  · exact List.append_left_eq_self.mp same

theorem accepts_pair {reading : Reading}
    (accepts : Shape.Accepts shapes reading (withReturns text ++ ['\r'])) :
    Shape.Accepts shapes reading (withReturns (text ++ ['\n'])) := by
  rcases accepts with ⟨shape, member, reads, matched⟩
  refine ⟨shape, member, reads, ?_⟩
  have pair : lineBreak.Matches ['\r', '\n'] := matches_lineBreak_iff.mpr (Or.inl rfl)
  rw [withReturns_append]
  rcases shape_cases member with same | same | ⟨quote, known, same⟩ | ⟨-, avoids⟩
  · rw [same] at matched ⊢
    rw [eq_nil_of_lineBreak_return matched]
    exact pair
  · rw [same] at matched ⊢
    rcases matches_lineContinuation_iff.mp matched with ⟨rest, found, breaks⟩
    cases front : withReturns text with
    | nil =>
      rw [front] at found
      cases found
    | cons c others =>
      rw [front, List.cons_append] at found
      rcases List.cons.inj found with ⟨rfl, rfl⟩
      rw [eq_nil_of_lineBreak_return breaks]
      exact matches_lineContinuation_iff.mpr ⟨['\r', '\n'], rfl, pair⟩
  · rw [same] at matched
    rcases matches_shortString matched with ⟨mark, elements, -, -, split⟩
    have last := congrArg List.getLast? split
    rw [List.getLast?_concat, List.getLast?_concat] at last
    cases Option.some.inj last
    cases known
  · exact absurd (List.mem_append_right _ (List.mem_singleton_self _))
      (not_mem_of_avoids matched avoids)

/-! ## Lexemes -/

theorem plain_take (plain : '\r' ∉ text) (length : Nat) : '\r' ∉ text.take length :=
  fun member => plain (List.mem_of_mem_take member)

theorem plain_drop (plain : '\r' ∉ text) (length : Nat) : '\r' ∉ text.drop length :=
  fun member => plain (List.mem_of_mem_drop member)

/-- No beginning is read that ends between a carriage return and its line feed, if none is behind
the pair. -/
theorem reading?_between (nothing : Shape.reading? shapes (withReturns (text ++ ['\n'])) = none) :
    Shape.reading? shapes (withReturns text ++ ['\r']) = none := by
  rw [Shape.reading?_eq_none_iff] at nothing ⊢
  exact fun reading accepts => nothing reading (accepts_pair accepts)

/-- What is read of a beginning with carriage returns ends in or at a beginning without them that is
read. -/
theorem reading?_take_withReturns (plain : '\r' ∉ text) {size : Nat}
    (inside : size ≤ (withReturns text).length)
    (reads : Shape.reading? shapes ((withReturns text).take size) ≠ none) :
    Exists fun length => length ≤ text.length ∧ size ≤ lengthWithReturns text length ∧
      Shape.reading? shapes (text.take length) ≠ none := by
  rcases take_withReturns text inside with
    ⟨length, within, ⟨rfl, whole⟩ | ⟨before, next, between, more⟩⟩
  · refine ⟨length, within, Nat.le_refl _, ?_⟩
    rw [whole, reading?_withReturns (plain_take plain length)] at reads
    exact reads
  · refine ⟨length + 1, before, next ▸ Nat.le_succ size, fun nothing => reads ?_⟩
    rw [← reading?_withReturns (plain_take plain _), more] at nothing
    rw [between]
    exact reading?_between nothing

/-- With carriage returns the longest match is the same, with carriage returns of its own. -/
theorem longest?_withReturns (plain : '\r' ∉ text) :
    Shape.longest? shapes (withReturns text) =
      (Shape.longest? shapes text).map fun answer =>
        (answer.1, lengthWithReturns text answer.2) := by
  cases found : Shape.longest? shapes text with
  | none =>
    have nothing := Shape.longest?_eq_none_iff.mp found
    refine Shape.longest?_eq_none_iff.mpr fun size inside => ?_
    by_contra reads
    rcases reading?_take_withReturns plain inside reads with ⟨length, within, -, some⟩
    exact some (nothing length within)
  | some answer =>
    rcases answer with ⟨reading, length⟩
    rcases Shape.longest?_eq_some_iff.mp found with ⟨within, reads, longest⟩
    refine Shape.longest?_eq_some_iff.mpr ⟨lengthWithReturns_le text length, ?_, ?_⟩
    · rw [take_lengthWithReturns, reading?_withReturns (plain_take plain length), reads]
    · intro size beyond inside
      by_contra again
      rcases reading?_take_withReturns plain inside again with ⟨more, within, bound, some⟩
      refine some (longest more (Nat.lt_of_not_le fun shorter => ?_) within)
      have order := lengthWithReturns_mono text shorter
      exact absurd beyond (Nat.not_lt_of_le (Nat.le_trans bound order))

theorem closing?_plain (notBackslash : c ≠ '\\') (notQuote : c ≠ quote) (rest : List Char) :
    closing? quote (c :: rest) = (closing? quote rest).map (· + 1) := by
  rw [closing?]
  · simp [notQuote]
  · rintro d others ⟨rfl⟩
    exact absurd rfl notBackslash

theorem take_two_withReturns (notFeed : quote ≠ '\n') (notReturn : quote ≠ '\r') :
    ((withReturns text).take 2 == [quote, quote]) = (text.take 2 == [quote, quote]) := by
  rw [Bool.eq_iff_iff, beq_iff_eq, beq_iff_eq]
  constructor
  · intro quotes
    have begins := (List.take_append_drop 2 (withReturns text)).symm
    rw [quotes] at begins
    have noReturn : '\r' ∉ [quote, quote] := by simp [notReturn.symm]
    rcases of_withReturns_append noReturn begins with ⟨others, rfl, -⟩
    rfl
  · intro quotes
    rw [← List.take_append_drop 2 text, quotes, List.cons_append, List.cons_append,
      withReturns_cons notFeed, withReturns_cons notFeed]
    rfl

theorem map_lengthWithReturns_cons (c : Char) (rest : List Char) (found : Option Nat) :
    (found.map (· + 1)).map (lengthWithReturns (c :: rest)) =
      (found.map (lengthWithReturns rest)).map (· + (withReturn c).length) := by
  rw [Option.map_map, Option.map_map]
  refine congrArg (Option.map · found) (funext fun length => ?_)
  exact (lengthWithReturns_succ c rest length).trans (Nat.add_comm _ _)

/-- No string ends at a character with its carriage return that neither ends nor escapes. -/
theorem closing?_withReturns_cons (last : c = '\\' -> rest = []) (known : isQuote quote = true)
    (open_ : c = quote -> (rest.take 2 == [quote, quote]) = false) :
    closing? quote (withReturns (c :: rest)) =
      (closing? quote (withReturns rest)).map (· + (withReturn c).length) := by
  rcases ne_lineBreak_of_isQuote known with ⟨notFeed, notReturn⟩
  rcases withReturns_cons_cases c rest with ⟨rfl, same⟩ | ⟨other, same⟩
  · rw [same, closing?_plain (by decide) notReturn.symm, closing?_plain (by decide) notFeed.symm,
      Option.map_map]
    rfl
  · rw [same, closing?, take_two_withReturns notFeed notReturn, length_withReturn other]
    · by_cases quoted : c = quote
      · simp [quoted, open_ quoted]
      · simp [quoted]
    · rintro d others escape further
      rw [last escape] at further
      cases further

theorem closing?_withReturns (known : isQuote quote = true) (text : List Char) :
    closing? quote (withReturns text) =
      (closing? quote text).map (lengthWithReturns text) := by
  rcases ne_lineBreak_of_isQuote known with ⟨notFeed, notReturn⟩
  fun_induction closing? quote text with
  | case1 => rfl
  | case2 c rest inductionHypothesis =>
    have twice : (closing? quote rest).map (· + 2) =
        ((closing? quote rest).map (· + 1)).map (· + 1) := by
      rw [Option.map_map]
      rfl
    rw [twice, map_lengthWithReturns_cons, map_lengthWithReturns_cons,
      ← inductionHypothesis, withReturns_cons (by decide)]
    rcases withReturns_cons_cases c rest with ⟨rfl, same⟩ | ⟨other, same⟩
    · rw [same, closing?, closing?_plain (by decide) notFeed.symm, Option.map_map, Option.map_map]
      rfl
    · rw [same, closing?, length_withReturn other, Option.map_map]
      rfl
  | case3 c rest notEscape closes =>
    simp only [Bool.and_eq_true, decide_eq_true_eq, beq_iff_eq] at closes
    rcases closes with ⟨rfl, quotes⟩
    have begins : rest = c :: c :: rest.drop 2 := by
      conv_lhs => rw [← List.take_append_drop 2 rest, quotes]
      rfl
    have notBackslash : c ≠ '\\' := by rcases quote_cases known with rfl | rfl <;> decide
    rw [begins, withReturns_cons notFeed, withReturns_cons notFeed, withReturns_cons notFeed,
      closing?]
    · simp [lengthWithReturns, withReturns_cons notFeed]
    · rintro d others ⟨rfl⟩
      exact absurd rfl notBackslash
  | case4 c rest notEscape goesOn inductionHypothesis =>
    rw [map_lengthWithReturns_cons, ← inductionHypothesis]
    refine closing?_withReturns_cons (fun escape => ?_) known fun quoted => ?_
    · cases rest with
      | nil => rfl
      | cons d others => exact (notEscape d others escape rfl).elim
    · simpa [quoted] using goesOn

theorem isStringMark_withReturns (name : List Char) :
    isStringMark (withReturns name) = isStringMark name := by
  have avoids : stringMark.avoids '\n' = true := by decide
  have same : stringMark.accepts (withReturns name) = stringMark.accepts name := by
    rw [Bool.eq_iff_iff, accepts_iff, accepts_iff]
    exact matches_withReturns_of_avoids avoids
  exact same

/-- A string mark without a string is read alike. -/
theorem brokenString?_withReturns {body : List Char} {length : Nat}
    (rest : text.drop length = c :: body) (notFeed : c ≠ '\n') :
    brokenString? (lengthWithReturns text length) (withReturns body) =
      (brokenString? length body).map fun answer =>
        (answer.1, lengthWithReturns text answer.2) := by
  cases body with
  | nil => rfl
  | cons d others =>
    rcases withReturns_cons_cases d others with ⟨rfl, same⟩ | ⟨other, same⟩
    · rw [same]
      rfl
    · rw [same]
      by_cases return_ : d = '\r'
      · subst return_
        rfl
      by_cases ends : d = '\\' ∧ others = []
      · rcases ends with ⟨rfl, rfl⟩
        have further : lengthWithReturns text (length + 2) =
            lengthWithReturns text length + 2 := by
          rw [lengthWithReturns_add, rest]
          simp [lengthWithReturns, withReturns_cons notFeed, withReturns_cons other]
        simp [brokenString?, further]
      · rw [not_and] at ends
        rw [brokenString?_eq_none other return_ ends, brokenString?_eq_none other return_
          fun escape => withReturns_eq_nil_iff.not.mpr (ends escape)]
        rfl

theorem isQuote_of_opening (accepts : Shape.Accepts shapes (.opening quote) text) :
    isQuote quote = true := by
  rcases List.mem_cons.mp (accepts_opening accepts).1 with rfl | listed
  · rfl
  · rw [List.mem_singleton.mp listed]
    rfl

/-- With carriage returns the first lexeme is the same, with carriage returns of its own. -/
theorem first?_withReturns (plain : '\r' ∉ text) :
    first? (withReturns text) =
      (first? text).map fun answer => (answer.1, lengthWithReturns text answer.2) := by
  unfold first?
  rw [longest?_withReturns plain]
  cases found : Shape.longest? shapes text with
  | none => rfl
  | some answer =>
    rcases answer with ⟨reading, length⟩
    cases reading with
    | opening quote =>
      have spec := Shape.longest?_spec shapes text
      rw [found] at spec
      have known := isQuote_of_opening spec.accepted
      simp only [Option.map_some, drop_lengthWithReturns,
        closing?_withReturns known, Option.map_map]
      refine congrArg (Option.map · _) (funext fun more => ?_)
      simp only [Function.comp, lengthWithReturns_add]
    | whole kind =>
      cases kind with
      | name =>
        simp only [Option.map_some, drop_lengthWithReturns, take_lengthWithReturns,
          isStringMark_withReturns]
        cases rest : text.drop length with
        | nil => rfl
        | cons c body =>
          rcases withReturns_cons_cases c body with ⟨rfl, same⟩ | ⟨other, same⟩
          · rw [same]
            rfl
          · rw [same]
            simp only
            split
            · exact brokenString?_withReturns rest other
            · rfl
      | _ => rfl

end Lexeme

/-! ## Scanning -/

/-- An offset in a text and one in the text with carriage returns lie at the same place. -/
def Source.SamePlace (source : List Char) (offset other : Nat) : Prop :=
  Exists fun front => Exists fun back => source = front ++ back ∧
    offset = byteLength front ∧ other = byteLength (withReturns front)

namespace Lexeme

open Source

variable {text source front : List Char} {offset other : Nat} {c : Char} {rest : List Char}

/-- A lexeme of a text and one of the text with carriage returns are the same. -/
structure Returned (source : List Char) (lexeme other : Lexeme) : Prop where
  kind : other.kind = lexeme.kind
  text : other.text = withReturns lexeme.text
  place : SamePlace source lexeme.start other.start

/-- With carriage returns the same lexemes are scanned, and what is left is the same. -/
theorem scan_withReturns (plain : '\r' ∉ text) (whole : source = front ++ text)
    (here : offset = byteLength front) (there : other = byteLength (withReturns front)) :
    List.Forall₂ (Returned source) (scan offset text).1 (scan other (withReturns text)).1 ∧
      (scan other (withReturns text)).2 = withReturns (scan offset text).2 := by
  fun_induction scan offset text generalizing front other with
  | case1 =>
    rw [withReturns_nil, scan]
    exact ⟨.nil, rfl⟩
  | case2 offset c rest kind length found lexeme lexemes left again =>
    rename_i inductionHypothesis
    have piece : (c :: rest).take (length + 1) = lexeme.text := rfl
    have behind : (c :: rest).drop (length + 1) = rest.drop length := rfl
    have split := List.take_append_drop (length + 1) (c :: rest)
    rw [piece, behind] at split
    have parts : withReturns (c :: rest) =
        withReturns lexeme.text ++ withReturns (rest.drop length) := by
      rw [← withReturns_append, split]
    have found' : first? (withReturns lexeme.text ++ withReturns (rest.drop length)) =
        some (kind, (withReturns lexeme.text).length) := by
      rw [← parts, first?_withReturns plain, found]
      rfl
    have nonempty : withReturns lexeme.text ≠ [] := by
      rw [ne_eq, withReturns_eq_nil_iff]
      exact List.cons_ne_nil _ _
    have onward := inductionHypothesis (plain_drop plain (length + 1))
      (by rw [List.append_assoc, split]; exact whole)
      (by rw [byteLength_append, ← here]; rfl)
      (by rw [withReturns_append, byteLength_append, ← there])
    rw [again] at onward
    rw [parts, scan_first found' nonempty other]
    exact ⟨.cons ⟨rfl, rfl, front, _, whole, here, there⟩ onward.1, onward.2⟩
  | case3 offset c rest nothing =>
    have stuck : forall kind length,
        first? (withReturns (c :: rest)) ≠ some (kind, length + 1) := by
      intro kind length found
      rw [first?_withReturns plain] at found
      rcases Option.map_eq_some_iff.mp found with ⟨⟨other, _ | size⟩, here, same⟩
      · cases same
      · exact nothing other size here
    cases same : withReturns (c :: rest) with
    | nil => exact absurd (withReturns_eq_nil_iff.mp same) (List.cons_ne_nil _ _)
    | cons d others =>
      rw [same] at stuck
      rw [scan_stuck stuck]
      exact ⟨.nil, rfl⟩

private theorem leftAfter_lineFeed : ((Shape.leftAfter shapes ['\n']).all fun shape =>
    shape.reading = .whole .newline) = true := by
  decide

/-- A line feed can always be read. -/
theorem first?_lineFeed (rest : List Char) :
    Exists fun length => first? ('\n' :: rest) = some (.newline, length + 1) := by
  have spec := Shape.longest?_spec shapes ('\n' :: rest)
  have accepts : Shape.Accepts shapes (.whole .newline) ['\n'] := by
    refine accepts_shapes_iff.mpr ⟨⟨.whole .newline, lineBreak⟩, ?_, ?_⟩
    · exact List.mem_singleton_self _
    · exact matches_lineBreak_iff.mpr (Or.inr (Or.inl rfl))
  cases found : Shape.longest? shapes ('\n' :: rest) with
  | none =>
    rw [found] at spec
    exact absurd accepts (spec _ 1 (Nat.le_add_left 1 _))
  | some answer =>
    rcases answer with ⟨reading, _ | length⟩
    · rw [found] at spec
      exact absurd spec.accepted not_accepts_shapes_nil
    · rw [found] at spec
      have begins : Shape.Accepts shapes reading (['\n'] ++ rest.take length) := spec.accepted
      rcases Shape.accepts_leftAfter_iff.mpr begins with ⟨shape, left, rfl, -⟩
      have reads := of_decide_eq_true (List.all_eq_true.mp leftAfter_lineFeed shape left)
      rw [reads] at found
      exact ⟨length, first?_eq_some_iff.mpr (.whole found nofun)⟩

/-- Scanning does not get stuck at a line feed. -/
theorem ne_lineFeed_of_scan (stuck : (scan offset text).2 = c :: rest) : c ≠ '\n' := by
  fun_induction scan offset text with
  | case1 => cases stuck
  | case2 offset d others kind length found lexeme lexemes left again inductionHypothesis =>
    rw [again] at inductionHypothesis
    exact inductionHypothesis stuck
  | case3 offset d others nothing =>
    cases stuck
    rintro rfl
    rcases first?_lineFeed rest with ⟨length, found⟩
    exact nothing _ _ found

/-- With carriage returns the same texts begin strings. -/
theorem startsString_withReturns (text : List Char) :
    startsString (withReturns text) = startsString text := by
  let marks : Char -> Bool := fun c => "rRbBuUfF".toList.contains c
  have heads : (withReturns (text.dropWhile marks)).head?.any isQuote =
      (text.dropWhile marks).head?.any isQuote := by
    cases text.dropWhile marks with
    | nil => rfl
    | cons c rest =>
      rcases withReturns_cons_cases c rest with ⟨rfl, same⟩ | ⟨-, same⟩ <;> rw [same] <;> rfl
  have shown : forall text : List Char, startsString text =
      (decide ((text.takeWhile marks).length ≤ 2) && (text.dropWhile marks).head?.any isQuote) := by
    intro text
    have parts : text.takeWhile marks ++ text.dropWhile marks = text :=
      List.takeWhile_append_dropWhile
    have sizes := congrArg List.length parts
    have front : text.length - (text.dropWhile marks).length =
        (text.takeWhile marks).length := by
      rw [← sizes, List.length_append]
      exact Nat.add_sub_cancel _ _
    rw [← front]
    rfl
  have parts := span_withReturns (rfl : marks '\n' = false) (rfl : marks '\r' = false) text
  rw [shown, shown, parts.1, parts.2, heads]

end Lexeme
end Packrat
