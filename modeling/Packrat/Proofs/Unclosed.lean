import Mathlib.Data.List.Basic
import Packrat.Proofs.Spelling

namespace Packrat

/-!
# Quotes that are not closed

A short string may go on behind a line feed, when the line feed is escaped.  Cut off there, what it
begins with cannot be read on its own: no string ends in it, and its mark, if it has one, is not a
name before such a quote.
-/

namespace Lexeme

open Pattern

variable {text body more : List Char} {quote : Char} {reading : Reading} {mark : List Char}
  {length : Nat}

theorem accepts_string (accepts : Shape.Accepts shapes (.whole .string) text) :
    Exists fun quote => isQuote quote = true ∧ (shortString quote).Matches text := by
  have listed : shapes.filter (fun shape => shape.reading = .whole .string) =
      [⟨.whole .string, shortString '\''⟩, ⟨.whole .string, shortString '"'⟩] := rfl
  rcases accepts_shapes_iff.mp accepts with ⟨shape, member, matched⟩
  rw [listed] at member
  rcases List.mem_cons.mp member with rfl | member
  · exact ⟨'\'', rfl, matched⟩
  · cases List.mem_singleton.mp member
    exact ⟨'"', rfl, matched⟩

/-! ## Elements of a string -/

/-- Reading on in a short string, with the note whether the next character is escaped; the string
ends at a quote that is not. -/
def goesOn? (quote : Char) (escaped : Bool) (c : Char) : Option Bool :=
  if escaped then some false
  else if c = '\\' then some true
  else if c = quote then none
  else some false

/-- An element of a string is either one character that is not escaped, or a backslash with what it
escapes. -/
theorem element_cases (element : (stringElement quote).Matches text) :
    (Exists fun c => text = [c] ∧ c ≠ quote ∧ c ≠ '\\' ∧ c ≠ '\r' ∧ c ≠ '\n') ∨
      (Exists fun c => text = ['\\', c]) ∨ text = ['\\', '\r', '\n'] := by
  rcases matches_either_iff.mp element with plain | escape
  · rcases matches_one_iff.mp plain with ⟨c, allowed, rfl⟩
    simp only [Bool.and_eq_true, bne_iff_ne] at allowed
    rcases allowed with ⟨⟨⟨notQuote, notBackslash⟩, notReturn⟩, notFeed⟩
    exact Or.inl ⟨c, rfl, notQuote, notBackslash, notReturn, notFeed⟩
  · rcases matches_append_iff.mp escape with ⟨backslash, escaped, first, last, rfl⟩
    rw [matches_char_iff] at first
    subst first
    simp only [anyOf, matches_either_iff] at last
    rcases last with both | one | one
    · rw [literal, matches_chars_iff] at both
      exact Or.inr (Or.inr (by rw [both]; rfl))
    · rcases matches_one_iff.mp one with ⟨c, -, rfl⟩
      exact Or.inr (Or.inl ⟨c, rfl⟩)
    · rw [matches_char_iff.mp one]
      exact Or.inr (Or.inl ⟨_, rfl⟩)

/-- Elements are read on to the end, and leave nothing to escape. -/
theorem goesOn_elements (known : isQuote quote = true)
    (matched : (many (stringElement quote)).Matches body) :
    body.foldlM (goesOn? quote) false = some false := by
  generalize same : many (stringElement quote) = pattern at matched
  induction matched with
  | empty | one | append | first | second => cases same
  | stop => rfl
  | @more _ text rest element _ _ restHypothesis =>
    cases same
    have goes : text.foldlM (goesOn? quote) false = some false := by
      rcases element_cases element with ⟨c, rfl, notQuote, notBackslash, -⟩ | ⟨c, rfl⟩ | rfl
      · simp [goesOn?, notBackslash, notQuote]
      · simp [goesOn?]
      · rcases quote_cases known with rfl | rfl <;> rfl
    rw [List.foldlM_append, goes]
    exact restHypothesis rfl

theorem ne_lineBreak_of_elements {c : Char} {rest : List Char} (known : isQuote quote = true)
    (matched : (many (stringElement quote)).Matches (c :: rest)) : c ≠ '\r' ∧ c ≠ '\n' := by
  have onward := matches_after.mpr matched
  constructor
  · rintro rfl
    rcases quote_cases known with rfl | rfl <;> exact not_matches_void _ onward
  · rintro rfl
    rcases quote_cases known with rfl | rfl <;> exact not_matches_void _ onward

/-- What a short string has between its opening quote and a line feed that does not end it. -/
structure Opened (quote : Char) (body : List Char) : Prop where
  known : isQuote quote = true
  goesOn : body.foldlM (goesOn? quote) false ≠ none
  first : forall c rest, body = c :: rest -> c ≠ '\r' ∧ c ≠ '\n'
  last : body.getLast? = some '\n'

theorem Opened.first_ne_quote {c : Char} {rest : List Char} (opened : Opened quote (c :: rest)) :
    c ≠ quote := by
  rintro rfl
  refine opened.goesOn ?_
  rcases quote_cases opened.known with rfl | rfl <;> rfl

theorem Opened.not_closed {elements : List Char} (opened : Opened quote body)
    (matched : (many (stringElement quote)).Matches elements) :
    ¬ elements ++ [quote] <+: body := by
  rintro ⟨rest, rfl⟩
  refine opened.goesOn ?_
  have closes : goesOn? quote false quote = none := by
    rcases quote_cases opened.known with rfl | rfl <;> rfl
  rw [List.append_assoc, List.foldlM_append, goesOn_elements opened.known matched]
  simp [closes]

theorem mem_marks (matched : (perhaps stringMark).Matches mark) : mark ∈ [] :: stringMarks := by
  rcases matches_either_iff.mp matched with some | none
  · exact List.mem_cons_of_mem _ (mem_stringMarks some)
  · rw [matches_empty_iff.mp none]
    exact List.mem_cons_self

theorem matches_of_mem_stringMarks (listed : mark ∈ stringMarks) : stringMark.Matches mark := by
  have accepted : stringMarks.all stringMark.accepts = true := by decide
  exact accepts_iff.mp (List.all_eq_true.mp accepted mark listed)

theorem plain_of_mem_marks (marks : mark ∈ [] :: stringMarks) :
    forall c, c ∈ mark -> c ≠ '\n' ∧ isQuote c = false := by
  have plain : (([] :: stringMarks).all fun mark =>
      mark.all fun c => c != '\n' && !isQuote c) = true := by
    decide
  intro c member
  have both := List.all_eq_true.mp (List.all_eq_true.mp plain mark marks) c member
  rw [Bool.and_eq_true, bne_iff_ne, Bool.not_eq_true'] at both
  exact both

theorem matches_shortString (matched : (shortString quote).Matches text) :
    Exists fun mark => Exists fun elements => mark ∈ [] :: stringMarks ∧
      (many (stringElement quote)).Matches elements ∧
        text = mark ++ quote :: elements ++ [quote] := by
  simp only [shortString, inOrder, matches_append_iff, matches_char_iff] at matched
  rcases matched with ⟨mark, _, marks, ⟨_, _, rfl, ⟨elements, _, inside, rfl, rfl⟩, rfl⟩, rfl⟩
  exact ⟨mark, elements, mem_marks marks, inside, by simp⟩

/-- A short string that goes on behind a line feed is open there. -/
theorem opened_of_shortString (known : isQuote quote = true) (feed : text.getLast? = some '\n')
    (further : more ≠ []) (matched : (shortString quote).Matches (text ++ more)) :
    Exists fun mark => Exists fun body => text = mark ++ quote :: body ∧
      mark ∈ [] :: stringMarks ∧ Opened quote body := by
  rcases matches_shortString matched with ⟨mark, elements, marks, inside, split⟩
  have plain := plain_of_mem_marks marks
  have notFeed : quote ≠ '\n' := by
    rintro rfl
    cases known
  have halves : text ++ more = (mark ++ [quote]) ++ (elements ++ [quote]) := by simp [split]
  rcases List.append_eq_append_iff.mp halves with ⟨_, opening, -⟩ | ⟨body, rfl, closing⟩
  · -- There is no line feed before the quote.
    have member : '\n' ∈ mark ++ [quote] :=
      opening ▸ List.mem_append_left _ (List.mem_of_getLast? feed)
    rcases List.mem_append.mp member with inMark | inQuote
    · exact absurd rfl (plain _ inMark).1
    · exact absurd (List.mem_singleton.mp inQuote).symm notFeed
  · have last : body.getLast? = some '\n' := by
      cases body with
      | nil =>
        rw [List.append_nil, List.getLast?_concat] at feed
        exact absurd (Option.some.inj feed) notFeed
      | cons c rest =>
        rw [List.getLast?_append_of_ne_nil _ (List.cons_ne_nil c rest)] at feed
        exact feed
    have begins : body <+: elements := by
      have shorter : body.length ≤ elements.length := by
        have sizes := congrArg List.length closing
        have positive := List.length_pos_iff.mpr further
        simp only [List.length_append, List.length_singleton] at sizes
        omega
      exact List.prefix_of_prefix_length_le ⟨more, closing.symm⟩ ⟨[quote], rfl⟩ shorter
    refine ⟨mark, body, by simp, marks, known, ?_, ?_, last⟩
    · rcases begins with ⟨rest, rfl⟩
      have goes := goesOn_elements known inside
      intro stops
      rw [List.foldlM_append, stops] at goes
      cases goes
    · rintro c rest rfl
      rcases begins with ⟨further, rfl⟩
      exact ne_lineBreak_of_elements known inside

/-! ## What cannot be read -/

private theorem leftAfter_quote : (([] :: stringMarks).all fun mark => ['\'', '"'].all fun quote =>
    (Shape.leftAfter shapes (mark ++ [quote])).all fun shape =>
      shape.reading = .whole .string || ['\'', '"'].any fun quote =>
        shape.reading = .opening quote) = true := by
  decide

private theorem accepts_mark : (stringMarks.all fun mark => shapes.any fun shape =>
    shape.reading = .whole .name && shape.pattern.accepts mark) = true := by
  decide

/-- A text is divided at its first quote in only one way. -/
theorem eq_of_quote {front front' back back' : List Char} {quote' : Char}
    (plain : forall c, c ∈ front -> isQuote c = false) (quotes : isQuote quote = true)
    (plain' : forall c, c ∈ front' -> isQuote c = false) (quotes' : isQuote quote' = true)
    (same : front ++ quote :: back = front' ++ quote' :: back') :
    front = front' ∧ quote = quote' ∧ back = back' := by
  induction front generalizing front' with
  | nil =>
    cases front' with
    | nil => exact ⟨rfl, List.cons.inj same⟩
    | cons c front' =>
      rw [(List.cons.inj same).1, plain' c List.mem_cons_self] at quotes
      cases quotes
  | cons c front inductionHypothesis =>
    cases front' with
    | nil =>
      rw [← (List.cons.inj same).1, plain c List.mem_cons_self] at quotes'
      cases quotes'
    | cons c' front' =>
      rcases List.cons.inj same with ⟨rfl, further⟩
      rcases inductionHypothesis (fun d member => plain d (List.mem_cons_of_mem _ member))
        (fun d member => plain' d (List.mem_cons_of_mem _ member)) further with ⟨rfl, rest⟩
      exact ⟨rfl, rest⟩

/-- Behind its quote an opened string is not read: no string ends in it. -/
theorem Opened.not_accepts (opened : Opened quote body) (marks : mark ∈ [] :: stringMarks)
    (size : Nat) : ¬ Shape.Accepts shapes reading (mark ++ quote :: body.take size) := by
  intro accepts
  have plain := fun c member => (plain_of_mem_marks marks c member).2
  have known : quote ∈ ['\'', '"'] := by
    rcases quote_cases opened.known with rfl | rfl <;> decide
  have parts : mark ++ quote :: body.take size = (mark ++ [quote]) ++ body.take size := by simp
  rcases Shape.accepts_leftAfter_iff.mpr (parts ▸ accepts) with ⟨shape, left, rfl, -⟩
  have computed := List.all_eq_true.mp (List.all_eq_true.mp
    (List.all_eq_true.mp leftAfter_quote mark marks) quote known) shape left
  simp only [Bool.or_eq_true, decide_eq_true_eq, List.any_eq_true] at computed
  rcases computed with string | ⟨quote', -, opening⟩
  · rw [string] at accepts
    rcases accepts_string accepts with ⟨quote', known', matched⟩
    rcases matches_shortString matched with ⟨mark', elements, marks', inside, split⟩
    rw [List.append_assoc, List.cons_append] at split
    rcases eq_of_quote plain opened.known (fun c member => (plain_of_mem_marks marks' c member).2)
      known' split with ⟨rfl, rfl, closed⟩
    exact absurd ⟨body.drop size, closed ▸ List.take_append_drop size body⟩
      (opened.not_closed inside)
  · rw [opening] at accepts
    rcases accepts_opening accepts with ⟨known', matched⟩
    rcases matches_tripleOpening matched with ⟨mark', marks', split⟩
    have quotes' : isQuote quote' = true := by
      rcases List.mem_cons.mp known' with rfl | known'
      · rfl
      · rw [List.mem_singleton.mp known']
        rfl
    rcases eq_of_quote plain opened.known (fun c member => (plain_of_mem_marks marks' c member).2)
      quotes' split with ⟨rfl, rfl, closed⟩
    cases body with
    | nil => rw [List.take_nil] at closed; cases closed
    | cons c rest =>
      cases size with
      | zero => cases closed
      | succ size => exact absurd (List.cons.inj closed).1 opened.first_ne_quote

/-- From a mark and an opened string on, only names are read, and none beyond the mark. -/
theorem Opened.fits (opened : Opened quote body) (marks : mark ∈ [] :: stringMarks)
    (fits : Fits (mark ++ quote :: body) reading length) :
    length ≤ mark.length ∧ reading = .whole .name := by
  rcases fits with ⟨-, accepts⟩
  rcases Nat.lt_or_ge mark.length length with beyond | inside
  · rcases Nat.exists_eq_add_of_lt beyond with ⟨size, rfl⟩
    rw [Nat.add_assoc, List.take_append, List.take_of_length_le (by omega),
      Nat.add_sub_cancel_left, List.take_succ_cons] at accepts
    exact absurd accepts (opened.not_accepts marks size)
  · rw [List.take_append_of_le_length inside] at accepts
    refine ⟨inside, ?_⟩
    rcases List.mem_cons.mp marks with rfl | listed
    · rw [List.take_nil] at accepts
      exact absurd accepts not_accepts_shapes_nil
    · exact accepts_take_mark (matches_of_mem_stringMarks listed) inside accepts

/-- A mark before a quote is what fits longest, if there is one. -/
theorem Opened.eq_of_longest (opened : Opened quote body) (marks : mark ∈ [] :: stringMarks)
    (longest : Shape.IsLongest shapes (mark ++ quote :: body) reading length) :
    reading = .whole .name ∧ length = mark.length ∧ mark ∈ stringMarks := by
  rcases opened.fits marks (fits_of_longest longest) with ⟨inside, named⟩
  refine ⟨named, ?_⟩
  rcases List.mem_cons.mp marks with rfl | listed
  · rw [Nat.le_zero.mp inside] at longest
    exact absurd longest.accepted not_accepts_shapes_nil
  · have accepted := List.any_eq_true.mp (List.all_eq_true.mp accepts_mark mark listed)
    rcases accepted with ⟨shape, member, reads⟩
    simp only [Bool.and_eq_true, decide_eq_true_eq] at reads
    have fits : Fits (mark ++ quote :: body) (.whole .name) mark.length := by
      refine ⟨by simp, shape, member, reads.1, ?_⟩
      rw [List.take_left]
      exact accepts_iff.mp reads.2
    exact ⟨Nat.le_antisymm inside (le_of_longest longest fits), listed⟩

theorem Opened.brokenString?_eq (opened : Opened quote body) :
    brokenString? length body = none := by
  unfold brokenString?
  split
  · cases opened.last
  · exact absurd rfl (opened.first _ _ rfl).2
  · exact absurd rfl (opened.first _ _ rfl).1
  · exact absurd (Option.some.inj opened.last) (by decide)
  · rfl

theorem Opened.first?_eq (opened : Opened quote body) (marks : mark ∈ [] :: stringMarks) :
    first? (mark ++ quote :: body) = none := by
  have spec := Shape.longest?_spec shapes (mark ++ quote :: body)
  unfold first?
  cases found : Shape.longest? shapes (mark ++ quote :: body) with
  | none => rfl
  | some answer =>
    rcases answer with ⟨reading, length⟩
    rw [found] at spec
    rcases opened.eq_of_longest marks spec with ⟨rfl, rfl, listed⟩
    have marksString : isStringMark mark = true :=
      accepts_iff.mpr (matches_of_mem_stringMarks listed)
    simp only [List.drop_left, List.take_left, opened.known, marksString, Bool.and_self, if_true]
    exact opened.brokenString?_eq

end Lexeme
end Packrat
