import Packrat.Proofs.Unclosed

namespace Packrat

/-!
# Readers that do as documented

The documentation of a reader says how every text is read, so that two documented readers read alike
whatever they are made of.  It does not say how many characters are reported where nothing can be
read, and an error is classified by these alone.  They begin a string when all that is left does,
because a text with a mark that is no string mark is never left: its letters are a name.

So a source has the same lexemes or the same error with every documented reader, and what is proved
of the standard reader holds of all of them.
-/

namespace Shape

/-- More of a text is not read less far. -/
theorem reach_append {Reading : Type} (live : List (Shape Reading)) (text more : List Char) :
    reach live text ≤ reach live (text ++ more) := by
  induction text generalizing live with
  | nil => exact Nat.zero_le _
  | cons c text inductionHypothesis =>
    rw [List.cons_append, reach, reach]
    by_cases ends : (live.filterMap (after? c)).isEmpty = true
    · simp only [ends, if_true, Nat.le_refl]
    · simp only [ends]
      exact Nat.succ_le_succ (inductionHypothesis _)

end Shape

namespace Lexeme

open Pattern

variable {text mark body : List Char} {kind : Kind} {quote c : Char} {length offset : Nat}
  {reader : Reader}

/-! ## A string mark before a quote -/

/-- A mark before a quote that fits longest is read by the rule about such marks. -/
theorem first?_marked
    (longest : Shape.longest? shapes (mark ++ quote :: body) = some (.whole .name, mark.length))
    (marks : stringMark.Matches mark) (quotes : isQuote quote = true) :
    first? (mark ++ quote :: body) = brokenString? mark.length body := by
  have marksString : isStringMark mark = true := accepts_iff.mpr marks
  unfold first?
  rw [longest]
  simp only [List.drop_left, List.take_left, quotes, marksString, Bool.and_self, if_true]

theorem brokenString?_of_element {element rest : List Char}
    (inside : (stringElement quote).Matches element) :
    brokenString? length (element ++ rest) = none := by
  rcases element_cases inside with ⟨c, rfl, -, notBackslash, notReturn, notFeed⟩ | ⟨c, rfl⟩ | rfl
  · exact brokenString?_eq_none notFeed notReturn fun escape => absurd escape notBackslash
  · rfl
  · rfl

private theorem accepts_emptyString : (stringMarks.all fun mark => ['\'', '"'].all fun quote =>
    shapes.any fun shape => shape.reading = .whole .string &&
      shape.pattern.accepts (mark ++ [quote, quote])) = true := by
  decide

private theorem mem_quotes (quotes : isQuote quote = true) : quote ∈ ['\'', '"'] := by
  rcases quote_cases quotes with rfl | rfl <;> decide

/-- A mark before a quote does not fit longest when the quote is closed at once. -/
theorem ne_quote_of_longest {rest : List Char}
    (longest : Shape.longest? shapes (mark ++ quote :: c :: rest) =
      some (.whole .name, mark.length))
    (marks : stringMark.Matches mark) (quotes : isQuote quote = true) : c ≠ quote := by
  rintro rfl
  have spec := Shape.longest?_spec shapes (mark ++ c :: c :: rest)
  rw [longest] at spec
  have accepted := List.any_eq_true.mp (List.all_eq_true.mp
    (List.all_eq_true.mp accepts_emptyString mark (mem_stringMarks marks)) c (mem_quotes quotes))
  rcases accepted with ⟨shape, member, reads⟩
  rw [Bool.and_eq_true, decide_eq_true_eq] at reads
  have front : (mark ++ c :: c :: rest).take (mark.length + 2) = mark ++ [c, c] := by
    rw [List.take_length_add_append]
    rfl
  have fits : Fits (mark ++ c :: c :: rest) (.whole .string) (mark.length + 2) := by
    refine ⟨by simp, shape, member, reads.1, ?_⟩
    rw [front]
    exact accepts_iff.mp reads.2
  exact absurd (le_of_longest spec fits) (by omega)

/-- What may stand behind a mark and a quote where no string can be read. -/
theorem marked_cases
    (longest : Shape.longest? shapes (mark ++ quote :: body) = some (.whole .name, mark.length))
    (marks : stringMark.Matches mark) (quotes : isQuote quote = true) :
    (body = [] ∨ body.head? = some '\n' ∨ body.head? = some '\r') ∨ body = ['\\'] ∨
      Exists fun element => Exists fun rest => body = element ++ rest ∧
        (stringElement quote).Matches element := by
  cases body with
  | nil => exact Or.inl (Or.inl rfl)
  | cons c rest =>
    have notQuote := ne_quote_of_longest longest marks quotes
    by_cases feed : c = '\n'
    · exact Or.inl (Or.inr (Or.inl (congrArg some feed)))
    by_cases return_ : c = '\r'
    · exact Or.inl (Or.inr (Or.inr (congrArg some return_)))
    by_cases escape : c = '\\'
    · subst escape
      cases rest with
      | nil => exact Or.inr (Or.inl rfl)
      | cons d rest =>
        refine Or.inr (Or.inr ⟨['\\', d], rest, rfl, ?_⟩)
        refine matches_either_iff.mpr (Or.inr (.append (matches_char_iff.mpr rfl) ?_))
        simp only [anyOf, matches_either_iff]
        by_cases ends : d = '\r'
        · exact Or.inr (Or.inr (matches_char_iff.mpr (by rw [ends])))
        · exact Or.inr (Or.inl (matches_one_iff.mpr ⟨d, by simpa using ends, rfl⟩))
    · refine Or.inr (Or.inr ⟨[c], rest, rfl, matches_either_iff.mpr (Or.inl ?_)⟩)
      exact matches_one_iff.mpr ⟨c, by simp [notQuote, escape, return_, feed], rfl⟩

/-! ## The standard reader -/

private theorem reach_quote : (([] :: stringMarks).all fun mark => ['\'', '"'].all fun quote =>
    Shape.reach shapes (mark ++ [quote]) = mark.length + 1) = true := by
  decide

/-- Some shape is left behind the quote that opens a string. -/
theorem lt_reach (marks : (perhaps stringMark).Matches mark) (quotes : isQuote quote = true) :
    mark.length < Shape.reach shapes (mark ++ quote :: body) := by
  have computed := of_decide_eq_true (List.all_eq_true.mp
    (List.all_eq_true.mp reach_quote mark (mem_marks marks)) quote (mem_quotes quotes))
  have further := Shape.reach_append shapes (mark ++ [quote]) body
  rw [computed, List.append_assoc] at further
  exact further

/-- There is a documented reader. -/
theorem Reader.documented_standard : Reader.standard.Documented where
  unmatched none_fits := by
    rw [read?_standard, first?, none_fits]
  whole longest unmarked := first?_eq_some_iff.mpr (.whole longest unmarked)
  opening longest := by
    rw [read?_standard, first?, longest]
  marked_element longest marks quotes inside :=
    (first?_marked longest marks quotes).trans (brokenString?_of_element inside)
  marked_empty longest marks quotes ends := by
    rw [read?_standard, first?_marked longest marks quotes]
    rename_i body _
    cases body with
    | nil => rfl
    | cons c rest =>
      rcases ends with empty | feed | return_
      · cases empty
      · cases Option.some.inj feed
        rfl
      · cases Option.some.inj return_
        rfl
  marked_backslash longest marks quotes := first?_marked longest marks quotes
  quote_reported marks quotes _ := Nat.lt_of_lt_of_le (lt_reach marks quotes) (Nat.le_max_right _ _)

/-! ## Every documented reader -/

namespace Reader.Documented

theorem read?_marked (documented : reader.Documented)
    (longest : Shape.longest? shapes (mark ++ quote :: body) = some (.whole .name, mark.length))
    (marks : stringMark.Matches mark) (quotes : isQuote quote = true) :
    reader.read? (mark ++ quote :: body) = first? (mark ++ quote :: body) := by
  have standard := Reader.documented_standard
  rcases marked_cases longest marks quotes with ends | rfl | ⟨element, rest, rfl, inside⟩
  · exact (documented.marked_empty longest marks quotes ends).trans
      (standard.marked_empty longest marks quotes ends).symm
  · exact (documented.marked_backslash longest marks quotes).trans
      (standard.marked_backslash longest marks quotes).symm
  · exact (documented.marked_element longest marks quotes inside).trans
      (standard.marked_element longest marks quotes inside).symm

/-- Documented readers read alike. -/
theorem read?_eq (documented : reader.Documented) : reader.read? = first? := by
  have standard := Reader.documented_standard
  funext text
  cases longest : Shape.longest? shapes text with
  | none => exact (documented.unmatched longest).trans (standard.unmatched longest).symm
  | some answer =>
    rcases answer with ⟨kind | quote, length⟩
    · by_cases unmarked : kind = .name -> forall c body, text.drop length = c :: body ->
          (isQuote c && isStringMark (text.take length)) = false
      · exact (documented.whole longest unmarked).trans (standard.whole longest unmarked).symm
      · simp only [Classical.not_imp, not_forall, Bool.not_eq_false, Bool.and_eq_true] at unmarked
        rcases unmarked with ⟨rfl, quote, body, rest, quotes, marks⟩
        have inside := (Shape.longest?_eq_some_iff.mp longest).1
        have split : text.take length ++ quote :: body = text := by
          rw [← rest, List.take_append_drop]
        have size : (text.take length).length = length :=
          (List.length_take ..).trans (Nat.min_eq_left inside)
        have again : Shape.longest? shapes (text.take length ++ quote :: body) =
            some (.whole .name, (text.take length).length) := by
          rw [split, size, longest]
        have same := documented.read?_marked again (accepts_iff.mp marks) quotes
        rwa [split] at same
    · exact (documented.opening longest).trans (standard.opening longest).symm

end Reader.Documented

/-! ## What is reported -/

/-- A text begins with a quote, perhaps behind one or two of the letters that may mark a string.
The letters need not be a string mark together. -/
def OpensString (text : List Char) : Prop :=
  Exists fun marks => Exists fun quote => Exists fun body =>
    text = marks ++ quote :: body ∧ marks.length ≤ 2 ∧
      (forall c, c ∈ marks -> c ∈ "rRbBuUfF".toList) ∧ isQuote quote = true

theorem startsString_iff : startsString text = true <-> OpensString text := by
  let isMark : Char -> Bool := fun c => "rRbBuUfF".toList.contains c
  have split : text.takeWhile isMark ++ text.dropWhile isMark = text :=
    List.takeWhile_append_dropWhile
  have sizes := congrArg List.length split
  rw [List.length_append] at sizes
  have unfolded : startsString text = (decide (text.length - (text.dropWhile isMark).length ≤ 2) &&
      (text.dropWhile isMark).head?.any isQuote) := rfl
  rw [unfolded, Bool.and_eq_true, decide_eq_true_eq]
  constructor
  · rintro ⟨few, quotes⟩
    cases body : text.dropWhile isMark with
    | nil =>
      rw [body] at quotes
      cases quotes
    | cons quote rest =>
      rw [body] at split sizes few quotes
      refine ⟨text.takeWhile isMark, quote, rest, split.symm, by omega, ?_, quotes⟩
      intro c member
      exact List.contains_iff_mem.mp (List.all_eq_true.mp List.all_takeWhile c member)
  · rintro ⟨marks, quote, body, rfl, few, letters, quotes⟩
    have notMark : ¬ isMark quote = true := by
      rcases quote_cases quotes with rfl | rfl <;> decide
    have marked : forall c, c ∈ marks -> isMark c = true := fun c member =>
      List.contains_iff_mem.mpr (letters c member)
    have rest : (marks ++ quote :: body).dropWhile isMark = quote :: body := by
      rw [List.dropWhile_append_of_pos marked, List.dropWhile_cons_of_neg notMark]
    rw [rest, List.length_append, Nat.add_sub_cancel]
    exact ⟨few, quotes⟩

private theorem mark_of_letter : ("rRbBuUfF".toList.all fun letter =>
    stringMarks.contains [letter]) = true := by
  decide

private theorem name_of_letters : ("rRbBuUfF".toList.all fun first =>
    "rRbBuUfF".toList.all fun second => stringMarks.contains [first, second] ||
      (Shape.reading? shapes [first, second] = some (.whole .name) &&
        !isStringMark [first, second] && ['\'', '"'].all fun quote =>
          (Shape.leftAfter shapes [first, second, quote]).isEmpty)) = true := by
  decide

/-- Where nothing can be read, letters before a quote are a string mark; others are a name. -/
theorem marks_of_unread (unread : first? (mark ++ quote :: body) = none) (few : mark.length ≤ 2)
    (letters : forall c, c ∈ mark -> c ∈ "rRbBuUfF".toList) (quotes : isQuote quote = true) :
    (perhaps stringMark).Matches mark := by
  have of_mem : mark ∈ stringMarks -> (perhaps stringMark).Matches mark := fun listed =>
    .first (matches_of_mem_stringMarks listed)
  match mark, few with
  | [], _ => exact .second .empty
  | [first], _ =>
    have single := List.all_eq_true.mp mark_of_letter first (letters first List.mem_cons_self)
    exact of_mem (List.contains_iff_mem.mp single)
  | [first, second], _ =>
    have computed := List.all_eq_true.mp
      (List.all_eq_true.mp name_of_letters first (letters first List.mem_cons_self)) second
      (letters second (List.mem_cons_of_mem _ List.mem_cons_self))
    rw [Bool.or_eq_true, Bool.and_eq_true, Bool.and_eq_true, decide_eq_true_eq,
      Bool.not_eq_true'] at computed
    rcases computed with listed | ⟨⟨named, unmarked⟩, quoted⟩
    · exact of_mem (List.contains_iff_mem.mp listed)
    · have dead := List.isEmpty_iff.mp (List.all_eq_true.mp quoted quote (mem_quotes quotes))
      have longest : Shape.longest? shapes ([first, second] ++ quote :: body) =
          some (.whole .name, 2) := by
        refine Shape.longest?_eq_some_iff.mpr ⟨by simp, named, fun more beyond _ => ?_⟩
        rcases Nat.exists_eq_add_of_lt beyond with ⟨further, rfl⟩
        refine Shape.reading?_eq_none_iff.mpr fun reading accepts => ?_
        have parts : ([first, second] ++ quote :: body).take (2 + further + 1) =
            [first, second, quote] ++ body.take further := by
          rw [Nat.add_assoc, Nat.add_comm]
          rfl
        rw [parts, ← Shape.accepts_leftAfter_iff, dead] at accepts
        exact Shape.not_accepts_nil accepts
      have read := first?_eq_some_iff.mpr (.whole longest fun _ c others rest => by
        rw [show ([first, second] ++ quote :: body).take 2 = [first, second] from rfl, unmarked,
          Bool.and_false])
      rw [unread] at read
      cases read

namespace Reader.Documented

/-- The reported characters begin a string exactly when all that is left begins one. -/
theorem opensString_reported_iff (documented : reader.Documented)
    (unread : reader.read? text = none) :
    OpensString (text.take (reader.reported text)) <-> OpensString text := by
  constructor
  · rintro ⟨marks, quote, body, split, opens⟩
    refine ⟨marks, quote, body ++ text.drop (reader.reported text), ?_, opens⟩
    rw [← List.cons_append, ← List.append_assoc, ← split, List.take_append_drop]
  · rintro ⟨marks, quote, body, rfl, few, letters, quotes⟩
    have matched := marks_of_unread (documented.read?_eq ▸ unread) few letters quotes
    have beyond := documented.quote_reported matched quotes unread
    rcases Nat.exists_eq_add_of_lt beyond with ⟨more, size⟩
    refine ⟨marks, quote, body.take more, ?_, few, letters, quotes⟩
    rw [size, Nat.add_assoc, List.take_length_add_append, List.take_succ_cons]

/-- An error is the one that all of the unreadable text would have. -/
theorem unreadable_reported (documented : reader.Documented) (unread : reader.read? text = none)
    (c : Char) (position : Source.Position) :
    unreadable (text.take (reader.reported text)) c position = unreadable text c position := by
  have same : startsString (text.take (reader.reported text)) = startsString text := by
    rw [Bool.eq_iff_iff, startsString_iff, startsString_iff]
    exact documented.opensString_reported_iff unread
  rw [unreadable, unreadable, same]

end Reader.Documented

/-! ## Where reading stops -/

theorem le_of_brokenString? {size : Nat}
    (broken : brokenString? size body = some (kind, length)) : size ≤ length := by
  unfold brokenString? at broken
  split at broken <;> cases broken <;> omega

theorem first?_pos (found : first? text = some (kind, length)) : 0 < length := by
  have positive : forall {reading size}, Shape.longest? shapes text = some (reading, size) ->
      0 < size := by
    intro reading size longest
    have spec := Shape.longest?_spec shapes text
    rw [longest] at spec
    rcases Nat.eq_zero_or_pos size with rfl | positive
    · exact absurd spec.accepted not_accepts_shapes_nil
    · exact positive
  cases first?_eq_some_iff.mp found with
  | whole longest => exact positive longest
  | quoted longest => exact Nat.add_pos_left (positive longest) _
  | marked longest _ _ broken =>
    exact Nat.lt_of_lt_of_le (positive longest) (le_of_brokenString? broken)

/-- Where reading stops before the end of a text, nothing can be read. -/
theorem first?_left (offset : Nat) (text : List Char) (stops : (scan offset text).2 ≠ []) :
    first? (scan offset text).2 = none := by
  fun_induction scan offset text with
  | case1 => exact absurd rfl stops
  | case2 _ _ _ _ _ _ _ _ _ again inductionHypothesis =>
    rw [again] at inductionHypothesis
    exact inductionHypothesis stops
  | case3 offset c rest nothing =>
    cases found : first? (c :: rest) with
    | none => rfl
    | some answer =>
      rcases answer with ⟨kind, length⟩
      rcases Nat.exists_eq_succ_of_ne_zero (Nat.ne_of_gt (first?_pos found)) with ⟨fewer, rfl⟩
      exact absurd found (nothing kind fewer)

/-- A source has the same lexemes or the same error with every documented reader. -/
theorem Reader.Documented.ofSource_eq (documented : reader.Documented) (source : String) :
    ofSource source reader = ofSource source := by
  have unread := first?_left 0 source.toList
  rw [ofSource, ofSource, documented.read?_eq, Reader.read?_standard]
  rcases scanned : scan 0 source.toList with ⟨lexemes, _ | ⟨c, rest⟩⟩
  · rfl
  · rw [scanned] at unread
    have nothing : first? (c :: rest) = none := unread (List.cons_ne_nil c rest)
    simp only [documented.unreadable_reported (documented.read?_eq ▸ nothing),
      Reader.documented_standard.unreadable_reported nothing]

end Lexeme
end Packrat
