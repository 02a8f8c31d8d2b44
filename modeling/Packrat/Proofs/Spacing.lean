import Mathlib.Data.List.Basic
import Packrat.Proofs.Joining
import Packrat.Text.Blank

namespace Packrat

/-!
# Lexemes with spaces between them

Lexemes that a grammar sees can be taken out of their source and written one after the other with
single spaces between them; the new text is read as these lexemes again.

A shape that goes on behind a space is that of white space, of a comment or of a short string.  None
of them goes on from a lexeme: no other lexeme begins like white space or a comment, and where a
short string has been read, it has ended.  What made a lexeme end in its source is therefore not
needed.  There is one exception, a string mark, a quote and a backslash, which are a name together,
but only where the source ends.
-/

namespace Shape

variable {Reading : Type} {live : List (Shape Reading)} {reading : Reading}
  {front rest : List Char}

/-- Where no shape is left after some characters, none accepts more than these. -/
theorem not_accepts_of_leftAfter (dead : leftAfter live front = []) :
    ¬ Accepts live reading (front ++ rest) := by
  rw [← accepts_leftAfter_iff, dead]
  exact not_accepts_nil

end Shape

namespace Lexeme

namespace Kind

/-- The kinds of the lexemes that become tokens inside a line. -/
def isContent : Kind -> Bool
  | whitespace | newline | lineContinuation | comment => false
  | _ => true

end Kind

open Pattern

variable {text body more front : List Char} {quote c : Char} {kind : Kind} {reading : Reading}
  {length offset : Nat} {lexeme : Lexeme} {lexemes : List Lexeme}

/-! ## The first character of a lexeme -/

/-- The codes of the characters of white space. -/
private def whiteSpaceCodes : List Nat :=
  List.range' 9 5 ++ [0x20, 0x85, 0xA0, 0x1680] ++ List.range' 0x2000 11 ++
    [0x2028, 0x2029, 0x202F, 0x205F, 0x3000]

private theorem mem_whiteSpaceCodes (blank : Text.isWhiteSpace c = true) :
    c.toNat ∈ whiteSpaceCodes := by
  simp only [Text.isWhiteSpace, Bool.or_eq_true, Bool.and_eq_true, decide_eq_true_eq] at blank
  simp only [whiteSpaceCodes, List.mem_append, List.mem_range'_1, List.mem_cons, List.not_mem_nil,
    or_false]
  omega

private theorem leftAfter_whiteSpace : (whiteSpaceCodes.all fun code =>
    (Shape.leftAfter shapes [Char.ofNat code]).all fun shape =>
      shape.reading = .whole .whitespace || shape.reading = .whole .newline) = true := by
  decide +kernel

/-- Only white space and line breaks begin with a character of white space. -/
theorem reading_of_whiteSpace (blank : Text.isWhiteSpace c = true)
    (accepts : Shape.Accepts shapes reading (c :: more)) :
    reading = .whole .whitespace ∨ reading = .whole .newline := by
  rw [← List.singleton_append, ← Shape.accepts_leftAfter_iff, ← Char.ofNat_toNat c] at accepts
  rcases accepts with ⟨shape, left, rfl, -⟩
  have computed := List.all_eq_true.mp (List.all_eq_true.mp leftAfter_whiteSpace _
    (mem_whiteSpaceCodes blank)) shape left
  simpa only [Bool.or_eq_true, decide_eq_true_eq] using computed

theorem isContent_of_whiteSpace (blank : Text.isWhiteSpace c = true)
    (found : first? (c :: more) = some (kind, length)) : kind.isContent = false := by
  have spec := Shape.longest?_spec shapes (c :: more)
  have begins : forall reading size, Shape.longest? shapes (c :: more) = some (reading, size) ->
      reading = .whole .whitespace ∨ reading = .whole .newline := by
    intro reading size longest
    rw [longest] at spec
    cases size with
    | zero => exact absurd spec.accepted not_accepts_shapes_nil
    | succ size => exact reading_of_whiteSpace blank spec.accepted
  cases first?_eq_some_iff.mp found with
  | whole longest => rcases begins _ _ longest with same | same <;> cases same <;> rfl
  | quoted longest => rcases begins _ _ longest with same | same <;> cases same
  | marked longest => rcases begins _ _ longest with same | same <;> cases same

private theorem leftAfter_numberSign : (Shape.leftAfter shapes ['#']).all (fun shape =>
    shape.reading = .whole .comment) = true := by
  decide

theorem reading_of_numberSign (accepts : Shape.Accepts shapes reading ('#' :: more)) :
    reading = .whole .comment := by
  rw [← List.singleton_append, ← Shape.accepts_leftAfter_iff] at accepts
  rcases accepts with ⟨shape, left, rfl, -⟩
  exact of_decide_eq_true (List.all_eq_true.mp leftAfter_numberSign shape left)

theorem whiteSpace_of_accepts (accepts : Shape.Accepts shapes (.whole .whitespace) text) :
    forall c, c ∈ text -> Text.isWhiteSpace c = true := by
  have listed : shapes.filter (fun shape => shape.reading = .whole .whitespace) =
      [⟨.whole .whitespace, atLeastOnce (oneOf " \t\x0c")⟩] := rfl
  have blanks : (" \t\x0c".toList.all Text.isWhiteSpace) = true := by decide
  rcases accepts_shapes_iff.mp accepts with ⟨shape, member, matched⟩
  rw [listed] at member
  cases List.mem_singleton.mp member
  intro c within
  by_contra visible
  refine not_mem_of_avoids matched ?_ within
  have outside : (" \t\x0c".toList.contains c) = false := by
    rw [Bool.eq_false_iff]
    intro listed
    exact visible (List.all_eq_true.mp blanks c (List.contains_iff_mem.mp listed))
  simp only [atLeastOnce, oneOf, avoids, outside, Bool.not_false, Bool.and_self]

theorem numberSign_of_accepts (accepts : Shape.Accepts shapes (.whole .comment) (c :: more)) :
    c = '#' := by
  have listed : shapes.filter (fun shape => shape.reading = .whole .comment) =
      [⟨.whole .comment, append (char '#') (many (noneOf "\r\n"))⟩] := rfl
  rcases accepts_shapes_iff.mp accepts with ⟨shape, member, matched⟩
  rw [listed] at member
  cases List.mem_singleton.mp member
  rcases matches_append_iff.mp matched with ⟨first, rest, sign, -, split⟩
  rw [matches_char_iff.mp sign] at split
  exact (List.cons.inj split).1

/-! ## Before a space -/

private theorem avoids_space : (shapes.all fun shape =>
    shape.reading = .whole .whitespace || shape.reading = .whole .comment ||
      shape.reading = .whole .string || shape.pattern.avoids ' ') = true := by
  decide

/-- Only white space, comments and strings have a space in them. -/
theorem reading_of_space (accepts : Shape.Accepts shapes reading text) (space : ' ' ∈ text) :
    reading = .whole .whitespace ∨ reading = .whole .comment ∨ reading = .whole .string := by
  rcases accepts with ⟨shape, member, rfl, matched⟩
  have computed := List.all_eq_true.mp avoids_space shape member
  simp only [Bool.or_eq_true, decide_eq_true_eq, or_assoc] at computed
  rcases computed with blank | comment | string | avoids
  · exact Or.inl blank
  · exact Or.inr (Or.inl comment)
  · exact Or.inr (Or.inr string)
  · exact absurd space (not_mem_of_avoids matched avoids)

private theorem avoids_quotes : (shapes.all fun shape =>
    [Kind.name, .number, .operator, .openBracket, .closeBracket].all fun kind =>
      !(shape.reading = .whole kind) ||
        (shape.pattern.avoids '\'' && shape.pattern.avoids '"')) = true := by
  decide

/-- Only strings have a quote in them. -/
theorem plain_of_accepts (content : kind.isContent = true) (notString : kind ≠ .string)
    (accepts : Shape.Accepts shapes (.whole kind) text) :
    forall c, c ∈ text -> isQuote c = false := by
  rcases accepts with ⟨shape, member, reads, matched⟩
  have listed : kind ∈ [Kind.name, .number, .operator, .openBracket, .closeBracket] := by
    cases kind <;> first | decide | exact absurd rfl notString | cases content
  have computed := List.all_eq_true.mp (List.all_eq_true.mp avoids_quotes shape member) kind listed
  simp only [reads, decide_true, Bool.not_true, Bool.false_or, Bool.and_eq_true] at computed
  intro c within
  rw [Bool.eq_false_iff]
  intro quotes
  rcases quote_cases quotes with rfl | rfl
  · exact not_mem_of_avoids matched computed.1 within
  · exact not_mem_of_avoids matched computed.2 within

private theorem marks_without_space : (([] :: stringMarks).all fun mark =>
    !mark.contains ' ') = true := by
  decide

/-- A short string does not begin with a text without quotes and a space. -/
theorem not_shortString_of_plain (known : isQuote quote = true)
    (plain : forall c, c ∈ text -> isQuote c = false) :
    ¬ (shortString quote).Matches (text ++ ' ' :: more) := by
  intro matched
  rcases matches_shortString matched with ⟨mark, elements, marks, -, split⟩
  have noSpace : ' ' ∉ mark := by
    have computed := List.all_eq_true.mp marks_without_space mark marks
    simpa using computed
  rw [List.append_assoc, List.cons_append] at split
  rcases List.append_eq_append_iff.mp split with ⟨between, same, rest⟩ | ⟨between, same, rest⟩
  · cases between with
    | nil =>
      cases (List.cons.inj rest).1
      cases known
    | cons d between =>
      cases (List.cons.inj rest).1
      exact noSpace (same ▸ List.mem_append_right _ List.mem_cons_self)
  · cases between with
    | nil =>
      cases (List.cons.inj rest).1
      cases known
    | cons d between =>
      cases (List.cons.inj rest).1
      have within : quote ∈ text := same ▸ List.mem_append_right _ List.mem_cons_self
      rw [plain quote within] at known
      cases known

/-- A short string does not begin with another one and a space. -/
theorem not_shortString_of_shortString {other : Char} (known : isQuote quote = true)
    (known' : isQuote other = true) (closed : (shortString other).Matches text) :
    ¬ (shortString quote).Matches (text ++ ' ' :: more) := by
  intro matched
  rcases matches_shortString closed with ⟨mark, elements, marks, inside, rfl⟩
  rcases matches_shortString matched with ⟨mark', elements', marks', inside', split⟩
  have parts : mark ++ other :: (elements ++ other :: ' ' :: more) =
      mark' ++ quote :: (elements' ++ [quote]) := by
    simpa using split
  rcases eq_of_quote (fun c member => (plain_of_mem_marks marks c member).2) known'
    (fun c member => (plain_of_mem_marks marks' c member).2) known parts with ⟨-, rfl, bodies⟩
  -- The first of the two strings ends inside the second one, at a quote that is not escaped.
  have begins : elements ++ [other] <+: elements' := by
    have first : elements ++ [other] <+: elements' ++ [other] :=
      ⟨' ' :: more, by simpa using bodies⟩
    refine List.prefix_of_prefix_length_le first (List.prefix_append _ _) ?_
    have sizes := congrArg List.length bodies
    simp only [List.length_append, List.length_cons, List.length_nil] at sizes ⊢
    omega
  rcases begins with ⟨rest, rfl⟩
  have goes := goesOn_elements known inside'
  have stops : goesOn? other false other = none := by
    rcases quote_cases known with rfl | rfl <;> rfl
  rw [List.append_assoc, List.foldlM_append, goesOn_elements known inside] at goes
  simp [stops] at goes

/-- No shape goes on from a lexeme behind a space. -/
theorem endsWithin_space (content : kind.isContent = true)
    (accepts : Shape.Accepts shapes (.whole kind) text) (more : List Char) :
    Shape.EndsWithin shapes text (' ' :: more) := by
  intro reading beyond begins further goesOn
  rcases List.prefix_cons_iff.mp begins with rfl | ⟨rest, rfl, -⟩
  · exact absurd rfl further
  cases text with
  | nil => exact absurd accepts not_accepts_shapes_nil
  | cons c text =>
    rcases reading_of_space goesOn (List.mem_append_right _ List.mem_cons_self) with
      rfl | rfl | rfl
    · have blank := whiteSpace_of_accepts goesOn c List.mem_cons_self
      rcases reading_of_whiteSpace blank accepts with same | same <;> cases same <;> cases content
    · cases numberSign_of_accepts goesOn
      cases reading_of_numberSign accepts
      cases content
    · rcases accepts_string goesOn with ⟨quote, known, matched⟩
      by_cases string : kind = .string
      · subst string
        rcases accepts_string accepts with ⟨other, known', closed⟩
        exact not_shortString_of_shortString known known' closed matched
      · exact not_shortString_of_plain known (plain_of_accepts content string accepts) matched

/-! ## Lexemes that are read again -/

/-- A lexeme is what is read first where some more text follows it. -/
def ReadBefore (lexeme : Lexeme) (more : List Char) : Prop :=
  first? (lexeme.text ++ more) = some (lexeme.kind, lexeme.text.length)

/-- What a lexeme is, wherever it is. -/
def face (lexeme : Lexeme) : Kind × List Char :=
  (lexeme.kind, lexeme.text)

/-- A lexeme that a shape matches is read again, alone and before a space. -/
theorem first?_take_whole (longest : Shape.longest? shapes text = some (.whole kind, length))
    (content : kind.isContent = true) (free : forall c rest, more = c :: rest -> c = ' ') :
    first? (text.take length ++ more) = some (kind, length) := by
  have alone := Shape.longest?_take longest
  have spec := Shape.longest?_spec shapes text
  rw [longest] at spec
  have size : (text.take length).length = length :=
    (List.length_take ..).trans (Nat.min_eq_left spec.length_le)
  have within : Shape.EndsWithin shapes (text.take length) more := by
    cases more with
    | nil =>
      intro reading beyond begins further
      exact absurd (List.prefix_nil.mp begins) further
    | cons c rest =>
      rw [free c rest rfl]
      exact endsWithin_space content spec.accepted rest
  refine first?_eq_some_iff.mpr (.whole ((Shape.longest?_append within).trans alone) ?_)
  intro _ c body rest
  rw [List.drop_append_of_le_length (Nat.le_of_eq size.symm),
    List.drop_of_length_le (Nat.le_of_eq size), List.nil_append] at rest
  rw [free c body rest]
  rfl

theorem Closes.take (closes : Closes quote text length) :
    Closes quote (text.take length) length := by
  refine ⟨Nat.le_of_eq ?_, ?_, fun fewer before => ?_⟩
  · rw [List.length_take, Nat.min_eq_left closes.length_le]
  · rw [List.take_take, Nat.min_self]
    exact closes.matched
  · rw [List.take_take, Nat.min_eq_left (Nat.le_of_lt before)]
    exact closes.first fewer before

theorem first?_take_quoted {size : Nat}
    (longest : Shape.longest? shapes text = some (.opening quote, size))
    (closed : closing? quote (text.drop size) = some length) (more : List Char) :
    first? (text.take (size + length) ++ more) = some (.string, size + length) := by
  have alone := Shape.longest?_take longest
  have spec := Shape.longest?_spec shapes text
  rw [longest] at spec
  have notBackslash := quote_of_longest spec
  have whole : (text.take size).length = size :=
    (List.length_take ..).trans (Nat.min_eq_left spec.length_le)
  have within : forall rest, Shape.EndsWithin shapes (text.take size) rest :=
    fun rest reading beyond _ further goesOn =>
      further (accepts_opening_append spec.accepted goesOn).2
  rw [List.take_add, List.append_assoc]
  refine first?_eq_some_iff.mpr (.quoted ((Shape.longest?_append (within _)).trans alone) ?_)
  rw [List.drop_append_of_le_length (Nat.le_of_eq whole.symm),
    List.drop_of_length_le (Nat.le_of_eq whole), List.nil_append,
    closing?_eq_some_iff notBackslash]
  exact (((closing?_eq_some_iff notBackslash).mp closed).take).append more

private theorem leftAfter_openQuote : (['\'', '"'].all fun quote =>
    ((Shape.leftAfter shapes [quote]).all fun shape => !shape.pattern.acceptsEmpty) &&
      ['\n', '\r'].all fun c => (Shape.leftAfter shapes [quote, c]).isEmpty) = true := by
  decide

/-- A quote at the end of a line or of the source begins nothing. -/
theorem first?_quote (known : isQuote quote = true)
    (ends : forall c rest, body = c :: rest -> c = '\n' ∨ c = '\r') :
    first? (quote :: body) = none := by
  have listed : quote ∈ ['\'', '"'] := by
    rcases quote_cases known with rfl | rfl <;> decide
  have computed := List.all_eq_true.mp leftAfter_openQuote quote listed
  rcases Bool.and_eq_true_iff.mp computed with ⟨alone, broken⟩
  have nothing : Shape.longest? shapes (quote :: body) = none := by
    cases found : Shape.longest? shapes (quote :: body) with
    | none => rfl
    | some answer =>
      rcases answer with ⟨reading, size⟩
      have spec := Shape.longest?_spec shapes (quote :: body)
      rw [found] at spec
      have accepts := spec.accepted
      cases size with
      | zero => exact absurd accepts not_accepts_shapes_nil
      | succ size =>
        rw [List.take_succ_cons] at accepts
        cases begins : body.take size with
        | nil =>
          rw [begins, ← List.append_nil [quote], ← Shape.accepts_leftAfter_iff] at accepts
          rcases accepts with ⟨shape, left, -, matched⟩
          have computed := List.all_eq_true.mp alone shape left
          rw [acceptsEmpty_iff.mpr matched] at computed
          cases computed
        | cons c rest =>
          have head : body = c :: (rest ++ body.drop size) := by
            rw [← List.cons_append, ← begins, List.take_append_drop]
          have member : c ∈ ['\n', '\r'] := by
            rcases ends c _ head with rfl | rfl <;> decide
          have dead := List.isEmpty_iff.mp (List.all_eq_true.mp broken c member)
          rw [begins] at accepts
          exact absurd accepts (Shape.not_accepts_of_leftAfter dead)
  rw [first?, nothing]

/-- The first lexeme of a text that can be read on is read again alone, and before a space unless
the text ends with it. -/
theorem readBefore_of_first? (found : first? text = some (kind, length))
    (content : kind.isContent = true)
    (onward : text.drop length ≠ [] -> first? (text.drop length) ≠ none) (offset : Nat) :
    ReadBefore ⟨kind, text.take length, offset⟩ [] ∧
      (text.drop length ≠ [] ->
        forall more, ReadBefore ⟨kind, text.take length, offset⟩ (' ' :: more)) := by
  have sized : (text.take length).length = length :=
    (List.length_take ..).trans (Nat.min_eq_left (first?_le found))
  simp only [ReadBefore, sized]
  cases first?_eq_some_iff.mp found with
  | whole longest =>
    refine ⟨first?_take_whole longest content nofun, fun _ more => ?_⟩
    refine first?_take_whole longest content fun c rest same => ?_
    exact (List.cons.inj same).1.symm
  | quoted longest closed =>
    exact ⟨first?_take_quoted longest closed [], fun _ more =>
      first?_take_quoted longest closed (' ' :: more)⟩
  | @marked size c body _ _ longest rest marks broken =>
    have known := (Bool.and_eq_true_iff.mp marks).1
    -- Behind the name alone, reading would be stuck at the quote.
    have stuck : (forall c rest, body = c :: rest -> c = '\n' ∨ c = '\r') ->
        length = size -> False := by
      rintro ends rfl
      rw [rest] at onward
      exact onward (List.cons_ne_nil _ _) (first?_quote known ends)
    unfold brokenString? at broken
    split at broken
    · cases broken
      exact (stuck nofun rfl).elim
    · cases broken
      exact (stuck (fun c rest same => Or.inl (List.cons.inj same).1.symm) rfl).elim
    · cases broken
      exact (stuck (fun c rest same => Or.inr (List.cons.inj same).1.symm) rfl).elim
    · cases broken
      have ends : text.drop (size + 2) = [] := by
        rw [← List.drop_drop, rest]
        rfl
      refine ⟨?_, fun some => absurd ends some⟩
      rw [List.append_nil, List.take_of_length_le (List.drop_eq_nil_iff.mp ends)]
      exact found
    · cases broken

/-- In a text that is read to its end, each lexeme that becomes a token is read again alone, and
before a space unless it is the last lexeme. -/
theorem scan_readBefore (whole : (scan offset text).2 = []) :
    (forall lexeme, lexeme ∈ (scan offset text).1 -> lexeme.kind.isContent = true ->
        lexeme.ReadBefore []) ∧
      (scan offset text).1.Pairwise fun lexeme _ => lexeme.kind.isContent = true ->
        forall more, lexeme.ReadBefore (' ' :: more) := by
  fun_induction scan offset text with
  | case1 => exact ⟨fun _ member => absurd member List.not_mem_nil, .nil⟩
  | case2 offset c rest kind length found lexeme lexemes left again inductionHypothesis =>
    simp only at whole ⊢
    rw [again] at inductionHypothesis
    rcases inductionHypothesis whole with ⟨alone, spaced⟩
    have parts : (c :: rest).drop (length + 1) = rest.drop length := rfl
    have onward : (c :: rest).drop (length + 1) ≠ [] ->
        first? ((c :: rest).drop (length + 1)) ≠ none := by
      rw [parts]
      intro remains stuck
      cases further : rest.drop length with
      | nil => exact remains further
      | cons d others =>
        rw [further] at stuck again
        have nothing : forall kind length,
            first? (d :: others) ≠ some (kind, length + 1) := by
          intro kind length impossible
          rw [stuck] at impossible
          cases impossible
        rw [scan_stuck nothing] at again
        cases again
        cases whole
    have here := fun content => readBefore_of_first? found content onward offset
    constructor
    · intro other member
      rcases List.mem_cons.mp member with rfl | later
      · exact fun content => (here content).1
      · exact alone other later
    · refine List.pairwise_cons.mpr ⟨fun other member content => ?_, spaced⟩
      refine (here content).2 fun ends => ?_
      rw [← parts, ends, scan] at again
      cases again
      cases member
  | case3 => cases whole

/-! ## Lexemes between spaces -/

theorem ReadBefore.visible (alone : lexeme.ReadBefore []) (content : lexeme.kind.isContent = true) :
    Exists fun c => Exists fun rest => lexeme.text = c :: rest ∧ Text.isWhiteSpace c = false := by
  rw [ReadBefore, List.append_nil] at alone
  cases text : lexeme.text with
  | nil =>
    have none : first? [] = none := by decide
    rw [text, none] at alone
    cases alone
  | cons c rest =>
    refine ⟨c, rest, rfl, Bool.eq_false_iff.mpr fun blank => ?_⟩
    rw [text] at alone
    rw [isContent_of_whiteSpace blank alone] at content
    cases content

private theorem longest?_space :
    Shape.longest? shapes [' '] = some (.whole .whitespace, 1) := by
  decide

private theorem leftAfter_space : ((Shape.leftAfter shapes [' ']).all fun shape =>
    shape.reading = .whole .whitespace) = true := by
  decide

/-- A space before anything that is not white space is white space alone. -/
theorem first?_space (visible : Text.isWhiteSpace c = false) (more : List Char) :
    first? (' ' :: c :: more) = some (.whitespace, 1) := by
  have within : Shape.EndsWithin shapes [' '] (c :: more) := by
    intro reading beyond begins further goesOn
    rcases List.prefix_cons_iff.mp begins with rfl | ⟨rest, rfl, -⟩
    · exact further rfl
    · have blank : reading = .whole .whitespace := by
        rcases Shape.accepts_leftAfter_iff.mpr goesOn with ⟨shape, left, rfl, -⟩
        exact of_decide_eq_true (List.all_eq_true.mp leftAfter_space shape left)
      subst blank
      have white := whiteSpace_of_accepts goesOn c
        (List.mem_append_right _ List.mem_cons_self)
      rw [visible] at white
      cases white
  rw [first?_eq_some_iff]
  exact .whole ((Shape.longest?_append within).trans longest?_space) nofun

/-- What is read of lexemes with spaces between them: these lexemes, with no line break between
them and no white space before them. -/
structure Reread (lexemes read : List Lexeme) : Prop where
  faces : (read.filter fun lexeme => lexeme.kind.isContent).map face = lexemes.map face
  unbroken : forall lexeme, lexeme ∈ read -> lexeme.kind ≠ .newline
  begins : forall lexeme, read.head? = some lexeme -> lexeme.kind.isContent = true

theorem Reread.nil : Reread [] [] where
  faces := rfl
  unbroken _ member := absurd member List.not_mem_nil
  begins := by rintro _ ⟨⟩

/-- A lexeme is read again in front of white space and of what is read behind it. -/
theorem Reread.cons {read : List Lexeme} (content : lexeme.kind.isContent = true)
    (gap : List Lexeme) (blank : forall other, other ∈ gap -> other.kind = .whitespace)
    (reread : Reread lexemes read) (offset : Nat) :
    Reread (lexeme :: lexemes) (⟨lexeme.kind, lexeme.text, offset⟩ :: gap ++ read) where
  faces := by
    have nothing : gap.filter (fun other => other.kind.isContent) = [] := by
      refine List.filter_eq_nil_iff.mpr fun other member => ?_
      rw [blank other member]
      exact Bool.false_ne_true
    simp only [List.cons_append, List.filter_cons, content, if_true, List.filter_append, nothing,
      List.nil_append, List.map_cons, reread.faces]
    rfl
  unbroken := by
    intro other member breaks
    rcases List.mem_cons.mp member with rfl | member
    · rw [show lexeme.kind = .newline from breaks] at content
      cases content
    · rcases List.mem_append.mp member with between | behind
      · cases (blank other between).symm.trans breaks
      · exact reread.unbroken other behind breaks
  begins := by
    rintro other ⟨⟩
    exact content

/-- Lexemes with a single space between each two of them. -/
def spacedText (lexemes : List Lexeme) : List Char :=
  [' '].intercalate (lexemes.map Lexeme.text)

theorem spacedText_cons_cons (lexeme next : Lexeme) (others : List Lexeme) :
    spacedText (lexeme :: next :: others) = lexeme.text ++ ' ' :: spacedText (next :: others) := by
  simp only [spacedText, List.map_cons, List.intercalate_cons_cons, List.append_assoc]
  rfl

theorem spacedText_cons (lexeme : Lexeme) (others : List Lexeme) :
    Exists fun more => spacedText (lexeme :: others) = lexeme.text ++ more := by
  cases others with
  | nil => exact ⟨[], by simp [spacedText]⟩
  | cons next others => exact ⟨_, spacedText_cons_cons lexeme next others⟩

/-- Lexemes that become tokens and are read again when spaces stand between them. -/
structure Spaceable (lexemes : List Lexeme) : Prop where
  content : forall lexeme, lexeme ∈ lexemes -> lexeme.kind.isContent = true
  alone : forall lexeme, lexeme ∈ lexemes -> lexeme.ReadBefore []
  spaced : lexemes.Pairwise fun lexeme _ => forall more, lexeme.ReadBefore (' ' :: more)

theorem Spaceable.tail (spaceable : Spaceable (lexeme :: lexemes)) : Spaceable lexemes where
  content other member := spaceable.content other (List.mem_cons_of_mem lexeme member)
  alone other member := spaceable.alone other (List.mem_cons_of_mem lexeme member)
  spaced := (List.pairwise_cons.mp spaceable.spaced).2

/-- Whatever is left out of the lexemes of a source, those that become tokens can be spaced. -/
theorem spaceable_of_ofSource {source : String} {part : List Lexeme}
    (scanned : ofSource source = .ok lexemes) (among : part.Sublist lexemes) :
    Spaceable (part.filter fun lexeme => lexeme.kind.isContent) := by
  have whole := ofSource_eq_ok_iff.mp scanned
  have read := scan_readBefore (congrArg Prod.snd whole)
  rw [whole] at read
  rcases read with ⟨alone, spaced⟩
  have inside : (part.filter fun lexeme => lexeme.kind.isContent).Sublist lexemes :=
    List.filter_sublist.trans among
  have content := fun lexeme (member : lexeme ∈ part.filter fun lexeme => lexeme.kind.isContent) =>
    (List.mem_filter.mp member).2
  exact ⟨content,
    fun lexeme member => alone lexeme (inside.subset member) (content lexeme member),
    (spaced.sublist inside).imp_of_mem fun first _ free => free (content _ first)⟩

/-- Lexemes with single spaces between them are read again. -/
theorem scan_spacedText (spaceable : Spaceable lexemes) (offset : Nat) :
    Exists fun read => scan offset (spacedText lexemes) = (read, []) ∧ Reread lexemes read := by
  induction lexemes generalizing offset with
  | nil => exact ⟨[], by rw [spacedText, List.map_nil, List.intercalate_nil, scan], .nil⟩
  | cons lexeme lexemes inductionHypothesis =>
    have content := spaceable.content lexeme List.mem_cons_self
    have alone := spaceable.alone lexeme List.mem_cons_self
    rcases alone.visible content with ⟨_, _, starts, -⟩
    have nonempty : lexeme.text ≠ [] := starts ▸ List.cons_ne_nil _ _
    cases lexemes with
    | nil =>
      have scanned := scan_first alone nonempty offset
      rw [List.append_nil, scan] at scanned
      refine ⟨[⟨lexeme.kind, lexeme.text, offset⟩], ?_, ?_⟩
      · simpa [spacedText] using scanned
      · exact .cons content [] (fun _ member => absurd member List.not_mem_nil) .nil offset
    | cons next others =>
      have later := spaceable.tail
      have spaced := (List.pairwise_cons.mp spaceable.spaced).1 next List.mem_cons_self
      rcases inductionHypothesis later
        (offset + Source.byteLength lexeme.text + Source.byteLength [' ']) with
        ⟨read, further, reread⟩
      rcases (later.alone next List.mem_cons_self).visible
        (later.content next List.mem_cons_self) with ⟨c, rest, startsNext, visible⟩
      rcases spacedText_cons next others with ⟨more, parts⟩
      rw [startsNext, List.cons_append] at parts
      have scanned := scan_first (spaced (spacedText (next :: others))) nonempty offset
      rw [parts, scan_cons (first?_space visible (rest ++ more)), List.take_zero, List.drop_zero,
        ← parts, further] at scanned
      refine ⟨_, (congrArg (scan offset) (spacedText_cons_cons lexeme next others)).trans scanned,
        ?_⟩
      refine .cons content [⟨.whitespace, [' '], _⟩] (fun other member => ?_) reread offset
      cases List.mem_singleton.mp member
      rfl

end Lexeme
end Packrat
