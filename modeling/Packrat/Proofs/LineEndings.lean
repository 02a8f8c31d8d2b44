import Packrat.Proofs.Likeness
import Packrat.Proofs.Places
import Packrat.Proofs.Readers
import Packrat.Proofs.Returns

namespace Packrat

/-!
# Tokens of a source with carriage returns

A source in which every line feed has a carriage return before it has the tokens of the source
without them, in the same lines and columns, or the same error at the same line and column.

Lexemes are the same by themselves.  For their positions, both sources are divided at the line break
before the place: there are as many line breaks up to it, and no carriage return behind it.
-/

namespace Source

variable {source text : List Char} {offset other : Nat}

/-! ## Positions -/

theorem getLast?_withReturns (feed : text.getLast? = some '\n') :
    (withReturns text).getLast? = some '\n' := by
  rcases List.getLast?_eq_some_iff.mp feed with ⟨front, rfl⟩
  rw [withReturns_append]
  exact List.getLast?_append_of_ne_nil _ (List.cons_ne_nil _ _)

/-- With carriage returns as many lines begin. -/
theorem length_startsAfterBreaks_withReturns (plain : '\r' ∉ text) (offset other : Nat) :
    (startsAfterBreaks other (withReturns text)).length =
      (startsAfterBreaks offset text).length := by
  induction text generalizing offset other with
  | nil => rfl
  | cons c rest inductionHypothesis =>
    rw [List.mem_cons, not_or] at plain
    rcases withReturns_cons_cases c rest with ⟨rfl, same⟩ | ⟨notFeed, same⟩
    · rw [same, startsAfterBreaks, startsAfterBreaks, List.length_cons, List.length_cons,
        inductionHypothesis plain.2]
    · have notReturn : c ≠ '\r' := Ne.symm plain.1
      have onward : forall (offset : Nat) (others : List Char),
          startsAfterBreaks offset (c :: others) =
            startsAfterBreaks (offset + c.utf8Size) others := by
        intro offset others
        rw [startsAfterBreaks]
        · exact fun further same => absurd same notReturn
        · exact notReturn
        · exact notFeed
      rw [same, onward, onward, inductionHypothesis plain.2]

/-- The same place has the same line and the same column with carriage returns. -/
theorem SamePlace.position_eq (same : SamePlace source offset other) (plain : '\r' ∉ source) :
    let position := (Lines.ofText source).position offset
    let position' := (Lines.ofText (withReturns source)).position other
    position'.line = position.line ∧ position'.column = position.column := by
  rcases same with ⟨front, back, rfl, rfl, rfl⟩
  rcases exists_lastLine front with ⟨begun, rest, rfl, begins, noFeed⟩
  rw [List.mem_append, List.mem_append, not_or, not_or] at plain
  have last : forall c, c ∈ rest -> c ≠ '\n' ∧ c ≠ '\r' := by
    intro c member
    constructor
    · rintro rfl
      exact noFeed member
    · rintro rfl
      exact plain.1.2 member
  have begins' : withReturns begun = [] ∨ (withReturns begun).getLast? = some '\n' :=
    begins.imp withReturns_eq_nil_iff.mpr getLast?_withReturns
  have here := OnLine.position_eq ⟨begins, last⟩ back
  have there := OnLine.position_eq ⟨begins', last⟩ (withReturns back)
  rw [withReturns_append, withReturns_append, withReturns_eq_self noFeed]
  simp only [here, there, and_true]
  exact length_startsAfterBreaks_withReturns plain.1.1 0 0

end Source

/-! ## Lines -/

open Source

/-- Positions in the same line and column. -/
structure Source.Position.SameSpot (position other : Source.Position) : Prop where
  line : other.line = position.line
  column : other.column = position.column

/-- A token of a source and one of the source with carriage returns are the same. -/
structure Token.Returned (token other : Token) : Prop where
  kind : other.kind = token.kind
  text : other.text.toList = withReturns token.text.toList
  spot : token.position.SameSpot other.position

/-- Errors of the same variant, about the same character or width, at the same line and column. -/
inductive LexError.Returned : LexError -> LexError -> Prop
  | unexpectedCharacter (c : Char) {position other : Source.Position} :
      position.SameSpot other ->
      LexError.Returned (.unexpectedCharacter c position) (.unexpectedCharacter c other)
  | unterminatedString {position other : Source.Position} :
      position.SameSpot other ->
      LexError.Returned (.unterminatedString position) (.unterminatedString other)
  | inconsistentDedent (width : Nat) {position other : Source.Position} :
      position.SameSpot other ->
      LexError.Returned (.inconsistentDedent width position) (.inconsistentDedent width other)

theorem Source.SamePlace.sameSpot {source : List Char} {offset other : Nat}
    (same : SamePlace source offset other) (plain : '\r' ∉ source) :
    ((Lines.ofText source).position offset).SameSpot
      ((Lines.ofText (withReturns source)).position other) :=
  ⟨(same.position_eq plain).1, (same.position_eq plain).2⟩

private theorem keywords_without_feed : (Token.keywords.all fun word =>
    !word.toList.contains '\n') = true := by
  decide

theorem Token.isKeyword_of_feed {text : List Char} (feed : '\n' ∈ text) :
    isKeyword (String.ofList text) = false := by
  rw [isKeyword, Bool.eq_false_iff]
  intro listed
  have computed := List.all_eq_true.mp keywords_without_feed _ (List.contains_iff_mem.mp listed)
  rw [String.toList_ofList] at computed
  simp [feed] at computed

theorem Token.isKeyword_withReturns (text : List Char) :
    isKeyword (String.ofList (withReturns text)) = isKeyword (String.ofList text) := by
  by_cases feed : '\n' ∈ text
  · rw [isKeyword_of_feed feed, isKeyword_of_feed (feed_mem_withReturns feed)]
  · rw [withReturns_eq_self feed]

theorem Lexeme.Returned.tokenKind?_eq {source : List Char} {lexeme other : Lexeme}
    (same : Returned source lexeme other) : Line.tokenKind? other = Line.tokenKind? lexeme := by
  unfold Line.tokenKind?
  rw [same.kind, same.text]
  cases lexeme.kind with
  | name => simp only [Token.isKeyword_withReturns]
  | _ => rfl

/-- What is the same with carriage returns. -/
def Likeness.returned (source : List Char) (plain : '\r' ∉ source) :
    Likeness (Lines.ofText source) (Lines.ofText (withReturns source)) where
  lexeme lexeme other := lexeme.Spelled ∧ Lexeme.Returned source lexeme other
  place := SamePlace source
  token := Token.Returned
  error := LexError.Returned
  kind_eq same := same.2.kind
  tokenKind?_eq same := same.2.tokenKind?_eq
  width_eq := by
    rintro lexeme other ⟨spelled, same⟩ blank tabSize start
    rw [Lexeme.Spelled, blank] at spelled
    rw [same.text, withReturns_eq_self (Lexeme.not_feed_of_whitespace (spelled nofun nofun))]
  start_place same := same.2.place
  token_of_lexeme := by
    rintro lexeme other ⟨-, same⟩ kind
    refine ⟨rfl, ?_, same.place.sameSpot plain⟩
    simp only [Line.tokenOf, String.toList_ofList, same.text]
  token_of_place same kind := ⟨rfl, rfl, same.sameSpot plain⟩
  error_of_place same width := .inconsistentDedent width (same.sameSpot plain)

/-! ## Streams -/

namespace Lexeme

theorem flatMap_text_returned {source : List Char} {lexemes others : List Lexeme}
    (same : List.Forall₂ (Returned source) lexemes others) :
    others.flatMap text = withReturns (lexemes.flatMap text) := by
  induction same with
  | nil => rfl
  | cons first _ inductionHypothesis =>
    rw [List.flatMap_cons, List.flatMap_cons, withReturns_append, first.text,
      inductionHypothesis]

/-- What cannot be read has the same error with carriage returns. -/
theorem unreadable_returned {c d : Char} {rest rest' : List Char}
    {position other : Source.Position} (same : withReturns (c :: rest) = d :: rest')
    (notFeed : c ≠ '\n') (spot : position.SameSpot other) :
    (unreadable (c :: rest) c position).Returned (unreadable (d :: rest') d other) := by
  have heads := (List.cons.inj ((withReturns_cons notFeed rest).symm.trans same)).1
  rw [unreadable, unreadable, ← same, startsString_withReturns, ← heads]
  split
  · exact .unterminatedString spot
  · exact .unexpectedCharacter c spot

/-- With carriage returns a source has the same lexemes or the same error. -/
theorem ofSource_withReturns (source : String) (plain : '\r' ∉ source.toList) :
    Correspond LexError.Returned (List.Forall₂ (Returned source.toList)) (ofSource source)
      (ofSource (String.ofList (withReturns source.toList))) := by
  have whole : source.toList = [] ++ source.toList := rfl
  have split := scan_append 0 source.toList
  have start : (0 : Nat) = byteLength [] := rfl
  rcases scan_withReturns plain whole start start with ⟨same, left⟩
  have unread := first?_left 0 source.toList
  have unread' := first?_left 0 (withReturns source.toList)
  unfold ofSource Lines.ofString
  rw [String.toList_ofList, Reader.read?_standard]
  rcases scanned : scan 0 source.toList with ⟨lexemes, rest⟩
  rcases scanned' : scan 0 (withReturns source.toList) with ⟨others, rest'⟩
  rw [scanned] at split unread
  rw [scanned'] at unread'
  rw [scanned, scanned'] at same left
  simp only at same left split unread unread'
  cases rest with
  | nil =>
    rw [withReturns_nil] at left
    subst left
    exact .ok same
  | cons c rest =>
    have notFeed : c ≠ '\n' := ne_lineFeed_of_scan (congrArg Prod.snd scanned)
    have place : SamePlace source.toList (byteLength (lexemes.flatMap text))
        (byteLength (others.flatMap text)) :=
      ⟨_, _, split.symm, rfl, by rw [flatMap_text_returned same]⟩
    cases rest' with
    | nil => exact absurd (withReturns_eq_nil_iff.mp left.symm) (List.cons_ne_nil c rest)
    | cons d rest' =>
      have standard := Reader.documented_standard
      simp only [standard.unreadable_reported (unread (List.cons_ne_nil c rest)),
        standard.unreadable_reported (unread' (List.cons_ne_nil d rest'))]
      exact .error (unreadable_returned left.symm notFeed (place.sameSpot plain))

end Lexeme

namespace Token

/-- Carriage returns before all line feeds of a source change neither whether it has tokens, nor the
kinds, lines and columns of these, nor the error that it has otherwise. -/
theorem stream_withReturns (tabSize : Nat) (source : String) (plain : '\r' ∉ source.toList) :
    Correspond LexError.Returned (List.Forall₂ Returned) (stream tabSize source)
      (stream tabSize (String.ofList (withReturns source.toList))) := by
  have scanned := Lexeme.ofSource_withReturns source plain
  unfold stream Lines.ofString
  rw [String.toList_ofList]
  cases found : Lexeme.ofSource source with
  | error error =>
    rw [found] at scanned
    generalize Lexeme.ofSource (String.ofList (withReturns source.toList)) = result at scanned ⊢
    cases scanned with
    | error same => exact .error same
  | ok lexemes =>
    rw [found] at scanned
    generalize Lexeme.ofSource (String.ofList (withReturns source.toList)) = result at scanned ⊢
    cases scanned with
    | @ok _ others same =>
      have lexemes_like : List.Forall₂ (Likeness.returned source.toList plain).lexeme lexemes
          others :=
        (List.forall₂_and_left _ _).mpr ⟨Lexeme.spelled_of_ofSource found, same⟩
      have ends : SamePlace source.toList (byteLength source.toList)
          (byteLength (withReturns source.toList)) :=
        ⟨source.toList, [], (List.append_nil _).symm, rfl, rfl⟩
      have lines_like := Likeness.finish_like tabSize (.before 0) lexemes_like
      exact Likeness.offside_like lines_like ends {}

/-- A block, a string over two lines, a line continuation and a line break in a short string. -/
theorem stream_withReturns_strings :
    let source := "a:\n '''b\nc''' \\\n 'd\\\ne'\n"
    let returned := "a:\r\n '''b\r\nc''' \\\r\n 'd\\\r\ne'\r\n"
    (stream 8 returned).toOption.isSome = true ∧ '\r' ∉ source.toList ∧
      Correspond LexError.Returned (List.Forall₂ Returned) (stream 8 source)
        (stream 8 returned) := by
  intro source returned
  have computed : (stream 8 returned).toOption.isSome = true := by decide +kernel
  have plain : '\r' ∉ source.toList := by decide +kernel
  have replaced : String.ofList (withReturns source.toList) = returned := by decide +kernel
  refine ⟨computed, plain, ?_⟩
  rw [← replaced]
  exact stream_withReturns 8 source plain

end Token
end Packrat
