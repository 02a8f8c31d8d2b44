import Packrat.Proofs.Concatenation
import Packrat.Proofs.Parsing
import Packrat.Proofs.Pointing
import Packrat.Proofs.Statements
import Packrat.Proofs.Translation

namespace Packrat

/-!
# Programs compose

A program is a file of statements.  Two programs, the first of which ends with a line break, make up
a program together.

The statements of the first are matched as before, for nothing that stands behind them matters: the
next token could only be one that continues a statement with a block, and no such token begins a
program.  After them the statements of the second are matched as on their own, further on.
-/

/-! ## A repetition that goes on in another text -/

theorem Step.followedBy_assoc (first second third : Step) :
    (first.followedBy second).followedBy third = first.followedBy (second.followedBy third) := by
  simp only [followedBy, List.append_assoc]

namespace Matching

variable {grammar : Grammar} {lookahead : Lookahead} {tokens others : Array Token}
  {active : List Frame} {rule : String} {body : Expression} {position last : Nat}
  {answer : Answer} {log : Log}

/-- Two texts have the same tokens up to one that ends a line, and in neither of them the next token
passes one of some tests. -/
structure SameLines (tokens others : Array Token) (last : Nat) (follows : List TokenTest) :
    Prop where
  same : forall place, place ≤ last -> forall question : TokenTest,
    question.passesAt others place = question.passesAt tokens place
  lineEnds : forall question : TokenTest, question.isWithinLine = true ->
    question.passesAt tokens last = false
  ends : ¬ Begins tokens follows (last + 1)
  endsOther : ¬ Begins others follows (last + 1)

/-- A round that ends behind these lines, or before, is the same in both texts, unless a test could
continue it. -/
theorem Evaluates.round_congr (looks : grammar.LooksAhead lookahead)
    (decided : body.isDecided lookahead grammar.nullableRules rule = true)
    (lines : SameLines tokens others last
      (body.continuations lookahead grammar.nullableRules rule))
    {step : Step}
    (evaluates : Evaluates grammar tokens active rule body position (.ok (some step)) log)
    (inside : step.next ≤ last + 1)
    (leaves : ¬ Begins tokens (body.continuations lookahead grammar.nullableRules rule)
      step.next) :
    Evaluates grammar others active rule body position (.ok (some step)) log := by
  refine (evaluates.congr fun question place tries => ?_).1
  rcases evaluates.seesUpTo looks lines.lineEnds decided step rfl inside leaves question place
    tries with before | ⟨rfl, -, asked⟩
  · exact lines.same place before question
  · have fails : question.passesAt tokens (last + 1) = false :=
      Bool.eq_false_iff.mpr fun passes => lines.ends ⟨question, asked, passes⟩
    have failsOther : question.passesAt others (last + 1) = false :=
      Bool.eq_false_iff.mpr fun passes => lines.endsOther ⟨question, asked, passes⟩
    rw [fails, failsOther]

/-- A repetition up to the end of these lines goes on with what the other text repeats there. -/
theorem Evaluates.continued (looks : grammar.LooksAhead lookahead)
    (decided : (Expression.zeroOrMore body).isDecided lookahead grammar.nullableRules rule = true)
    (lines : SameLines tokens others last
      (body.continuations lookahead grammar.nullableRules rule))
    (evaluates : Evaluates grammar tokens active rule (.zeroOrMore body) position answer log)
    {after : Step} {logAfter : Log}
    (rest : Evaluates grammar others active rule (.zeroOrMore body) (last + 1) (.ok (some after))
      logAfter) :
    forall step, answer = .ok (some step) -> step.next = last + 1 -> Exists fun further : Log =>
      Evaluates grammar others active rule (.zeroOrMore body) position
        (.ok (some (step.followedBy after))) further := by
  generalize repetition : Expression.zeroOrMore body = expression at evaluates
  induction evaluates with
  | @zeroOrMoreStops _ _ _ _ answer =>
    cases repetition
    intro step matched edge
    rcases answer with error | found <;> cases matched
    cases edge
    exact ⟨logAfter, rest⟩
  | @zeroOrMoreGoesOn _ rule _ _ first _ _ _ round moves onward _ restHypothesis =>
    cases repetition
    intro step matched edge
    rcases Answer.map_eq_some matched with ⟨later, reached, rfl⟩
    have edge : later.next = last + 1 := edge
    rcases Bool.and_eq_true_iff.mp decided with ⟨decidedBody, apart⟩
    have forward := (onward.covers later reached).le_next
    -- The next round begins with a token that does not continue this one.
    have leaves : ¬ Begins tokens (body.continuations lookahead grammar.nullableRules rule)
        first.next := by
      by_cases stays : later.next = first.next
      · rw [← stays, edge]
        exact lines.ends
      · exact onward.not_begins_of_isApartFrom looks apart later reached stays
    have round' := round.round_congr looks decidedBody lines (by omega) leaves
    rcases restHypothesis decided lines rest rfl later reached edge with ⟨more, onward'⟩
    rw [Step.followedBy_assoc]
    exact ⟨_, .zeroOrMoreGoesOn round' moves onward'⟩
  | _ => cases repetition

end Matching

/-! ## Whole files -/

namespace BuiltIn

variable {tokens others joined : Array Token} {step : Step} {log : Log}

/-- From a place on, what a file repeats is matched with a step and a log. -/
def Items (tokens : Array Token) (position : Nat) (step : Step) (log : Log) : Prop :=
  Matching.Evaluates grammar tokens [⟨"file_input", 0⟩] "file_input" (.zeroOrMore fileItem) position
    (.ok (some step)) log

/-- What a file repeats goes on to the end of the file. -/
theorem items_of_file
    (evaluates : Matching.Evaluates grammar tokens [] "file_input" (.rule "file_input") 0
      (.ok (some step)) log) :
    Exists fun items => Exists fun inside => Items tokens 0 items inside ∧
      inside.refusals = 0 ∧ endTest.passesAt tokens items.next = true := by
  have mocks : grammar.mockAll [] = .ok grammar := rfl
  have unrefused := evaluates.unrefused (leftAcyclic mocks) .start
  generalize reached : (Except.ok (some step) : Answer) = answer at evaluates
  cases evaluates with
  | undefined => cases reached
  | refused => cases reached
  | called found absent within =>
    cases found.symm.trans find?_file_input
    rcases Answer.map_eq_some reached.symm with ⟨whole, same, rfl⟩
    subst same
    generalize reached' : (Except.ok (some whole) : Answer) = answer at within
    cases within with
    | sequenceStops _ stops => exact absurd reached'.symm (stops _)
    | sequenceGoesOn items rest =>
      rcases Answer.map_eq_some reached'.symm with ⟨last, same, -⟩
      subst same
      have quiet := (Log.refusals_append_eq_zero_iff.mp unrefused).1
      refine ⟨_, _, items, quiet, ?_⟩
      have moves := rest.moves rfl last rfl
      rcases rest.begins looksAhead.startsBy rfl last rfl moves with ⟨question, asked, passes⟩
      cases List.mem_singleton.mp asked
      exact passes

/-- What a file repeats, up to the end of the file, is a file. -/
theorem file_of_items (items : Items tokens 0 step log)
    (ends : endTest.passesAt tokens step.next = true) :
    Exists fun whole => Exists fun further =>
      Matching.Evaluates grammar tokens [] "file_input" (.rule "file_input") 0 (.ok (some whole))
        further ∧ whole.next = step.next + 1 := by
  have last : Matching.Evaluates grammar tokens [⟨"file_input", 0⟩] "file_input" (.any .endOfFile)
      step.next (.ok (some ⟨step.next + 1, [.leaf step.next]⟩))
      (endTest.log tokens "file_input" step.next) := by
    rw [← TokenTest.step?_of_passesAt ends]
    exact .literal
  have inside := Matching.Evaluates.sequenceGoesOn items (.sequenceGoesOn last .sequenceNil)
  have whole : Matching.Evaluates grammar tokens [] "file_input" (.rule "file_input") 0 _ _ :=
    .called find?_file_input List.not_mem_nil inside
  exact ⟨_, _, whole, (inside.covers _ rfl).under_next "file_input"⟩

/-- What a file repeats begins with none of the tests that exclude its beginning and the end of the
file. -/
theorem Items.not_begins {tests : List TokenTest} (items : Items tokens 0 step log)
    (ends : endTest.passesAt tokens step.next = true)
    (apart : fileItem.isApartFrom lookahead [] "file_input" tests = true)
    (excludes : excludeAll [endTest] tests = true) : ¬ Begins tokens tests 0 := by
  by_cases stays : step.next = 0
  · have begins : Begins tokens [endTest] 0 :=
      ⟨endTest, List.mem_singleton_self _, stays ▸ ends⟩
    exact begins.not_of_excludeAll excludes
  · rw [← nullableRules_eq] at apart
    exact items.not_begins_of_isApartFrom looksAhead apart step rfl stays

theorem Items.moved {distance : Nat} (items : Items others 0 step log)
    (unrefused : log.refusals = 0)
    (same : forall place (question : TokenTest),
      question.passesAt joined (place + distance) = question.passesAt others place) :
    Exists fun further => Items joined distance (step.moved 0 distance) further := by
  have there : Matching.Evaluates grammar joined [Frame.moved 0 distance ⟨"file_input", 0⟩]
      "file_input" (.zeroOrMore fileItem) (Packrat.moved 0 distance 0)
      (Answer.moved 0 distance (.ok (some step))) (log.moved 0 distance) :=
    Matching.Evaluates.moved items (Nat.le_refl _) (fun frame _ => Nat.zero_le _)
      fun question place _ => same place question
  have start : Packrat.moved 0 distance 0 = distance := Nat.zero_add distance
  rw [start] at there
  refine ⟨_, there.under_active ((Log.refusals_moved log).trans unrefused) ?_⟩
  -- The frame of the file is active here too, so it is not entered even if nothing moves.
  intro frame entered member
  cases List.mem_singleton.mp member
  rcases Log.entered_of_moved entered with ⟨⟨rule, place⟩, earlier, same⟩
  have named : rule = "file_input" := congrArg Frame.rule same
  have beginning : place + distance = 0 := congrArg Frame.position same
  rw [named, Nat.eq_zero_of_add_eq_zero_right beginning] at earlier
  exact items.not_mem_of_entered _ earlier List.mem_cons_self

end BuiltIn

/-! ## Tokens that look alike -/

namespace TokenTest

variable {question : TokenTest}

/-- A test for tokens inside a line fails on a token that ends a line or a block. -/
theorem fails_of_isWithinLine {token : Token} (within : question.isWithinLine = true)
    (ends : token.kind = .newline ∨ token.kind = .dedent) : question.passes token = false := by
  cases question with
  | spelling => cases within
  | literal kind text =>
    rw [passes, Bool.and_eq_false_iff, beq_eq_false_iff_ne]
    left
    rintro same
    rw [isWithinLine, ← same] at within
    rcases ends with newline | dedent
    · rw [newline] at within
      cases within
    · rw [dedent] at within
      cases within

theorem passes_congr {token other : Token} (same : other.face = token.face) :
    question.passes other = question.passes token := by
  rcases Prod.mk.inj same with ⟨kinds, texts⟩
  cases question <;> simp only [passes, kinds, texts]

theorem passesAt_congr_face {tokens others : List Token} {place there : Nat}
    (same : (others.map Token.face)[there]? = (tokens.map Token.face)[place]?) :
    question.passesAt others.toArray there = question.passesAt tokens.toArray place := by
  rw [List.getElem?_map, List.getElem?_map] at same
  rw [passesAt, passesAt, List.getElem?_toArray, List.getElem?_toArray]
  cases here : tokens[place]? with
  | none =>
    rw [here, Option.map_none, Option.map_eq_none_iff] at same
    rw [same]
  | some token =>
    rw [here, Option.map_some] at same
    rcases Option.map_eq_some_iff.mp same with ⟨other, found, alike⟩
    rw [found]
    exact passes_congr alike

end TokenTest

namespace BuiltIn

variable {front earlier others joined : List Token} {last final : Token}
  {step stepOther after : Step} {log logOther logAfter : Log}

/-- The tokens of two texts together: first those of the one and then those of the other, as tests
see them. -/
def Joins (front others joined : List Token) : Prop :=
  joined.map Token.face = front.map Token.face ++ others.map Token.face

theorem Joins.before (joins : Joins front others joined) {place : Nat}
    (inside : place < front.length) (last : Token) (question : TokenTest) :
    question.passesAt joined.toArray place =
      question.passesAt (front ++ [last]).toArray place := by
  refine TokenTest.passesAt_congr_face ?_
  rw [joins, List.map_append, List.getElem?_append_left (by simpa using inside),
    List.getElem?_append_left (by simpa using inside)]

theorem Joins.behind (joins : Joins front others joined) (place : Nat) (question : TokenTest) :
    question.passesAt joined.toArray (place + front.length) =
      question.passesAt others.toArray place := by
  refine TokenTest.passesAt_congr_face ?_
  rw [joins, List.getElem?_append_right (by simp), List.length_map, Nat.add_sub_cancel]

theorem eq_length_of_ends {place : Nat}
    (inner : forall token, token ∈ front -> token.kind ≠ .endOfFile)
    (ends : endTest.passesAt (front ++ [last]).toArray place = true) : place = front.length := by
  have within := TokenTest.lt_size_of_passesAt ends
  rw [List.size_toArray, List.length_append, List.length_singleton] at within
  rcases Nat.lt_or_eq_of_le (Nat.le_of_lt_succ within) with early | same
  · rw [TokenTest.passesAt, List.getElem?_toArray, List.getElem?_append_left early,
      List.getElem?_eq_getElem early] at ends
    simp only [Option.any_some, endTest, TokenTest.passes, Bool.and_eq_true, beq_iff_eq] at ends
    exact absurd ends.1 (inner _ (List.getElem_mem early))
  · exact same

theorem nested_of_file (inner : forall token, token ∈ front -> token.kind ≠ .endOfFile)
    (evaluates : Matching.Evaluates grammar (front ++ [last]).toArray [] "file_input"
      (.rule "file_input") 0 (.ok (some step)) log) :
    Nested ((front ++ [last]).filterMap Token.mark?) := by
  have mocks : grammar.mockAll [] = .ok grammar := rfl
  rcases items_of_file evaluates with ⟨repeated, _, items, -, ends⟩
  rcases file_of_items items ends with ⟨whole, _, again, next⟩
  cases (evaluates.unique again).1
  have generates := evaluates.generates _ rfl
  have nested := (generates.nested_and_closes (keepsNested mocks)).1 rfl
  rw [← generates.marksBetween_eq, (evaluates.covers _ rfl).next_eq, next,
    eq_length_of_ends inner ends, marksBetween] at nested
  have size : (front ++ [last]).toArray.size ≤ front.length + 1 := by
    rw [List.size_toArray, List.length_append, List.length_singleton]
  rw [Array.extract_eq_self_of_le size] at nested
  exact nested

/-- Behind a line or a block that ends, a file goes on with what another file repeats. -/
theorem Items.continued (joins : Joins (earlier ++ [final]) others joined)
    (blockEnds : final.kind = .newline ∨ final.kind = .dedent)
    (items : Items (earlier ++ [final] ++ [last]).toArray 0 step log)
    (ends : endTest.passesAt (earlier ++ [final] ++ [last]).toArray (earlier.length + 1) = true)
    (edge : step.next = earlier.length + 1)
    (itemsOther : Items others.toArray 0 stepOther logOther)
    (endsOther : endTest.passesAt others.toArray stepOther.next = true)
    (rest : Items joined.toArray (earlier.length + 1) after logAfter) :
    Exists fun further => Items joined.toArray 0 (step.followedBy after) further := by
  have size : (earlier ++ [final]).length = earlier.length + 1 := List.length_append
  have lines : Matching.SameLines (earlier ++ [final] ++ [last]).toArray joined.toArray
      earlier.length blockContinues := by
    constructor
    · exact fun place inside => joins.before (by omega) last
    · intro question within
      rw [TokenTest.passesAt, List.getElem?_toArray, List.append_assoc,
        List.getElem?_append_right (Nat.le_refl _), Nat.sub_self, List.singleton_append,
        List.getElem?_cons_zero, Option.any_some]
      exact TokenTest.fails_of_isWithinLine within blockEnds
    · have begins : Begins (earlier ++ [final] ++ [last]).toArray [endTest]
          (earlier.length + 1) :=
        ⟨endTest, List.mem_singleton_self _, ends⟩
      exact begins.not_of_excludeAll (by decide)
    · rintro ⟨question, asked, passes⟩
      have there := joins.behind 0 question
      rw [Nat.zero_add, size, passes] at there
      exact itemsOther.not_begins endsOther (by decide +kernel) (by decide)
        ⟨question, asked, there.symm⟩
  rw [← fileItem_continuations] at lines
  exact Matching.Evaluates.continued looksAhead fileItem_decided lines items rest step rfl edge

/-- A file does not begin with an indentation. -/
theorem head_ne_indent
    (evaluates : Matching.Evaluates grammar others.toArray [] "file_input" (.rule "file_input") 0
      (.ok (some step)) log) :
    forall token, others.head? = some token -> token.kind ≠ .indent := by
  rcases items_of_file evaluates with ⟨_, _, items, -, ends⟩
  intro token first indents
  have apart : fileItem.isApartFrom lookahead [] "file_input" [.literal .indent none] = true := by
    decide +kernel
  refine items.not_begins ends apart (by decide) ⟨_, List.mem_singleton_self _, ?_⟩
  rw [TokenTest.passesAt, List.getElem?_toArray, ← List.head?_eq_getElem?, first, Option.any_some,
    TokenTest.passes, indents]
  rfl

/-- Two files, the first of which ends a line or a block, are a file together. -/
theorem file_append (joins : Joins front others joined)
    (inner : forall token, token ∈ front -> token.kind ≠ .endOfFile)
    (blockEnds : forall token, front.getLast? = some token ->
      token.kind = .newline ∨ token.kind = .dedent)
    (first : Matching.Evaluates grammar (front ++ [last]).toArray [] "file_input"
      (.rule "file_input") 0 (.ok (some step)) log)
    (second : Matching.Evaluates grammar others.toArray [] "file_input" (.rule "file_input") 0
      (.ok (some stepOther)) logOther) :
    Exists fun whole => Exists fun further => Exists fun place =>
      Matching.Evaluates grammar joined.toArray [] "file_input" (.rule "file_input") 0
        (.ok (some whole)) further ∧ whole.next = place + 1 ∧
        endTest.passesAt joined.toArray place = true := by
  rcases items_of_file first with ⟨repeated, _, items, -, ends⟩
  rcases items_of_file second with ⟨repeatedOther, _, itemsOther, unrefused, endsOther⟩
  have edge := eq_length_of_ends inner ends
  rcases itemsOther.moved unrefused joins.behind with ⟨_, rest⟩
  have whole : Exists fun all => all.next = repeatedOther.next + front.length ∧
      Exists fun further => Items joined.toArray 0 all further := by
    rcases List.eq_nil_or_concat front with rfl | ⟨earlier, final, rfl⟩
    · exact ⟨repeatedOther.moved 0 0, rfl, _, rest⟩
    · rw [List.concat_eq_append] at *
      have size : (earlier ++ [final]).length = earlier.length + 1 := List.length_append
      rw [size] at edge rest
      refine ⟨repeated.followedBy (repeatedOther.moved 0 (earlier.length + 1)), ?_, ?_⟩
      · rw [size]
        rfl
      · exact items.continued joins (blockEnds final List.getLast?_concat) (edge ▸ ends) edge
          itemsOther endsOther rest
  rcases whole with ⟨all, reached, _, items⟩
  have closed : endTest.passesAt joined.toArray all.next = true := by
    rw [reached]
    exact (joins.behind _ _).trans endsOther
  rcases file_of_items items closed with ⟨found, further, matched, next⟩
  exact ⟨found, further, _, matched, next, closed⟩

end BuiltIn

/-! ## Programs -/

/-- Programs compose.  Of two sources that are programs, the first one empty or with a line break
for its last lexeme that ends with a line feed, the one followed by the other is a program. -/
theorem Grammar.parse_append {first second : String} {tabSize : Nat} {memoize : Bool}
    {parse parseOther : Parse} (ends : Lexeme.EndsLine first)
    (parsed : BuiltIn.grammar.parse "file_input" first tabSize memoize = .ok parse)
    (parsedOther : BuiltIn.grammar.parse "file_input" second tabSize memoize = .ok parseOther) :
    Exists fun joined =>
      BuiltIn.grammar.parse "file_input" (first ++ second) tabSize memoize = .ok joined := by
  rcases matchEntirely_of_parse parsed with ⟨tokens, read, matched⟩
  rcases matchEntirely_of_parse parsedOther with ⟨others, readOther, matchedOther⟩
  rcases evaluates_of_matchEntirely matched with ⟨valid, log, evaluates⟩
  rcases evaluates_of_matchEntirely matchedOther with ⟨-, logOther, evaluatesOther⟩
  have some : tokens ≠ [] := by
    rcases Token.last_of_stream read with ⟨_, -, -, positive⟩
    exact List.length_pos_iff.mp positive
  rw [← List.dropLast_concat_getLast some] at evaluates
  have inner := Token.ne_endOfFile_of_stream read
  have nested := BuiltIn.nested_of_file inner evaluates
  rw [List.dropLast_concat_getLast some] at nested
  have closed := Token.openBrackets_of_nested read nested
  rcases Token.stream_append ends read readOther closed
    (BuiltIn.head_ne_indent evaluatesOther) with ⟨joined, readJoined, joins⟩
  have blockEnds := Token.endsBlock_of_stream ends read closed
  rcases BuiltIn.file_append joins inner blockEnds evaluates evaluatesOther with
    ⟨step, further, place, evaluatesJoined, next, ended⟩
  have reaches : Matcher.endOf joined.toArray ≤ step.next := by
    have inside := TokenTest.lt_size_of_passesAt ended
    refine Nat.le_of_not_lt fun beyond => ?_
    have early : place < Matcher.endOf joined.toArray := by omega
    have other := Array.not_of_lt_findIdx early
    rw [TokenTest.passesAt, Array.getElem?_eq_getElem inside, Option.any_some, BuiltIn.endTest,
      TokenTest.passes, other] at ended
    cases ended
  rcases matchEntirely_of_evaluates valid evaluatesJoined reaches memoize with
    ⟨tree, matchedJoined⟩
  exact ⟨_, parse_of_matchEntirely readJoined matchedJoined⟩

/-- A statement with a block, whose level the next program closes. -/
theorem Grammar.parse_append_block :
    let first := "if a:\n b\n"
    Lexeme.EndsLine first ∧
      (BuiltIn.grammar.parse "file_input" first 8 false).toOption.isSome = true ∧
      (BuiltIn.grammar.parse "file_input" "c\n" 8 false).toOption.isSome = true ∧
      Exists fun joined =>
        BuiltIn.grammar.parse "file_input" (first ++ "c\n") 8 false = .ok joined := by
  intro first
  have ends : Lexeme.EndsLine first := by
    have computed : (Lexeme.ofSource first).toOption.bind (fun lexemes =>
        lexemes.getLast?.map fun last => (last.kind, last.text)) =
          some (.newline, ['\n']) := by
      decide +kernel
    cases read : Lexeme.ofSource first with
    | error error =>
      rw [read] at computed
      cases computed
    | ok lexemes =>
      rw [read] at computed
      rcases Option.map_eq_some_iff.mp computed with ⟨last, final, same⟩
      rcases Prod.mk.inj same with ⟨kind, text⟩
      refine Or.inr ⟨lexemes.dropLast, last, ?_, kind, by rw [text]; rfl⟩
      rw [read, List.dropLast_append_getLast? last final]
  have parsed : (BuiltIn.grammar.parse "file_input" first 8 false).toOption.isSome = true := by
    decide +kernel
  have parsedOther : (BuiltIn.grammar.parse "file_input" "c\n" 8 false).toOption.isSome = true := by
    decide +kernel
  refine ⟨ends, parsed, parsedOther, ?_⟩
  cases result : BuiltIn.grammar.parse "file_input" first 8 false with
  | error error =>
    rw [result] at parsed
    cases parsed
  | ok parse =>
    cases resultOther : BuiltIn.grammar.parse "file_input" "c\n" 8 false with
    | error error =>
      rw [resultOther] at parsedOther
      cases parsedOther
    | ok parseOther => exact parse_append ends result resultOther

end Packrat
