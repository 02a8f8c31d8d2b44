import Packrat.Proofs.Barrier
import Packrat.Proofs.Layout
import Packrat.Proofs.Starting

namespace Packrat

/-!
# How far a match looks ahead

A greedy match looks at the token behind it: another round or an optional part could follow.  Where
the next token always decides between going on and leaving off, and between alternatives, this is
all that a successful match sees of what follows.  So it comes to the same before any token that
could not continue it.

Not all rules of a language are so simple.  Those inside a line may try much in vain; but they never
look beyond the end of the line, and need no condition.
-/

/-! ## Tests that exclude each other -/

namespace TokenTest

/-- No token passes both tests: they are for different kinds or for different texts.  Tests that are
not known to exclude each other may still have no token in common. -/
def excludes : TokenTest -> TokenTest -> Bool
  | literal kind text, literal kind' text' =>
    kind != kind' || text.any fun known => text'.any (known != ·)
  | _, _ => false

variable {question other : TokenTest} {token : Token}

theorem not_passes_of_excludes (excludes : question.excludes other = true)
    (passes : question.passes token = true) : other.passes token = false := by
  cases question with
  | spelling => cases excludes
  | literal kind text =>
    cases other with
    | spelling => cases excludes
    | literal kind' text' =>
      simp only [TokenTest.passes, Bool.and_eq_true, beq_iff_eq] at passes
      rcases passes with ⟨rfl, spelled⟩
      rw [TokenTest.passes, Bool.and_eq_false_iff]
      rcases Bool.or_eq_true_iff.mp excludes with kinds | texts
      · exact Or.inl (beq_eq_false_iff_ne.mpr (bne_iff_ne.mp kinds))
      · cases text with
        | none => cases texts
        | some known =>
          cases text' with
          | none => cases texts
          | some wanted =>
            rw [Option.all_some, beq_iff_eq] at spelled
            rw [Option.any_some, Option.any_some, bne_iff_ne, spelled] at texts
            exact Or.inr (beq_eq_false_iff_ne.mpr texts.symm)

/-- A test of a kind that only tokens inside a line have. -/
def isWithinLine : TokenTest -> Bool
  | literal kind _ => kind.isContent
  | spelling _ => false

end TokenTest

/-- Each of some tests excludes each of others. -/
def excludeAll (tests others : List TokenTest) : Bool :=
  tests.all fun question => others.all question.excludes

theorem Begins.not_of_excludeAll {tokens : Array Token} {tests others : List TokenTest}
    {place : Nat} (begins : Begins tokens tests place) (exclude : excludeAll tests others = true) :
    ¬ Begins tokens others place := by
  rcases begins with ⟨question, member, passes⟩
  rintro ⟨other, member', passes'⟩
  have excludes := List.all_eq_true.mp (List.all_eq_true.mp exclude question member) other member'
  unfold TokenTest.passesAt at passes passes'
  cases found : tokens[place]? with
  | none =>
    rw [found] at passes
    cases passes
  | some token =>
    rw [found] at passes passes'
    exact absurd passes' (Bool.eq_false_iff.mp (TokenTest.not_passes_of_excludes excludes passes))

/-! ## Expressions that the next token decides -/

/-- What is known of the rules of a grammar: for some of them the tests that they begin with, and
for those that go beyond a line the tests that could continue them. -/
structure Lookahead where
  starts : String -> Option (List TokenTest)
  continues : String -> Option (List TokenTest)

namespace Expression

variable (lookahead : Lookahead) (nullable : List String) (rule : String)

/-- The tests with one of which an expression begins, none if they are not known. -/
def firstTests (expression : Expression) : List TokenTest :=
  (expression.firstTests? nullable lookahead.starts rule).getD []

/-- Whether it is known what an expression begins with, and some tests exclude it. -/
def isApartFrom (tests : List TokenTest) (expression : Expression) : Bool :=
  (expression.firstTests? nullable lookahead.starts rule).any (excludeAll · tests)

mutual

/-- The tests that could continue a match of an expression. -/
def continuations : Expression -> List TokenTest
  | literal _ _ => []
  | Expression.rule name => (lookahead.continues name).getD []
  | sequence items => continuationsInOrder items
  | choice alternatives => continuationsOfAll alternatives
  | optional body => body.firstTests lookahead nullable rule ++ continuations body
  | zeroOrMore body => body.firstTests lookahead nullable rule ++ continuations body
  | oneOrMore body => body.firstTests lookahead nullable rule ++ continuations body
  | mock => []

def continuationsInOrder : List Expression -> List TokenTest
  | [] => []
  | item :: items =>
    continuationsInOrder items ++ if allNullable nullable items then continuations item else []

def continuationsOfAll : List Expression -> List TokenTest
  | [] => []
  | item :: items => continuations item ++ continuationsOfAll items

end

mutual

/-- Whether the next token decides between all ways to go on. -/
def isDecided : Expression -> Bool
  | literal _ _ => true
  | Expression.rule name => (lookahead.continues name).isSome || !nullable.contains name
  | sequence items => inOrderDecided items
  | choice alternatives => choiceDecided alternatives
  | optional body =>
    isDecided body && (body.firstTests? nullable lookahead.starts rule).isSome
  | zeroOrMore body => isDecided body &&
      isApartFrom lookahead nullable rule (continuations lookahead nullable rule body) body
  | oneOrMore body => isDecided body &&
      isApartFrom lookahead nullable rule (continuations lookahead nullable rule body) body
  | mock => true

/-- Whether the next token decides between going on with one of some expressions in order and
passing over to the next. -/
def inOrderDecided : List Expression -> Bool
  | [] => true
  | item :: items => isDecided item && inOrderDecided items &&
      let tests := continuations lookahead nullable rule item
      (tests.isEmpty || isApartFrom lookahead nullable rule tests (sequence items))

/-- Whether the next token decides between some expressions. -/
def choiceDecided : List Expression -> Bool
  | [] => true
  | item :: items => isDecided item && choiceDecided items && !anyNullable nullable items &&
      (item.firstTests? nullable lookahead.starts rule).any fun tests =>
        isApartFrom lookahead nullable rule tests (choice items)

end

variable {lookahead : Lookahead} {nullable : List String} {rule : String} {body : Expression}
  {tests : List TokenTest}

theorem exists_of_isApartFrom (apart : body.isApartFrom lookahead nullable rule tests = true) :
    Exists fun first => body.firstTests? nullable lookahead.starts rule = some first ∧
      excludeAll first tests = true :=
  (Option.any_eq_true _ _).mp apart

end Expression

/-- What is said of the rules of a grammar is right: some begin with the given tests, those that go
beyond a line are decided and continued by no other tests than the given ones, and the rest stay
within a line. -/
structure Grammar.LooksAhead (grammar : Grammar) (lookahead : Lookahead) : Prop where
  startsBy : grammar.StartsBy lookahead.starts
  decided : forall name target tests, grammar.find? name = some target ->
    lookahead.continues name = some tests ->
    target.effective.isDecided lookahead grammar.nullableRules name = true ∧
      target.effective.continuations lookahead grammar.nullableRules name ⊆ tests
  withinLine : forall name target, grammar.find? name = some target ->
    lookahead.continues name = none ->
    (forall question, question ∈ target.effective.tests name -> question.isWithinLine = true) ∧
      forall mentioned, mentioned ∈ target.effective.mentions ->
        lookahead.continues mentioned = none

/-- Whether the expression of a rule is as it is said to be. -/
def Lookahead.describes (lookahead : Lookahead) (nullable : List String) (name : String)
    (expression : Expression) : Bool :=
  ((lookahead.starts name).all fun tests =>
    (expression.firstTests? nullable lookahead.starts name).any (decide <| · ⊆ tests)) &&
  match lookahead.continues name with
  | some tests => expression.isDecided lookahead nullable name &&
      decide (expression.continuations lookahead nullable name ⊆ tests)
  | none => (expression.tests name).all TokenTest.isWithinLine &&
      expression.mentions.all fun mentioned => (lookahead.continues mentioned).isNone

theorem Grammar.LooksAhead.of_describes {grammar : Grammar} {lookahead : Lookahead}
    (describes : forall target, target ∈ grammar.rules ->
      lookahead.describes grammar.nullableRules target.name target.effective = true) :
    grammar.LooksAhead lookahead := by
  constructor
  · intro name target tests found known
    rcases mem_rules_of_find? found with ⟨listed, rfl⟩
    have described := (Bool.and_eq_true_iff.mp (describes target listed)).1
    rw [known, Option.all_some] at described
    rcases (Option.any_eq_true _ _).mp described with ⟨first, here, subset⟩
    exact ⟨first, here, of_decide_eq_true subset⟩
  · intro name target tests found role
    rcases mem_rules_of_find? found with ⟨listed, rfl⟩
    have described := (Bool.and_eq_true_iff.mp (describes target listed)).2
    rw [role] at described
    rcases Bool.and_eq_true_iff.mp described with ⟨decided, subset⟩
    exact ⟨decided, of_decide_eq_true subset⟩
  · intro name target found role
    rcases mem_rules_of_find? found with ⟨listed, rfl⟩
    have described := (Bool.and_eq_true_iff.mp (describes target listed)).2
    rw [role] at described
    rcases Bool.and_eq_true_iff.mp described with ⟨tests, mentions⟩
    refine ⟨List.all_eq_true.mp tests, fun mentioned member => ?_⟩
    exact Option.isNone_iff_eq_none.mp (List.all_eq_true.mp mentions mentioned member)

/-! ## What a successful match sees of what follows -/

/-- A match that ends in front of the token after a last one, or before, and that no test could
continue: what it tries is up to the last token, or one of these tests where it ends. -/
def SeesUpTo (tokens : Array Token) (last : Nat) (follows : List TokenTest)
    (tries : TokenTest -> Nat -> Prop) (answer : Answer) : Prop :=
  forall step, answer = .ok (some step) -> step.next ≤ last + 1 ->
    ¬ Begins tokens follows step.next -> forall question place, tries question place ->
      place ≤ last ∨ place = last + 1 ∧ step.next = last + 1 ∧ question ∈ follows

namespace SeesUpTo

variable {tokens : Array Token} {last : Nat} {follows followsFirst more : List TokenTest}
  {tries triesFirst : TokenTest -> Nat -> Prop} {answer : Answer} {first : Step}

theorem mono (sees : SeesUpTo tokens last follows tries answer) (subset : follows ⊆ more) :
    SeesUpTo tokens last more tries answer := by
  intro step matched inside ends question place tried
  have ends' : ¬ Begins tokens follows step.next := fun begins => ends (begins.mono subset)
  exact (sees step matched inside ends' question place tried).imp_right
    (And.imp_right (And.imp_right (subset ·)))

theorem of_imp (sees : SeesUpTo tokens last follows tries answer)
    (fewer : forall question place, triesFirst question place -> tries question place) :
    SeesUpTo tokens last follows triesFirst answer :=
  fun step matched inside ends question place tried =>
    sees step matched inside ends question place (fewer question place tried)

/-- A part and what comes after it: either this begins with a test that excludes the continuations
of the part, or it stays in place. -/
theorem followedBy (seesFirst : SeesUpTo tokens last followsFirst triesFirst (.ok (some first)))
    (sees : SeesUpTo tokens last follows tries answer)
    (forward : forall step, answer = .ok (some step) -> first.next ≤ step.next)
    (subset : follows ⊆ more)
    (decides : forall step, answer = .ok (some step) ->
      if step.next = first.next then followsFirst ⊆ more
      else ¬ Begins tokens followsFirst first.next) :
    SeesUpTo tokens last more
      (fun question place => triesFirst question place ∨ tries question place)
      (answer.map (Option.map first.followedBy)) := by
  intro step matched inside ends question place tried
  rcases Answer.map_eq_some matched with ⟨rest, same, rfl⟩
  have inside' : rest.next ≤ last + 1 := inside
  have onward := forward rest same
  have decided := decides rest same
  rcases tried with tried | tried
  · by_cases stays : rest.next = first.next
    · rw [if_pos stays] at decided
      have leaves : ¬ Begins tokens followsFirst first.next :=
        fun begins => ends (stays.symm ▸ begins.mono decided)
      rcases seesFirst first rfl (by omega) leaves question place tried with
        before | ⟨here, stop, asked⟩
      · exact Or.inl before
      · exact Or.inr ⟨here, stays.trans stop, decided asked⟩
    · rw [if_neg stays] at decided
      rcases seesFirst first rfl (by omega) decided question place tried with before | ⟨_, stop, _⟩
      · exact Or.inl before
      · omega
  · exact sees.mono subset rest same inside ends question place tried

end SeesUpTo

/-- A token that ends a line stops the rules that stay within one. -/
theorem Grammar.LooksAhead.stopsAt {grammar : Grammar} {lookahead : Lookahead}
    {tokens : Array Token} {last : Nat} (looks : grammar.LooksAhead lookahead)
    (lineEnds : forall question : TokenTest, question.isWithinLine = true ->
      question.passesAt tokens last = false) :
    grammar.StopsAt tokens (lookahead.continues · = none) last := by
  intro name role target found
  rcases looks.withinLine name target found role with ⟨tests, mentions⟩
  exact ⟨fun question asked => lineEnds question (tests question asked), mentions⟩

namespace Matching

variable {grammar : Grammar} {lookahead : Lookahead} {tokens : Array Token} {active : List Frame}
  {rule : String} {expression : Expression} {position last : Nat} {answer : Answer} {log : Log}

theorem seesUpTo_of_stays {starts : String -> Option (List TokenTest)} {tests : List TokenTest}
    {nodes : List Tree} (startsBy : grammar.StartsBy starts)
    (known : expression.firstTests? grammar.nullableRules starts rule = some tests) :
    SeesUpTo tokens last tests (Tries grammar tokens active rule expression position)
      (.ok (some ⟨position, nodes⟩)) := by
  intro step matched inside ends question place tries
  cases matched
  rcases tries.begins startsBy known with ⟨rfl, asked⟩ | ⟨-, begins⟩
  · rcases Nat.le_or_eq_of_le_succ inside with before | here
    · exact Or.inl before
    · exact Or.inr ⟨here, here, asked⟩
  · exact absurd begins ends

/-- What goes on begins with none of the tests that exclude its beginning. -/
theorem Evaluates.not_begins_of_isApartFrom {tests : List TokenTest}
    (looks : grammar.LooksAhead lookahead)
    (evaluates : Evaluates grammar tokens active rule expression position answer log)
    (apart : expression.isApartFrom lookahead grammar.nullableRules rule tests = true) :
    forall step, answer = .ok (some step) -> step.next ≠ position ->
      ¬ Begins tokens tests position := by
  intro step matched moves
  rcases Expression.exists_of_isApartFrom apart with ⟨first, known, excludes⟩
  exact (evaluates.begins looks.startsBy known step matched moves).not_of_excludeAll excludes

theorem Evaluates.moves
    (evaluates : Evaluates grammar tokens active rule expression position answer log)
    (solid : expression.isNullable grammar.nullableRules = false) :
    forall step, answer = .ok (some step) -> step.next ≠ position := by
  intro step matched stays
  have empty := evaluates.isNullable step matched stays
  rw [solid] at empty
  cases empty

/-- A rule that stays within a line sees nothing of what follows the line. -/
theorem Evaluates.seesUpTo_of_withinLine {name : String} (looks : grammar.LooksAhead lookahead)
    (lineEnds : forall question : TokenTest, question.isWithinLine = true ->
      question.passesAt tokens last = false)
    (evaluates : Evaluates grammar tokens active rule (.rule name) position answer log)
    (role : lookahead.continues name = none)
    (solid : grammar.nullableRules.contains name = false) :
    SeesUpTo tokens last [] (Tries grammar tokens active rule (.rule name) position) answer := by
  intro step matched inside ends question place tries
  have stops : (Expression.rule name).StopsAt tokens (lookahead.continues · = none) last rule := by
    refine ⟨nofun, fun mentioned listed => ?_⟩
    cases List.mem_singleton.mp listed
    exact role
  have forward := (evaluates.covers step matched).le_next
  have moves := evaluates.moves solid step matched
  exact Or.inl ((evaluates.stopsAt (looks.stopsAt lineEnds) stops (by omega)).2 _ _ tries)

/-- A round of a repetition and the rounds after it. -/
theorem Evaluates.seesUpTo_of_round {body : Expression} {first : Step}
    {tries : TokenTest -> Nat -> Prop} (looks : grammar.LooksAhead lookahead)
    (rest : Evaluates grammar tokens active rule (.zeroOrMore body) first.next answer log)
    (apart : body.isApartFrom lookahead grammar.nullableRules rule
      (body.continuations lookahead grammar.nullableRules rule) = true)
    (sees : SeesUpTo tokens last (body.continuations lookahead grammar.nullableRules rule) tries
      (.ok (some first)))
    (seesRest : SeesUpTo tokens last
      ((Expression.zeroOrMore body).continuations lookahead grammar.nullableRules rule)
      (Tries grammar tokens active rule (.zeroOrMore body) first.next) answer) :
    SeesUpTo tokens last
      ((Expression.zeroOrMore body).continuations lookahead grammar.nullableRules rule)
      (fun question place => tries question place ∨
        Tries grammar tokens active rule (.zeroOrMore body) first.next question place)
      (answer.map (Option.map first.followedBy)) := by
  refine sees.followedBy seesRest (fun step same => (rest.covers step same).le_next)
    (List.Subset.refl _) fun step same => ?_
  split
  · exact List.subset_append_right _ _
  · rename_i moves
    exact rest.not_begins_of_isApartFrom looks apart step same moves

/-- A decided match sees of what follows a last token of a line only the next token, and this only
with tests that could continue the match. -/
theorem Evaluates.seesUpTo (looks : grammar.LooksAhead lookahead)
    (lineEnds : forall question : TokenTest, question.isWithinLine = true ->
      question.passesAt tokens last = false)
    (evaluates : Evaluates grammar tokens active rule expression position answer log)
    (decided : expression.isDecided lookahead grammar.nullableRules rule = true) :
    SeesUpTo tokens last (expression.continuations lookahead grammar.nullableRules rule)
      (Tries grammar tokens active rule expression position) answer := by
  induction evaluates with
  | literal =>
    intro step passed inside _ question place tries
    have next := TokenTest.next_of_step? (Except.ok.inj passed)
    have here := (tries_literal_iff.mp tries).2
    omega
  | mock =>
    intro step passed inside _ question place tries
    have next := TokenTest.next_of_step? (Except.ok.inj passed)
    have here := (tries_mock_iff.mp tries).2
    omega
  | undefined => exact fun _ => nofun
  | refused => exact fun _ => nofun
  | @called _ _ name position target answer log found absent inside inductionHypothesis =>
    cases role : lookahead.continues name with
    | none =>
      rw [Expression.isDecided, role, Option.isSome_none, Bool.false_or, Bool.not_eq_true']
        at decided
      refine SeesUpTo.mono ?_ (List.nil_subset _)
      exact seesUpTo_of_withinLine looks lineEnds (.called found absent inside) role decided
    | some tests =>
      rcases looks.decided _ _ _ found role with ⟨decided', subset⟩
      intro step matched within ends question place tries
      rcases Answer.map_eq_some matched with ⟨matched', same, rfl⟩
      rw [(inside.covers _ same).under_next] at within ends ⊢
      rw [Expression.continuations, role] at ends ⊢
      exact (inductionHypothesis decided').mono subset matched' same within ends question place
        ((tries_rule_iff found absent).mp tries)
  | sequenceNil => exact fun _ _ _ _ _ _ tries => absurd tries not_tries_sequence_nil
  | sequenceStops _ stops _ => exact fun step matched => absurd matched (stops step)
  | @sequenceGoesOn _ _ _ _ _ first _ _ _ item rest itemHypothesis restHypothesis =>
    rcases Bool.and_eq_true_iff.mp decided with ⟨both, apart⟩
    rcases Bool.and_eq_true_iff.mp both with ⟨decidedItem, decidedRest⟩
    refine SeesUpTo.of_imp (.followedBy (itemHypothesis decidedItem) (restHypothesis decidedRest)
      (fun step same => (rest.covers step same).le_next) (List.subset_append_left _ _) ?_)
      fun question place => item.tries_sequence_iff.mp
    intro step same
    split
    · rename_i stays
      have empty := rest.isNullable step same stays
      rw [Expression.isNullable] at empty
      rw [Expression.continuations, Expression.continuationsInOrder, if_pos empty]
      exact List.subset_append_right _ _
    · rename_i moves
      rcases Bool.or_eq_true_iff.mp apart with nothing | apart
      · rw [List.isEmpty_iff.mp nothing]
        rintro ⟨question, impossible, -⟩
        cases impossible
      · exact rest.not_begins_of_isApartFrom looks apart step same moves
  | choiceNil => exact fun _ => nofun
  | choiceStops first stop inductionHypothesis =>
    rcases Bool.and_eq_true_iff.mp decided with ⟨decided, -⟩
    rcases Bool.and_eq_true_iff.mp decided with ⟨decided, -⟩
    rcases Bool.and_eq_true_iff.mp decided with ⟨decided, -⟩
    exact ((inductionHypothesis decided).mono (List.subset_append_left _ _)).of_imp
      fun question place => (first.tries_choice_stop_iff stop).mp
  | @choiceGoesOn _ _ _ _ position _ _ _ first rest firstHypothesis restHypothesis =>
    rcases Bool.and_eq_true_iff.mp decided with ⟨decided, apart⟩
    rcases Bool.and_eq_true_iff.mp decided with ⟨decided, solid⟩
    rcases Bool.and_eq_true_iff.mp decided with ⟨-, decided⟩
    rcases (Option.any_eq_true _ _).mp apart with ⟨tests, known, apart⟩
    intro step matched within ends question place tries
    have moves := rest.moves (Bool.not_eq_true' _ ▸ solid) step matched
    have forward := (rest.covers step matched).le_next
    rcases first.tries_choice_iff.mp tries with tried | tried
    · rcases tried.begins looks.startsBy known with ⟨rfl, -⟩ | ⟨-, begins⟩
      · exact Or.inl (by omega)
      · exact absurd begins (rest.not_begins_of_isApartFrom looks apart step matched moves)
    · exact (restHypothesis decided).mono (List.subset_append_right _ _) step matched within ends
        question place tried
  | @optional _ _ body _ answer _ _ inductionHypothesis =>
    rcases Bool.and_eq_true_iff.mp decided with ⟨decided, known⟩
    rcases Option.isSome_iff_exists.mp known with ⟨tests, known⟩
    rw [Expression.continuations, Expression.firstTests, known]
    rcases answer with error | none | found
    · exact fun _ => nofun
    · exact ((seesUpTo_of_stays looks.startsBy known).mono (List.subset_append_left _ _)).of_imp
        fun question place => tries_optional_iff.mp
    · exact ((inductionHypothesis decided).mono (List.subset_append_right _ _)).of_imp
        fun question place => tries_optional_iff.mp
  | @zeroOrMoreStops _ _ _ _ answer _ body stays _ =>
    rcases Bool.and_eq_true_iff.mp decided with ⟨-, apart⟩
    rcases Expression.exists_of_isApartFrom apart with ⟨tests, known, -⟩
    rw [Expression.continuations, Expression.firstTests, known]
    rcases answer with error | found
    · exact fun _ => nofun
    · exact ((seesUpTo_of_stays looks.startsBy known).mono (List.subset_append_left _ _)).of_imp
        fun question place => (body.tries_zeroOrMore_stop_iff stays).mp
  | oneOrMoreStops body stays _ =>
    rcases Bool.and_eq_true_iff.mp decided with ⟨-, apart⟩
    rcases Expression.exists_of_isApartFrom apart with ⟨tests, known, -⟩
    rw [Expression.continuations, Expression.firstTests, known]
    intro step matched
    rcases Answer.map_eq_some matched with ⟨_, -, rfl⟩
    exact ((seesUpTo_of_stays looks.startsBy known).mono (List.subset_append_left _ _)).of_imp
      (fun question place => (body.tries_oneOrMore_stop_iff stays).mp) _ rfl
  | zeroOrMoreGoesOn body moves rest bodyHypothesis restHypothesis =>
    rcases Bool.and_eq_true_iff.mp decided with ⟨decidedBody, apart⟩
    exact (rest.seesUpTo_of_round looks apart (bodyHypothesis decidedBody)
      (restHypothesis decided)).of_imp fun question place => (body.tries_zeroOrMore_iff moves).mp
  | oneOrMoreGoesOn body moves rest bodyHypothesis restHypothesis =>
    rcases Bool.and_eq_true_iff.mp decided with ⟨decidedBody, apart⟩
    exact (rest.seesUpTo_of_round looks apart (bodyHypothesis decidedBody)
      (restHypothesis decided)).of_imp fun question place => (body.tries_oneOrMore_iff moves).mp

end Matching
end Packrat
