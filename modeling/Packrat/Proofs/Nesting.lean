import Packrat.Proofs.Derivation
import Packrat.Proofs.Masks

namespace Packrat

/-!
# What a built-in rule matches is nested

Brackets come in pairs, and so do the beginnings and ends of blocks.  A rule keeps them in pairs if
each of its sequences closes what it opens, in order, and if nothing else in it tests one of these
tokens.  Between an opening and its closing token stand items that are nested themselves.  This is a
condition on one expression at a time, so it is checked by evaluation for the whole grammar, and
it carries over to everything that is generated, from lexed tokens or from any others.

A mocked rule matches a token that spells its name.  The names have more than one character, so no
such token is a bracket.
-/

/-! ## Nested words -/

/-- The pairs of tokens that enclose others. -/
inductive Delimiter where
  | round
  | square
  | curly
  | block
  deriving DecidableEq

/-- One of the two tokens of a pair. -/
inductive Mark where
  | opens (delimiter : Delimiter)
  | closes (delimiter : Delimiter)
  deriving DecidableEq

namespace Mark

/-- The operators that open or close. -/
def brackets : List (String × Mark) :=
  [("(", opens .round), (")", closes .round), ("[", opens .square), ("]", closes .square),
    ("\x7b", opens .curly), ("\x7d", closes .curly)]

/-- What a token of a kind with a text opens or closes. -/
def of? (kind : Token.Kind) (text : String) : Option Mark :=
  match kind with
  | .operator => brackets.lookup text
  | .indent => some (opens .block)
  | .dedent => some (closes .block)
  | _ => none

end Mark

/-- What a token opens or closes. -/
def Token.mark? (token : Token) : Option Mark :=
  Mark.of? token.kind token.text

/-- The marks among the tokens from one place to another. -/
def marksBetween (tokens : Array Token) (start stop : Nat) : List Mark :=
  (tokens.extract start stop).toList.filterMap Token.mark?

/-- Every opening mark has its closing mark, and what stands between them is nested.  A mark is
closed by its own counterpart, so that brackets of different shapes do not cross. -/
inductive Nested : List Mark -> Prop
  | nothing : Nested []
  | enclosed {delimiter : Delimiter} {inside rest : List Mark} :
      Nested inside -> Nested rest ->
      Nested (.opens delimiter :: inside ++ .closes delimiter :: rest)

variable {first rest marks : List Mark} {stack : List Delimiter} {delimiter : Delimiter}

theorem Nested.append (nested : Nested first) (more : Nested rest) : Nested (first ++ rest) := by
  induction nested with
  | nothing => exact more
  | enclosed inside _ _ restHypothesis =>
    rw [List.append_assoc]
    exact .enclosed inside restHypothesis

/-- Marks that are nested but for closing some open delimiters, the innermost first. -/
def Closes : List Delimiter -> List Mark -> Prop
  | [], marks => Nested marks
  | delimiter :: stack, marks => Exists fun inside => Exists fun rest =>
      marks = inside ++ .closes delimiter :: rest ∧ Nested inside ∧ Closes stack rest

namespace Closes

theorem prepend (nested : Nested first) (closes : Closes stack rest) :
    Closes stack (first ++ rest) := by
  cases stack with
  | nil => exact nested.append closes
  | cons delimiter stack =>
    rcases closes with ⟨inside, after, rfl, within, closes⟩
    exact ⟨first ++ inside, after, (List.append_assoc _ _ _).symm, nested.append within, closes⟩

theorem opened (closes : Closes (delimiter :: stack) marks) :
    Closes stack (.opens delimiter :: marks) := by
  rcases closes with ⟨inside, after, rfl, within, closes⟩
  have pair : Nested (.opens delimiter :: inside ++ [.closes delimiter]) :=
    .enclosed within .nothing
  have both := prepend pair closes
  rw [List.append_assoc] at both
  exact both

theorem closed (closes : Closes stack marks) :
    Closes (delimiter :: stack) (.closes delimiter :: marks) :=
  ⟨[], marks, rfl, .nothing, closes⟩

end Closes

/-! ## A condition on expressions -/

namespace Expression

/-- What the tokens open or close that pass a literal. -/
def mark? : Expression -> Option Mark
  | literal kind text => Mark.of? kind (text.getD "")
  | _ => none

mutual

/-- Whether an expression of a rule closes in order what it opens.  A test for any operator would
let brackets pass, and so would a mock of a name that is one. -/
def isNested (rule : String) : Expression -> Bool
  | literal kind text =>
    (literal kind text).mark?.isNone && (kind != .operator || text.isSome)
  | Expression.rule _ => true
  | sequence items => closesInOrder rule [] items
  | choice alternatives => allNested rule alternatives
  | optional body => isNested rule body
  | zeroOrMore body => isNested rule body
  | oneOrMore body => isNested rule body
  | mock => 1 < rule.length

/-- Whether items in order close some open delimiters and what they open themselves. -/
def closesInOrder (rule : String) : List Delimiter -> List Expression -> Bool
  | stack, [] => stack.isEmpty
  | stack, item :: items =>
    match item.mark? with
    | some (.opens delimiter) => closesInOrder rule (delimiter :: stack) items
    | some (.closes delimiter) =>
      stack.head? == some delimiter && closesInOrder rule stack.tail items
    | none => isNested rule item && closesInOrder rule stack items

def allNested (rule : String) : List Expression -> Bool
  | [] => true
  | item :: items => isNested rule item && allNested rule items

end

theorem isNested_of_mem {rule : String} {items : List Expression} {item : Expression}
    (nested : allNested rule items = true) (member : item ∈ items) : item.isNested rule = true := by
  induction items with
  | nil => cases member
  | cons other items inductionHypothesis =>
    rcases Bool.and_eq_true_iff.mp nested with ⟨now, later⟩
    rcases List.mem_cons.mp member with rfl | member
    · exact now
    · exact inductionHypothesis later member

end Expression

/-! ## Marks that pass a test -/

theorem length_le_of_bracket {text : String} {mark : Mark}
    (listed : Mark.brackets.lookup text = some mark) : text.length = 1 := by
  have single : forall entry, entry ∈ Mark.brackets -> entry.1.length = 1 := by decide
  rcases List.lookup_eq_some_iff.mp listed with ⟨before, after, same, -⟩
  exact single (text, mark) (same ▸ List.mem_append_right _ List.mem_cons_self)

namespace Text

theorem upperChar_ne_nil (c : Char) : upperChar c ≠ [] := by
  have expanded : forall entry, entry ∈ expandingCases -> entry.2 ≠ [] := by decide
  unfold upperChar
  split
  · rename_i codes listed
    rcases List.lookup_eq_some_iff.mp listed with ⟨before, after, same, -⟩
    have some := expanded (c.toNat, codes) (same ▸ List.mem_append_right _ List.mem_cons_self)
    exact fun none => some (List.map_eq_nil_iff.mp none)
  · split <;> exact List.cons_ne_nil _ _

theorem length_le_upperCase (text : String) : text.length ≤ (upperCase text).length := by
  rw [upperCase, String.length_ofList, ← String.length_toList]
  induction text.toList with
  | nil => exact Nat.le_refl _
  | cons c rest inductionHypothesis =>
    rw [List.flatMap_cons, List.length_append, List.length_cons]
    have one := List.length_pos_iff.mpr (upperChar_ne_nil c)
    omega

end Text

/-- A token that spells a name is a mark only if the name is a single character. -/
theorem length_le_of_mark {name : String} {token : Token} {mark : Mark}
    (passes : (TokenTest.spelling name).passes token = true) (marked : token.mark? = some mark) :
    name.length ≤ 1 := by
  simp only [TokenTest.passes, Bool.and_eq_true, Bool.not_eq_true', Bool.or_eq_true,
    beq_iff_eq] at passes
  rcases passes with ⟨visible, spelled⟩
  have bracket : Mark.brackets.lookup token.text = some mark := by
    unfold Token.mark? Mark.of? at marked
    cases kind : token.kind with
    | operator =>
      rw [kind] at marked
      exact marked
    | indent | dedent | endOfFile =>
      rw [kind] at visible
      cases visible
    | identifier | keyword | literal | newline =>
      rw [kind] at marked
      cases marked
  have single := length_le_of_bracket bracket
  rcases spelled with same | same
  · exact Nat.le_of_eq (same ▸ single)
  · exact Nat.le_trans (Text.length_le_upperCase name) (Nat.le_of_eq (same ▸ single))

/-- A token that passes a literal is the mark of the literal, unless any operator passes. -/
theorem mark?_of_passes {kind : Token.Kind} {text : Option String} {token : Token}
    (passes : (TokenTest.literal kind text).passes token = true)
    (definite : kind ≠ .operator ∨ text.isSome = true) :
    token.mark? = (Expression.literal kind text).mark? := by
  simp only [TokenTest.passes, Bool.and_eq_true, beq_iff_eq] at passes
  rcases passes with ⟨rfl, spelled⟩
  cases text with
  | some text =>
    rw [Option.all_some, beq_iff_eq] at spelled
    rw [Token.mark?, Expression.mark?, Option.getD_some, spelled]
  | none =>
    have other : token.kind ≠ .operator := definite.resolve_right Bool.false_ne_true
    unfold Token.mark? Expression.mark? Mark.of?
    cases kind : token.kind <;> first | rfl | exact absurd kind other

/-- A literal with a mark says which operator it means. -/
theorem definite_of_mark? {kind : Token.Kind} {text : Option String} {mark : Mark}
    (marked : (Expression.literal kind text).mark? = some mark) :
    kind ≠ .operator ∨ text.isSome = true := by
  cases text with
  | some => exact Or.inr rfl
  | none =>
    refine Or.inl fun same => ?_
    subst same
    cases marked

/-! ## Generated nodes -/

def Tree.marksOfAll (tokens : Array Token) (trees : List Tree) : List Mark :=
  (leavesOfAll trees).filterMap fun index => tokens[index]?.bind Token.mark?

namespace Tree

variable {tokens : Array Token}

theorem marksOfAll_append (first rest : List Tree) :
    marksOfAll tokens (first ++ rest) = marksOfAll tokens first ++ marksOfAll tokens rest := by
  rw [marksOfAll, leavesOfAll_append, List.filterMap_append]
  rfl

theorem marksOfAll_leaf {position : Nat} {token : Token}
    (found : tokens[position]? = some token) :
    marksOfAll tokens [leaf position] = token.mark?.toList := by
  simp only [marksOfAll, leavesOfAll, leaves, List.append_nil, List.filterMap_cons, found,
    Option.bind_some, List.filterMap_nil]
  cases token.mark? <;> rfl

theorem marksOfAll_ofRule (rule : String) (start : Nat) (children : List Tree) :
    marksOfAll tokens [ofRule rule start children] = marksOfAll tokens children := by
  rw [marksOfAll, leavesOfAll, leaves_ofRule, leavesOfAll, List.append_nil]
  rfl

end Tree

/-- The expression of every rule closes in order what it opens. -/
def Grammar.KeepsNested (grammar : Grammar) : Prop :=
  forall name target, grammar.find? name = some target -> target.effective.isNested name = true

namespace Generates

variable {grammar : Grammar} {tokens : Array Token} {rule : String} {expression : Expression}
  {position : Nat} {nodes : List Tree} {mark : Mark}

theorem marksOfAll_eq (generates : Generates grammar tokens rule expression position nodes)
    (marked : expression.mark? = some mark) : Tree.marksOfAll tokens nodes = [mark] := by
  cases generates with
  | literal found passes =>
    rw [Tree.marksOfAll_leaf found, mark?_of_passes passes (definite_of_mark? marked), marked]
    rfl
  | _ => cases marked

/-- What a nested expression generates is nested, and what items in order generate closes the
delimiters that the items close. -/
theorem nested_and_closes (keeps : grammar.KeepsNested)
    (generates : Generates grammar tokens rule expression position nodes) :
    (expression.isNested rule = true -> Nested (Tree.marksOfAll tokens nodes)) ∧
      forall items, expression = .sequence items -> forall stack,
        Expression.closesInOrder rule stack items = true ->
        Closes stack (Tree.marksOfAll tokens nodes) := by
  induction generates with
  | literal found passes =>
    refine ⟨fun nested => ?_, fun items impossible => by cases impossible⟩
    simp only [Expression.isNested, Bool.and_eq_true, Option.isNone_iff_eq_none, Bool.or_eq_true,
      bne_iff_ne] at nested
    rw [Tree.marksOfAll_leaf found, mark?_of_passes passes nested.2, nested.1]
    exact .nothing
  | mock found passes =>
    refine ⟨fun nested => ?_, fun items impossible => by cases impossible⟩
    rw [Expression.isNested, decide_eq_true_iff] at nested
    rw [Tree.marksOfAll_leaf found]
    cases marked : Token.mark? _ with
    | none => exact .nothing
    | some mark => exact absurd (length_le_of_mark passes marked) (Nat.not_le_of_lt nested)
  | rule found _ inductionHypothesis =>
    refine ⟨fun _ => ?_, fun items impossible => by cases impossible⟩
    rw [Tree.marksOfAll_ofRule]
    exact inductionHypothesis.1 (keeps _ _ found)
  | @sequenceNil rule _ =>
    have both : forall stack, Expression.closesInOrder rule stack [] = true ->
        Closes stack (Tree.marksOfAll tokens []) := by
      intro stack closed
      rw [List.isEmpty_iff.mp closed]
      exact .nothing
    exact ⟨both [], fun items same => by cases same; exact both⟩
  | @sequenceCons rule item items _ first rest itemGenerates _ itemHypothesis restHypothesis =>
    -- A mark changes the open delimiters; any other item is nested and leaves them as they are.
    have both : forall stack, Expression.closesInOrder rule stack (item :: items) = true ->
        Closes stack (Tree.marksOfAll tokens (first ++ rest)) := by
      intro stack closed
      have further := restHypothesis.2 items rfl
      rw [Tree.marksOfAll_append]
      rw [Expression.closesInOrder] at closed
      split at closed
      · rename_i delimiter marked
        rw [itemGenerates.marksOfAll_eq marked]
        exact (further _ closed).opened
      · rename_i delimiter marked
        rw [itemGenerates.marksOfAll_eq marked]
        rcases Bool.and_eq_true_iff.mp closed with ⟨top, closed⟩
        cases stack with
        | nil => cases top
        | cons other stack =>
          cases eq_of_beq top
          exact (further _ closed).closed
      · rcases Bool.and_eq_true_iff.mp closed with ⟨nested, closed⟩
        exact .prepend (itemHypothesis.1 nested) (further _ closed)
    exact ⟨both [], fun items same => by cases same; exact both⟩
  | choice member _ inductionHypothesis =>
    refine ⟨fun nested => ?_, fun items impossible => by cases impossible⟩
    exact inductionHypothesis.1 (Expression.isNested_of_mem nested member)
  | optionalNone => exact ⟨fun _ => .nothing, fun items impossible => by cases impossible⟩
  | optionalSome _ inductionHypothesis =>
    exact ⟨inductionHypothesis.1, fun items impossible => by cases impossible⟩
  | zeroOrMoreNil => exact ⟨fun _ => .nothing, fun items impossible => by cases impossible⟩
  | zeroOrMoreCons _ _ _ firstHypothesis restHypothesis =>
    refine ⟨fun nested => ?_, fun items impossible => by cases impossible⟩
    rw [Tree.marksOfAll_append]
    exact (firstHypothesis.1 nested).append (restHypothesis.1 nested)
  | oneOrMoreEmpty => exact ⟨fun _ => .nothing, fun items impossible => by cases impossible⟩
  | oneOrMoreCons _ _ _ firstHypothesis restHypothesis =>
    refine ⟨fun nested => ?_, fun items impossible => by cases impossible⟩
    rw [Tree.marksOfAll_append]
    exact (firstHypothesis.1 nested).append (restHypothesis.1 nested)

theorem filterMap_take_drop {α β : Type} (items : List α) (start count : Nat)
    (read : α -> Option β) :
    ((items.drop start).take count).filterMap read =
      (List.range' start count).filterMap fun index => items[index]?.bind read := by
  induction count generalizing start with
  | zero => rfl
  | succ count inductionHypothesis =>
    rw [List.range'_succ, List.filterMap_cons, ← inductionHypothesis]
    cases found : items[start]? with
    | none =>
      have beyond := List.getElem?_eq_none_iff.mp found
      rw [List.drop_eq_nil_of_le beyond, List.drop_eq_nil_of_le (Nat.le_succ_of_le beyond),
        List.take_nil, List.take_nil]
      rfl
    | some item =>
      rcases List.getElem?_eq_some_iff.mp found with ⟨inside, same⟩
      rw [List.drop_eq_getElem_cons inside, same, List.take_succ_cons, List.filterMap_cons]
      rfl

/-- The marks of the leaves are the marks of the tokens that the nodes cover. -/
theorem marksBetween_eq (generates : Generates grammar tokens rule expression position nodes) :
    marksBetween tokens position (position + Tree.consumedByAll nodes) =
      Tree.marksOfAll tokens nodes := by
  rw [Tree.marksOfAll, generates.leaves_eq, marksBetween, Array.toList_extract,
    List.extract_eq_take_drop, Nat.add_sub_cancel_left, filterMap_take_drop]
  simp only [Array.getElem?_toList]

end Generates

/-! ## The built-in grammar -/

namespace BuiltIn

/-- Every rule closes what it opens, and so does a mock of its name. -/
theorem isNested_of_mem {name : String} {definition : Expression}
    (member : (name, definition) ∈ grammar.definitions) :
    definition.isNested name = true ∧ Expression.mock.isNested name = true := by
  have all : (blockRules ++ statementRules ++ valueRules).all (fun entry =>
      entry.2.isNested entry.1 && Expression.mock.isNested entry.1) = true := by
    decide +kernel
  exact Bool.and_eq_true_iff.mp (List.all_eq_true.mp all _ (mem_of_mem_definitions member))

theorem keepsNested {names : List String} {mocked : Grammar}
    (mocks : grammar.mockAll names = .ok mocked) : mocked.KeepsNested := by
  intro name target found
  rcases Grammar.mem_rules_of_find? found with ⟨listed, rfl⟩
  exact Grammar.effective_of_definitions (Grammar.definitions_mockAll mocks)
    (fun _ _ => isNested_of_mem) listed

end BuiltIn

/-- Whatever rules of the built-in grammar are mocked, and whatever the tokens are, the brackets and
the bounds of blocks are nested among the tokens that a match consumes, and among those that any
rule in its tree covers. -/
theorem Matcher.matchRule_nested {names : List String} {grammar : Grammar}
    (mocked : BuiltIn.grammar.mockAll names = .ok grammar) (tokens : Array Token) (memoize : Bool)
    (memory : Session) (rule : String) (start : Nat) {tree : Tree}
    (matched : ((Matcher.mk grammar tokens memoize memory).matchRule rule start).1 =
      .ok (.success tree)) :
    Nested (marksBetween tokens start tree.stop) ∧
      forall node, node ∈ tree.nodes -> node.ruleName? ≠ none ->
        Nested (marksBetween tokens node.start node.stop) := by
  have keeps := BuiltIn.keepsNested mocked
  rcases evaluates_of_success matched with ⟨log, evaluates⟩
  have generates := evaluates.generates _ rfl
  constructor
  · have nested := (generates.nested_and_closes keeps).1 rfl
    rw [← generates.marksBetween_eq, (evaluates.covers _ rfl).next_eq] at nested
    exact nested
  · intro node member inner
    cases node with
    | leaf => exact absurd rfl inner
    | node name first consumed children =>
      rcases generates.of_mem_nodes tree List.mem_cons_self name first consumed children member with
        ⟨rfl, target, found, generated⟩
      have nested := (generated.nested_and_closes keeps).1 (keeps name target found)
      rw [← generated.marksBetween_eq] at nested
      exact nested

/-- A mocked rule in upper case between brackets that were never lexed. -/
theorem Matcher.matchRule_nested_mocked :
    let grammar := BuiltIn.grammar.setMock "testlist_comp" true
    let tokens : Array Token :=
      #[⟨.operator, "(", default, default⟩, ⟨.identifier, "TESTLIST_COMP", default, default⟩,
        ⟨.operator, ")", default, default⟩, ⟨.operator, ")", default, default⟩]
    BuiltIn.grammar.mockAll ["testlist_comp"] = .ok grammar ∧
      Exists fun tree =>
        ((Matcher.mk grammar tokens false {}).matchRule "atom" 0).1 = .ok (.success tree) ∧
          tree.consumed = 3 ∧ Nested (marksBetween tokens 0 tree.stop) := by
  intro grammar tokens
  have mocked : BuiltIn.grammar.mockAll ["testlist_comp"] = .ok grammar := by decide +kernel
  have consumed : ((Matcher.mk grammar tokens false {}).matchRule "atom" 0).1.toOption.bind
      Outcome.consumed? = some 3 := by decide +kernel
  cases matched : ((Matcher.mk grammar tokens false {}).matchRule "atom" 0).1 with
  | error =>
    rw [matched] at consumed
    cases consumed
  | ok outcome =>
    rw [matched] at consumed
    cases outcome with
    | failure => cases consumed
    | success tree =>
      exact ⟨mocked, tree, rfl, Option.some.inj consumed,
        (matchRule_nested mocked tokens false {} "atom" 0 matched).1⟩

end Packrat
