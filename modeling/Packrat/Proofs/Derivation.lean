import Packrat.Proofs.Consistency
import Packrat.Proofs.Outcome

namespace Packrat

/-!
# Trees are derivations

A grammar read as extended Backus-Naur form generates lists of nodes: any alternative of a choice
and any number of rounds of a repetition will do.  Every tree that a match returns is generated in
this sense, whatever was refused or remembered on the way, and it accounts for each of its tokens
exactly once.
-/

/-- The nodes that an expression of a rule generates from a place on.  A leaf stands for a token
that passes its test.  A round of a repetition has tokens; a round without any adds no node, though
it is a round where one is needed. -/
inductive Generates (grammar : Grammar) (tokens : Array Token) :
    String -> Expression -> Nat -> List Tree -> Prop
  | literal {rule kind text position token} :
      tokens[position]? = some token -> (TokenTest.literal kind text).passes token = true ->
      Generates grammar tokens rule (.literal kind text) position [.leaf position]
  | mock {rule position token} :
      tokens[position]? = some token -> (TokenTest.spelling rule).passes token = true ->
      Generates grammar tokens rule .mock position [.leaf position]
  | rule {rule name position target children} :
      grammar.find? name = some target ->
      Generates grammar tokens name target.effective position children ->
      Generates grammar tokens rule (.rule name) position [Tree.ofRule name position children]
  | sequenceNil {rule position} : Generates grammar tokens rule (.sequence []) position []
  | sequenceCons {rule item items position first rest} :
      Generates grammar tokens rule item position first ->
      Generates grammar tokens rule (.sequence items) (position + Tree.consumedByAll first) rest ->
      Generates grammar tokens rule (.sequence (item :: items)) position (first ++ rest)
  | choice {rule alternative alternatives position nodes} :
      alternative ∈ alternatives ->
      Generates grammar tokens rule alternative position nodes ->
      Generates grammar tokens rule (.choice alternatives) position nodes
  | optionalNone {rule body position} : Generates grammar tokens rule (.optional body) position []
  | optionalSome {rule body position nodes} :
      Generates grammar tokens rule body position nodes ->
      Generates grammar tokens rule (.optional body) position nodes
  | zeroOrMoreNil {rule body position} :
      Generates grammar tokens rule (.zeroOrMore body) position []
  | zeroOrMoreCons {rule body position first rest} :
      Generates grammar tokens rule body position first -> 0 < Tree.consumedByAll first ->
      Generates grammar tokens rule (.zeroOrMore body) (position + Tree.consumedByAll first) rest ->
      Generates grammar tokens rule (.zeroOrMore body) position (first ++ rest)
  | oneOrMoreEmpty {rule body position nodes} :
      Generates grammar tokens rule body position nodes -> Tree.consumedByAll nodes = 0 ->
      Generates grammar tokens rule (.oneOrMore body) position []
  | oneOrMoreCons {rule body position first rest} :
      Generates grammar tokens rule body position first -> 0 < Tree.consumedByAll first ->
      Generates grammar tokens rule (.zeroOrMore body) (position + Tree.consumedByAll first) rest ->
      Generates grammar tokens rule (.oneOrMore body) position (first ++ rest)

/-! ## Trees side by side -/

namespace Tree

theorem leavesOfAll_append (first rest : List Tree) :
    leavesOfAll (first ++ rest) = leavesOfAll first ++ leavesOfAll rest := by
  induction first with
  | nil => rfl
  | cons tree trees inductionHypothesis =>
    simp only [List.cons_append, leavesOfAll, inductionHypothesis, List.append_assoc]

theorem runsFrom_append (place : Nat) (first rest : List Tree) :
    runsFrom place (first ++ rest) = (runsFrom place first).bind (runsFrom · rest) := by
  induction first generalizing place with
  | nil => simp [runsFrom]
  | cons tree trees inductionHypothesis =>
    simp only [List.cons_append, runsFrom]
    split
    · exact inductionHypothesis _
    · rfl

theorem leaves_ofRule (rule : String) (start : Nat) (children : List Tree) :
    (ofRule rule start children).leaves = leavesOfAll children := by
  rw [ofRule, leaves]

end Tree

variable {grammar : Grammar} {tokens : Array Token} {active : List Frame} {rule : String}
  {expression : Expression} {position : Nat} {answer : Answer} {log : Log} {nodes : List Tree}

namespace Generates

/-! ## Each token exactly once -/

/-- The nodes follow each other from the place on, in every tree. -/
theorem runsFrom_eq (generates : Generates grammar tokens rule expression position nodes) :
    Tree.runsFrom position nodes = some (position + Tree.consumedByAll nodes) := by
  induction generates with
  | literal =>
    simp [Tree.runsFrom, Tree.start, Tree.isConsistent, Tree.consumed, Tree.consumedByAll]
  | mock => simp [Tree.runsFrom, Tree.start, Tree.isConsistent, Tree.consumed, Tree.consumedByAll]
  | rule _ _ inductionHypothesis =>
    simp [Tree.runsFrom, Tree.ofRule, Tree.start, Tree.isConsistent, Tree.consumed,
      Tree.consumedByAll, inductionHypothesis]
  | sequenceNil => rfl
  | sequenceCons _ _ firstHypothesis restHypothesis =>
    rw [Tree.runsFrom_append, firstHypothesis, Option.bind_some, restHypothesis,
      Tree.consumedByAll_append, Nat.add_assoc]
  | choice _ _ inductionHypothesis => exact inductionHypothesis
  | optionalNone => rfl
  | optionalSome _ inductionHypothesis => exact inductionHypothesis
  | zeroOrMoreNil => rfl
  | zeroOrMoreCons _ _ _ firstHypothesis restHypothesis =>
    rw [Tree.runsFrom_append, firstHypothesis, Option.bind_some, restHypothesis,
      Tree.consumedByAll_append, Nat.add_assoc]
  | oneOrMoreEmpty => rfl
  | oneOrMoreCons _ _ _ firstHypothesis restHypothesis =>
    rw [Tree.runsFrom_append, firstHypothesis, Option.bind_some, restHypothesis,
      Tree.consumedByAll_append, Nat.add_assoc]

theorem contiguous (generates : Generates grammar tokens rule expression position nodes) :
    Tree.Contiguous position nodes ∧ forall tree, tree ∈ nodes -> tree.isConsistent = true := by
  rcases Tree.runsFrom_eq_some_iff.mp generates.runsFrom_eq with ⟨contiguous, each, -⟩
  exact ⟨contiguous, each⟩

theorem leaves_eq (generates : Generates grammar tokens rule expression position nodes) :
    Tree.leavesOfAll nodes = List.range' position (Tree.consumedByAll nodes) := by
  rcases generates.contiguous with ⟨contiguous, each⟩
  exact contiguous.leavesOfAll_eq fun tree member =>
    Tree.leaves_of_isConsistent (each tree member)

/-! ## Nodes are generated -/

/-- A node of a rule covers its children, and the expression of the rule generates them. -/
theorem of_mem_nodes (generates : Generates grammar tokens rule expression position nodes) :
    forall tree, tree ∈ nodes -> forall name start consumed children,
      .node name start consumed children ∈ tree.nodes ->
      consumed = Tree.consumedByAll children ∧ Exists fun target =>
        grammar.find? name = some target ∧
          Generates grammar tokens name target.effective start children := by
  induction generates with
  | literal =>
    intro tree member name start consumed children inner
    cases List.mem_singleton.mp member
    cases List.mem_singleton.mp inner
  | mock =>
    intro tree member name start consumed children inner
    cases List.mem_singleton.mp member
    cases List.mem_singleton.mp inner
  | rule found inside inductionHypothesis =>
    intro tree member name start consumed children inner
    cases List.mem_singleton.mp member
    rw [Tree.ofRule, Tree.nodes_node] at inner
    rcases List.mem_cons.mp inner with same | inner
    · cases same
      exact ⟨rfl, _, found, inside⟩
    · rcases List.mem_flatMap.mp inner with ⟨child, listed, inner⟩
      exact inductionHypothesis child listed name start consumed children inner
  | sequenceNil => intro tree impossible; cases impossible
  | sequenceCons _ _ firstHypothesis restHypothesis =>
    intro tree member
    exact (List.mem_append.mp member).elim (firstHypothesis tree) (restHypothesis tree)
  | choice _ _ inductionHypothesis => exact inductionHypothesis
  | optionalNone => intro tree impossible; cases impossible
  | optionalSome _ inductionHypothesis => exact inductionHypothesis
  | zeroOrMoreNil => intro tree impossible; cases impossible
  | zeroOrMoreCons _ _ _ firstHypothesis restHypothesis =>
    intro tree member
    exact (List.mem_append.mp member).elim (firstHypothesis tree) (restHypothesis tree)
  | oneOrMoreEmpty => intro tree impossible; cases impossible
  | oneOrMoreCons _ _ _ firstHypothesis restHypothesis =>
    intro tree member
    exact (List.mem_append.mp member).elim (firstHypothesis tree) (restHypothesis tree)

/-- A mocked rule generates one leaf that spells its name, as it is or in upper case. -/
theorem spelling_of_mock (generates : Generates grammar tokens rule .mock position nodes) :
    nodes = [.leaf position] ∧ Exists fun token => tokens[position]? = some token ∧
      token.kind.isSynthetic = false ∧
      (token.text = rule ∨ token.text = Text.upperCase rule) := by
  cases generates with
  | mock found passes =>
    simp only [TokenTest.passes, Bool.and_eq_true, Bool.not_eq_true', Bool.or_eq_true,
      beq_iff_eq] at passes
    exact ⟨rfl, _, found, passes⟩

end Generates

/-! ## Matches generate -/

theorem TokenTest.generates_of_step? {question : TokenTest} {step : Step}
    (matched : question.step? tokens position = some step) :
    step.nodes = [.leaf position] ∧
      Exists fun token => tokens[position]? = some token ∧ question.passes token = true := by
  unfold TokenTest.step? at matched
  split at matched
  · rename_i passed
    cases matched
    exact ⟨rfl, (Option.any_eq_true _ _).mp passed⟩
  · cases matched

/-- The nodes of a step are generated, even inside refused calls. -/
theorem Matching.Evaluates.generates
    (evaluates : Evaluates grammar tokens active rule expression position answer log) :
    forall step, answer = .ok (some step) ->
      Generates grammar tokens rule expression position step.nodes := by
  induction evaluates with
  | literal =>
    intro step matched
    rcases TokenTest.generates_of_step? (Except.ok.inj matched) with ⟨same, token, found, passes⟩
    rw [same]
    exact .literal found passes
  | mock =>
    intro step matched
    rcases TokenTest.generates_of_step? (Except.ok.inj matched) with ⟨same, token, found, passes⟩
    rw [same]
    exact .mock found passes
  | undefined => intro step impossible; cases impossible
  | refused => intro step impossible; cases impossible
  | called found _ _ inductionHypothesis =>
    intro step matched
    rcases Answer.map_eq_some matched with ⟨inside, same, rfl⟩
    exact .rule found (inductionHypothesis inside same)
  | sequenceNil =>
    intro step matched
    cases matched
    exact .sequenceNil
  | sequenceStops _ stops _ =>
    intro step matched
    exact absurd matched (stops step)
  | sequenceGoesOn item _ itemHypothesis restHypothesis =>
    intro step matched
    rcases Answer.map_eq_some matched with ⟨rest, same, rfl⟩
    have after := restHypothesis rest same
    rw [← (item.covers _ rfl).next_eq] at after
    exact .sequenceCons (itemHypothesis _ rfl) after
  | choiceNil => intro step impossible; cases impossible
  | choiceStops _ _ inductionHypothesis =>
    intro step matched
    exact .choice List.mem_cons_self (inductionHypothesis step matched)
  | choiceGoesOn _ _ _ restHypothesis =>
    intro step matched
    cases restHypothesis step matched with
    | choice listed generates => exact .choice (List.mem_cons_of_mem _ listed) generates
  | @optional _ _ _ _ answer _ _ inductionHypothesis =>
    intro step matched
    rcases answer with error | none | found
    · cases matched
    · cases matched
      exact .optionalNone
    · cases matched
      exact .optionalSome (inductionHypothesis found rfl)
  | @zeroOrMoreStops _ _ _ _ answer =>
    intro step matched
    rcases answer with error | found <;> cases matched
    exact .zeroOrMoreNil
  | zeroOrMoreGoesOn body moves _ bodyHypothesis restHypothesis =>
    intro step matched
    rcases Answer.map_eq_some matched with ⟨rest, same, rfl⟩
    have covers := body.covers _ rfl
    have after := restHypothesis rest same
    have some := covers.pos moves
    rw [← covers.next_eq] at after
    exact .zeroOrMoreCons (bodyHypothesis _ rfl) some after
  | oneOrMoreStops body stays inductionHypothesis =>
    intro step matched
    rcases Answer.map_eq_some matched with ⟨first, same, rfl⟩
    have none := (body.covers first same).eq_zero (stays first same)
    exact .oneOrMoreEmpty (inductionHypothesis first same) none
  | oneOrMoreGoesOn body moves _ bodyHypothesis restHypothesis =>
    intro step matched
    rcases Answer.map_eq_some matched with ⟨rest, same, rfl⟩
    have covers := body.covers _ rfl
    have after := restHypothesis rest same
    have some := covers.pos moves
    rw [← covers.next_eq] at after
    exact .oneOrMoreCons (bodyHypothesis _ rfl) some after

/-- A tree that a match returns is a node of its rule from its place on, it is consistent, its
leaves are the tokens from there to its end, and the expression of every rule in it generates the
children.  A mocked rule in it is a single leaf that spells its name. -/
theorem Matcher.matchRule_derivation (matcher : Matcher) {rule : String} {start : Nat}
    {tree : Tree} (inside : start ≤ matcher.tokens.size)
    (matched : (matcher.matchRule rule start).1 = .ok (.success tree)) :
    tree.ruleName? = some rule ∧ tree.start = start ∧ tree.isConsistent = true ∧
      tree.stop ≤ matcher.tokens.size ∧
      tree.leaves = List.range' start (tree.stop - start) ∧
      forall name position consumed children,
        .node name position consumed children ∈ tree.nodes ->
        (Exists fun target => matcher.grammar.find? name = some target ∧
          Generates matcher.grammar matcher.tokens name target.effective position children) ∧
        (matcher.grammar.isMocked name = true ->
          consumed = 1 ∧ children = [.leaf position] ∧
            Exists fun token => matcher.tokens[position]? = some token ∧
              token.kind.isSynthetic = false ∧
              (token.text = name ∨ token.text = Text.upperCase name)) := by
  rcases evaluates_of_success matched with ⟨log, evaluates⟩
  have bound := (evaluates.covers _ rfl).next_le
  have generates := evaluates.generates _ rfl
  have derived := generates.of_mem_nodes tree List.mem_cons_self
  cases generates with
  | @rule _ _ _ target children found generated =>
    refine ⟨rfl, rfl, ?_, ?_, ?_, ?_⟩
    · rw [Tree.ofRule, Tree.isConsistent, generated.runsFrom_eq]
      exact beq_self_eq_true _
    · exact Nat.le_trans bound (Nat.max_le.mpr ⟨inside, Nat.le_refl _⟩)
    · rw [Tree.leaves_ofRule, generated.leaves_eq]
      exact congrArg (List.range' start) (Nat.add_sub_cancel_left _ _).symm
    · intro name position consumed children member
      rcases derived name position consumed children member with ⟨sum, target, found, generated⟩
      refine ⟨⟨target, found, generated⟩, fun mocked => ?_⟩
      have effective : target.effective = .mock := by
        rw [Grammar.isMocked, found, Option.any_some] at mocked
        rw [Rule.effective, if_pos mocked]
      rw [effective] at generated
      rcases generated.spelling_of_mock with ⟨rfl, spelled⟩
      exact ⟨sum, rfl, spelled⟩

/-- A left recursion is refused on the way, a mock stands for its rule, and a repetition ends. -/
theorem Matcher.matchRule_derivation_left_recursive :
    let matcher : Matcher :=
      { grammar := ⟨[⟨"a", .choice [.sequence [.rule "a", .op "+"],
            .sequence [.optional (.rule "b"), .oneOrMore (.rule "c")]], false⟩,
          ⟨"b", .word "y", true⟩, ⟨"c", .word "x", false⟩], 0⟩
        tokens := #[⟨.identifier, "b", default, default⟩, ⟨.keyword, "x", default, default⟩] }
    let tree : Tree := .node "a" 0 2 [.node "b" 0 1 [.leaf 0], .node "c" 1 1 [.leaf 1]]
    (matcher.matchRule "a" 0).1 = .ok (.success tree) ∧ tree.isConsistent = true ∧
      tree.leaves = List.range' 0 (tree.stop - 0) := by
  intro matcher tree
  have matched : (matcher.matchRule "a" 0).1 = .ok (.success tree) :=
    Matcher.matchRule_of_unremembered (by with_unfolding_all rfl)
  have derivation := matcher.matchRule_derivation (Nat.zero_le _) matched
  exact ⟨matched, derivation.2.2.1, derivation.2.2.2.2.1⟩

end Packrat
