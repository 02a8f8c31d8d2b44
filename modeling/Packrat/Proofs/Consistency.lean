import Packrat.Tree.Text

namespace Packrat

/-!
# Consistent trees

A node states where it begins and how many tokens it covers, and these statements may be anything.
The check for consistency looks at them alone, and so does the text of a node, which is cut out of
the tokens by its range.  Here both are compared with the leaves.

A tree is consistent when at each of its nodes the children stand one behind the other and the count
is the number of leaves.  Then the leaves are the tokens of the range, and the range of every node
lies in that of the tree.  This holds of exact positions, and of positions in words as long as no
sum of them is too large.
-/

namespace Tree

/-! ## Nodes of a tree -/

/-- An induction over a tree, where the children are left to lemmas about lists. -/
@[elab_as_elim]
theorem induction {motive : Tree -> Prop} (leaf : forall index, motive (leaf index))
    (node : forall rule start consumed children, (forall child, child ∈ children -> motive child) ->
      motive (node rule start consumed children))
    (tree : Tree) : motive tree :=
  @Tree.rec motive (fun trees => forall child, child ∈ trees -> motive child)
    leaf node (fun _ member => nomatch member)
    (fun _ _ first others _ member => (List.mem_cons.mp member).elim (· ▸ first) (others _)) tree

mutual

theorem snd_outline (depth other : Nat) : (tree : Tree) ->
    (tree.outline depth).map Prod.snd = (tree.outline other).map Prod.snd
  | leaf _ => rfl
  | node _ _ _ children => by
    simp only [outline, List.map_cons, snd_outlineAll (depth + 1) (other + 1) children]

theorem snd_outlineAll (depth other : Nat) : (trees : List Tree) ->
    (outlineAll depth trees).map Prod.snd = (outlineAll other trees).map Prod.snd
  | [] => rfl
  | tree :: trees => by
    simp only [outlineAll, List.map_append, snd_outline depth other tree,
      snd_outlineAll depth other trees]

end

theorem snd_outlineAll_eq (depth : Nat) (trees : List Tree) :
    (outlineAll depth trees).map Prod.snd = trees.flatMap nodes := by
  induction trees with
  | nil => rfl
  | cons tree trees inductionHypothesis =>
    simp only [outlineAll, List.map_append, inductionHypothesis, List.flatMap_cons]
    rw [snd_outline depth 0 tree, nodes]

theorem nodes_node (rule : String) (start consumed : Nat) (children : List Tree) :
    (node rule start consumed children).nodes =
      node rule start consumed children :: children.flatMap nodes := by
  rw [nodes, outline, List.map_cons, snd_outlineAll_eq]

theorem mem_nodes_self (tree : Tree) : tree ∈ tree.nodes := by
  cases tree <;> exact List.mem_cons_self

theorem mem_nodes_of_child {rule : String} {start consumed : Nat} {children : List Tree}
    {child inner : Tree} (member : child ∈ children) (listed : inner ∈ child.nodes) :
    inner ∈ (node rule start consumed children).nodes := by
  rw [nodes_node]
  exact List.mem_cons_of_mem _ (List.mem_flatMap.mpr ⟨child, member, listed⟩)

/-! ## Trees one behind the other -/

/-- Some trees stand one behind the other from a place on: each begins where the one before it
ends. -/
def Contiguous (place : Nat) : List Tree -> Prop
  | [] => True
  | tree :: trees => tree.start = place ∧ Contiguous tree.stop trees

variable {rule : String} {start consumed place stop : Nat} {tree inner : Tree}
  {children trees : List Tree}

/-- The check goes through trees that are consistent and stand one behind the other, and ends behind
all that they cover. -/
theorem runsFrom_eq_some_iff :
    runsFrom place trees = some stop <->
      Contiguous place trees ∧ (forall tree, tree ∈ trees -> tree.isConsistent = true) ∧
        place + consumedByAll trees = stop := by
  induction trees generalizing place with
  | nil => simp [runsFrom, Contiguous, consumedByAll]
  | cons tree trees inductionHypothesis =>
    rw [runsFrom, Contiguous, consumedByAll, List.forall_mem_cons, ← Nat.add_assoc]
    by_cases starts : tree.start = place
    · subst starts
      cases tree.isConsistent
      · simp
      · simp only [beq_self_eq_true, Bool.and_self, if_true, true_and, inductionHypothesis]
        rfl
    · simp [starts]

theorem isConsistent_node_iff :
    (node rule start consumed children).isConsistent = true <->
      Contiguous start children ∧ (forall child, child ∈ children -> child.isConsistent = true) ∧
        consumedByAll children = consumed := by
  rw [isConsistent, beq_iff_eq, runsFrom_eq_some_iff, Nat.add_left_cancel_iff]

namespace Contiguous

/-- The leaves of trees one behind the other are a range when those of each tree are. -/
theorem leavesOfAll_eq (contiguous : Contiguous place trees)
    (each : forall tree, tree ∈ trees -> tree.leaves = List.range' tree.start tree.consumed) :
    leavesOfAll trees = List.range' place (consumedByAll trees) := by
  induction trees generalizing place with
  | nil => rfl
  | cons tree trees inductionHypothesis =>
    rcases contiguous with ⟨rfl, further⟩
    rw [List.forall_mem_cons] at each
    rw [leavesOfAll, each.1, inductionHypothesis further each.2, consumedByAll]
    exact List.range'_append_1

theorem range_of_mem (contiguous : Contiguous place trees) (member : tree ∈ trees) :
    place ≤ tree.start ∧ tree.stop ≤ place + consumedByAll trees := by
  induction trees generalizing place with
  | nil => cases member
  | cons first trees inductionHypothesis =>
    rcases contiguous with ⟨rfl, further⟩
    rw [consumedByAll, ← Nat.add_assoc]
    rcases List.mem_cons.mp member with rfl | later
    · exact ⟨Nat.le_refl _, Nat.le_add_right _ _⟩
    · rcases inductionHypothesis further later with ⟨starts, stops⟩
      exact ⟨Nat.le_trans (Nat.le_add_right _ _) starts, stops⟩

end Contiguous

/-! ## Ranges and leaves -/

/-- The leaves of a consistent tree are the tokens of its range. -/
theorem leaves_of_isConsistent (consistent : tree.isConsistent = true) :
    tree.leaves = List.range' tree.start tree.consumed := by
  induction tree using Tree.induction with
  | leaf => rfl
  | node rule start consumed children inductionHypothesis =>
    rcases isConsistent_node_iff.mp consistent with ⟨contiguous, each, sum⟩
    rw [leaves, contiguous.leavesOfAll_eq fun child member =>
      inductionHypothesis child member (each child member), sum]
    rfl

theorem length_leaves (consistent : tree.isConsistent = true) :
    tree.leaves.length = tree.consumed := by
  rw [leaves_of_isConsistent consistent, List.length_range']

/-- The nodes of a consistent tree are consistent and lie in its range. -/
theorem isConsistent_of_mem_nodes (consistent : tree.isConsistent = true)
    (listed : inner ∈ tree.nodes) :
    inner.isConsistent = true ∧ tree.start ≤ inner.start ∧ inner.stop ≤ tree.stop := by
  induction tree using Tree.induction with
  | leaf =>
    cases List.mem_singleton.mp listed
    exact ⟨consistent, Nat.le_refl _, Nat.le_refl _⟩
  | node rule start consumed children inductionHypothesis =>
    rw [nodes_node] at listed
    rcases List.mem_cons.mp listed with rfl | below
    · exact ⟨consistent, Nat.le_refl _, Nat.le_refl _⟩
    · rcases List.mem_flatMap.mp below with ⟨child, member, within⟩
      rcases isConsistent_node_iff.mp consistent with ⟨contiguous, each, rfl⟩
      rcases contiguous.range_of_mem member with ⟨starts, stops⟩
      rcases inductionHypothesis child member (each child member) within with
        ⟨sound, later, earlier⟩
      exact ⟨sound, Nat.le_trans starts later, Nat.le_trans earlier stops⟩

/-- A tree is consistent exactly when at each of its nodes the children stand one behind the other
and the count is the number of leaves. -/
theorem isConsistent_iff :
    tree.isConsistent = true <-> forall inner, inner ∈ tree.nodes ->
      Contiguous inner.start inner.children ∧ inner.leaves.length = inner.consumed := by
  constructor
  · intro consistent inner listed
    have sound := (isConsistent_of_mem_nodes consistent listed).1
    refine ⟨?_, length_leaves sound⟩
    cases inner with
    | leaf => trivial
    | node => exact (isConsistent_node_iff.mp sound).1
  · intro counted
    induction tree using Tree.induction with
    | leaf => rfl
    | node rule start consumed children inductionHypothesis =>
      have each : forall child, child ∈ children -> child.isConsistent = true :=
        fun child member => inductionHypothesis child member fun inner listed =>
          counted inner (mem_nodes_of_child member listed)
      rcases counted _ (mem_nodes_self _) with ⟨contiguous, count⟩
      have covered : leavesOfAll children = List.range' start (consumedByAll children) :=
        contiguous.leavesOfAll_eq fun child member => leaves_of_isConsistent (each child member)
      rw [leaves, covered, List.length_range'] at count
      exact isConsistent_node_iff.mpr ⟨contiguous, each, count⟩

example : (node "suite" 0 3 [leaf 0, leaf 1]).isConsistent = false ∧
    (ofRule "suite" 0 [leaf 0, leaf 2]).isConsistent = false := by
  decide

/-- A node lies within so many tokens, and its leaves are the tokens that it covers. -/
structure Within (size : Nat) (node : Tree) : Prop where
  stop_le : node.stop ≤ size
  leaves_eq : node.leaves = List.range' node.start node.consumed

theorem within_of_mem_nodes {size : Nat} (consistent : tree.isConsistent = true)
    (inside : tree.stop ≤ size) (listed : inner ∈ tree.nodes) : inner.Within size := by
  rcases isConsistent_of_mem_nodes consistent listed with ⟨sound, -, stops⟩
  exact ⟨Nat.le_trans stops inside, leaves_of_isConsistent sound⟩

/-! ## Positions in words

A place that is too large for a word begins again at zero.  This does not happen in a tree whose
last leaf has a word behind it.  Then the check in words is the exact one.  For a count that is a
word cannot go once around and be right: the place behind it would be before the start. -/

theorem wordSum_eq {first second : Nat} (room : first + second < UInt64.size) :
    wordSum first second = first + second :=
  Nat.mod_eq_of_lt room

/-- The check in words goes through the same trees to the same place when it goes into each of them
as the exact one does. -/
theorem runsFrom_wordSum (room : place + (leavesOfAll trees).length < UInt64.size)
    (each : forall tree, tree ∈ trees -> tree.start + tree.leaves.length < UInt64.size ->
      tree.isConsistent wordSum = tree.isConsistent) :
    runsFrom place trees wordSum = runsFrom place trees := by
  induction trees generalizing place with
  | nil => rfl
  | cons tree trees inductionHypothesis =>
    rw [List.forall_mem_cons] at each
    rw [leavesOfAll, List.length_append] at room
    rw [runsFrom, runsFrom]
    by_cases starts : tree.start = place
    · rw [each.1 (by omega)]
      by_cases consistent : tree.isConsistent = true
      · have count := length_leaves consistent
        have exact : wordSum place tree.consumed = place + tree.consumed := wordSum_eq (by omega)
        have further : place + tree.consumed + (leavesOfAll trees).length < UInt64.size := by omega
        simp only [starts, consistent, exact, inductionHypothesis further each.2]
      · simp only [consistent, Bool.and_false, Bool.false_eq_true, if_false]
    · simp only [beq_false_of_ne starts, Bool.false_and, Bool.false_eq_true, if_false]

/-- The check in words is the exact check when the counts are words and the place behind the last
leaf is one. -/
theorem isConsistent_wordSum
    (counts : forall inner, inner ∈ tree.nodes -> inner.consumed < UInt64.size)
    (room : tree.start + tree.leaves.length < UInt64.size) :
    tree.isConsistent wordSum = tree.isConsistent := by
  induction tree using Tree.induction with
  | leaf => rfl
  | node rule start consumed children inductionHypothesis =>
    have word : consumed < UInt64.size := counts _ (mem_nodes_self _)
    have same : runsFrom start children wordSum = runsFrom start children :=
      runsFrom_wordSum room fun child member =>
        inductionHypothesis child member fun inner listed =>
          counts inner (mem_nodes_of_child member listed)
    rw [isConsistent, isConsistent, same, Bool.eq_iff_iff, beq_iff_eq, beq_iff_eq]
    cases found : runsFrom start children with
    | none => simp
    | some stop =>
      rcases runsFrom_eq_some_iff.mp found with ⟨contiguous, each, rfl⟩
      have count : (leavesOfAll children).length = consumedByAll children := by
        have leaves := contiguous.leavesOfAll_eq fun child member =>
          leaves_of_isConsistent (each child member)
        rw [leaves, List.length_range']
      change start + (leavesOfAll children).length < UInt64.size at room
      rw [Option.some.injEq, Option.some.injEq, wordSum]
      -- A sum that began again at zero would be before the start.
      unfold UInt64.size at *
      omega

/-- The end of a consistent tree is exact when the place behind its last leaf is a word. -/
theorem stop_wordSum (room : tree.start + tree.leaves.length < UInt64.size)
    (consistent : tree.isConsistent = true) : tree.stop wordSum = tree.stop :=
  wordSum_eq (length_leaves consistent ▸ room)

end Tree

namespace Parse

/-! ## The text of a range -/

variable {tokens : Array Token} {node : Tree}

theorem text?_congr {sum : Nat -> Nat -> Nat} (same : node.stop sum = node.stop) :
    text? tokens node sum = text? tokens node := by
  rw [text?, text?, same]

/-- The tokens of the leaves, each of which is there, are a stretch of all tokens. -/
theorem map_leaves_eq (within : node.Within tokens.size) :
    node.leaves.map (tokens[·]?) =
      ((tokens.toList.drop node.start).take (min node.stop tokens.size - node.start)).map some := by
  have size : min node.stop tokens.size - node.start = node.consumed := by
    rw [Nat.min_eq_left within.stop_le]
    exact Nat.add_sub_cancel_left _ _
  have inside : node.start + node.consumed ≤ tokens.size := within.stop_le
  rw [within.leaves_eq, size]
  apply List.ext_getElem
  · simp only [List.length_map, List.length_range', List.length_take, List.length_drop,
      Array.length_toList]
    omega
  · intro place before _
    have found : node.start + place < tokens.size := by
      rw [List.length_map, List.length_range'] at before
      omega
    simp [found]

theorem covered_eq (within : node.Within tokens.size) :
    node.leaves.filterMap (tokens[·]?) =
      (tokens.toList.drop node.start).take (min node.stop tokens.size - node.start) := by
  have found := congrArg (List.filterMap id) (map_leaves_eq within)
  rw [List.filterMap_map, List.filterMap_map] at found
  exact found.trans List.filterMap_some

/-- The text of a node is that of its leaves. -/
theorem text?_eq (within : node.Within tokens.size) :
    text? tokens node = some (" ".intercalate
      (((node.leaves.filterMap (tokens[·]?)).filter isVisible).map Token.text)) := by
  have starts : node.start ≤ min node.stop tokens.size := by
    rw [Nat.min_eq_left within.stop_le]
    exact Nat.le_add_right _ _
  rw [text?, if_pos starts, covered_eq within]

/-- The ranges that a tree states and its leaves agree, also when positions are added in words.  The
condition that the place behind the last leaf is a word cannot be left out, for the end of a tree
beyond it would begin again at zero.

A tree is consistent exactly when at each of its nodes the children stand one behind the other and
the count is the number of leaves.  The leaves of a consistent tree are the tokens from its start up
to its end.  When these are among the tokens, the tree has a text: the texts of the tokens of its
leaves between single spaces, without the synthetic and the blank ones. -/
theorem views_agree (tree : Tree)
    (counts : forall node, node ∈ tree.nodes -> node.consumed < UInt64.size)
    (room : tree.start + tree.leaves.length < UInt64.size) :
    (tree.isConsistent Tree.wordSum = true <-> forall node, node ∈ tree.nodes ->
      Tree.Contiguous node.start node.children ∧ node.leaves.length = node.consumed) ∧
    (tree.isConsistent Tree.wordSum = true ->
      tree.leaves = List.range' tree.start (tree.stop Tree.wordSum - tree.start) ∧
        forall tokens : Array Token, tree.stop Tree.wordSum ≤ tokens.size ->
          Exists fun covered : List Token => tree.leaves.map (tokens[·]?) = covered.map some ∧
            text? tokens tree Tree.wordSum = some (" ".intercalate ((covered.filter fun token =>
              !token.kind.isSynthetic && !Text.isBlank token.text).map Token.text))) := by
  rw [Tree.isConsistent_wordSum counts room]
  refine ⟨Tree.isConsistent_iff, fun consistent => ?_⟩
  have exact : tree.stop Tree.wordSum = tree.stop := Tree.stop_wordSum room consistent
  rw [exact]
  refine ⟨?_, fun tokens inside => ?_⟩
  · rw [Tree.leaves_of_isConsistent consistent]
    exact congrArg (List.range' tree.start) (Nat.add_sub_cancel_left _ _).symm
  · have within := Tree.within_of_mem_nodes consistent inside tree.mem_nodes_self
    refine ⟨_, map_leaves_eq within, ?_⟩
    rw [text?_congr exact, text?_eq within, covered_eq within]
    rfl

/-- A rule without tokens stands between others, and a line break and the beginning and the end of a
block are not in the text. -/
theorem views_agree_zero_width :
    let tokens : Array Token := #[⟨.identifier, "a", default, default⟩,
      ⟨.keyword, "if", default, default⟩, ⟨.newline, "\n", default, default⟩,
      ⟨.indent, "", default, default⟩, ⟨.identifier, "x", default, default⟩,
      ⟨.dedent, "", default, default⟩, ⟨.endOfFile, "", default, default⟩]
    let tree : Tree := .node "clause" 1 5 [.leaf 1, .node "test" 2 0 [],
      .node "suite" 2 4 [.leaf 2, .leaf 3, .node "name" 4 1 [.leaf 4], .leaf 5]]
    (forall node, node ∈ tree.nodes -> node.consumed < UInt64.size) ∧
      tree.start + tree.leaves.length < UInt64.size ∧ tree.isConsistent Tree.wordSum = true ∧
      tree.stop Tree.wordSum ≤ tokens.size ∧ tree.leaves = List.range' 1 5 ∧
      text? tokens tree Tree.wordSum = some "if x" := by
  intro tokens tree
  have counts : forall node, node ∈ tree.nodes -> node.consumed < UInt64.size := by decide
  have room : tree.start + tree.leaves.length < UInt64.size := by decide
  have consistent : tree.isConsistent Tree.wordSum = true := by decide
  have inside : tree.stop Tree.wordSum ≤ tokens.size := by decide
  rcases (views_agree tree counts room).2 consistent with ⟨range, texts⟩
  rcases texts tokens inside with ⟨covered, found, text⟩
  have same : covered = (tokens.toList.drop 1).take 5 :=
    (List.map_inj_right fun _ _ => Option.some.inj).mp found.symm
  rw [same] at text
  exact ⟨counts, room, consistent, inside, range, text.trans rfl⟩

/-- A leaf at the last word is consistent and ends at zero, which is before its start, so that it
has no text. -/
theorem views_differ_at_last_word :
    let tree : Tree := .node "r" (UInt64.size - 1) 1 [.leaf (UInt64.size - 1)]
    tree.isConsistent Tree.wordSum = true ∧ tree.stop Tree.wordSum ≤ (#[] : Array Token).size ∧
      tree.leaves ≠ List.range' tree.start (tree.stop Tree.wordSum - tree.start) ∧
      text? #[] tree Tree.wordSum = none := by
  decide

end Parse
end Packrat
