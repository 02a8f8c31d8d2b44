import Packrat.Format.Boxes
import Packrat.Proofs.Rereading

namespace Packrat

/-!
# Rows of a drawing

A drawing of a match tree has a row for every token and for every rule that does not share the row
of the rule around it.  Here the rows are taken from the tree itself, from the root downwards, while
a drawing is made from the leaves upwards.  The rows of a drawing are the displayed nodes in
preorder, each behind a box as deep as the node, and the nodes on the rows are all nodes of the tree
in preorder.
-/

namespace Tree

/-! ## Displayed nodes -/

/-- Whether a rule over so many tokens wraps what is below it: only one node is there, and it is a
rule over the same tokens. -/
def wraps (consumed : Nat) : List Tree -> Bool
  | [node _ _ size _] => size == consumed
  | _ => false

mutual

/-- The displayed nodes of a tree in preorder, each with the depth of its row.  A wrapped node has
no row of its own but is on the row of the rule around it. -/
def displayed (depth : Nat) (wrapped : Bool) : Tree -> List (Nat × Tree)
  | leaf index => if wrapped then [] else [(depth, leaf index)]
  | node rule start consumed children =>
    (if wrapped then [] else [(depth, node rule start consumed children)]) ++
      displayedAll (if wraps consumed children then depth else depth + 1)
        (wraps consumed children) children

def displayedAll (depth : Nat) (wrapped : Bool) : List Tree -> List (Nat × Tree)
  | [] => []
  | tree :: trees => displayed depth wrapped tree ++ displayedAll depth wrapped trees

end

mutual

/-- A node and the rules on its row, from the outermost one on. -/
def onRow : Tree -> List Tree
  | leaf index => [leaf index]
  | node rule start consumed children =>
    node rule start consumed children :: if wraps consumed children then onRowAll children else []

def onRowAll : List Tree -> List Tree
  | [] => []
  | tree :: trees => onRow tree ++ onRowAll trees

end

variable {tree : Tree} {rule inner : String} {start place consumed depth : Nat}
  {children below : List Tree}

/-- A rule wraps a single rule over the same tokens, or nothing. -/
theorem wraps_cases (consumed : Nat) (children : List Tree) :
    (Exists fun rule => Exists fun start => Exists fun below =>
      children = [node rule start consumed below]) ∨ wraps consumed children = false := by
  unfold wraps
  split
  · rename_i rule start size below
    by_cases same : size = consumed
    · exact Or.inl ⟨rule, start, below, by rw [same]⟩
    · exact Or.inr (beq_eq_false_iff_ne.mpr same)
  · exact Or.inr rfl

theorem wraps_single : wraps consumed [node inner place consumed below] = true :=
  beq_self_eq_true consumed

theorem displayed_eq (depth : Nat) (tree : Tree) :
    displayed depth false tree = (depth, tree) :: displayed depth true tree := by
  cases tree <;> simp [displayed]

theorem displayed_wrapping :
    displayed depth true (node rule start consumed [node inner place consumed below]) =
      displayed depth true (node inner place consumed below) := by
  rw [displayed, wraps_single, displayedAll, displayedAll]
  simp

theorem displayed_plain (plain : wraps consumed children = false) :
    displayed depth true (node rule start consumed children) =
      displayedAll (depth + 1) false children := by
  rw [displayed, plain]
  rfl

theorem onRow_wrapping :
    onRow (node rule start consumed [node inner place consumed below]) =
      node rule start consumed [node inner place consumed below] ::
        onRow (node inner place consumed below) := by
  rw [onRow, wraps_single, if_pos rfl, onRowAll, onRowAll, List.append_nil]

theorem onRow_plain (plain : wraps consumed children = false) :
    onRow (node rule start consumed children) = [node rule start consumed children] := by
  rw [onRow, plain]
  rfl

mutual

/-- The nodes on the row of a node, and those on the rows below it, are its nodes in preorder. -/
theorem onRow_displayed : (tree : Tree) -> (depth : Nat) ->
    onRow tree ++ (displayed depth true tree).flatMap (fun entry => onRow entry.2) = tree.nodes
  | leaf _, _ => rfl
  | node rule start consumed children, depth => by
    rcases wraps_cases consumed children with ⟨inner, place, below, rfl⟩ | plain
    · have further := onRow_displayed (node inner place consumed below) depth
      rw [onRow_wrapping, displayed_wrapping, List.cons_append, further]
      simp only [nodes_node, List.flatMap_cons, List.flatMap_nil, List.append_nil]
    · rw [onRow_plain plain, displayed_plain plain, onRow_displayedAll children (depth + 1),
        nodes_node]
      rfl

theorem onRow_displayedAll : (trees : List Tree) -> (depth : Nat) ->
    (displayedAll depth false trees).flatMap (fun entry => onRow entry.2) = trees.flatMap nodes
  | [], _ => rfl
  | tree :: trees, depth => by
    rw [displayedAll, List.flatMap_append, onRow_displayedAll trees depth, displayed_eq,
      List.flatMap_cons, onRow_displayed tree depth, List.flatMap_cons]

end

mutual

theorem nodes_subset_of_mem_displayed : (tree : Tree) -> {depth : Nat} -> {wrapped : Bool} ->
    {entry : Nat × Tree} -> entry ∈ displayed depth wrapped tree -> entry.2.nodes ⊆ tree.nodes
  | leaf index, _, wrapped, entry, member => by
    cases wrapped with
    | true => cases member
    | false =>
      cases List.mem_singleton.mp member
      exact List.Subset.refl _
  | node rule start consumed children, depth, wrapped, entry, member => by
    rw [displayed] at member
    rcases List.mem_append.mp member with here | below
    · cases wrapped with
      | true => cases here
      | false =>
        cases List.mem_singleton.mp here
        exact List.Subset.refl _
    · rw [nodes_node]
      exact List.subset_cons_of_subset _ (nodes_subset_of_mem_displayedAll children below)

theorem nodes_subset_of_mem_displayedAll : (trees : List Tree) -> {depth : Nat} ->
    {wrapped : Bool} -> {entry : Nat × Tree} -> entry ∈ displayedAll depth wrapped trees ->
    entry.2.nodes ⊆ trees.flatMap nodes
  | [], _, _, _, member => nomatch member
  | tree :: trees, _, _, _, member => by
    rw [displayedAll] at member
    rw [List.flatMap_cons]
    rcases List.mem_append.mp member with here | later
    · exact List.subset_append_of_subset_left _ (nodes_subset_of_mem_displayed tree here)
    · exact List.subset_append_of_subset_right _ (nodes_subset_of_mem_displayedAll trees later)

end

def leafIndex? : Tree -> Option Nat
  | leaf index => some index
  | node _ _ _ _ => none

/-- The nodes on one row have the same leaves, and a leaf shares its row with no other node. -/
theorem spec_of_mem_onRow : (tree : Tree) -> {node : Tree} -> node ∈ onRow tree ->
    node.leaves = tree.leaves ∧ node.leafIndex? = tree.leafIndex?
  | leaf _, _, member => by
    rw [List.mem_singleton.mp member]
    exact ⟨rfl, rfl⟩
  | .node rule start consumed children, _, member => by
    rcases wraps_cases consumed children with ⟨inner, place, below, rfl⟩ | plain
    · rw [onRow_wrapping] at member
      rcases List.mem_cons.mp member with rfl | member
      · exact ⟨rfl, rfl⟩
      · rcases spec_of_mem_onRow (.node inner place consumed below) member with ⟨same, named⟩
        refine ⟨?_, named⟩
        rw [same]
        simp only [leaves, leavesOfAll, List.append_nil]
    · rw [onRow_plain plain] at member
      rw [List.mem_singleton.mp member]
      exact ⟨rfl, rfl⟩

theorem filterMap_leafIndex?_onRow (tree : Tree) :
    (onRow tree).filterMap leafIndex? = tree.leafIndex?.toList := by
  cases tree with
  | leaf => rfl
  | node => exact List.filterMap_eq_nil_iff.mpr fun other member => (spec_of_mem_onRow _ member).2

mutual

/-- The leaves of a tree are those among its nodes. -/
theorem filterMap_leafIndex?_nodes : (tree : Tree) ->
    tree.nodes.filterMap leafIndex? = tree.leaves
  | leaf _ => rfl
  | node rule start consumed children => by
    rw [nodes_node, List.filterMap_cons_none rfl, filterMap_leafIndex?_nodesOfAll children, leaves]

theorem filterMap_leafIndex?_nodesOfAll : (trees : List Tree) ->
    (trees.flatMap nodes).filterMap leafIndex? = leavesOfAll trees
  | [] => rfl
  | tree :: trees => by
    rw [List.flatMap_cons, List.filterMap_append, filterMap_leafIndex?_nodes tree,
      filterMap_leafIndex?_nodesOfAll trees, leavesOfAll]

end

theorem filterMap_leafIndex?_displayed (tree : Tree) (depth : Nat) :
    (displayed depth false tree).filterMap (fun entry => entry.2.leafIndex?) = tree.leaves := by
  rw [← filterMap_leafIndex?_nodes, ← onRow_displayed tree depth, displayed_eq,
    List.filterMap_append, filterMap_leafIndex?_onRow, List.filterMap_flatMap,
    List.filterMap_eq_flatMap_toList, List.flatMap_cons]
  simp only [filterMap_leafIndex?_onRow]

end Tree

namespace Drawing

/-! ## Boxes and labels -/

/-- What stands below the ancestors of a node, two characters for each of so many of them. -/
inductive Margin : Nat -> String -> Prop
  | none : Margin 0 ""
  | bar {depth margin} : Margin depth margin -> Margin (depth + 1) (margin ++ "│ ")
  | blank {depth margin} : Margin depth margin -> Margin (depth + 1) (margin ++ "  ")

/-- What stands before the label of a node so deep below the root. -/
inductive Box : Nat -> String -> Prop
  | root : Box 0 ""
  | below {depth margin last} : Margin depth margin -> Box (depth + 1) (margin ++ branch last)

/-- The label of a node: a token as a listing shows it, or the rules on the row of the node from the
outermost one on, with the text of its tokens.  Both are cut when they are long. -/
inductive Labels (tokens : Array Token) : Tree -> String -> Prop
  | token {index token} : tokens[index]? = some token ->
      Labels tokens (.leaf index) (truncate 40 token.display)
  | rules {rule start consumed children text} :
      Parse.text? tokens (.node rule start consumed children) = some text ->
      Labels tokens (.node rule start consumed children)
        (" > ".intercalate
            ((Tree.node rule start consumed children).onRow.filterMap Tree.ruleName?) ++
          ": " ++ truncate 30 text)

/-- A row of a displayed node: its box and its label. -/
def Row (tokens : Array Token) (entry : Nat × Tree) (row : String) : Prop :=
  Exists fun box => Exists fun label =>
    Box entry.1 box ∧ Labels tokens entry.2 label ∧ row = box ++ label

variable {tokens : Array Token} {tree node : Tree} {rule inner : String}
  {start place consumed depth : Nat} {children below : List Tree} {rules : List String}
  {parts : List Drawing} {margin : String}

/-! ## Rows of a drawing -/

theorem consumed_of_ofTree (drawn : ofTree tree = chain rules node parts) :
    node.consumed = tree.consumed ∧ tree.ruleName? ≠ none := by
  cases tree with
  | leaf => cases drawn
  | node =>
    rw [ofTree] at drawn
    refine ⟨?_, Option.some_ne_none _⟩
    split at drawn
    · split at drawn
      · rename_i same
        cases drawn
        exact same
      · cases drawn
        rfl
    · cases drawn
      rfl

theorem ofTree_wrapping
    (drawn : ofTree (.node inner place consumed below) = chain rules node parts) :
    ofTree (.node rule start consumed [.node inner place consumed below]) =
      chain (rule :: rules) node parts := by
  have same : node.consumed = consumed := (consumed_of_ofTree drawn).1
  rw [ofTree, ofTrees, ofTrees, drawn]
  exact if_pos same

theorem ofTree_plain (plain : Tree.wraps consumed children = false) :
    ofTree (.node rule start consumed children) =
      chain [rule] (.node rule start consumed children) (ofTrees children) := by
  rw [ofTree]
  split
  · rename_i names node parts single
    rcases children with _ | ⟨child, _ | ⟨other, others⟩⟩
    · cases single
    · rw [ofTrees, ofTrees] at single
      have drawn := (List.cons.inj single).1
      rcases consumed_of_ofTree drawn with ⟨same, named⟩
      cases child with
      | leaf => exact absurd rfl named
      | node =>
        have different : ¬ node.consumed = consumed := by
          rw [same]
          exact beq_eq_false_iff_ne.mp plain
        rw [if_neg different, ofTrees, ofTrees, drawn]
    · rw [ofTrees, ofTrees] at single
      cases (List.cons.inj single).2
  · rfl

/-- How a rule is drawn: with the rules on its row, with an innermost node over the same leaves, and
with parts that are drawn on the rows below it. -/
structure Draws (tokens : Array Token) (tree : Tree) (rules : List String) (node : Tree)
    (parts : List Drawing) : Prop where
  drawn : ofTree tree = chain rules node parts
  rules_eq : rules = tree.onRow.filterMap Tree.ruleName?
  text_eq : Parse.text? tokens node = Parse.text? tokens tree
  rows : forall depth margin, Margin depth margin ->
    Exists fun rows => linesOfParts? tokens margin parts = some rows ∧
      List.Forall₂ (Row tokens) (tree.displayed depth true) rows

/-- The label of a chain is the label of the rule that is drawn with it. -/
theorem Draws.exists_label (draws : Draws tokens tree rules node parts)
    (within : tree.Within tokens.size) :
    Exists fun label => chainLabel? tokens rules node = some label ∧ Labels tokens tree label := by
  have text := Parse.text?_eq within
  refine ⟨_, by rw [chainLabel?, draws.text_eq, text]; rfl, ?_⟩
  rw [draws.rules_eq]
  cases tree with
  | leaf => cases draws.drawn
  | node => exact .rules text

mutual

theorem exists_draws : (tree : Tree) -> tree.ruleName? ≠ none ->
    (forall node, node ∈ tree.nodes -> node.Within tokens.size) ->
    Exists fun rules => Exists fun node => Exists fun parts => Draws tokens tree rules node parts
  | .leaf _, named, _ => absurd rfl named
  | .node rule start consumed children, _, within => by
    rcases Tree.wraps_cases consumed children with ⟨inner, place, below, rfl⟩ | plain
    · let wrapped : Tree := .node inner place consumed below
      have whole := within _ (Tree.mem_nodes_self _)
      have inside : forall node, node ∈ wrapped.nodes -> node.Within tokens.size :=
        fun node listed => within node (Tree.mem_nodes_of_child List.mem_cons_self listed)
      have part := inside _ wrapped.mem_nodes_self
      rcases exists_draws (.node inner place consumed below) (Option.some_ne_none inner) inside with
        ⟨rules, node, parts, draws⟩
      have leaves : wrapped.leaves = (Tree.node rule start consumed [wrapped]).leaves := by
        simp only [Tree.leaves, Tree.leavesOfAll, List.append_nil]
      refine ⟨rule :: rules, node, parts, ofTree_wrapping draws.drawn, ?_, ?_, ?_⟩
      · rw [Tree.onRow_wrapping, draws.rules_eq]
        rfl
      · rw [draws.text_eq, Parse.text?_eq part, Parse.text?_eq whole, leaves]
      · rw [forall_congr fun depth => by rw [Tree.displayed_wrapping]]
        exact draws.rows
    · refine ⟨[rule], _, _, ofTree_plain plain, ?_, rfl, ?_⟩
      · rw [Tree.onRow_plain plain]
        rfl
      · intro depth margin indents
        rw [Tree.displayed_plain plain]
        refine exists_rows children (fun node listed => within node ?_) depth margin indents
        rcases List.mem_flatMap.mp listed with ⟨child, member, listed⟩
        exact Tree.mem_nodes_of_child member listed

theorem exists_rows : (trees : List Tree) ->
    (forall node, node ∈ trees.flatMap Tree.nodes -> node.Within tokens.size) ->
    forall depth margin, Margin depth margin ->
      Exists fun rows => linesOfParts? tokens margin (ofTrees trees) = some rows ∧
        List.Forall₂ (Row tokens) (Tree.displayedAll (depth + 1) false trees) rows
  | [], _, _, _, _ => ⟨[], rfl, .nil⟩
  | .leaf index :: trees, within, depth, margin, indents => by
    rcases exists_rows trees (fun node listed => within node (List.mem_append_right _ listed)) depth
      margin indents with ⟨rows, drawn, shown⟩
    have inside : index < tokens.size := (within (.leaf index) List.mem_cons_self).stop_le
    have found := Array.getElem?_eq_getElem inside
    let last := (ofTrees trees).isEmpty
    have label : Labels tokens (.leaf index) (tokenLabel tokens index) := by
      rw [tokenLabel, found]
      exact .token found
    refine ⟨(margin ++ branch last ++ tokenLabel tokens index) :: rows, ?_, ?_⟩
    · rw [ofTrees, linesOfParts?, drawn]
      rfl
    · exact .cons ⟨_, _, .below indents, label, rfl⟩ shown
  | .node rule start consumed children :: trees, within, depth, margin, indents => by
    rcases exists_rows trees (fun node listed => within node (List.mem_append_right _ listed)) depth
      margin indents with ⟨rows, drawn, shown⟩
    let tree : Tree := .node rule start consumed children
    rcases exists_draws (.node rule start consumed children) (Option.some_ne_none rule)
      (fun node listed => within node (List.mem_append_left _ listed)) with
      ⟨rules, node, parts, draws⟩
    have whole : tree.Within tokens.size :=
      within tree (List.mem_append_left _ tree.mem_nodes_self)
    rcases draws.exists_label whole with ⟨label, labelled, labels⟩
    let last := (ofTrees trees).isEmpty
    have further : Margin (depth + 1) (margin ++ if last then "  " else "│ ") := by
      cases last
      · exact indents.bar
      · exact indents.blank
    rcases draws.rows (depth + 1) _ further with ⟨rowsBelow, drawnBelow, shownBelow⟩
    refine ⟨(margin ++ branch last ++ label) :: rowsBelow ++ rows, ?_, ?_⟩
    · rw [ofTrees, linesOfParts?, draws.drawn, drawn, lines?, labelled]
      simp only [Option.bind_eq_bind, Option.bind_some]
      rw [drawnBelow]
      rfl
    · rw [Tree.displayedAll, Tree.displayed_eq]
      have first : Row tokens (depth + 1, tree) (margin ++ branch last ++ label) :=
        ⟨_, _, .below indents, labels, rfl⟩
      exact List.rel_append (.cons first shownBelow) shown

end

/-- A parse is drawn with a row for each displayed node. -/
theorem exists_allRows {parse : Parse} (named : parse.root.ruleName? ≠ none)
    (within : forall node, node ∈ parse.root.nodes -> node.Within parse.tokens.size) :
    Exists fun rows => allLines? parse = some rows ∧
      List.Forall₂ (Row parse.tokens) (parse.root.displayed 0 false) rows := by
  rcases exists_draws parse.root named within with ⟨rules, node, parts, draws⟩
  rcases draws.exists_label (within _ parse.root.mem_nodes_self) with ⟨label, labelled, labels⟩
  rcases draws.rows 0 "" .none with ⟨rows, drawn, shown⟩
  refine ⟨label :: rows, ?_, ?_⟩
  · rw [allLines?, draws.drawn]
    simp only [labelled, drawn]
    rfl
  · rw [Tree.displayed_eq]
    exact .cons ⟨"", label, .root, labels, by rw [String.empty_append]⟩ shown

end Drawing
end Packrat
