import Packrat.Proofs.Rows

namespace Packrat

/-!
# Rows and lines

A row of a drawing is a line of text as long as its label has no line feed.  The label of a token is
quoted and never has one, but the names of rules and the texts of their tokens are shown as they
are.  So a drawing has one line for each row exactly when no name and no shown text has a line feed.
A string over several lines breaks the rows of all rules around it.
-/

/-! ## Texts without line feeds -/

namespace Text

variable {c : Char}

theorem ne_lineFeed_of_mem_toDigits {number : Nat} (member : c ∈ Nat.toDigits 16 number) :
    c ≠ '\n' := by
  have digit : forall count, count < 16 -> Nat.digitChar count ≠ '\n' := by decide
  have digits : forall fuel number done, (forall c, c ∈ done -> c ≠ '\n') ->
      forall c, c ∈ Nat.toDigitsCore 16 fuel number done -> c ≠ '\n' := by
    intro fuel
    induction fuel with
    | zero =>
      intro number done plain
      exact plain
    | succ fuel inductionHypothesis =>
      intro number done plain
      have further : forall c, c ∈ Nat.digitChar (number % 16) :: done -> c ≠ '\n' := by
        intro c member
        rcases List.mem_cons.mp member with rfl | member
        · exact digit _ (Nat.mod_lt number (by decide))
        · exact plain c member
      rw [Nat.toDigitsCore]
      split
      · exact further
      · exact inductionHypothesis _ _ further
  exact digits _ _ [] nofun c member

theorem not_mem_quotedChar (c : Char) : '\n' ∉ quotedChar '"' c := by
  unfold quotedChar
  split
  case h_6 notFeed _ =>
    have different : '\n' ≠ c := fun same => notFeed same.symm
    split
    · simp [different]
    · split
      · simp [different]
      · have digits : '\n' ∉ Nat.toDigits 16 c.toNat := fun member =>
          ne_lineFeed_of_mem_toDigits member rfl
        simp [codePointEscape, digits]
  all_goals decide

theorem not_mem_quote (text : String) : '\n' ∉ (quote text).toList := by
  rw [quote, String.toList_ofList]
  simp [not_mem_quotedChar]

end Text

theorem Token.not_mem_display (token : Token) : '\n' ∉ token.display.toList := by
  have named : '\n' ∉ token.kind.name.toList := by cases token.kind <;> decide
  unfold display
  split
  · exact named
  · show '\n' ∉ (token.kind.name ++ " " ++ Text.quote token.text).toList
    simp [named, Text.not_mem_quote]

namespace Drawing

variable {tokens : Array Token} {tree : Tree} {depth : Nat} {margin : String}

/-! ## Labels without line feeds -/

/-- A node keeps to its line when neither its name nor what is shown of its text has a line
feed. -/
def KeepsLine (tokens : Array Token) (node : Tree) : Prop :=
  forall name, node.ruleName? = some name -> '\n' ∉ name.toList ∧
    forall text, Parse.text? tokens node = some text -> '\n' ∉ text.toList.take 30

theorem mem_truncate_iff {limit : Nat} {text : String} :
    '\n' ∈ (truncate limit text).toList <-> '\n' ∈ text.toList.take limit := by
  unfold truncate
  split
  · rw [String.toList_append, String.toList_ofList, List.mem_append]
    simp
  · rename_i short
    rw [List.take_of_length_le (Nat.le_of_not_lt short)]

theorem not_mem_margin (indents : Margin depth margin) : '\n' ∉ margin.toList := by
  induction indents with
  | none => exact List.not_mem_nil
  | bar _ inductionHypothesis | blank _ inductionHypothesis =>
    rw [String.toList_append]
    exact List.not_mem_append inductionHypothesis (by decide)

theorem not_mem_box {box : String} (boxed : Box depth box) : '\n' ∉ box.toList := by
  cases boxed with
  | root => exact List.not_mem_nil
  | @below depth margin last indents =>
    rw [String.toList_append]
    exact List.not_mem_append (not_mem_margin indents) (by cases last <;> decide)

theorem mem_intercalate_iff {separator : String} (plain : '\n' ∉ separator.toList)
    (texts : List String) : '\n' ∈ (separator.intercalate texts).toList <->
      Exists fun text => text ∈ texts ∧ '\n' ∈ text.toList := by
  rw [String.toList_intercalate]
  induction texts with
  | nil => simp
  | cons text texts inductionHypothesis =>
    cases texts with
    | nil => simp
    | cons next others =>
      rw [List.map_cons, List.map_cons, List.intercalate_cons_cons, List.mem_append,
        List.mem_append, ← List.map_cons, inductionHypothesis]
      simp [plain]

/-- The label of a token has no line feed, and that of a rule has none when the nodes on its row
keep to their line. -/
theorem not_mem_label_iff {label : String} (labels : Labels tokens tree label)
    (within : forall node, node ∈ tree.nodes -> node.Within tokens.size) :
    '\n' ∉ label.toList <-> forall node, node ∈ tree.onRow -> KeepsLine tokens node := by
  cases labels with
  | token =>
    refine ⟨fun _ node member name named => ?_, fun _ broken => ?_⟩
    · rw [List.mem_singleton.mp member] at named
      cases named
    · exact Token.not_mem_display _ (List.mem_of_mem_take (mem_truncate_iff.mp broken))
  | @rules rule start consumed children text shown =>
    let tree : Tree := .node rule start consumed children
    -- All nodes on the row have the text that is shown.
    have texts : forall node, node ∈ tree.onRow ->
        Parse.text? tokens node = Parse.text? tokens tree := by
      intro node member
      have listed : node ∈ tree.nodes := by
        rw [← Tree.onRow_displayed tree 0]
        exact List.mem_append_left _ member
      rw [Parse.text?_eq (within node listed), Parse.text?_eq (within tree List.mem_cons_self),
        (tree.spec_of_mem_onRow member).1]
    rw [String.toList_append, String.toList_append, List.mem_append, List.mem_append,
      mem_intercalate_iff (by decide), mem_truncate_iff]
    constructor
    · intro unbroken node member name named
      refine ⟨fun broken => unbroken (Or.inl (Or.inl ⟨name, ?_, broken⟩)), ?_⟩
      · exact List.mem_filterMap.mpr ⟨node, member, named⟩
      · intro other found broken
        rw [texts node member] at found
        cases found.symm.trans shown
        exact unbroken (Or.inr broken)
    · rintro keeps ((⟨name, member, broken⟩ | impossible) | broken)
      · rcases List.mem_filterMap.mp member with ⟨node, member, named⟩
        exact (keeps node member name named).1 broken
      · exact absurd impossible (by decide)
      · exact (keeps tree List.mem_cons_self rule rfl).2 text shown broken

/-! ## Cutting at line feeds -/

/-- A text of rows is cut at its line feeds into the pieces of its rows, and nothing follows. -/
theorem splitOn_rows (rows : List String) :
    (rows.flatMap fun row => row.toList ++ ['\n']).splitOn '\n' =
      (rows.flatMap fun row => row.toList.splitOn '\n') ++ [[]] := by
  induction rows with
  | nil => rfl
  | cons row rows inductionHypothesis =>
    rw [List.splitOn] at inductionHypothesis ⊢
    rw [List.flatMap_cons, List.append_assoc, List.singleton_append,
      List.splitOnP_append_cons _ _ (by decide), inductionHypothesis, List.flatMap_cons,
      List.append_assoc]
    rfl

theorem length_splitOn_pos (row : List Char) : 0 < (row.splitOn '\n').length :=
  List.length_pos_iff.mpr (List.splitOnP_ne_nil _ row)

theorem length_le_pieces (rows : List String) :
    rows.length ≤ (rows.flatMap fun row => row.toList.splitOn '\n').length := by
  induction rows with
  | nil => exact Nat.le_refl 0
  | cons row rows inductionHypothesis =>
    have some := length_splitOn_pos row.toList
    rw [List.flatMap_cons, List.length_append, List.length_cons]
    omega

/-- There are more pieces than rows when a row has a line feed. -/
theorem length_lt_pieces {rows : List String} {row : String} (member : row ∈ rows)
    (broken : '\n' ∈ row.toList) :
    rows.length < (rows.flatMap fun row => row.toList.splitOn '\n').length := by
  induction rows with
  | nil => cases member
  | cons first rows inductionHypothesis =>
    rw [List.flatMap_cons, List.length_append, List.length_cons]
    rcases List.mem_cons.mp member with rfl | later
    · rcases List.append_of_mem broken with ⟨front, back, split⟩
      have others := length_le_pieces rows
      have front_pos := length_splitOn_pos front
      have back_pos := length_splitOn_pos back
      have pieces : row.toList.splitOn '\n' = front.splitOn '\n' ++ back.splitOn '\n' := by
        rw [split, List.splitOn, List.splitOnP_append_cons _ _ (by decide)]
        rfl
      rw [pieces, List.length_append]
      omega
    · have some := length_splitOn_pos first.toList
      have more := inductionHypothesis later
      omega

/-- A text of rows has them as its lines exactly when no row has a line feed. -/
theorem splitOn_rows_iff (rows : List String) :
    (rows.flatMap fun row => row.toList ++ ['\n']).splitOn '\n' =
        rows.map String.toList ++ [[]] <->
      forall row, row ∈ rows -> '\n' ∉ row.toList := by
  rw [splitOn_rows, List.append_left_inj]
  constructor
  · intro same row member broken
    have longer := length_lt_pieces member broken
    rw [same, List.length_map] at longer
    exact Nat.lt_irrefl _ longer
  · intro unbroken
    induction rows with
    | nil => rfl
    | cons row rows inductionHypothesis =>
      have single : row.toList.splitOn '\n' = [row.toList] := by
        refine List.splitOnP_eq_singleton fun c member => beq_eq_false_iff_ne.mpr ?_
        rintro rfl
        exact unbroken row List.mem_cons_self member
      rw [List.flatMap_cons, single, List.map_cons,
        inductionHypothesis fun row member => unbroken row (List.mem_cons_of_mem _ member)]
      rfl

/-- The rows, each with a line feed behind it, are the text of a drawing. -/
theorem toList_intercalate_rows (rows : List String) :
    ("".intercalate (rows.map (· ++ "\n"))).toList =
      rows.flatMap fun row => row.toList ++ ['\n'] := by
  rw [String.toList_intercalate, String.toList_empty]
  induction rows with
  | nil => rfl
  | cons row rows inductionHypothesis =>
    rw [List.flatMap_cons, ← inductionHypothesis]
    cases rows with
    | nil => simp
    | cons next rows =>
      rw [List.map_cons, List.map_cons, List.map_cons, List.map_cons, List.intercalate_cons_cons,
        String.toList_append, List.append_nil]
      rfl

/-- No row has a line feed exactly when all nodes on the rows keep to their line. -/
theorem forall_rows_iff {entries : List (Nat × Tree)} {rows : List String}
    (shown : List.Forall₂ (Row tokens) entries rows)
    (within : forall entry, entry ∈ entries ->
      forall node, node ∈ entry.2.nodes -> node.Within tokens.size) :
    (forall row, row ∈ rows -> '\n' ∉ row.toList) <->
      forall node, node ∈ entries.flatMap (fun entry => entry.2.onRow) ->
        KeepsLine tokens node := by
  induction shown with
  | nil => simp
  | @cons entry row entries rows first _ inductionHypothesis =>
    rcases first with ⟨box, label, boxed, labels, rfl⟩
    have further := inductionHypothesis fun other member =>
      within other (List.mem_cons_of_mem entry member)
    have here := not_mem_label_iff labels (within entry List.mem_cons_self)
    rw [List.forall_mem_cons, further, List.flatMap_cons, List.forall_mem_append,
      String.toList_append, List.mem_append, not_or, here]
    exact and_congr_left fun _ => and_iff_right (not_mem_box boxed)

end Drawing

namespace Grammar

variable {grammar : Grammar} {rule source : String} {tabSize : Nat} {memoize : Bool} {parse : Parse}

/-- The root of a parse is a rule at the first token. -/
theorem root_of_parse (parsed : grammar.parse rule source tabSize memoize = .ok parse) :
    parse.root.ruleName? = some rule ∧ parse.root.start = 0 := by
  rcases parse_eq_ok_iff.mp parsed with ⟨tokens, -, -, matched⟩
  rcases evaluates_of_matchEntirely matched with ⟨-, log, evaluates⟩
  have generates := evaluates.generates _ rfl
  generalize parse.root = root at generates
  cases generates
  exact ⟨rfl, rfl⟩

/-- A parse is drawn with one row for each displayed node, in preorder and each behind a box as deep
as its node.  The nodes on the rows are all nodes of the tree in preorder, and the displayed leaves
are the tokens in order.  The rows are the lines of the drawing exactly when all nodes keep to their
line. -/
theorem parse_rows (parsed : grammar.parse rule source tabSize memoize = .ok parse) :
    Exists fun drawing => Exists fun rows =>
      Drawing.ofParse? parse = some drawing ∧
        drawing.toList = (rows.flatMap fun row => row.toList ++ ['\n']) ∧
        List.Forall₂ (Drawing.Row parse.tokens) (parse.root.displayed 0 false) rows ∧
        (parse.root.displayed 0 false).flatMap (fun entry => entry.2.onRow) = parse.root.nodes ∧
        (parse.root.displayed 0 false).filterMap (fun entry => entry.2.leafIndex?) =
          List.range' 0 parse.root.consumed ∧
        (drawing.toList.splitOn '\n' = rows.map String.toList ++ [[]] <->
          forall node, node ∈ parse.root.nodes -> Drawing.KeepsLine parse.tokens node) := by
  have within : forall node, node ∈ parse.root.nodes -> node.Within parse.tokens.size :=
    fun node listed => within_of_parse parsed listed
  rcases root_of_parse parsed with ⟨named, starts⟩
  have isRule : parse.root.ruleName? ≠ none := by
    rw [named]
    exact Option.some_ne_none rule
  have whole : parse.root ∈ parse.root.nodes := by
    cases parse.root <;> exact List.mem_cons_self
  rcases Drawing.exists_allRows isRule within with ⟨rows, drawn, shown⟩
  have preorder : (parse.root.displayed 0 false).flatMap (fun entry => entry.2.onRow) =
      parse.root.nodes := by
    rw [Tree.displayed_eq, List.flatMap_cons, Tree.onRow_displayed]
  have text := Drawing.toList_intercalate_rows rows
  refine ⟨_, rows, by rw [Drawing.ofParse?, drawn]; rfl, text, shown, preorder, ?_, ?_⟩
  · rw [Tree.filterMap_leafIndex?_displayed, (within _ whole).leaves_eq, starts]
  · rw [text, Drawing.splitOn_rows_iff, ← preorder]
    exact Drawing.forall_rows_iff shown fun entry member node listed =>
      within node (parse.root.nodes_subset_of_mem_displayed member listed)

/-- A rule that wraps another one, a separator, and a rule next to it. -/
theorem parse_rows_pair :
    let grammar : Grammar := ⟨[⟨"pair", .sequence [.rule "wrap", .op ",", .rule "item"], false⟩,
      ⟨"wrap", .rule "item", false⟩, ⟨"item", .any .identifier, false⟩], 0⟩
    Exists fun parse => grammar.parse "pair" "a, b" 8 true = .ok parse ∧
      Exists fun drawing => Exists fun rows =>
        Drawing.ofParse? parse = some drawing ∧
          drawing.toList = (rows.flatMap fun row => row.toList ++ ['\n']) ∧
          List.Forall₂ (Drawing.Row parse.tokens) (parse.root.displayed 0 false) rows ∧
          rows.length = 6 := by
  intro grammar
  let tokens : List Token := [⟨.identifier, "a", ⟨0, 1⟩, ⟨0, 0, 0⟩⟩,
    ⟨.operator, ",", ⟨1, 2⟩, ⟨1, 0, 1⟩⟩, ⟨.identifier, "b", ⟨3, 4⟩, ⟨3, 0, 3⟩⟩,
    ⟨.endOfFile, "", ⟨4, 4⟩, ⟨4, 0, 4⟩⟩]
  have read : Token.stream 8 "a, b" = .ok tokens := by decide +kernel
  have matched : grammar.matchEntirely "pair" tokens.toArray true =
      .ok (.success (.node "pair" 0 3 [.node "wrap" 0 1 [.node "item" 0 1 [.leaf 0]], .leaf 1,
        .node "item" 2 1 [.leaf 2]])) :=
    Matcher.matchEntirely_of_unremembered (by with_unfolding_all rfl)
  have parsed := parse_of_matchEntirely read matched
  rcases parse_rows parsed with ⟨drawing, rows, drawn, text, shown, -⟩
  exact ⟨_, parsed, drawing, rows, drawn, text, shown, shown.length_eq.symm⟩

/-- A string over two lines breaks the row of its rule: two nodes are displayed on three lines. -/
theorem parse_rows_broken :
    let grammar : Grammar := ⟨[⟨"s", .any .literal, false⟩], 0⟩
    Exists fun parse => Exists fun drawing =>
      grammar.parse "s" "'''\n'''" 8 true = .ok parse ∧
        Drawing.ofParse? parse = some drawing ∧
        (parse.root.displayed 0 false).length = 2 ∧
        drawing.toList.splitOn '\n' =
          ["s: '''".toList, "'''".toList, "└─ LITERAL \"'''\\n'''\"".toList, []] := by
  intro grammar
  let tokens : List Token := [⟨.literal, "'''\n'''", ⟨0, 7⟩, ⟨0, 0, 0⟩⟩,
    ⟨.endOfFile, "", ⟨7, 7⟩, ⟨7, 1, 3⟩⟩]
  have read : Token.stream 8 "'''\n'''" = .ok tokens := by decide +kernel
  have matched : grammar.matchEntirely "s" tokens.toArray true =
      .ok (.success (.node "s" 0 1 [.leaf 0])) :=
    Matcher.matchEntirely_of_unremembered (by with_unfolding_all rfl)
  have parsed := parse_of_matchEntirely read matched
  refine ⟨_, "s: '''\n'''\n└─ LITERAL \"'''\\n'''\"\n", parsed, by decide +kernel, rfl,
    by decide⟩

end Grammar
end Packrat
