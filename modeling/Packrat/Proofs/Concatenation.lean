import Mathlib.Data.List.TakeWhile
import Mathlib.Tactic.FinCases
import Packrat.Proofs.Joining
import Packrat.Proofs.Layout
import Packrat.Proofs.Likeness
import Packrat.Proofs.Nesting

namespace Packrat

/-!
# Token streams of sources together

The tokens of two sources, one after the other, are those of the first without the end of the file,
and then those of the second.  This holds of what a test sees of a token, not of the place of the
token in its source.

Three things must fit at the boundary.  No line may be open there, so the first source ends with a
line break outside brackets.  The levels that the end of the first source closes must be closed by
the first line of the second, so this line is not indented.  And each of the lexemes of the second
source is the same lexeme further on, so it takes the same part in its line.
-/

/-- What a test sees of a token. -/
def Token.face (token : Token) : Token.Kind × String :=
  (token.kind, token.text)

theorem Token.forall₂_face_iff {tokens others : List Token} :
    List.Forall₂ (fun first second => first.face = second.face) tokens others <->
      tokens.map face = others.map face := by
  rw [← List.forall₂_eq_eq_eq, List.forall₂_map_left_iff, List.forall₂_map_right_iff]

/-! ## Lines further on -/

/-- Where the same lexemes are further on, tests see the same of their tokens. -/
def Likeness.further (lines other : Source.Lines) (distance : Nat) : Likeness lines other where
  lexeme first second := second = first.shift distance
  place _ _ := True
  token first second := first.face = second.face
  error _ _ := True
  kind_eq := by
    rintro first _ rfl
    rfl
  tokenKind?_eq := by
    rintro first _ rfl
    rfl
  width_eq := by
    rintro first _ rfl - _ _
    rfl
  start_place _ := trivial
  token_of_lexeme := by
    rintro first _ rfl kind
    rfl
  token_of_place _ _ := rfl
  error_of_place _ _ := trivial

namespace Line

variable {lines : Source.Lines} {tabSize : Nat} {lexeme : Lexeme} {lexemes rest : List Lexeme}

theorem forall₂_shift (lines other : Source.Lines) (distance : Nat) (lexemes : List Lexeme) :
    List.Forall₂ (Likeness.further lines other distance).lexeme lexemes
      (lexemes.map (Lexeme.shift distance)) :=
  List.forall₂_map_right_iff.mpr (List.forall₂_same.mpr fun _ _ => rfl)

/-- Lexemes further on make up the same lines. -/
theorem ofLexemes_shift (lines other : Source.Lines) (tabSize distance : Nat)
    (lexemes : List Lexeme) :
    List.Forall₂ (Likeness.further lines other distance).LikeLine
      (ofLexemes lines tabSize lexemes)
      (ofLexemes other tabSize (lexemes.map (Lexeme.shift distance))) :=
  Likeness.finish_like tabSize (.before 0) (forall₂_shift lines other distance lexemes)

namespace Progress

variable {progress : Progress}

theorem reached_before (other : Source.Lines) {width : Nat}
    (done : (before 0).reached lines tabSize lexemes = before width) :
    (before 0).reached other tabSize lexemes = before width := by
  have like := Likeness.reached_like tabSize (.before 0) (forall₂_shift lines other 0 lexemes)
  rw [done, show lexemes.map (Lexeme.shift 0) = lexemes from List.map_id lexemes] at like
  generalize (before 0).reached other tabSize lexemes = progress at like ⊢
  cases like
  rfl

theorem finish_append {width : Nat} (formed : progress.Formed)
    (done : progress.reached lines tabSize lexemes = before width) (rest : List Lexeme) :
    (forall line, line ∈ progress.finish lines tabSize lexemes ->
        line.newline.isSome = true) ∧
      progress.finish lines tabSize (lexemes ++ rest) =
        progress.finish lines tabSize lexemes ++ (before width).finish lines tabSize rest := by
  induction lexemes generalizing progress with
  | nil =>
    cases done
    exact ⟨nofun, rfl⟩
  | cons lexeme lexemes inductionHypothesis =>
    rcases step_formed lines tabSize formed lexeme with ⟨ended, next⟩
    rcases inductionHypothesis next done with ⟨others, further⟩
    constructor
    · intro line member
      rw [finish_cons] at member
      rcases List.mem_append.mp member with first | later
      · exact (ended line (Option.mem_toList.mp first)).2
      · exact others line later
    · rw [List.cons_append, finish_cons, finish_cons, further, List.append_assoc]

/-- After a line break, no line is open but one with an open bracket. -/
theorem reached_lineBreak (breaks : lexeme.kind = .newline) {earlier : List Token}
    (agrees : (progress.reached lines tabSize (lexemes ++ [lexeme])).Agrees earlier)
    (closed : Token.openBrackets earlier = 0) :
    progress.reached lines tabSize (lexemes ++ [lexeme]) = before 0 := by
  have none : tokenKind? lexeme = none := by rw [tokenKind?, breaks]
  rw [reached, List.foldl_append, List.foldl_cons, List.foldl_nil, ← reached] at agrees ⊢
  cases so : progress.reached lines tabSize lexemes with
  | before width =>
    simp only [step, none, breaks]
  | inside line depth =>
    rw [so] at agrees
    simp only [step, none, breaks] at agrees ⊢
    by_cases outside : depth = 0
    · simp only [outside, decide_true, Bool.and_self, if_true]
    · simp only [outside, decide_false, Bool.and_false] at agrees
      exact absurd (agrees.2.symm.trans closed) outside

end Progress
end Line

/-! ## The off-side rule further on -/

namespace Offside

variable {lines : Source.Lines} {levels : Offside} {front logical others : List Line}
  {tokens : List Token} {line : Line} {stop : Nat}

theorem tokens_cons_of {following : List Token}
    (fits : (levels.enter line.indent).2.current = line.indent)
    (read : (Offside.tokens lines stop (levels.enter line.indent).2 logical).1 = .ok following) :
    (Offside.tokens lines stop levels (line :: logical)).1 =
      .ok (marks lines levels line ++ line.allTokens ++ following) := by
  unfold Offside.tokens
  simp only [fits, if_true, read, Except.map]
  rw [Line.allTokens, ← List.append_assoc]
  rfl

theorem face_marks (line : Line) :
    (marks lines levels line).map Token.face =
      (levels.enter line.indent).1.map fun kind => (kind, "") := by
  rw [marks, List.map_map]
  rfl

/-- Lines further on have tokens that show the same. -/
theorem tokens_further {other : Source.Lines} {distance : Nat} (stop' : Nat)
    (same : List.Forall₂ (Likeness.further lines other distance).LikeLine logical others)
    (read : (Offside.tokens lines stop levels logical).1 = .ok tokens) :
    Exists fun found => (Offside.tokens other stop' levels others).1 = .ok found ∧
      found.map Token.face = tokens.map Token.face := by
  have like : (Likeness.further lines other distance).LikeResult
      (Offside.tokens lines stop levels logical).1
      (Offside.tokens other stop' levels others).1 :=
    Likeness.offside_like same trivial levels
  rw [read] at like
  generalize (Offside.tokens other stop' levels others).1 = result at like ⊢
  cases like with
  | ok like => exact ⟨_, rfl, (Token.forall₂_face_iff.mp like).symm⟩

/-- The levels that are open after some lines. -/
def after (levels : Offside) (logical : List Line) : Offside :=
  logical.foldl (fun levels line => (levels.enter line.indent).2) levels

/-- The tokens of some lines are followed by those that close the levels, or by those of more
lines. -/
theorem tokens_append (read : (Offside.tokens lines stop levels front).1 = .ok tokens) :
    Exists fun begun : List Token =>
      tokens.map Token.face =
          begun.map Token.face ++ List.replicate (levels.after front).depth (.dedent, "") ++
            [(.endOfFile, "")] ∧
        forall logical following,
          (Offside.tokens lines stop (levels.after front) logical).1 = .ok following ->
          (Offside.tokens lines stop levels (front ++ logical)).1 = .ok (begun ++ following) := by
  induction front generalizing levels tokens with
  | nil =>
    cases read
    refine ⟨[], ?_, fun logical following read => read⟩
    rw [List.map_append, List.map_map]
    exact congrArg (· ++ [(Token.Kind.endOfFile, "")]) List.map_const'
  | cons line front inductionHypothesis =>
    rcases tokens_cons read with ⟨fits, following, rest, rfl⟩
    rcases inductionHypothesis rest with ⟨begun, faces, further⟩
    refine ⟨marks lines levels line ++ line.allTokens ++ begun, ?_, fun logical others read => ?_⟩
    · simp only [List.map_append, faces, List.append_assoc, after, List.foldl_cons]
    · have onward := tokens_cons_of fits (further logical others read)
      rw [List.append_assoc (marks lines levels line ++ line.allTokens)]
      exact onward

theorem after_positive (positive : forall width, width ∈ levels.widths -> 0 < width) :
    forall width, width ∈ (levels.after logical).widths -> 0 < width := by
  induction logical generalizing levels with
  | nil => exact positive
  | cons line logical inductionHypothesis =>
    refine inductionHypothesis fun width member => ?_
    by_cases deeper : levels.current < line.indent
    · simp only [enter, if_pos deeper] at member
      rcases List.mem_cons.mp member with rfl | outer
      · exact Nat.lt_of_le_of_lt (Nat.zero_le _) deeper
      · exact positive width outer
    · simp only [enter, if_neg deeper] at member
      exact positive width ((List.dropWhile_sublist _).subset member)

theorem enter_zero (positive : forall width, width ∈ levels.widths -> 0 < width) :
    levels.enter 0 = (List.replicate levels.depth .dedent, {}) := by
  have wide : forall width, width ∈ levels.widths -> decide (0 < width) = true :=
    fun width member => decide_eq_true (positive width member)
  rw [enter, if_neg (Nat.not_lt_zero _)]
  simp only [List.takeWhile_eq_self_iff.mpr wide, List.dropWhile_eq_nil_iff.mpr wide,
    List.map_const']
  rfl

/-- Lines from column zero on close the levels that are open before them. -/
theorem tokens_outward (positive : forall width, width ∈ levels.widths -> 0 < width)
    (outward : forall line, logical.head? = some line -> line.indent = 0)
    (read : (Offside.tokens lines stop {} logical).1 = .ok tokens) :
    Exists fun found => (Offside.tokens lines stop levels logical).1 = .ok found ∧
      found.map Token.face =
        List.replicate levels.depth (.dedent, "") ++ tokens.map Token.face := by
  cases logical with
  | nil =>
    cases read
    refine ⟨_, rfl, ?_⟩
    rw [List.map_append, List.map_map]
    exact congrArg (· ++ _) List.map_const'
  | cons line logical =>
    have zero := outward line rfl
    have bare : (({} : Offside).enter line.indent) = ([], {}) := by
      rw [zero]
      rfl
    rcases tokens_cons read with ⟨fits, following, rest, rfl⟩
    have entered := enter_zero positive
    rw [← zero] at entered
    rw [bare] at fits rest
    have fits' : (levels.enter line.indent).2.current = line.indent := by
      rw [entered]
      exact fits
    have rest' : (Offside.tokens lines stop (levels.enter line.indent).2 logical).1 =
        .ok following := by
      rw [entered]
      exact rest
    refine ⟨_, tokens_cons_of fits' rest', ?_⟩
    simp only [List.map_append, face_marks, entered, bare, List.map_replicate, List.append_assoc]
    rfl

theorem outward_of_head (read : (Offside.tokens lines stop {} logical).1 = .ok tokens)
    (flat : forall face, (tokens.map Token.face).head? = some face -> face.1 ≠ .indent) :
    forall line, logical.head? = some line -> line.indent = 0 := by
  cases logical with
  | nil => exact nofun
  | cons line logical =>
    intro first same
    cases same
    rcases tokens_cons read with ⟨-, following, -, rfl⟩
    rcases Nat.eq_zero_or_pos line.indent with zero | wide
    · exact zero
    · have entered : (({} : Offside).enter line.indent).1 = [.indent] := by
        rw [enter, if_pos]
        exact wide
      rw [marks, entered] at flat
      exact absurd rfl (flat _ rfl)

end Offside

/-! ## Brackets of nested tokens -/

def Mark.bracketsAfter (depth : Nat) : Mark -> Nat
  | opens .block | closes .block => depth
  | opens _ => depth + 1
  | closes _ => depth - 1

theorem Nested.bracketsAfter {marks : List Mark} (nested : Nested marks) (depth : Nat) :
    marks.foldl Mark.bracketsAfter depth = depth := by
  induction nested generalizing depth with
  | nothing => rfl
  | @enclosed delimiter inside rest _ _ insideHypothesis restHypothesis =>
    rw [List.cons_append, List.foldl_cons, List.foldl_append, insideHypothesis, List.foldl_cons,
      restHypothesis]
    cases delimiter <;> rfl

namespace Token

variable {token : Token} {tokens : List Token}

theorem bracketsAfter_mark? (depth : Nat) (goesOn : token.kind ≠ .newline) :
    token.bracketsAfter depth = token.mark?.toList.foldl Mark.bracketsAfter depth := by
  unfold bracketsAfter mark? Mark.of?
  cases kind : token.kind with
  | newline => exact absurd kind goesOn
  | operator =>
    by_cases known : token.text ∈ Mark.brackets.map Prod.fst
    · generalize token.text = text at known
      fin_cases known <;> rfl
    · have unmarked : Mark.brackets.lookup token.text = none := by
        refine List.lookup_eq_none_iff.mpr fun entry member => bne_iff_ne.mpr ?_
        rintro same
        exact known (same ▸ List.mem_map_of_mem member)
      have opening : ["(", "[", "\x7b"] ⊆ Mark.brackets.map Prod.fst := by decide
      have closing : [")", "]", "\x7d"] ⊆ Mark.brackets.map Prod.fst := by decide
      have notOpening : ["(", "[", "\x7b"].contains token.text = false :=
        Bool.eq_false_iff.mpr fun listed => known (opening (List.contains_iff_mem.mp listed))
      have notClosing : [")", "]", "\x7d"].contains token.text = false :=
        Bool.eq_false_iff.mpr fun listed => known (closing (List.contains_iff_mem.mp listed))
      simp only [unmarked, notOpening, notClosing]
      rfl
  | _ => rfl

theorem foldl_mark?_cons (depth : Nat) (token : Token) (tokens : List Token) :
    ((token :: tokens).filterMap mark?).foldl Mark.bracketsAfter depth =
      (tokens.filterMap mark?).foldl Mark.bracketsAfter
        (token.mark?.toList.foldl Mark.bracketsAfter depth) := by
  cases marked : token.mark? with
  | none => rw [List.filterMap_cons_none marked]; rfl
  | some mark => rw [List.filterMap_cons_some marked]; rfl

/-- The marks of tokens that account for a text count its brackets. -/
theorem Accounts.openBrackets_eq {lines : Source.Lines} {earlier : List Token} {offset : Nat}
    {text : List Char} (accounts : Accounts lines earlier offset tokens text) :
    openBrackets (earlier ++ tokens) =
      (tokens.filterMap mark?).foldl Mark.bracketsAfter (openBrackets earlier) := by
  induction accounts with
  | done => rw [List.append_nil]; rfl
  | @token earlier offset token tokens text rest _ ends _ inductionHypothesis =>
    rw [List.append_cons, inductionHypothesis, openBrackets_concat, foldl_mark?_cons]
    congr 1
    by_cases breaks : token.kind = .newline
    · simp only [ends breaks, bracketsAfter, mark?, Mark.of?, breaks]
      rfl
    · exact bracketsAfter_mark? _ breaks
  | gap _ _ inductionHypothesis => exact inductionHypothesis

/-- Tokens without text change nothing about the brackets that the marks count. -/
theorem foldl_mark?_visible (depth : Nat) :
    ((visible tokens).filterMap mark?).foldl Mark.bracketsAfter depth =
      (tokens.filterMap mark?).foldl Mark.bracketsAfter depth := by
  induction tokens generalizing depth with
  | nil => rfl
  | cons token tokens inductionHypothesis =>
    rw [foldl_mark?_cons, ← inductionHypothesis]
    cases synthetic : token.kind.isSynthetic with
    | false => rw [visible_cons synthetic, foldl_mark?_cons]
    | true =>
      rw [visible_cons_of_isSynthetic synthetic, mark?]
      cases kind : token.kind with
      | indent | dedent | endOfFile => rfl
      | _ =>
        rw [kind] at synthetic
        cases synthetic

/-- When the tokens of a source are nested, no bracket is open after them. -/
theorem openBrackets_of_nested {tabSize : Nat} {source : String}
    (read : stream tabSize source = .ok tokens) (nested : Nested (tokens.filterMap mark?)) :
    openBrackets tokens = 0 := by
  have counted : openBrackets (visible tokens) = _ := (stream_accounts read).openBrackets_eq
  rw [← openBrackets_visible, counted, foldl_mark?_visible, nested.bracketsAfter]
  rfl

end Token

/-! ## Streams -/

/-- A source is empty, or a line break is its last lexeme and has a line feed at its end. -/
def Lexeme.EndsLine (source : String) : Prop :=
  source = "" ∨ Exists fun lexemes => Exists fun last =>
    ofSource source = .ok (lexemes ++ [last]) ∧ last.kind = .newline ∧
      last.text.getLast? = some '\n'

theorem Lexeme.EndsLine.getLast? {source : String} (ends : EndsLine source) :
    source.toList = [] ∨ source.toList.getLast? = some '\n' := by
  rcases ends with rfl | ⟨lexemes, last, read, -, feed⟩
  · exact Or.inl rfl
  · right
    have some : last.text ≠ [] := by
      intro empty
      rw [empty] at feed
      cases feed
    rw [← (tiles_of_ofSource read).1, List.flatMap_append, List.flatMap_singleton,
      List.getLast?_append_of_ne_nil _ some, feed]

/-- After such a source no line is open, unless a bracket is. -/
theorem Lexeme.EndsLine.reached {source : String} (ends : EndsLine source) {tabSize : Nat}
    {lexemes : List Lexeme} {tokens : List Token} (scanned : ofSource source = .ok lexemes)
    (read : Token.stream tabSize source = .ok tokens) (closed : Token.openBrackets tokens = 0) :
    (Line.Progress.before 0).reached (Source.Lines.ofString source) tabSize lexemes =
      .before 0 := by
  rcases ends with rfl | ⟨front, last, scanned', breaks, -⟩
  · have none : ofSource "" = .ok [] := ofSource_eq_ok_iff.mpr (by simp [scan])
    cases scanned.symm.trans none
    rfl
  · cases scanned.symm.trans scanned'
    rcases Token.offside_of_stream read with ⟨_, scanned', offside⟩
    cases scanned.symm.trans scanned'
    rcases Line.ofLexemes_accounts (Source.Lines.ofString source) tabSize
      (tiles_of_ofSource scanned).2 (spelled_of_ofSource scanned) with ⟨accounts, agrees⟩
    rw [← Token.openBrackets_visible,
      Offside.visible_tokens offside fun token member => accounts.visible member] at closed
    exact Line.Progress.reached_lineBreak breaks agrees closed

namespace Token

variable {tabSize : Nat} {first second : String} {tokens others : List Token}

/-- The tokens of a source before the end of the file are its lines and the levels that are closed
behind them. -/
theorem layout_of_stream (read : stream tabSize first = .ok tokens) :
    Exists fun lexemes => Exists fun layouts : List LineLayout => Exists fun closing : Nat =>
      Lexeme.ofSource first = .ok lexemes ∧
        tokens.dropLast.map Token.kind =
          layouts.flatMap LineLayout.kinds ++ List.replicate closing .dedent ∧
        layouts.map LineLayout.terminated =
          (Line.ofLexemes (Source.Lines.ofString first) tabSize lexemes).map
            (·.newline.isSome) := by
  rcases offside_of_stream read with ⟨lexemes, scanned, offside⟩
  have fresh : (Line.Progress.before 0).Formed := trivial
  rcases Offside.tokens_layout offside
    (Line.Progress.finish_formed (Source.Lines.ofString first) tabSize fresh lexemes).1 with
    ⟨layouts, closing, kinds, terminated, -⟩
  refine ⟨lexemes, layouts, closing, scanned, ?_, terminated⟩
  rw [List.map_dropLast, kinds, List.dropLast_concat]

theorem ne_endOfFile_of_stream (read : stream tabSize first = .ok tokens) :
    forall token, token ∈ tokens.dropLast -> token.kind ≠ .endOfFile := by
  rcases layout_of_stream read with ⟨_, layouts, closing, -, kinds, -⟩
  intro token member same
  have listed := List.mem_map_of_mem (f := Token.kind) member
  rw [kinds, same] at listed
  rcases List.mem_append.mp listed with line | closes
  · rcases List.mem_flatMap.mp line with ⟨layout, -, within⟩
    exact List.count_eq_zero.mp layout.count_endOfFile within
  · cases (List.mem_replicate.mp closes).2

/-- Behind a line break outside brackets, the last token of a source before the end of the file ends
a line or a block. -/
theorem endsBlock_of_stream (ends : Lexeme.EndsLine first)
    (read : stream tabSize first = .ok tokens) (closed : openBrackets tokens = 0) :
    forall token, tokens.dropLast.getLast? = some token ->
      token.kind = .newline ∨ token.kind = .dedent := by
  rcases layout_of_stream read with ⟨lexemes, layouts, closing, scanned, kinds, terminated⟩
  have fresh : (Line.Progress.before 0).Formed := trivial
  have ended := (Line.Progress.finish_append fresh (ends.reached scanned read closed) []).1
  intro token last
  have found : (tokens.dropLast.map Token.kind).getLast? = some token.kind := by
    rw [List.getLast?_map, last]
    rfl
  rw [kinds] at found
  cases closing with
  | succ closing =>
    rw [List.replicate_succ', ← List.append_assoc, List.getLast?_concat] at found
    exact Or.inr (Option.some.inj found).symm
  | zero =>
    rw [List.replicate_zero, List.append_nil] at found
    rcases List.eq_nil_or_concat layouts with rfl | ⟨earlier, layout, rfl⟩
    · cases found
    · rw [List.concat_eq_append] at found terminated
      have broken : layout.terminated = true := by
        have listed : layout.terminated ∈ (earlier ++ [layout]).map LineLayout.terminated :=
          List.mem_map_of_mem (List.mem_append_right _ (List.mem_singleton_self _))
        rw [terminated] at listed
        rcases List.mem_map.mp listed with ⟨line, within, same⟩
        exact same ▸ ended line within
      rw [List.flatMap_append, List.flatMap_singleton, LineLayout.kinds, if_pos broken,
        ← List.append_assoc, List.getLast?_concat] at found
      exact Or.inl (Option.some.inj found).symm

/-- The tokens of two sources together, for a first source that ends with a line break outside
brackets and a second one that does not begin with an indentation. -/
theorem stream_append (ends : Lexeme.EndsLine first) (read : stream tabSize first = .ok tokens)
    (readOther : stream tabSize second = .ok others) (closed : openBrackets tokens = 0)
    (flat : forall token, others.head? = some token -> token.kind ≠ .indent) :
    Exists fun joined => stream tabSize (first ++ second) = .ok joined ∧
      joined.map face = tokens.dropLast.map face ++ others.map face := by
  rcases offside_of_stream read with ⟨lexemes, scanned, offside⟩
  rcases offside_of_stream readOther with ⟨more, scannedOther, offsideOther⟩
  let lines := Source.Lines.ofString (first ++ second)
  let stop := Source.byteLength lines.text
  let further := more.map (Lexeme.shift (Source.byteLength first.toList))
  -- No line is open at the boundary, so the lines of the two together are those of each.
  have split : Line.ofLexemes lines tabSize (lexemes ++ further) =
      Line.ofLexemes lines tabSize lexemes ++ Line.ofLexemes lines tabSize further := by
    have boundary := Line.Progress.reached_before lines (ends.reached scanned read closed)
    have formed : (Line.Progress.before 0).Formed := trivial
    exact (Line.Progress.finish_append formed boundary further).2
  have firstLines := Line.ofLexemes_shift (Source.Lines.ofString first) lines tabSize 0 lexemes
  rw [show lexemes.map (Lexeme.shift 0) = lexemes from List.map_id lexemes] at firstLines
  have secondLines := Line.ofLexemes_shift (Source.Lines.ofString second) lines tabSize
    (Source.byteLength first.toList) more
  rcases Offside.tokens_further stop firstLines offside with ⟨begun, readBegun, shown⟩
  rcases Offside.tokens_further stop secondLines offsideOther with
    ⟨following, readFollowing, shownOther⟩
  -- The first line of the second source closes the levels that are open at the boundary.
  have outward : forall line, (Line.ofLexemes lines tabSize further).head? = some line ->
      line.indent = 0 := by
    refine Offside.outward_of_head readFollowing fun seen same => ?_
    rw [shownOther, List.head?_map] at same
    rcases Option.map_eq_some_iff.mp same with ⟨token, found, rfl⟩
    exact flat token found
  have positive : forall width, width ∈ ({} : Offside).widths -> 0 < width := nofun
  rcases Offside.tokens_append readBegun with ⟨front, parts, onward⟩
  rcases Offside.tokens_outward (Offside.after_positive positive) outward readFollowing with
    ⟨joint, readJoint, shownJoint⟩
  refine ⟨front ++ joint, ?_, ?_⟩
  · have scannedBoth := Lexeme.ofSource_append ends.getLast? scanned scannedOther
    rw [stream, scannedBoth]
    have readBoth := onward _ _ readJoint
    rw [← split] at readBoth
    exact readBoth
  · rw [List.map_append, shownJoint, shownOther, ← List.append_assoc, List.map_dropLast, ← shown,
      parts, List.dropLast_concat]

end Token
end Packrat
