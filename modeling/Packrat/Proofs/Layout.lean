import Packrat.Proofs.Conservation

namespace Packrat

/-!
# The layout of a token stream

A token stream is a sequence of logical lines, the levels that the end of the source closes, and the
end of the file.  A logical line enters its level, has at least one token of its own and ends with a
line break, which only the last line may lack.

The reading of lines never completes a line without a token and never leaves a line without its line
break, except at the end.  The off-side rule puts the entry before each line and counts the levels:
the levels open after some tokens are told by these tokens alone.
-/

/-! ## Levels -/

namespace Token
namespace Kind

/-- The kinds of the tokens that a line has of its own. -/
def isContent : Kind -> Bool
  | identifier | keyword | operator | literal => true
  | _ => false

/-- The number of open levels after a token of a kind, unless a level is closed that is not open. -/
def levelAfter? (depth : Nat) : Kind -> Option Nat
  | indent => some (depth + 1)
  | dedent => if depth = 0 then none else some (depth - 1)
  | _ => some depth

def levelsAfter? (depth : Nat) (kinds : List Kind) : Option Nat :=
  kinds.foldlM levelAfter? depth

variable {kind : Kind} {kinds first rest : List Kind} {depth middle last : Nat}

theorem levelsAfter?_append :
    levelsAfter? depth (first ++ rest) =
      (levelsAfter? depth first).bind fun middle => levelsAfter? middle rest :=
  List.foldlM_append

theorem levelsAfter?_append_of_some (counted : levelsAfter? depth first = some middle) :
    levelsAfter? depth (first ++ rest) = levelsAfter? middle rest := by
  rw [levelsAfter?_append, counted]
  rfl

theorem levelsAfter?_of_plain (plain : forall kind, kind ∈ kinds -> kind ≠ indent ∧ kind ≠ dedent) :
    levelsAfter? depth kinds = some depth := by
  induction kinds with
  | nil => rfl
  | cons kind kinds inductionHypothesis =>
    have same : levelAfter? depth kind = some depth := by
      have here := plain kind List.mem_cons_self
      cases kind with
      | indent => exact absurd rfl here.1
      | dedent => exact absurd rfl here.2
      | _ => rfl
    have later : forall kind, kind ∈ kinds -> kind ≠ indent ∧ kind ≠ dedent :=
      fun kind member => plain kind (List.mem_cons_of_mem _ member)
    rw [levelsAfter?, List.foldlM_cons, same]
    exact inductionHypothesis later

theorem levelsAfter?_replicate_dedent (closed : Nat) :
    levelsAfter? (depth + closed) (List.replicate closed .dedent) = some depth := by
  induction closed with
  | zero => rfl
  | succ closed inductionHypothesis =>
    have one : levelAfter? (depth + (closed + 1)) .dedent = some (depth + closed) := rfl
    rw [List.replicate_succ, levelsAfter?, List.foldlM_cons, one]
    exact inductionHypothesis

/-- The balance of levels: what was open and what was opened is what was closed and what is open. -/
theorem count_of_levelAfter? (counted : levelAfter? depth kind = some middle) :
    depth + [kind].count .indent = middle + [kind].count .dedent := by
  cases kind with
  | dedent =>
    unfold levelAfter? at counted
    by_cases none : depth = 0
    · rw [if_pos none] at counted
      cases counted
    · rw [if_neg none] at counted
      have closed := Option.some.inj counted
      have one : [dedent].count .dedent = 1 := rfl
      have zero : [dedent].count .indent = 0 := rfl
      omega
  | _ =>
    have same := Option.some.inj counted
    subst same
    rfl

theorem count_of_levelsAfter? (counted : levelsAfter? depth kinds = some last) :
    depth + kinds.count .indent = last + kinds.count .dedent := by
  induction kinds generalizing depth with
  | nil => exact congrArg (· + 0) (Option.some.inj counted)
  | cons kind kinds inductionHypothesis =>
    rw [levelsAfter?, List.foldlM_cons] at counted
    rcases Option.bind_eq_some_iff.mp counted with ⟨middle, here, further⟩
    have balance := count_of_levelAfter? here
    have later := inductionHypothesis further
    have split : forall sought,
        (kind :: kinds).count sought = [kind].count sought + kinds.count sought := by
      intro sought
      rw [← List.count_append]
      rfl
    rw [split, split]
    omega

/-- No part of a stream from its beginning on closes more levels than it opens. -/
theorem count_dedent_le (counted : levelsAfter? 0 kinds = some last) (begins : first <+: kinds) :
    first.count .dedent ≤ first.count .indent := by
  rcases begins with ⟨rest, rfl⟩
  rw [levelsAfter?_append] at counted
  rcases Option.bind_eq_some_iff.mp counted with ⟨middle, here, -⟩
  have balance := count_of_levelsAfter? here
  omega

end Kind

/-! ## Lines of kinds -/

/-- How a logical line is entered: one level deeper than the line before it, or after some levels
have been closed. -/
inductive Entry where
  | deeper
  | outward (closed : Nat)

def Entry.kinds : Entry -> List Kind
  | deeper => [.indent]
  | outward closed => List.replicate closed .dedent

/-- What the kinds of its tokens show of a logical line: how it is entered, its own tokens, of which
there is at least one, and whether a line break ends it. -/
structure LineLayout where
  entry : Entry
  content : List Kind
  terminated : Bool
  nonempty : content ≠ []
  own : forall kind, kind ∈ content -> kind.isContent = true

namespace LineLayout

def kinds (line : LineLayout) : List Kind :=
  line.entry.kinds ++ line.content ++ if line.terminated then [.newline] else []

theorem count_endOfFile (line : LineLayout) : line.kinds.count .endOfFile = 0 := by
  apply List.count_eq_zero.mpr
  intro member
  rcases List.mem_append.mp member with member | ends
  · rcases List.mem_append.mp member with enters | content
    · cases same : line.entry with
      | deeper =>
        rw [same] at enters
        cases List.mem_singleton.mp enters
      | outward closed =>
        rw [same] at enters
        cases (List.mem_replicate.mp enters).2
    · cases line.own _ content
  · by_cases terminated : line.terminated = true
    · rw [if_pos terminated] at ends
      cases List.mem_singleton.mp ends
    · rw [if_neg terminated] at ends
      cases ends

end LineLayout
end Token

/-! ## The reading of lines -/

namespace Line

variable {lines : Source.Lines} {tabSize : Nat} {lexeme : Lexeme} {kind : Token.Kind} {line : Line}
  {progress : Progress} {lexemes : List Lexeme}

/-- A line has at least one token, only tokens of its own, and a line break for its end. -/
structure Formed (line : Line) : Prop where
  nonempty : line.tokens ≠ []
  own : forall token, token ∈ line.tokens -> token.kind.isContent = true
  newline : forall token, line.newline = some token -> token.kind = .newline

theorem isContent_of_tokenKind? (becomes : tokenKind? lexeme = some kind) :
    kind.isContent = true := by
  rcases lexeme with ⟨shape, text, start⟩
  cases shape with
  | name =>
    cases becomes
    by_cases reserved : Token.isKeyword (String.ofList text) = true
    · rw [if_pos reserved]
      rfl
    · rw [if_neg reserved]
      rfl
  | whitespace | newline | lineContinuation | comment => cases becomes
  | number | string | operator | openBracket | closeBracket =>
    cases becomes
    rfl

namespace Progress

/-- A line that has begun is formed and has no line break yet. -/
def Formed : Progress -> Prop
  | before _ => True
  | inside line _ => line.Formed ∧ line.newline = none

/-- A step completes only a formed line with its line break, and keeps what has begun formed. -/
theorem step_formed (lines : Source.Lines) (tabSize : Nat) (formed : progress.Formed)
    (lexeme : Lexeme) :
    (forall line, (progress.step lines tabSize lexeme).1 = some line ->
      line.Formed ∧ line.newline.isSome = true) ∧
      (progress.step lines tabSize lexeme).2.Formed := by
  have unfinished : forall line : Line, none = some line ->
      line.Formed ∧ line.newline.isSome = true := by
    intro line impossible
    cases impossible
  cases becomes : tokenKind? lexeme with
  | some kind =>
    have content : (tokenOf lines kind lexeme).kind.isContent = true :=
      isContent_of_tokenKind? becomes
    cases progress with
    | before width =>
      simp only [step, becomes]
      refine ⟨unfinished, ⟨List.cons_ne_nil _ _, fun token member => ?_, ?_⟩, rfl⟩
      · cases List.mem_singleton.mp member
        exact content
      · intro token impossible
        cases impossible
    | inside line depth =>
      simp only [step, becomes]
      have nonempty : line.tokens ++ [tokenOf lines kind lexeme] ≠ [] :=
        List.append_ne_nil_of_right_ne_nil _ (List.cons_ne_nil _ _)
      refine ⟨unfinished, ⟨nonempty, ?_, formed.1.newline⟩, formed.2⟩
      intro token member
      rcases List.mem_append.mp member with earlier | last
      · exact formed.1.own token earlier
      · cases List.mem_singleton.mp last
        exact content
  | none =>
    cases progress with
    | before width =>
      simp only [step, becomes]
      split <;> exact ⟨unfinished, trivial⟩
    | inside line depth =>
      simp only [step, becomes]
      by_cases ends : (decide (lexeme.kind = .newline) && decide (depth = 0)) = true
      · rw [if_pos ends]
        refine ⟨fun completed same => ?_, trivial⟩
        cases same
        refine ⟨⟨formed.1.nonempty, formed.1.own, fun token last => ?_⟩, rfl⟩
        cases last
        rfl
      · rw [if_neg ends]
        exact ⟨unfinished, formed⟩

theorem finish_formed (lines : Source.Lines) (tabSize : Nat) (formed : progress.Formed)
    (lexemes : List Lexeme) :
    (forall line, line ∈ progress.finish lines tabSize lexemes -> line.Formed) ∧
      forall line, line ∈ (progress.finish lines tabSize lexemes).dropLast ->
        line.newline.isSome = true := by
  induction lexemes generalizing progress with
  | nil =>
    cases progress with
    | before width => exact ⟨nofun, nofun⟩
    | inside line depth =>
      refine ⟨fun other member => ?_, nofun⟩
      cases List.mem_singleton.mp member
      exact formed.1
  | cons lexeme lexemes inductionHypothesis =>
    rcases step_formed lines tabSize formed lexeme with ⟨completed, next⟩
    rcases inductionHypothesis next with ⟨further, ended⟩
    rw [finish_cons]
    cases stepped : (progress.step lines tabSize lexeme).1 with
    | none => exact ⟨further, ended⟩
    | some line =>
      rcases completed line stepped with ⟨formedLine, broken⟩
      constructor
      · intro other member
        rcases List.mem_cons.mp member with rfl | later
        · exact formedLine
        · exact further other later
      · intro other member
        by_cases alone : (progress.step lines tabSize lexeme).2.finish lines tabSize lexemes = []
        · rw [alone] at member
          cases member
        · rw [Option.toList_some, List.singleton_append,
            List.dropLast_cons_of_ne_nil alone] at member
          rcases List.mem_cons.mp member with rfl | later
          · exact broken
          · exact ended other later

end Progress

/-- The layout of a line with a way to enter it. -/
def layout (line : Line) (formed : line.Formed) (entry : Token.Entry) : Token.LineLayout where
  entry := entry
  content := line.tokens.map Token.kind
  terminated := line.newline.isSome
  nonempty := fun empty => formed.nonempty (List.map_eq_nil_iff.mp empty)
  own := by
    intro kind member
    rcases List.mem_map.mp member with ⟨token, within, rfl⟩
    exact formed.own token within

theorem kinds_layout (formed : line.Formed) (entry : Token.Entry) :
    (line.layout formed entry).kinds = entry.kinds ++ line.allTokens.map Token.kind := by
  have ending : line.newline.toList.map Token.kind =
      if line.newline.isSome = true then [.newline] else [] := by
    cases ends : line.newline with
    | none => rfl
    | some token => exact congrArg (fun kind => [kind]) (formed.newline token ends)
  rw [allTokens, List.map_append, ending, ← List.append_assoc]
  rfl

/-- The tokens of a line open and close no level. -/
theorem levelsAfter?_allTokens (formed : line.Formed) (depth : Nat) :
    Token.Kind.levelsAfter? depth (line.allTokens.map Token.kind) = some depth := by
  apply Token.Kind.levelsAfter?_of_plain
  intro kind member
  rcases List.mem_map.mp member with ⟨token, within, rfl⟩
  rcases List.mem_append.mp within with own | last
  · have content := formed.own token own
    constructor
    · intro impossible
      rw [impossible] at content
      cases content
    · intro impossible
      rw [impossible] at content
      cases content
  · have ends := formed.newline token (Option.mem_toList.mp last)
    rw [ends]
    exact ⟨nofun, nofun⟩

end Line

/-! ## The off-side rule -/

namespace Offside

variable {lines : Source.Lines} {levels : Offside} {logical : List Line} {tokens : List Token}
  {stop : Nat}

/-- A line is entered one level deeper or after some levels have been closed, and the events count
the levels. -/
theorem enter_entry (levels : Offside) (width : Nat) :
    Exists fun entry : Token.Entry => (levels.enter width).1 = entry.kinds ∧
      Token.Kind.levelsAfter? levels.depth (levels.enter width).1 =
        some (levels.enter width).2.depth := by
  unfold enter
  by_cases deeper : levels.current < width
  · rw [if_pos deeper]
    exact ⟨.deeper, rfl, rfl⟩
  · rw [if_neg deeper]
    have closing : ((levels.widths.takeWhile (width < ·)).map fun _ => Token.Kind.dedent) =
        List.replicate (levels.widths.takeWhile (width < ·)).length .dedent :=
      List.map_const'
    have depths : levels.depth = (levels.widths.dropWhile (width < ·)).length +
        (levels.widths.takeWhile (width < ·)).length := by
      rw [Nat.add_comm, ← List.length_append, List.takeWhile_append_dropWhile]
      rfl
    refine ⟨.outward (levels.widths.takeWhile (width < ·)).length, closing, ?_⟩
    simp only [closing, depths]
    exact Token.Kind.levelsAfter?_replicate_dedent _

theorem kinds_marks (line : Line) :
    (marks lines levels line).map Token.kind = (levels.enter line.indent).1 := by
  rw [marks, List.map_map]
  exact List.map_id _

theorem tokens_nil (read : (Offside.tokens lines stop levels []).1 = .ok tokens) :
    tokens.map Token.kind = List.replicate levels.depth .dedent ++ [.endOfFile] := by
  cases read
  rw [List.map_append, List.map_map]
  exact congrArg (· ++ [Token.Kind.endOfFile]) List.map_const'

/-- The tokens of formed lines are laid out line by line, and no level is open after them. -/
theorem tokens_layout (read : (Offside.tokens lines stop levels logical).1 = .ok tokens)
    (formed : forall line, line ∈ logical -> line.Formed) :
    Exists fun layouts : List Token.LineLayout => Exists fun closing : Nat =>
      tokens.map Token.kind =
        layouts.flatMap Token.LineLayout.kinds ++ List.replicate closing .dedent ++ [.endOfFile] ∧
      layouts.map Token.LineLayout.terminated = logical.map (·.newline.isSome) ∧
      Token.Kind.levelsAfter? levels.depth (tokens.map Token.kind) = some 0 := by
  induction logical generalizing levels tokens with
  | nil =>
    have kinds := tokens_nil read
    refine ⟨[], levels.depth, kinds, rfl, ?_⟩
    have closed : Token.Kind.levelsAfter? (0 + levels.depth)
        (List.replicate levels.depth .dedent) = some 0 :=
      Token.Kind.levelsAfter?_replicate_dedent levels.depth
    rw [Nat.zero_add] at closed
    rw [kinds, Token.Kind.levelsAfter?_append_of_some closed]
    rfl
  | cons line logical inductionHypothesis =>
    have formedLine := formed line List.mem_cons_self
    rcases tokens_cons read with ⟨-, following, rest, rfl⟩
    have later : forall other, other ∈ logical -> other.Formed :=
      fun other member => formed other (List.mem_cons_of_mem _ member)
    rcases inductionHypothesis rest later with ⟨layouts, closing, kinds, terminated, counted⟩
    rcases enter_entry levels line.indent with ⟨entry, enters, entered⟩
    refine ⟨line.layout formedLine entry :: layouts, closing, ?_, ?_, ?_⟩
    · rw [List.map_append, List.map_append, kinds, kinds_marks, enters, List.flatMap_cons,
        Line.kinds_layout]
      simp only [List.append_assoc]
    · rw [List.map_cons, terminated]
      rfl
    · rw [List.map_append, List.map_append, kinds_marks, List.append_assoc,
        Token.Kind.levelsAfter?_append_of_some entered,
        Token.Kind.levelsAfter?_append_of_some (Line.levelsAfter?_allTokens formedLine _)]
      exact counted

end Offside

/-! ## Streams -/

namespace Token

/-- The tokens of a source are laid out: logical lines, closed levels and the end of the file.  Only
the last line may lack its line break, the file ends once, and the levels are balanced: no part from
the beginning on closes more levels than it opens, and the whole closes them all. -/
theorem stream_laidOut (tabSize : Nat) (source : String) (tokens : List Token)
    (read : stream tabSize source = .ok tokens) :
    let kinds := tokens.map Token.kind
    (Exists fun lines : List LineLayout => Exists fun closing : Nat =>
      kinds = lines.flatMap LineLayout.kinds ++ List.replicate closing .dedent ++ [.endOfFile] ∧
        forall line, line ∈ lines.dropLast -> line.terminated = true) ∧
    kinds.count .endOfFile = 1 ∧
    (forall front, front <+: kinds -> front.count .dedent ≤ front.count .indent) ∧
    kinds.count .dedent = kinds.count .indent := by
  intro kinds
  rcases offside_of_stream read with ⟨lexemes, -, offside⟩
  have fresh : (Line.Progress.before 0).Formed := trivial
  rcases Line.Progress.finish_formed (Source.Lines.ofString source) tabSize fresh lexemes with
    ⟨formed, ended⟩
  rcases Offside.tokens_layout offside formed with ⟨lines, closing, whole, terminated, counted⟩
  refine ⟨⟨lines, closing, whole, fun line member => ?_⟩, ?_, fun front begins => ?_, ?_⟩
  · have listed : line.terminated ∈ lines.dropLast.map LineLayout.terminated :=
      List.mem_map_of_mem member
    rw [List.map_dropLast, terminated, ← List.map_dropLast] at listed
    rcases List.mem_map.mp listed with ⟨logical, within, same⟩
    rw [← same]
    exact ended logical within
  · have linesNone : (lines.flatMap LineLayout.kinds).count .endOfFile = 0 := by
      apply List.count_eq_zero.mpr
      intro member
      rcases List.mem_flatMap.mp member with ⟨line, -, within⟩
      exact List.count_eq_zero.mp line.count_endOfFile within
    have closingNone : (List.replicate closing Kind.dedent).count .endOfFile = 0 := by
      rw [List.count_replicate]
      rfl
    calc
      kinds.count .endOfFile =
          (lines.flatMap LineLayout.kinds).count .endOfFile +
            (List.replicate closing Kind.dedent).count .endOfFile +
              [Kind.endOfFile].count .endOfFile := by
        rw [← List.count_append, ← List.count_append, ← whole]
      _ = 1 := by rw [linesNone, closingNone, List.count_singleton_self]
  · exact Kind.count_dedent_le counted begins
  · have balance : 0 + kinds.count .indent = 0 + kinds.count .dedent :=
      Kind.count_of_levelsAfter? counted
    omega

/-- A comment and a line break in brackets before the first line, two levels that one line closes,
and a last line without a line break. -/
theorem stream_laidOut_nested :
    let source := "# c\n(\n) \n\ta\n\t\tb\n\nc"
    Exists fun tokens => stream 8 source = .ok tokens ∧
      tokens.map Token.kind =
        [.operator, .operator, .newline, .indent, .identifier, .newline, .indent, .identifier,
          .newline, .dedent, .dedent, .identifier, .endOfFile] ∧
      (tokens.map Token.kind).count .endOfFile = 1 ∧
      (forall front, front <+: tokens.map Token.kind ->
        front.count .dedent ≤ front.count .indent) ∧
      (tokens.map Token.kind).count .dedent = (tokens.map Token.kind).count .indent := by
  intro source
  have computed : (stream 8 source).toOption.map (·.map Token.kind) =
      some [.operator, .operator, .newline, .indent, .identifier, .newline, .indent, .identifier,
        .newline, .dedent, .dedent, .identifier, .endOfFile] := by
    decide +kernel
  cases read : stream 8 source with
  | error error =>
    rw [read] at computed
    cases computed
  | ok tokens =>
    rw [read] at computed
    have kinds := Option.some.inj computed
    exact ⟨tokens, rfl, kinds, (stream_laidOut 8 source tokens read).2⟩

end Token
end Packrat
