import Packrat.Proofs.Account
import Packrat.Token.Stream

namespace Packrat

/-!
# A token stream accounts for its source

The tokens that stand for text and the gaps between them are the source: nothing of it is lost and
nothing is made up.

The account is kept along the lexemes.  The reading of lines knows as much as the tokens read so far
tell: whether a line has begun, and how many brackets are open in it.  The off-side rule adds only
tokens that stand for no text.
-/

/-! ## Lexemes and tokens -/

namespace Line

variable {lines : Source.Lines} {lexeme : Lexeme} {depth tabSize stop offset : Nat}
  {kind : Token.Kind} {progress : Progress} {earlier tokens : List Token} {lexemes : List Lexeme}

private theorem no_operator_is_bracket : forall symbol, symbol ∈ Lexeme.operators ->
    ["(", "[", "\x7b"].contains symbol = false ∧ [")", "]", "\x7d"].contains symbol = false := by
  decide

private theorem opening_brackets :
    ("([\x7b".toList.all fun c => ["(", "[", "\x7b"].contains (String.ofList [c])) = true := by
  decide

private theorem closing_brackets :
    (")]\x7d".toList.all fun c => [")", "]", "\x7d"].contains (String.ofList [c]) &&
      !(["(", "[", "\x7b"].contains (String.ofList [c]))) = true := by
  decide

/-- Brackets are counted alike by lexemes and by tokens. -/
theorem bracketsAfter_tokenOf (spelled : lexeme.Spelled) (becomes : tokenKind? lexeme = some kind) :
    (tokenOf lines kind lexeme).bracketsAfter depth = depthAfter depth lexeme := by
  rcases lexeme with ⟨shape, text, start⟩
  cases shape with
  | whitespace | newline | lineContinuation | comment => cases becomes
  | number | string =>
    cases becomes
    rfl
  | name =>
    cases becomes
    cases Token.isKeyword (String.ofList text) <;> rfl
  | operator =>
    cases becomes
    have known := Lexeme.operator_of_accepts (spelled nofun nofun)
    rcases no_operator_is_bracket _ known with ⟨notOpen, notClose⟩
    simp only [tokenOf, Token.bracketsAfter, depthAfter, notOpen, notClose]
    rfl
  | openBracket =>
    cases becomes
    have bracket : Exists fun c => c ∈ "([\x7b".toList ∧ text = [c] :=
      Lexeme.bracket_of_accepts rfl (spelled nofun nofun)
    rcases bracket with ⟨c, known, rfl⟩
    have opens := List.all_eq_true.mp opening_brackets c known
    simp only [tokenOf, Token.bracketsAfter, depthAfter, opens, if_true]
  | closeBracket =>
    cases becomes
    have bracket : Exists fun c => c ∈ ")]\x7d".toList ∧ text = [c] :=
      Lexeme.bracket_of_accepts rfl (spelled nofun nofun)
    rcases bracket with ⟨c, known, rfl⟩
    have computed := List.all_eq_true.mp closing_brackets c known
    rcases Bool.and_eq_true_iff.mp computed with ⟨closes, notOpen⟩
    rw [Bool.not_eq_true'] at notOpen
    simp only [tokenOf, Token.bracketsAfter, depthAfter, notOpen, closes, if_true]
    rfl

theorem visible_of_tokenKind? (becomes : tokenKind? lexeme = some kind) :
    kind.isSynthetic = false ∧ kind ≠ .newline := by
  unfold tokenKind? at becomes
  split at becomes
  · split at becomes <;> cases becomes <;> decide
  all_goals cases becomes
  all_goals decide

theorem trivia_or_newline_of_tokenKind? (missing : tokenKind? lexeme = none) :
    lexeme.kind.isTrivia = true ∨ lexeme.kind = .newline := by
  rcases lexeme with ⟨shape, text, start⟩
  cases shape with
  | newline => exact Or.inr rfl
  | whitespace | lineContinuation | comment => exact Or.inl rfl
  | _ => cases missing

/-- The token that a lexeme becomes, if it becomes one inside a line. -/
def token? (lines : Source.Lines) (lexeme : Lexeme) : Option Token :=
  (tokenKind? lexeme).map fun kind => tokenOf lines kind lexeme

theorem tokenOf_standsFor (visible : kind.isSynthetic = false) (nonempty : lexeme.text ≠ []) :
    (tokenOf lines kind lexeme).StandsFor lines lexeme.text lexeme.start :=
  ⟨visible, nonempty, rfl, rfl, rfl⟩

/-- The tokens of a line with the one of its line break. -/
def allTokens (line : Line) : List Token :=
  line.tokens ++ line.newline.toList

namespace Progress

/-- The tokens of the line that has begun. -/
def pending : Progress -> List Token
  | before _ => []
  | inside line _ => line.tokens

/-- The reading of lines knows what the tokens so far tell. -/
def Agrees (earlier : List Token) : Progress -> Prop
  | before _ => Token.AtLineStart earlier ∧ Token.openBrackets earlier = 0
  | inside line depth => line.newline = none ∧ Token.openBrackets earlier = depth

/-- A step makes a token of a lexeme: it comes after what is pending, or completes it. -/
structure Takes (lines : Source.Lines) (earlier : List Token) (progress : Progress)
    (lexeme : Lexeme) (stepped : Option Line × Progress) (token : Token) : Prop where
  stands : token.StandsFor lines lexeme.text lexeme.start
  outside : token.kind = .newline -> Token.openBrackets earlier = 0
  agrees : stepped.2.Agrees (earlier ++ [token])
  tokens : stepped.1.toList.flatMap allTokens ++ stepped.2.pending = progress.pending ++ [token]

/-- A step passes over a lexeme that may be a gap. -/
structure Skips (earlier : List Token) (progress : Progress) (lexeme : Lexeme)
    (stepped : Option Line × Progress) : Prop where
  gap : Token.Gap earlier lexeme.text
  agrees : stepped.2.Agrees earlier
  tokens : stepped.1.toList.flatMap allTokens ++ stepped.2.pending = progress.pending

theorem takes_of_tokenKind? (agrees : progress.Agrees earlier) (spelled : lexeme.Spelled)
    (nonempty : lexeme.text ≠ []) (becomes : tokenKind? lexeme = some kind) :
    Takes lines earlier progress lexeme (progress.step lines tabSize lexeme)
      (tokenOf lines kind lexeme) := by
  rcases visible_of_tokenKind? becomes with ⟨visible, notNewline⟩
  have stands : (tokenOf lines kind lexeme).StandsFor lines lexeme.text lexeme.start :=
    tokenOf_standsFor visible nonempty
  have counted : forall depth, Token.openBrackets earlier = depth ->
      Token.openBrackets (earlier ++ [tokenOf lines kind lexeme]) = depthAfter depth lexeme := by
    rintro depth rfl
    rw [Token.openBrackets_concat, bracketsAfter_tokenOf spelled becomes]
  cases progress with
  | before width =>
    simp only [step, becomes]
    exact ⟨stands, fun _ => agrees.2, ⟨rfl, counted 0 agrees.2⟩, rfl⟩
  | inside line depth =>
    simp only [step, becomes]
    exact ⟨stands, fun ends => absurd ends notNewline, ⟨agrees.1, counted depth agrees.2⟩, rfl⟩

theorem skips_of_isTrivia (agrees : progress.Agrees earlier) (spelled : lexeme.Spelled)
    (trivia : lexeme.kind.isTrivia = true) :
    Skips earlier progress lexeme (progress.step lines tabSize lexeme) := by
  rcases lexeme with ⟨shape, text, start⟩
  have gap : Token.Gap earlier text := by
    cases shape <;> cases trivia <;> exact .trivia rfl (spelled nofun nofun)
  cases progress <;> cases shape <;> cases trivia <;> exact ⟨gap, agrees, rfl⟩

/-- A line break completes a line, unless no line has begun or a bracket is open. -/
theorem takes_or_skips_lineBreak (agrees : progress.Agrees earlier) (spelled : lexeme.Spelled)
    (nonempty : lexeme.text ≠ []) (breaks : lexeme.kind = .newline) :
    Takes lines earlier progress lexeme (progress.step lines tabSize lexeme)
        (tokenOf lines .newline lexeme) ∨
      Skips earlier progress lexeme (progress.step lines tabSize lexeme) := by
  have stands : (tokenOf lines .newline lexeme).StandsFor lines lexeme.text lexeme.start :=
    tokenOf_standsFor rfl nonempty
  rcases lexeme with ⟨shape, text, start⟩
  cases breaks
  cases progress with
  | before width => exact Or.inr ⟨.lineBreak (spelled nofun nofun) (Or.inl agrees.1), agrees, rfl⟩
  | inside line depth =>
    cases depth with
    | zero =>
      refine Or.inl ⟨stands, fun _ => agrees.2, ⟨Token.atLineStart_concat rfl, ?_⟩, ?_⟩
      · rw [Token.openBrackets_concat]
        rfl
      · simp [step, tokenKind?, allTokens, pending]
    | succ depth =>
      have inside : 0 < Token.openBrackets earlier := agrees.2 ▸ Nat.succ_pos depth
      exact Or.inr ⟨.lineBreak (spelled nofun nofun) (Or.inr inside), agrees, rfl⟩

theorem takes_or_skips (lines : Source.Lines) (tabSize : Nat) (agrees : progress.Agrees earlier)
    (spelled : lexeme.Spelled) (nonempty : lexeme.text ≠ []) :
    (Exists fun token =>
        Takes lines earlier progress lexeme (progress.step lines tabSize lexeme) token) ∨
      Skips earlier progress lexeme (progress.step lines tabSize lexeme) := by
  cases becomes : tokenKind? lexeme with
  | some kind => exact Or.inl ⟨_, takes_of_tokenKind? agrees spelled nonempty becomes⟩
  | none =>
    rcases trivia_or_newline_of_tokenKind? becomes with trivia | breaks
    · exact Or.inr (skips_of_isTrivia agrees spelled trivia)
    · rcases takes_or_skips_lineBreak agrees spelled nonempty breaks with takes | skips
      · exact Or.inl ⟨_, takes⟩
      · exact Or.inr skips

theorem finish_cons :
    progress.finish lines tabSize (lexeme :: lexemes) =
      (progress.step lines tabSize lexeme).1.toList ++
        (progress.step lines tabSize lexeme).2.finish lines tabSize lexemes := by
  cases progress <;> rfl

/-- How far the reading of lines is after some lexemes. -/
def reached (lines : Source.Lines) (tabSize : Nat) (progress : Progress) (lexemes : List Lexeme) :
    Progress :=
  lexemes.foldl (fun progress lexeme => (progress.step lines tabSize lexeme).2) progress

/-- The tokens of the remaining lexemes account for the remaining text, and they tell how far the
reading is at its end. -/
theorem finish_accounts (lines : Source.Lines) (tabSize : Nat) (agrees : progress.Agrees earlier)
    (tiles : Lexeme.Tiles offset lexemes stop)
    (spelled : forall lexeme, lexeme ∈ lexemes -> lexeme.Spelled) :
    Exists fun tokens =>
      (progress.finish lines tabSize lexemes).flatMap allTokens = progress.pending ++ tokens ∧
        Token.Accounts lines earlier offset tokens (lexemes.flatMap Lexeme.text) ∧
        (progress.reached lines tabSize lexemes).Agrees (earlier ++ tokens) := by
  induction lexemes generalizing progress earlier offset with
  | nil =>
    refine ⟨[], ?_, .done, by rw [List.append_nil]; exact agrees⟩
    cases progress with
    | before => rfl
    | inside line depth => simp [finish, pending, allTokens, agrees.1]
  | cons lexeme lexemes inductionHypothesis =>
    rcases tiles with ⟨rfl, positive, tiles⟩
    have nonempty : lexeme.text ≠ [] := by
      intro empty
      simp [Lexeme.stop, empty] at positive
    have later := fun other member => spelled other (List.mem_cons_of_mem lexeme member)
    rw [finish_cons, List.flatMap_append, List.flatMap_cons]
    rcases takes_or_skips lines tabSize agrees (spelled lexeme List.mem_cons_self) nonempty with
      ⟨token, takes⟩ | skips
    · rcases inductionHypothesis takes.agrees tiles later with ⟨tokens, same, accounts, ends⟩
      refine ⟨token :: tokens, ?_, .token takes.stands takes.outside accounts, ?_⟩
      · rw [same, ← List.append_assoc, takes.tokens, List.append_assoc]
        rfl
      · rw [List.append_cons]
        exact ends
    · rcases inductionHypothesis skips.agrees tiles later with ⟨tokens, same, accounts, ends⟩
      refine ⟨tokens, ?_, .gap skips.gap accounts, ends⟩
      rw [same, ← List.append_assoc, skips.tokens]

end Progress

/-- The tokens of the lines account for the text of the lexemes, and tell how far the reading of
lines is after them. -/
theorem ofLexemes_accounts (lines : Source.Lines) (tabSize : Nat)
    (tiles : Lexeme.Tiles 0 lexemes stop)
    (spelled : forall lexeme, lexeme ∈ lexemes -> lexeme.Spelled) :
    Token.Accounts lines [] 0 ((ofLexemes lines tabSize lexemes).flatMap allTokens)
        (lexemes.flatMap Lexeme.text) ∧
      ((Progress.before 0).reached lines tabSize lexemes).Agrees
        ((ofLexemes lines tabSize lexemes).flatMap allTokens) := by
  have agrees : (Progress.before 0).Agrees [] := ⟨Token.atLineStart_nil, rfl⟩
  rcases Progress.finish_accounts lines tabSize agrees tiles spelled with
    ⟨tokens, same, accounts, ends⟩
  rw [ofLexemes, same]
  exact ⟨accounts, ends⟩

end Line

/-! ## The off-side rule -/

namespace Offside

variable {lines : Source.Lines} {levels : Offside} {logical : List Line} {tokens : List Token}
  {kind : Token.Kind} {width stop : Nat}

theorem isSynthetic_of_mem_enter (event : kind ∈ (levels.enter width).1) :
    kind.isSynthetic = true := by
  unfold enter at event
  split at event
  · cases List.mem_singleton.mp event
    rfl
  · rcases List.mem_map.mp event with ⟨_, -, rfl⟩
    rfl

/-- The tokens that enter a line: one for each event, at the start of the line. -/
def marks (lines : Source.Lines) (levels : Offside) (line : Line) : List Token :=
  (levels.enter line.indent).1.map fun kind =>
    Token.synthetic kind line.start (lines.position line.start)

theorem isSynthetic_of_mem_marks {line : Line} {token : Token}
    (member : token ∈ marks lines levels line) : token.kind.isSynthetic = true := by
  rcases List.mem_map.mp member with ⟨kind, event, rfl⟩
  exact isSynthetic_of_mem_enter event

/-- A line is entered at its width, and its tokens come before those of the lines after it. -/
theorem tokens_cons {line : Line}
    (read : (Offside.tokens lines stop levels (line :: logical)).1 = .ok tokens) :
    (levels.enter line.indent).2.current = line.indent ∧ Exists fun following =>
      (Offside.tokens lines stop (levels.enter line.indent).2 logical).1 = .ok following ∧
        tokens = marks lines levels line ++ line.allTokens ++ following := by
  unfold Offside.tokens at read
  simp only at read
  split at read
  · rename_i fits
    cases rest : (Offside.tokens lines stop (levels.enter line.indent).2 logical).1 with
    | error error =>
      rw [rest] at read
      cases read
    | ok following =>
      rw [rest] at read
      cases read
      refine ⟨fits, following, rfl, ?_⟩
      rw [Line.allTokens, ← List.append_assoc]
      rfl
  · cases read

/-- The off-side rule keeps the tokens of the lines and adds only tokens without text. -/
theorem visible_tokens (read : (Offside.tokens lines stop levels logical).1 = .ok tokens)
    (shown : forall token, token ∈ logical.flatMap Line.allTokens ->
      token.kind.isSynthetic = false) :
    Token.visible tokens = logical.flatMap Line.allTokens := by
  induction logical generalizing levels tokens with
  | nil =>
    cases read
    refine Token.visible_eq_nil fun token member => ?_
    rcases List.mem_append.mp member with closing | last
    · rcases List.mem_map.mp closing with ⟨_, -, rfl⟩
      rfl
    · cases List.mem_singleton.mp last
      rfl
  | cons line logical inductionHypothesis =>
    rcases tokens_cons read with ⟨-, following, rest, rfl⟩
    have here := fun token member => shown token (List.mem_append_left _ member)
    have later := fun token member => shown token (List.mem_append_right _ member)
    rw [Token.visible_append, Token.visible_append, Token.visible_eq_self here,
      Token.visible_eq_nil fun _ => isSynthetic_of_mem_marks, inductionHypothesis rest later]
    rfl

end Offside

/-! ## Streams -/

namespace Token

variable {tabSize : Nat} {source : String} {tokens : List Token}

/-- A source has tokens when it has lexemes and the off-side rule accepts their lines. -/
theorem offside_of_stream (read : stream tabSize source = .ok tokens) :
    let lines := Source.Lines.ofString source
    Exists fun lexemes => Lexeme.ofSource source = .ok lexemes ∧
      (Offside.tokens lines (Source.byteLength lines.text) {}
        (Line.ofLexemes lines tabSize lexemes)).1 = .ok tokens := by
  unfold stream at read
  cases scanned : Lexeme.ofSource source with
  | error error =>
    rw [scanned] at read
    cases read
  | ok lexemes =>
    rw [scanned] at read
    exact ⟨lexemes, rfl, read⟩

/-- The tokens that stand for text account for the source. -/
theorem stream_accounts (read : stream tabSize source = .ok tokens) :
    Accounts (Source.Lines.ofString source) [] 0 (visible tokens) source.toList := by
  rcases offside_of_stream read with ⟨lexemes, scanned, offside⟩
  rcases Lexeme.tiles_of_ofSource scanned with ⟨whole, tiles⟩
  rcases Line.ofLexemes_accounts (Source.Lines.ofString source) tabSize tiles
    (Lexeme.spelled_of_ofSource scanned) with ⟨accounts, -⟩
  rw [Offside.visible_tokens offside fun token member => accounts.visible member, ← whole]
  exact accounts

/-- Reading a source loses nothing of it and makes nothing up. -/
theorem stream_conserves (tabSize : Nat) (source : String) (tokens : List Token)
    (read : stream tabSize source = .ok tokens) :
    let lines := Source.Lines.ofString source
    ((visible tokens).Pairwise fun first second => first.span.stop ≤ second.span.start) ∧
    (forall token, token ∈ visible tokens -> token.span.start < token.span.stop ∧
      token.position = lines.position token.span.start ∧
      Exists fun front => Exists fun back =>
        source.toList = front ++ token.text.toList ++ back ∧
        token.span.start = Source.byteLength front ∧
        token.span.stop = Source.byteLength (front ++ token.text.toList)) ∧
    Accounts lines [] 0 (visible tokens) source.toList ∧
    (forall front token back, tokens = front ++ token :: back -> token.kind = .newline ->
      openBrackets front = 0) := by
  intro lines
  have accounts : Accounts lines [] 0 (visible tokens) source.toList := stream_accounts read
  refine ⟨accounts.pairwise, fun token member => ?_, accounts, ?_⟩
  · rcases accounts.slice member with ⟨front, middle, back, whole, stands⟩
    have middle_eq : token.text.toList = middle := by rw [stands.text_eq, String.toList_ofList]
    subst middle_eq
    simp only [stands.span_eq, Nat.zero_add]
    refine ⟨Nat.lt_add_of_pos_right ?_, ?_, front, back, whole, rfl, ?_⟩
    · exact Source.byteLength_pos stands.nonempty
    · rw [stands.position_eq, Nat.zero_add]
    · rw [Source.byteLength_append]
  · intro front token back split ends
    have kept : visible tokens = visible front ++ token :: visible back := by
      rw [split, visible_append, visible_cons (by rw [ends]; rfl)]
    rw [← openBrackets_visible, ← List.nil_append (visible front)]
    exact accounts.openBrackets_eq_zero kept ends

/-- A line break in brackets, a comment, an empty line and an indented one. -/
theorem stream_conserves_bracketed :
    let source := "(\n)#\n\n a"
    let tokens : List Token :=
      [⟨.operator, "(", ⟨0, 1⟩, ⟨0, 0, 0⟩⟩, ⟨.operator, ")", ⟨2, 3⟩, ⟨2, 1, 0⟩⟩,
        ⟨.newline, "\n", ⟨4, 5⟩, ⟨4, 1, 2⟩⟩, ⟨.indent, "", ⟨7, 7⟩, ⟨7, 3, 1⟩⟩,
        ⟨.identifier, "a", ⟨7, 8⟩, ⟨7, 3, 1⟩⟩, ⟨.dedent, "", ⟨8, 8⟩, ⟨8, 3, 2⟩⟩,
        ⟨.endOfFile, "", ⟨8, 8⟩, ⟨8, 3, 2⟩⟩]
    stream 8 source = .ok tokens ∧
      Accounts (Source.Lines.ofString source) [] 0 (visible tokens) source.toList := by
  intro source tokens
  have computed : (stream 8 source).toOption = some tokens := by decide +kernel
  have read : stream 8 source = .ok tokens := by
    cases result : stream 8 source with
    | error error =>
      rw [result] at computed
      cases computed
    | ok found =>
      rw [result] at computed
      cases computed
      rfl
  exact ⟨read, (stream_conserves 8 source tokens read).2.2.1⟩

end Token
end Packrat
