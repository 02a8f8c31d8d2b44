import Packrat.Proofs.Concatenation
import Packrat.Proofs.Derivation
import Packrat.Proofs.Parsing
import Packrat.Proofs.Spacing

namespace Packrat

/-!
# The text of a node is read as the tokens of the node

A parse shows its nodes by their tokens, with single spaces between them.  What is shown is a text
of one logical line that has the same tokens, whatever lines and blocks they were taken from.

Behind the tokens that show in such a text are lexemes of the source, in their order.  They are read
again with spaces between them, and become the same tokens again: no line break ends the line of the
text, and no white space indents it.
-/

/-! ## The tokens of lexemes -/

namespace Line

variable {lines : Source.Lines} {tabSize depth : Nat} {lexeme : Lexeme} {line : Line}
  {progress : Progress} {lexemes : List Lexeme} {token : Token}

theorem isSome_tokenKind? (lexeme : Lexeme) :
    (tokenKind? lexeme).isSome = lexeme.kind.isContent := by
  rcases lexeme with ⟨kind, text, start⟩
  cases kind <;> rfl

theorem tokenKind?_eq_none (trivial : lexeme.kind.isContent = false) :
    tokenKind? lexeme = none := by
  rw [← Option.not_isSome_iff_eq_none, isSome_tokenKind?, trivial]
  exact Bool.false_ne_true

namespace Progress

/-- A step adds the token of its lexeme to the tokens of the lines. -/
theorem step_tokens (progress : Progress) (lexeme : Lexeme) :
    (progress.step lines tabSize lexeme).1.toList.flatMap Line.tokens ++
        (progress.step lines tabSize lexeme).2.pending =
      progress.pending ++ (token? lines lexeme).toList := by
  cases becomes : tokenKind? lexeme with
  | some kind => cases progress <;> simp [step, becomes, token?, pending]
  | none =>
    cases progress with
    | before width =>
      simp only [step, becomes, token?]
      split <;> rfl
    | inside line depth =>
      simp only [step, becomes, token?]
      split <;> simp [pending]

/-- The tokens of the lines, without their line breaks, are those of the lexemes. -/
theorem finish_tokens (progress : Progress) (lexemes : List Lexeme) :
    (progress.finish lines tabSize lexemes).flatMap Line.tokens =
      progress.pending ++ lexemes.filterMap (token? lines) := by
  induction lexemes generalizing progress with
  | nil => cases progress <;> simp [finish, pending]
  | cons lexeme lexemes inductionHypothesis =>
    rw [finish_cons, List.flatMap_append, inductionHypothesis, ← List.append_assoc, step_tokens,
      List.append_assoc]
    congr 1
    cases becomes : token? lines lexeme <;> simp [becomes]

theorem finish_newline (formed : progress.Formed) :
    forall line, line ∈ progress.finish lines tabSize lexemes ->
      forall token, line.newline = some token -> Exists fun lexeme =>
        lexeme ∈ lexemes ∧ lexeme.kind = .newline ∧ token = tokenOf lines .newline lexeme := by
  induction lexemes generalizing progress with
  | nil =>
    cases progress with
    | before width => exact nofun
    | inside line depth =>
      intro other member token ends
      cases List.mem_singleton.mp member
      rw [formed.2] at ends
      cases ends
  | cons lexeme lexemes inductionHypothesis =>
    intro line member token ends
    rw [finish_cons] at member
    rcases List.mem_append.mp member with completed | later
    · refine ⟨lexeme, List.mem_cons_self, ?_⟩
      have completed := Option.mem_toList.mp completed
      cases progress with
      | before width =>
        cases becomes : tokenKind? lexeme with
        | some kind => simp [step, becomes] at completed
        | none =>
          simp only [step, becomes] at completed
          split at completed <;> cases completed
      | inside begun depth =>
        cases becomes : tokenKind? lexeme with
        | some kind => simp [step, becomes] at completed
        | none =>
          simp only [step, becomes] at completed
          split at completed
          · rename_i breaks
            cases completed
            cases ends
            exact ⟨of_decide_eq_true (Bool.and_eq_true_iff.mp breaks).1, rfl⟩
          · cases completed
    · have next := (step_formed lines tabSize formed lexeme).2
      rcases inductionHypothesis next line later token ends with ⟨other, within, broken⟩
      exact ⟨other, List.mem_cons_of_mem lexeme within, broken⟩

theorem finish_inside (unbroken : forall lexeme, lexeme ∈ lexemes -> lexeme.kind ≠ .newline) :
    (inside line depth).finish lines tabSize lexemes =
      [{ line with tokens := line.tokens ++ lexemes.filterMap (token? lines) }] := by
  induction lexemes generalizing line depth with
  | nil => simp [finish]
  | cons lexeme lexemes inductionHypothesis =>
    have here := unbroken lexeme List.mem_cons_self
    have later := fun other member => unbroken other (List.mem_cons_of_mem lexeme member)
    rw [finish_cons]
    cases becomes : tokenKind? lexeme with
    | some kind =>
      simp only [step, becomes]
      rw [Option.toList_none, List.nil_append, inductionHypothesis later]
      simp [token?, becomes]
    | none =>
      have goesOn : (decide (lexeme.kind = .newline) && decide (depth = 0)) = false := by
        rw [decide_eq_false here, Bool.false_and]
      simp only [step, becomes, goesOn]
      simp only [Bool.false_eq_true, if_false, Option.toList_none, List.nil_append]
      rw [inductionHypothesis later]
      simp [token?, becomes]

end Progress

/-- The tokens that a line has of its own. -/
theorem Formed.filter_allTokens (formed : line.Formed) :
    (line.allTokens.filter fun token => token.kind.isContent) = line.tokens := by
  rw [allTokens, List.filter_append, List.filter_eq_self.mpr formed.own]
  cases ends : line.newline with
  | none => exact List.append_nil _
  | some token =>
    have outside : token.kind.isContent = false := by
      rw [formed.newline token ends]
      rfl
    simp [outside]

/-- Lexemes without a line break, none of them white space before the first token, make up a line
that is not indented, or none. -/
theorem ofLexemes_of_unbroken
    (unbroken : forall lexeme, lexeme ∈ lexemes -> lexeme.kind ≠ .newline)
    (begins : forall lexeme, lexemes.head? = some lexeme -> lexeme.kind.isContent = true) :
    (lexemes = [] ∧ ofLexemes lines tabSize lexemes = []) ∨ Exists fun start =>
      ofLexemes lines tabSize lexemes = [⟨0, start, lexemes.filterMap (token? lines), none⟩] := by
  cases lexemes with
  | nil => exact Or.inl ⟨rfl, rfl⟩
  | cons lexeme lexemes =>
    right
    refine ⟨lexeme.start, ?_⟩
    have content := begins lexeme rfl
    have later := fun other member => unbroken other (List.mem_cons_of_mem lexeme member)
    rw [← isSome_tokenKind?] at content
    rcases Option.isSome_iff_exists.mp content with ⟨kind, becomes⟩
    rw [ofLexemes, Progress.finish_cons]
    simp only [Progress.step, becomes]
    rw [Option.toList_none, List.nil_append, Progress.finish_inside later]
    simp [token?, becomes]

end Line

/-- What a test sees of the token of a lexeme. -/
def Lexeme.shown? (lexeme : Lexeme) : Option (Token.Kind × String) :=
  (Line.tokenKind? lexeme).map fun kind => (kind, String.ofList lexeme.text)

theorem Line.map_face_token? (lines : Source.Lines) (lexemes : List Lexeme) :
    (lexemes.filterMap (token? lines)).map Token.face = lexemes.filterMap Lexeme.shown? := by
  rw [List.map_filterMap]
  refine List.filterMap_congr fun lexeme _ => ?_
  rw [token?, Option.map_map]
  rfl

theorem Line.filterMap_token?_filter (lines : Source.Lines) (lexemes : List Lexeme) :
    (lexemes.filter fun lexeme => lexeme.kind.isContent).filterMap (token? lines) =
      lexemes.filterMap (token? lines) := by
  rw [List.filterMap_filter]
  refine List.filterMap_congr fun lexeme _ => ?_
  cases content : lexeme.kind.isContent with
  | true => rfl
  | false =>
    rw [token?, tokenKind?_eq_none content]
    rfl

theorem Line.map_text_token? (lines : Source.Lines) {lexemes : List Lexeme}
    (content : forall lexeme, lexeme ∈ lexemes -> lexeme.kind.isContent = true) :
    (lexemes.filterMap (token? lines)).map (fun token => token.text.toList) =
      lexemes.map Lexeme.text := by
  rw [List.map_filterMap, ← List.filterMap_eq_map]
  refine List.filterMap_congr fun lexeme member => ?_
  have becomes := content lexeme member
  rw [← isSome_tokenKind?] at becomes
  rcases Option.isSome_iff_exists.mp becomes with ⟨kind, becomes⟩
  simp [token?, becomes, tokenOf]

/-- Lexemes that are the same, wherever they are, show the same. -/
theorem Lexeme.filterMap_shown?_congr {lexemes others : List Lexeme}
    (same : (lexemes.filter fun lexeme => lexeme.kind.isContent).map face =
      (others.filter fun lexeme => lexeme.kind.isContent).map face) :
    lexemes.filterMap shown? = others.filterMap shown? := by
  have kept : forall all : List Lexeme, all.filterMap shown? =
      ((all.filter fun lexeme => lexeme.kind.isContent).map face).filterMap
        fun face => shown? ⟨face.1, face.2, 0⟩ := by
    intro all
    rw [List.filterMap_map, List.filterMap_filter]
    refine List.filterMap_congr fun lexeme _ => ?_
    cases content : lexeme.kind.isContent with
    | true => rfl
    | false =>
      rw [shown?, Line.tokenKind?_eq_none content]
      rfl
  rw [kept, kept, same]

/-! ## The tokens of a source -/

namespace Token

variable {tabSize : Nat} {source : String} {tokens : List Token} {token : Token}
  {lexemes : List Lexeme}

/-- The tokens that a stream takes from its lexemes, apart from line breaks. -/
theorem content_of_stream (read : stream tabSize source = .ok tokens)
    (scanned : Lexeme.ofSource source = .ok lexemes) :
    (tokens.filter fun token => token.kind.isContent) =
        lexemes.filterMap (Line.token? (Source.Lines.ofString source)) ∧
      forall token, token ∈ tokens -> token.kind = .newline -> Exists fun lexeme =>
        lexeme ∈ lexemes ∧ lexeme.kind = .newline ∧
          token.text = String.ofList lexeme.text := by
  let lines := Source.Lines.ofString source
  rcases offside_of_stream read with ⟨_, scanned', offside⟩
  cases scanned.symm.trans scanned'
  have fresh : (Line.Progress.before 0).Formed := trivial
  have formed := (Line.Progress.finish_formed lines tabSize fresh lexemes).1
  have accounts := stream_accounts read
  have shown : visible tokens = (Line.ofLexemes lines tabSize lexemes).flatMap Line.allTokens := by
    refine Offside.visible_tokens offside fun token member => ?_
    rcases List.mem_flatMap.mp member with ⟨line, listed, within⟩
    rcases List.mem_append.mp within with own | last
    · have content := (formed line listed).own token own
      cases kind : token.kind <;> rw [kind] at content <;> first | rfl | cases content
    · rw [(formed line listed).newline token (Option.mem_toList.mp last)]
      rfl
  constructor
  · have kept : (tokens.filter fun token => token.kind.isContent) =
        (visible tokens).filter fun token => token.kind.isContent := by
      rw [visible, List.filter_filter]
      refine List.filter_congr fun token _ => ?_
      cases token.kind <;> rfl
    have own : ((Line.ofLexemes lines tabSize lexemes).flatMap Line.allTokens).filter
        (fun token => token.kind.isContent) =
          (Line.ofLexemes lines tabSize lexemes).flatMap Line.tokens := by
      rw [List.filter_flatMap]
      exact List.flatMap_congr fun line listed => (formed line listed).filter_allTokens
    rw [kept, shown, own]
    exact Line.Progress.finish_tokens (.before 0) lexemes
  · intro token member ends
    have within : token ∈ visible tokens :=
      List.mem_filter.mpr ⟨member, by rw [ends]; rfl⟩
    rw [shown] at within
    rcases List.mem_flatMap.mp within with ⟨line, listed, within⟩
    rcases List.mem_append.mp within with own | last
    · have content := (formed line listed).own token own
      rw [ends] at content
      cases content
    · rcases Line.Progress.finish_newline fresh line listed token (Option.mem_toList.mp last) with
        ⟨lexeme, found, breaks, rfl⟩
      exact ⟨lexeme, found, breaks, rfl⟩

/-- The tokens of a stream that show in the text of a node are those that a line has of its own. -/
theorem isVisible_of_stream (read : stream tabSize source = .ok tokens) (member : token ∈ tokens) :
    Parse.isVisible token = token.kind.isContent := by
  rcases offside_of_stream read with ⟨lexemes, scanned, -⟩
  rcases content_of_stream read scanned with ⟨content, breaks⟩
  have own : token.kind.isContent = true -> Text.isBlank token.text = false := by
    intro shown
    have within : token ∈ tokens.filter fun token => token.kind.isContent :=
      List.mem_filter.mpr ⟨member, shown⟩
    rw [content] at within
    rcases List.mem_filterMap.mp within with ⟨lexeme, found, becomes⟩
    rcases Option.map_eq_some_iff.mp becomes with ⟨kind, known, rfl⟩
    have contentLexeme : lexeme.kind.isContent = true := by
      rw [← Line.isSome_tokenKind?, known]
      rfl
    have spaceable := Lexeme.spaceable_of_ofSource scanned (List.Sublist.refl lexemes)
    have alone := spaceable.alone lexeme (List.mem_filter.mpr ⟨found, contentLexeme⟩)
    rcases alone.visible contentLexeme with ⟨c, rest, text, visible⟩
    simp [Line.tokenOf, Text.isBlank, text, visible]
  have ends : token.kind = .newline -> Text.isBlank token.text = true := by
    intro newline
    rcases breaks token member newline with ⟨lexeme, found, kind, text⟩
    have spelled := Lexeme.spelled_of_ofSource scanned lexeme found
    rw [Lexeme.Spelled, kind] at spelled
    rcases Lexeme.lineBreak_of_accepts (spelled (by decide) (by decide)) with same | same | same <;>
      rw [text, same] <;> rfl
  unfold Parse.isVisible
  cases kind : token.kind with
  | newline => rw [ends kind]; rfl
  | identifier | keyword | operator | literal => rw [own (by rw [kind]; rfl)]; rfl
  | _ => rfl

/-- Lexemes with single spaces between them have the tokens that they become. -/
theorem stream_spacedText {pieces : List Lexeme} (spaceable : Lexeme.Spaceable pieces)
    (tabSize : Nat) :
    Exists fun found =>
      stream tabSize (String.ofList (Lexeme.spacedText pieces)) = .ok found ∧
        found.map face = pieces.filterMap Lexeme.shown? ++ [(.endOfFile, "")] := by
  rcases Lexeme.scan_spacedText spaceable 0 with ⟨lexemes, scanned, reread⟩
  let source := String.ofList (Lexeme.spacedText pieces)
  let lines := Source.Lines.ofString source
  have read : Lexeme.ofSource source = .ok lexemes := by
    rw [Lexeme.ofSource_eq_ok_iff, String.toList_ofList]
    exact scanned
  have shown : lexemes.filterMap Lexeme.shown? = pieces.filterMap Lexeme.shown? := by
    refine Lexeme.filterMap_shown?_congr ?_
    rw [reread.faces, List.filter_eq_self.mpr spaceable.content]
  have whole : forall found, (Offside.tokens lines (Source.byteLength lines.text) {}
      (Line.ofLexemes lines tabSize lexemes)).1 = .ok found ->
      stream tabSize source = .ok found := by
    intro found offside
    rw [stream, read]
    exact offside
  rcases Line.ofLexemes_of_unbroken reread.unbroken reread.begins with ⟨rfl, none⟩ | ⟨start, one⟩
  · refine ⟨_, whole _ (by rw [none]; rfl), ?_⟩
    rw [← shown]
    rfl
  · have fits : (({} : Offside).enter 0).2.current = 0 := rfl
    refine ⟨_, whole _ (by rw [one]; exact Offside.tokens_cons_of fits rfl), ?_⟩
    rw [List.map_append, List.map_append, Offside.face_marks, Line.allTokens, ← shown,
      ← Line.map_face_token? lines, Option.toList_none, List.append_nil]
    rfl

/-- Behind the tokens that show in a part of a stream are lexemes that can be spaced. -/
theorem exists_pieces {part : List Token} (read : stream tabSize source = .ok tokens)
    (among : part.Sublist tokens) :
    Exists fun pieces => Lexeme.Spaceable pieces ∧
      part.filter (fun token => token.kind.isContent) =
        pieces.filterMap (Line.token? (Source.Lines.ofString source)) := by
  rcases offside_of_stream read with ⟨lexemes, scanned, -⟩
  have shown := among.filter fun token => token.kind.isContent
  rw [(content_of_stream read scanned).1] at shown
  rcases List.sublist_filterMap_iff.mp shown with ⟨behind, inside, same⟩
  refine ⟨_, Lexeme.spaceable_of_ofSource scanned inside, ?_⟩
  rw [same, Line.filterMap_token?_filter]

end Token

/-! ## The tokens of a node -/

namespace Grammar

variable {grammar : Grammar} {rule source : String} {tabSize : Nat} {memoize : Bool}
  {parse : Parse} {node : Tree}

theorem within_of_parse (parsed : grammar.parse rule source tabSize memoize = .ok parse)
    (listed : node ∈ parse.root.nodes) : node.Within parse.tokens.size := by
  rcases parse_eq_ok_iff.mp parsed with ⟨tokens, -, texts, matched⟩
  rcases evaluates_of_matchEntirely matched with ⟨-, log, evaluates⟩
  have consistent := (evaluates.generates _ rfl).contiguous.2 parse.root List.mem_cons_self
  have inside : parse.root.stop ≤ max 0 tokens.toArray.size := (evaluates.covers _ rfl).next_le
  rw [Nat.zero_max, ← texts] at inside
  exact Tree.within_of_mem_nodes consistent inside listed

/-- The text of a node is read as the tokens of the node.  For every node of a parse there is a
text, and under every tab size it has the tokens of the leaves of the node, kinds and texts in
order, without those that stand for no text or for a line break, and then the end of the file. -/
theorem parse_text_stream (parsed : grammar.parse rule source tabSize memoize = .ok parse)
    (listed : node ∈ parse.root.nodes) :
    Exists fun text => Parse.text? parse.tokens node = some text ∧
      forall size, Exists fun found => Token.stream size text = .ok found ∧
        found.map Token.face =
          ((node.leaves.filterMap (parse.tokens[·]?)).filter fun token =>
            !token.kind.isSynthetic && token.kind != .newline).map Token.face ++
              [(.endOfFile, "")] := by
  have within := within_of_parse parsed listed
  rcases parse_eq_ok_iff.mp parsed with ⟨tokens, read, texts, -⟩
  let covered := node.leaves.filterMap (parse.tokens[·]?)
  have part : covered.Sublist tokens := by
    have stretch : covered = _ := Parse.covered_eq within
    rw [stretch, texts]
    exact (List.take_sublist _ _).trans (List.drop_sublist node.start tokens)
  have visible : covered.filter Parse.isVisible =
      covered.filter fun token => token.kind.isContent :=
    List.filter_congr fun token member => Token.isVisible_of_stream read (part.subset member)
  have own : (covered.filter fun token => !token.kind.isSynthetic && token.kind != .newline) =
      covered.filter fun token => token.kind.isContent := by
    refine List.filter_congr fun token _ => ?_
    cases token.kind <;> rfl
  rcases Token.exists_pieces read part with ⟨pieces, spaceable, become⟩
  have text : " ".intercalate ((covered.filter Parse.isVisible).map Token.text) =
      String.ofList (Lexeme.spacedText pieces) := by
    have joined := congrArg [' '].intercalate
      (Line.map_text_token? (Source.Lines.ofString source) spaceable.content)
    rw [visible, become, ← String.toList_inj, String.toList_intercalate, List.map_map]
    exact joined.trans String.toList_ofList.symm
  refine ⟨_, Parse.text?_eq within, fun size => ?_⟩
  rcases Token.stream_spacedText spaceable size with ⟨found, reread, faces⟩
  refine ⟨found, (congrArg (Token.stream size) text).trans reread, ?_⟩
  rw [faces, own, become, Line.map_face_token?]

/-- Two strings side by side, a line break in brackets, a comment, and a number before a name. -/
theorem parse_text_stream_strings :
    let piece : Expression := .choice [.literal .identifier none, .literal .literal none,
      .literal .operator none]
    let grammar : Grammar := ⟨[⟨"line", .sequence [.oneOrMore (.rule "piece"),
      .literal .newline none], false⟩, ⟨"piece", piece, false⟩], 0⟩
    let source := "f(''\"b'\"\n # c\n\t1.e)\n"
    Exists fun parse => grammar.parse "line" source 8 false = .ok parse ∧
      Exists fun text => Parse.text? parse.tokens parse.root = some text ∧
        text = "f ( '' \"b'\" 1. e )" ∧
        forall size, Exists fun found => Token.stream size text = .ok found ∧
          found.map Token.face = [(.identifier, "f"), (.operator, "("), (.literal, "''"),
            (.literal, "\"b'\""), (.literal, "1."), (.identifier, "e"), (.operator, ")"),
            (.endOfFile, "")] := by
  intro piece grammar source
  have computed : (grammar.parse "line" source 8 false).toOption.map (fun parse =>
      (Parse.text? parse.tokens parse.root,
        ((parse.root.leaves.filterMap (parse.tokens[·]?)).filter fun token =>
          !token.kind.isSynthetic && token.kind != .newline).map Token.face)) =
      some (some "f ( '' \"b'\" 1. e )", [(.identifier, "f"), (.operator, "("), (.literal, "''"),
        (.literal, "\"b'\""), (.literal, "1."), (.identifier, "e"), (.operator, ")")]) := by
    decide +kernel
  cases parsed : grammar.parse "line" source 8 false with
  | error error =>
    rw [parsed] at computed
    cases computed
  | ok parse =>
    rw [parsed] at computed
    have parts := Prod.mk.inj (Option.some.inj computed)
    have root : parse.root ∈ parse.root.nodes := by
      cases parse.root <;> exact List.mem_cons_self
    rcases parse_text_stream parsed root with ⟨text, shown, reread⟩
    rw [parts.2] at reread
    exact ⟨parse, rfl, text, shown, Option.some.inj (shown.symm.trans parts.1), reread⟩

end Grammar
end Packrat
