import Mathlib.Logic.Relation
import Packrat.Proofs.Concatenation
import Packrat.Proofs.Cutting
import Packrat.Proofs.Spacing

namespace Packrat

/-!
# Insertions that logical lines do not show

A comment or a line continuation can be inserted anywhere, white space inside a line, a line break
inside brackets, and a line without a token where a line can begin: the lines stay as wide as they
are, and their tokens say the same.

Such a piece leaves the one pass over the lexemes where it is.  That it does is told by the two
passes, which say where a line has begun and how many brackets are open there.
-/

/-! ## The same lexemes elsewhere -/

/-- What tests see of a line: its width, and of each token and the line break what it says. -/
def Line.face (line : Line) : Nat × List (Token.Kind × String) × Option (Token.Kind × String) :=
  (line.indent, line.tokens.map Token.face, line.newline.map Token.face)

/-- Where lexemes say the same, tests see the same of their tokens. -/
def Likeness.elsewhere (lines other : Source.Lines) : Likeness lines other where
  lexeme first second := first.face = second.face
  place _ _ := True
  token first second := second.face = first.face
  error _ _ := True
  kind_eq same := (Prod.mk.inj same).1.symm
  tokenKind?_eq := by
    intro first second same
    rcases Prod.mk.inj same with ⟨kinds, texts⟩
    rw [Line.tokenKind?, Line.tokenKind?, kinds, texts]
  width_eq := by
    intro first second same _ _ _
    rw [(Prod.mk.inj same).2]
  start_place _ := trivial
  token_of_lexeme := by
    intro first second same kind
    exact congrArg (fun text => (kind, String.ofList text)) (Prod.mk.inj same).2.symm
  token_of_place _ _ := rfl
  error_of_place _ _ := trivial

namespace Line

variable {lines other : Source.Lines} {tabSize : Nat} {lexeme : Lexeme}
  {lexemes lexemes' front piece rest changed : List Lexeme} {progress : Progress}

theorem face_eq_of_like {first second : Line}
    (like : (Likeness.elsewhere lines other).LikeLine first second) :
    second.face = first.face := by
  have tokens := Token.forall₂_face_iff.mp like.tokens.flip
  have newlines : second.newline.map Token.face = first.newline.map Token.face := by
    have newline := like.newline
    generalize first.newline = broken at newline ⊢
    generalize second.newline = broken' at newline ⊢
    cases newline with
    | some same => exact congrArg some same
    | none => rfl
  rw [face, face, like.indent, tokens, newlines]

/-- The same lexemes elsewhere make up the same lines. -/
theorem map_face_ofLexemes (lines other : Source.Lines) (tabSize : Nat)
    (same : lexemes.map Lexeme.face = lexemes'.map Lexeme.face) :
    (ofLexemes other tabSize lexemes').map face = (ofLexemes lines tabSize lexemes).map face := by
  have alike : List.Forall₂ (Likeness.elsewhere lines other).lexeme lexemes lexemes' := by
    rw [← List.forall₂_eq_eq_eq, List.forall₂_map_left_iff, List.forall₂_map_right_iff] at same
    exact same
  have made := Likeness.finish_like tabSize (.before 0) alike
  refine Eq.symm ?_
  rw [← List.forall₂_eq_eq_eq, List.forall₂_map_left_iff, List.forall₂_map_right_iff]
  exact made.imp fun _ _ like => (face_eq_of_like like).symm

/-! ## Insertions -/

/-- Pieces that make no difference behind some lexemes: a comment or a continuation anywhere, white
space inside a line, a line break inside brackets, and a line without a token where a line can
begin. -/
inductive Insertable (front : List Lexeme) : List Lexeme -> Prop
  | passed {lexeme : Lexeme} : lexeme.kind = .comment ∨ lexeme.kind = .lineContinuation ->
      Insertable front [lexeme]
  | space {lexeme : Lexeme} : lexeme.kind = .whitespace -> pending front ≠ [] ->
      Insertable front [lexeme]
  | lineBreak {lexeme : Lexeme} : lexeme.kind = .newline -> 0 < openAfter front ->
      Insertable front [lexeme]
  | blankLine {gaps : List Lexeme} {lexeme : Lexeme} :
      (forall gap, gap ∈ gaps -> gap.kind.isTrivia = true) -> lexeme.kind = .newline ->
      (forall earlier last, front = earlier ++ [last] -> Placed.cuts ⟨earlier, last⟩ = true) ->
      Insertable front (gaps ++ [lexeme])

/-- Lexemes with a piece more, which may stand elsewhere for that. -/
inductive Inserts : List Lexeme -> List Lexeme -> Prop
  | piece {front piece back front' back' : List Lexeme} : Insertable front piece ->
      front.map Lexeme.face = front'.map Lexeme.face ->
      back.map Lexeme.face = back'.map Lexeme.face ->
      Inserts (front ++ back) (front' ++ piece ++ back')

theorem Progress.finish_congr
    (same : (progress.reached lines tabSize front).finish lines tabSize lexemes =
      (progress.reached lines tabSize front).finish lines tabSize lexemes') :
    progress.finish lines tabSize (front ++ lexemes) =
      progress.finish lines tabSize (front ++ lexemes') := by
  induction front generalizing progress with
  | nil => exact same
  | cons lexeme front inductionHypothesis =>
    rw [List.cons_append, List.cons_append, finish_cons, finish_cons, inductionHypothesis same]

theorem Progress.finish_passed (passed : progress.step lines tabSize lexeme = (none, progress)) :
    progress.finish lines tabSize (lexeme :: rest) = progress.finish lines tabSize rest := by
  rw [finish_cons, passed]
  rfl

/-- Whatever the white space so far, a blank line leads to the start of a line. -/
theorem Progress.finish_blankLine (width : Nat)
    (gaps : forall gap, gap ∈ lexemes -> gap.kind.isTrivia = true)
    (breaks : lexeme.kind = .newline) :
    (before width).finish lines tabSize (lexemes ++ lexeme :: rest) =
      (before 0).finish lines tabSize rest := by
  induction lexemes generalizing width with
  | nil =>
    have missing : tokenKind? lexeme = none := by rw [tokenKind?, breaks]
    rw [List.nil_append, finish_cons]
    simp only [step, missing, breaks]
    rfl
  | cons gap lexemes inductionHypothesis =>
    have later := fun other member => gaps other (List.mem_cons_of_mem gap member)
    rw [List.cons_append, finish_cons, step_before_of_isTrivia (gaps gap List.mem_cons_self)]
    exact inductionHypothesis _ later

theorem Stands.eq_before_zero (stands : Stands lines tabSize front progress)
    (fresh : pending front = []) (unspaced : leading front = []) : progress = .before 0 := by
  cases stands with
  | before =>
    rw [unspaced]
    rfl
  | inside made =>
    rw [fresh] at made
    cases made

/-- An insertable piece makes no difference to the one pass, whatever comes after it. -/
theorem finish_inserted (insertable : Insertable front piece) (rest : List Lexeme) :
    ((Progress.before 0).reached lines tabSize front).finish lines tabSize (piece ++ rest) =
      ((Progress.before 0).reached lines tabSize front).finish lines tabSize rest := by
  have stands := stands_reached lines tabSize front
  generalize (Progress.before 0).reached lines tabSize front = progress at stands ⊢
  cases insertable with
  | @passed lexeme passes =>
    refine Progress.finish_passed ?_
    rcases lexeme with ⟨shape, text, start⟩
    rcases passes with same | same <;> cases same <;> cases progress <;> rfl
  | @space lexeme space begun =>
    have trivia : lexeme.kind.isTrivia = true := by
      rw [space]
      rfl
    have deleted := deleted_of_isTrivia front trivia
    cases stands with
    | before _ fresh => exact absurd fresh begun
    | inside => exact Progress.finish_passed (Progress.step_inside_of_deleted deleted)
  | @lineBreak lexeme breaks inside =>
    have deep : openAfter front ≠ 0 := Nat.ne_of_gt inside
    cases stands with
    | before outside => exact absurd outside deep
    | inside =>
      have deleted := deleted_of_open breaks deep
      exact Progress.finish_passed (Progress.step_inside_of_deleted deleted)
  | @blankLine gaps lexeme gaps breaks lineStart =>
    have atStart : progress = .before 0 := by
      rcases List.eq_nil_or_concat' front with rfl | ⟨earlier, last, rfl⟩
      · exact stands.eq_before_zero rfl rfl
      · rcases Bool.and_eq_true_iff.mp (lineStart earlier last rfl) with ⟨cuts, outside⟩
        have cuts := beq_iff_eq.mp cuts
        have outside := beq_iff_eq.mp outside
        exact stands.eq_before_zero (pending_of_cut cuts outside) (leading_of_cut cuts outside)
    rw [atStart, List.append_assoc]
    exact Progress.finish_blankLine 0 gaps breaks

/-- An insertion changes no more of the lines than where they stand. -/
theorem map_face_of_inserts (lines other : Source.Lines) (tabSize : Nat)
    (inserts : Inserts lexemes changed) :
    (ofLexemes other tabSize changed).map face = (ofLexemes lines tabSize lexemes).map face := by
  cases inserts with
  | @piece front piece back front' back' insertable fronts backs =>
    have same : (front ++ piece ++ back).map Lexeme.face =
        (front' ++ piece ++ back').map Lexeme.face := by
      simp only [List.map_append, fronts, backs]
    have inserted : ofLexemes lines tabSize (front ++ piece ++ back) =
        ofLexemes lines tabSize (front ++ back) := by
      rw [List.append_assoc]
      exact Progress.finish_congr (finish_inserted insertable back)
    rw [map_face_ofLexemes lines other tabSize same, inserted]

/-- Logical lines are those that two passes make: delete what is no token and ends no line, cut
behind each line break that is left and drop the parts without a token.  Only the last line may lack
its line break, brackets are counted afresh behind each cut, and insertions of what is deleted
anyway change neither the widths of the lines nor what their tokens say. -/
theorem ofLexemes_in_two_passes (lines : Source.Lines) (tabSize : Nat) (lexemes : List Lexeme) :
    ofLexemes lines tabSize lexemes = inTwoPasses lines tabSize lexemes ∧
    (forall line, line ∈ (ofLexemes lines tabSize lexemes).dropLast ->
      line.newline.isSome = true) ∧
    (forall front lexeme rest, lexemes = front ++ lexeme :: rest ->
      Placed.cuts ⟨front, lexeme⟩ = true -> openAfter lexemes = openAfter rest) ∧
    (forall other changed, Relation.ReflTransGen Inserts lexemes changed ->
      (ofLexemes other tabSize changed).map face = (ofLexemes lines tabSize lexemes).map face) := by
  have fresh : (Progress.before 0).Formed := trivial
  refine ⟨stands_nil.finish_eq, (Progress.finish_formed lines tabSize fresh lexemes).2, ?_, ?_⟩
  · rintro front lexeme rest rfl cuts
    exact openAfter_behind cuts
  · intro other changed insertions
    induction insertions generalizing other with
    | refl => exact map_face_ofLexemes lines other tabSize rfl
    | tail _ last inductionHypothesis =>
      rw [map_face_of_inserts lines other tabSize last, inductionHypothesis lines]

/-- A closing bracket too many, and an opening one that the source leaves open: a blank line, a
comment and a line break in the open bracket change nothing. -/
theorem ofLexemes_in_two_passes_unbalanced :
    let lexemes : List Lexeme :=
      [⟨.closeBracket, [')'], 0⟩, ⟨.newline, ['\n'], 1⟩, ⟨.whitespace, [' '], 2⟩,
        ⟨.name, ['c'], 3⟩, ⟨.openBracket, ['('], 4⟩]
    let changed : List Lexeme :=
      [⟨.whitespace, [' '], 0⟩, ⟨.newline, ['\n'], 1⟩, ⟨.closeBracket, [')'], 2⟩,
        ⟨.comment, ['#'], 3⟩, ⟨.newline, ['\n'], 4⟩, ⟨.whitespace, [' '], 5⟩, ⟨.name, ['c'], 6⟩,
        ⟨.openBracket, ['('], 7⟩, ⟨.newline, ['\n'], 8⟩]
    let lines := Source.Lines.ofString ")\n c("
    let other := Source.Lines.ofString " \n)#\n c(\n"
    Relation.ReflTransGen Inserts lexemes changed ∧
      (ofLexemes lines 8 lexemes).map face =
        [(0, [(.operator, ")")], some (.newline, "\n")),
          (1, [(.identifier, "c"), (.operator, "(")], none)] ∧
      (ofLexemes other 8 changed).map face = (ofLexemes lines 8 lexemes).map face := by
  intro lexemes changed lines other
  let blank : List Lexeme := [⟨.whitespace, [' '], 0⟩, ⟨.newline, ['\n'], 1⟩]
  let comment : List Lexeme := [⟨.comment, ['#'], 3⟩]
  let ends : List Lexeme := [⟨.newline, ['\n'], 8⟩]
  have first : Inserts lexemes (blank ++ lexemes) := by
    refine @Inserts.piece [] blank lexemes [] lexemes ?_ rfl rfl
    exact @Insertable.blankLine [] [⟨.whitespace, [' '], 0⟩] _ (by decide) rfl (by simp)
  have second : Inserts (blank ++ lexemes) (blank ++ lexemes.take 1 ++ comment ++ lexemes.drop 1) :=
    @Inserts.piece (blank ++ lexemes.take 1) comment (lexemes.drop 1) _ _ (.passed (Or.inl rfl))
      rfl rfl
  have third : Inserts (blank ++ lexemes.take 1 ++ comment ++ lexemes.drop 1) changed := by
    rw [← List.append_nil (blank ++ lexemes.take 1 ++ comment ++ lexemes.drop 1)]
    exact @Inserts.piece _ ends [] (changed.take 8) [] (.lineBreak rfl (by decide)) rfl rfl
  have insertions : Relation.ReflTransGen Inserts lexemes changed :=
    ((Relation.ReflTransGen.single first).tail second).tail third
  exact ⟨insertions, by decide +kernel,
    (ofLexemes_in_two_passes lines 8 lexemes).2.2.2 other changed insertions⟩

end Line
end Packrat
