import Mathlib.Data.List.Forall2
import Packrat.Proofs.Conservation

namespace Packrat

/-!
# Sources that are read alike

Two sources can have like tokens although these stand at other places or are written in another way.
It is enough to see this of their lexemes: logical lines and levels take no more of a lexeme than
its kind, whether it is reserved, and the width of white space.

What tokens and errors have in common, and which places belong together, is left to the use.
-/

/-- Both results are values, and these have something in common, or both are errors that have. -/
inductive Correspond {Error Value : Type} (error : Error -> Error -> Prop)
    (value : Value -> Value -> Prop) : Except Error Value -> Except Error Value -> Prop
  | ok {first second : Value} :
      value first second -> Correspond error value (.ok first) (.ok second)
  | error {first second : Error} :
      error first second -> Correspond error value (.error first) (.error second)

/-- What the lexemes of two sources have in common, such that the tokens and the errors made of them
have something in common as well. -/
structure Likeness (lines other : Source.Lines) where
  lexeme : Lexeme -> Lexeme -> Prop
  place : Nat -> Nat -> Prop
  token : Token -> Token -> Prop
  error : LexError -> LexError -> Prop
  kind_eq : forall {first second : Lexeme}, lexeme first second -> second.kind = first.kind
  tokenKind?_eq : forall {first second : Lexeme}, lexeme first second ->
    Line.tokenKind? second = Line.tokenKind? first
  width_eq : forall {first second : Lexeme}, lexeme first second -> first.kind = .whitespace ->
    forall tabSize start, Line.indentationWidth tabSize start second.text =
      Line.indentationWidth tabSize start first.text
  start_place : forall {first second : Lexeme}, lexeme first second ->
    place first.start second.start
  token_of_lexeme : forall {first second : Lexeme}, lexeme first second ->
    forall kind, token (Line.tokenOf lines kind first) (Line.tokenOf other kind second)
  token_of_place : forall {start start' : Nat}, place start start' -> forall kind,
    token (.synthetic kind start (lines.position start))
      (.synthetic kind start' (other.position start'))
  error_of_place : forall {start start' : Nat}, place start start' -> forall width,
    error (.inconsistentDedent width (lines.position start))
      (.inconsistentDedent width (other.position start'))

namespace Likeness

variable {lines other : Source.Lines} (likeness : Likeness lines other)

/-- Lines of the same width and of like tokens. -/
structure LikeLine (first second : Line) : Prop where
  indent : second.indent = first.indent
  start : likeness.place first.start second.start
  tokens : List.Forall₂ likeness.token first.tokens second.tokens
  newline : Option.Rel likeness.token first.newline second.newline

/-- The reading of lines is equally far in both sources. -/
inductive LikeProgress : Line.Progress -> Line.Progress -> Prop
  | before (width : Nat) : LikeProgress (.before width) (.before width)
  | inside {first second : Line} {depth : Nat} :
      likeness.LikeLine first second -> LikeProgress (.inside first depth) (.inside second depth)

/-- Both sources have tokens, like ones, or neither has, for like reasons. -/
def LikeResult : Except LexError (List Token) -> Except LexError (List Token) -> Prop :=
  Correspond likeness.error (List.Forall₂ likeness.token)

variable {likeness} {progress progress' : Line.Progress} {lexeme lexeme' : Lexeme}
  {lexemes lexemes' : List Lexeme}

/-! ## Lines -/

theorem depthAfter_eq (like : likeness.lexeme lexeme lexeme') (depth : Nat) :
    Line.depthAfter depth lexeme' = Line.depthAfter depth lexeme := by
  unfold Line.depthAfter
  rw [likeness.kind_eq like]

theorem forall₂_toList {α β : Type} {relation : α -> β -> Prop} {first : Option α}
    {second : Option β} (like : Option.Rel relation first second) :
    List.Forall₂ relation first.toList second.toList := by
  cases like with
  | some like => exact .cons like .nil
  | none => exact .nil

/-- Like lexemes take the same part in their lines. -/
theorem step_like (tabSize : Nat) (like : likeness.LikeProgress progress progress')
    (same : likeness.lexeme lexeme lexeme') :
    Option.Rel likeness.LikeLine (progress.step lines tabSize lexeme).1
        (progress'.step other tabSize lexeme').1 ∧
      likeness.LikeProgress (progress.step lines tabSize lexeme).2
        (progress'.step other tabSize lexeme').2 := by
  have becomes' := likeness.tokenKind?_eq same
  have kinds := likeness.kind_eq same
  have token := likeness.token_of_lexeme same
  cases like with
  | before width =>
    cases becomes : Line.tokenKind? lexeme with
    | some kind =>
      rw [becomes] at becomes'
      simp only [Line.Progress.step, becomes, becomes', depthAfter_eq same]
      exact ⟨.none, .inside ⟨rfl, likeness.start_place same, .cons (token kind) .nil, .none⟩⟩
    | none =>
      rw [becomes] at becomes'
      simp only [Line.Progress.step, becomes, becomes', kinds]
      split
      · rename_i blank
        rw [likeness.width_eq same blank]
        exact ⟨.none, .before _⟩
      · exact ⟨.none, .before _⟩
      · exact ⟨.none, .before _⟩
  | @inside first second depth begun =>
    cases becomes : Line.tokenKind? lexeme with
    | some kind =>
      rw [becomes] at becomes'
      simp only [Line.Progress.step, becomes, becomes', depthAfter_eq same]
      have tokens := List.rel_append begun.tokens (List.Forall₂.cons (token kind) .nil)
      exact ⟨.none, .inside { begun with tokens := tokens }⟩
    | none =>
      rw [becomes] at becomes'
      simp only [Line.Progress.step, becomes, becomes', kinds]
      split
      · exact ⟨.some { begun with newline := .some (token .newline) }, .before 0⟩
      · exact ⟨.none, .inside begun⟩

theorem finish_like (tabSize : Nat) (like : likeness.LikeProgress progress progress')
    (same : List.Forall₂ likeness.lexeme lexemes lexemes') :
    List.Forall₂ likeness.LikeLine (progress.finish lines tabSize lexemes)
      (progress'.finish other tabSize lexemes') := by
  induction same generalizing progress progress' with
  | nil =>
    cases like with
    | before => exact .nil
    | inside begun => exact .cons begun .nil
  | cons first _ inductionHypothesis =>
    rcases step_like tabSize like first with ⟨completed, next⟩
    rw [Line.Progress.finish_cons, Line.Progress.finish_cons]
    exact List.rel_append (forall₂_toList completed) (inductionHypothesis next)

theorem reached_like (tabSize : Nat) (like : likeness.LikeProgress progress progress')
    (same : List.Forall₂ likeness.lexeme lexemes lexemes') :
    likeness.LikeProgress (progress.reached lines tabSize lexemes)
      (progress'.reached other tabSize lexemes') := by
  induction same generalizing progress progress' with
  | nil => exact like
  | cons first _ inductionHypothesis => exact inductionHypothesis (step_like tabSize like first).2

/-! ## Levels -/

theorem LikeResult.before {tokens others : List Token}
    {result result' : Except LexError (List Token)} (like : likeness.LikeResult result result')
    (front : List.Forall₂ likeness.token tokens others) :
    likeness.LikeResult (result.map (tokens ++ ·)) (result'.map (others ++ ·)) := by
  cases like with
  | ok like => exact .ok (List.rel_append front like)
  | error like => exact .error like

theorem synthetic_like {start start' : Nat} (same : likeness.place start start')
    {Event : Type} (kind : Event -> Token.Kind) (events : List Event) :
    List.Forall₂ likeness.token
      (events.map fun event => .synthetic (kind event) start (lines.position start))
      (events.map fun event => .synthetic (kind event) start' (other.position start')) := by
  rw [List.forall₂_map_left_iff, List.forall₂_map_right_iff, List.forall₂_same]
  exact fun event _ => likeness.token_of_place same (kind event)

/-- Like lines open and close the same levels. -/
theorem offside_like {logical logical' : List Line} {stop stop' : Nat}
    (same : List.Forall₂ likeness.LikeLine logical logical')
    (ends : likeness.place stop stop') (levels : Offside) :
    likeness.LikeResult (Offside.tokens lines stop levels logical).1
      (Offside.tokens other stop' levels logical').1 := by
  induction same generalizing levels with
  | nil =>
    have closing := synthetic_like ends (fun _ => .dedent) levels.widths
    exact .ok (List.rel_append closing (.cons (likeness.token_of_place ends _) .nil))
  | @cons first second rest rest' like _ inductionHypothesis =>
    have onward := inductionHypothesis (levels.enter first.indent).2
    unfold Offside.tokens
    simp only [like.indent]
    split
    · have marks := synthetic_like like.start id (levels.enter first.indent).1
      have front := List.rel_append (List.rel_append marks like.tokens)
        (forall₂_toList like.newline)
      exact onward.before front
    · exact .error (likeness.error_of_place like.start _)

end Likeness
end Packrat
