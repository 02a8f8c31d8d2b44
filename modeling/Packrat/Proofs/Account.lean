import Packrat.Proofs.Spelling
import Packrat.Token.Basic

namespace Packrat
namespace Token

/-!
# Tokens that account for a text

Tokens account for a text when it is what they stand for, with gaps between them.  A gap holds white
space, a comment, a line continuation, or a line break that ends no logical line, since it comes
before the first token of one or inside brackets.  Whether it does is told by the tokens before it.
-/

/-! ## Brackets -/

/-- The number of open brackets after a token.  The end of a line forgets them, and a closing
bracket too many is not counted. -/
def bracketsAfter (depth : Nat) (token : Token) : Nat :=
  match token.kind with
  | .newline => 0
  | .operator =>
    if ["(", "[", "\x7b"].contains token.text then depth + 1
    else if [")", "]", "\x7d"].contains token.text then depth - 1
    else depth
  | _ => depth

def openBrackets (tokens : List Token) : Nat :=
  tokens.foldl bracketsAfter 0

/-- No token has been read since the last line ended. -/
def AtLineStart (tokens : List Token) : Prop :=
  forall token, tokens.getLast? = some token -> token.kind = .newline

/-- The tokens that stand for text. -/
def visible (tokens : List Token) : List Token :=
  tokens.filter fun token => !token.kind.isSynthetic

/-! ## Accounts -/

/-- A token stands for a text that begins at an offset. -/
structure StandsFor (lines : Source.Lines) (token : Token) (text : List Char) (offset : Nat) :
    Prop where
  visible : token.kind.isSynthetic = false
  nonempty : text ≠ []
  text_eq : token.text = String.ofList text
  span_eq : token.span = ⟨offset, offset + Source.byteLength text⟩
  position_eq : token.position = lines.position offset

/-- A text that no token stands for where some tokens have been read. -/
inductive Gap (earlier : List Token) (text : List Char) : Prop
  | trivia {kind} : Lexeme.Kind.isTrivia kind = true ->
      Shape.Accepts Lexeme.shapes (.whole kind) text -> Gap earlier text
  | lineBreak : Shape.Accepts Lexeme.shapes (.whole .newline) text ->
      AtLineStart earlier ∨ 0 < openBrackets earlier -> Gap earlier text

/-- After some earlier tokens, the next ones account for a text that begins at an offset: the text
is what they stand for, with gaps between them, and a line ends only where no bracket is open. -/
inductive Accounts (lines : Source.Lines) : List Token -> Nat -> List Token -> List Char -> Prop
  | done {earlier offset} : Accounts lines earlier offset [] []
  | token {earlier offset token tokens text rest} :
      StandsFor lines token text offset ->
      (token.kind = .newline -> openBrackets earlier = 0) ->
      Accounts lines (earlier ++ [token]) (offset + Source.byteLength text) tokens rest ->
      Accounts lines earlier offset (token :: tokens) (text ++ rest)
  | gap {earlier offset tokens text rest} :
      Gap earlier text ->
      Accounts lines earlier (offset + Source.byteLength text) tokens rest ->
      Accounts lines earlier offset tokens (text ++ rest)

variable {lines : Source.Lines} {token : Token} {tokens earlier : List Token} {text : List Char}
  {offset depth tabSize : Nat} {lexeme : Lexeme}

theorem openBrackets_concat :
    openBrackets (tokens ++ [token]) = bracketsAfter (openBrackets tokens) token := by
  rw [openBrackets, List.foldl_append]
  rfl

theorem bracketsAfter_of_isSynthetic (synthetic : token.kind.isSynthetic = true) :
    bracketsAfter depth token = depth := by
  unfold bracketsAfter
  cases same : token.kind <;> rw [same] at synthetic <;> cases synthetic

theorem visible_append {more : List Token} :
    visible (tokens ++ more) = visible tokens ++ visible more :=
  List.filter_append tokens more

theorem visible_cons (shown : token.kind.isSynthetic = false) :
    visible (token :: tokens) = token :: visible tokens :=
  List.filter_cons_of_pos (by rw [shown]; rfl)

theorem visible_cons_of_isSynthetic (synthetic : token.kind.isSynthetic = true) :
    visible (token :: tokens) = visible tokens :=
  List.filter_cons_of_neg (by rw [synthetic]; decide)

theorem visible_eq_self (shown : forall token, token ∈ tokens -> token.kind.isSynthetic = false) :
    visible tokens = tokens := by
  refine List.filter_eq_self.mpr fun token member => ?_
  rw [shown token member]
  rfl

theorem visible_eq_nil (synthetic : forall token, token ∈ tokens -> token.kind.isSynthetic = true) :
    visible tokens = [] := by
  refine List.filter_eq_nil_iff.mpr fun token member => ?_
  rw [synthetic token member]
  decide

theorem openBrackets_visible : openBrackets (visible tokens) = openBrackets tokens := by
  unfold openBrackets
  generalize 0 = depth
  induction tokens generalizing depth with
  | nil => rfl
  | cons token tokens inductionHypothesis =>
    cases synthetic : token.kind.isSynthetic with
    | false =>
      rw [visible_cons synthetic]
      exact inductionHypothesis _
    | true =>
      rw [visible_cons_of_isSynthetic synthetic, List.foldl_cons,
        bracketsAfter_of_isSynthetic synthetic]
      exact inductionHypothesis _

theorem atLineStart_nil : AtLineStart [] := by
  intro token impossible
  cases impossible

theorem atLineStart_concat (ends : token.kind = .newline) : AtLineStart (tokens ++ [token]) := by
  intro last found
  rw [List.getLast?_concat] at found
  cases found
  exact ends

namespace Accounts

/-- The tokens of an account stand for parts of the text, none of them for an empty one. -/
theorem slice (accounts : Accounts lines earlier offset tokens text) (member : token ∈ tokens) :
    Exists fun front => Exists fun middle => Exists fun back => text = front ++ middle ++ back ∧
      token.StandsFor lines middle (offset + Source.byteLength front) := by
  induction accounts with
  | done => cases member
  | @token earlier offset first tokens text rest stands ends accounts inductionHypothesis =>
    rcases List.mem_cons.mp member with rfl | later
    · exact ⟨[], text, rest, rfl, stands⟩
    · rcases inductionHypothesis later with ⟨front, middle, back, rfl, stands⟩
      refine ⟨text ++ front, middle, back, by simp only [List.append_assoc], ?_⟩
      rw [Source.byteLength_append, ← Nat.add_assoc]
      exact stands
  | @gap earlier offset tokens text rest gap accounts inductionHypothesis =>
    rcases inductionHypothesis member with ⟨front, middle, back, rfl, stands⟩
    refine ⟨text ++ front, middle, back, by simp only [List.append_assoc], ?_⟩
    rw [Source.byteLength_append, ← Nat.add_assoc]
    exact stands

theorem visible (accounts : Accounts lines earlier offset tokens text) (member : token ∈ tokens) :
    token.kind.isSynthetic = false := by
  rcases accounts.slice member with ⟨_, _, _, -, stands⟩
  exact stands.visible

theorem le_start (accounts : Accounts lines earlier offset tokens text) (member : token ∈ tokens) :
    offset ≤ token.span.start := by
  rcases accounts.slice member with ⟨front, middle, back, -, stands⟩
  rw [stands.span_eq]
  exact Nat.le_add_right offset _

/-- The tokens of an account follow each other without touching what came before. -/
theorem pairwise (accounts : Accounts lines earlier offset tokens text) :
    tokens.Pairwise fun first second => first.span.stop ≤ second.span.start := by
  induction accounts with
  | done => exact List.Pairwise.nil
  | @token earlier offset token tokens text rest stands _ accounts inductionHypothesis =>
    refine List.Pairwise.cons (fun later member => ?_) inductionHypothesis
    rw [stands.span_eq]
    exact accounts.le_start member
  | gap _ _ inductionHypothesis => exact inductionHypothesis

theorem openBrackets_eq_zero {front back : List Token}
    (accounts : Accounts lines earlier offset tokens text) (split : tokens = front ++ token :: back)
    (ends : token.kind = .newline) : openBrackets (earlier ++ front) = 0 := by
  induction accounts generalizing front with
  | done =>
    cases front <;> cases split
  | @token earlier offset first tokens text rest stands closed accounts inductionHypothesis =>
    cases front with
    | nil =>
      cases split
      rw [List.append_nil]
      exact closed ends
    | cons _ front =>
      cases split
      rw [List.append_cons]
      exact inductionHypothesis rfl
  | gap _ _ inductionHypothesis => exact inductionHypothesis split

end Accounts
end Token

end Packrat
