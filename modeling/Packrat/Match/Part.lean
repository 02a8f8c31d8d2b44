import Packrat.Expression.Basic
import Packrat.Match.Session

namespace Packrat
namespace Matching

/-!
# Matching the parts of a rule

An expression is matched from a place on, with a given way to call rules.  A sequence never goes
back to an earlier item, a choice takes the first alternative that matches, and an optional part
always matches.  A repetition goes on until its body fails or matches no token; such an empty round
adds nothing to the tree, but it counts as a round.
-/

/-- What a repetition matched, and the number of its rounds.  A last round that stayed in place is
counted, although it left no node. -/
structure Rounds where
  step : Step
  count : Nat

/-- Repeat a body from a place in a text of `size` tokens until it fails or stays in place.  The
places of the rounds ascend, so that there is a last round even when the body never fails. -/
def repeated (size : Nat) (body : Nat -> Matching (Option Step)) (position : Nat) :
    Matching Rounds := do
  match ← body position with
  | none => return ⟨⟨position, []⟩, 0⟩
  | some step =>
    if advances : position < step.next ∧ step.next ≤ size then
      let rounds ← repeated size body step.next
      return ⟨⟨rounds.step.next, step.nodes ++ rounds.step.nodes⟩, rounds.count + 1⟩
    else return ⟨⟨position, []⟩, 1⟩
termination_by size - position
decreasing_by omega

variable (tokens : Array Token) (call : String -> Nat -> Matching (Option Tree)) (rule : String)

mutual

/-- Match an expression of a rule from a place on.  A choice is decided by the first alternative
that matches and is not taken back, and an optional part that does not match stays in place. -/
def part : Expression -> Nat -> Matching (Option Step)
  | .literal kind text, position => test tokens rule (.literal kind text) position
  | .rule name, position => do
    let tree ← call name position
    return tree.map fun tree => ⟨tree.stop, [tree]⟩
  | .sequence items, position => inOrder items position
  | .choice alternatives, position => firstOf alternatives position
  | .optional body, position => do
    let step ← part body position
    return some (step.getD ⟨position, []⟩)
  | .zeroOrMore body, position => do
    let rounds ← repeated tokens.size (part body) position
    return some rounds.step
  | .oneOrMore body, position => do
    let rounds ← repeated tokens.size (part body) position
    return if rounds.count = 0 then none else some rounds.step
  | .mock, position => test tokens rule (.spelling rule) position

def inOrder : List Expression -> Nat -> Matching (Option Step)
  | [], position => return some ⟨position, []⟩
  | item :: items, position => do
    match ← part item position with
    | none => return none
    | some step =>
      let rest ← inOrder items step.next
      return rest.map fun rest => ⟨rest.next, step.nodes ++ rest.nodes⟩

/-- Match the first of some expressions that matches. -/
def firstOf : List Expression -> Nat -> Matching (Option Step)
  | [], _ => return none
  | alternative :: alternatives, position => do
    match ← part alternative position with
    | some step => return some step
    | none => firstOf alternatives position

end

end Matching
end Packrat
