import Packrat.Grammar.Basic
import Packrat.Match.Part

namespace Packrat
namespace Matching

/-!
# Calling rules

A call of a rule at a place makes a node of what its expression matches there.  A call inside a
call of the same rule at the same place is refused, so that left recursion fails and does not go
on forever.  Results are remembered when this is asked for, but a result that depends on a refused
call is not: it holds only inside the calls that are active now.

Calls inside each other are different frames, and there are only as many frames as there are rules
times places.  So a call is also refused when `depth`, the number of frames that are left, is zero;
it is then a call inside itself.
-/

/-- A refused call fails and is counted.  It notes no failed test: nothing was expected where the
call was refused. -/
def refusal : Matching (Option Tree) := do
  modify Session.refuse
  return none

/-- Answer a call of a rule.  An undefined rule is an error and a remembered result is given again;
in every other case `enter` decides. -/
def answer (grammar : Grammar) (memoize : Bool) (frame : Frame)
    (enter : Rule -> Matching (Option Tree)) : Matching (Option Tree) :=
  match grammar.find? frame.rule with
  | none => throw (.undefinedRule frame.rule none)
  | some rule => do
    let session ← get
    match if memoize then session.memo[frame]? else none with
    | some result => return result
    | none => enter rule

/-- Match the expression of a rule for a frame, with a way to make the calls inside.  The result is
remembered when no call was refused meanwhile. -/
def enter (tokens : Array Token) (memoize : Bool) (frame : Frame)
    (inside : String -> Nat -> Matching (Option Tree)) (rule : Rule) : Matching (Option Tree) := do
  let before ← get
  let step ← part tokens inside frame.rule rule.effective frame.position
  let result := step.map fun step => Tree.ofRule frame.rule frame.position step.nodes
  let after ← get
  if memoize && after.refused == before.refused then
    set (after.remember frame result)
  return result

/-- Call a rule at a place while the frames of `active` are being matched.  A frame that is active
already is refused; any other frame that has to be entered is active for the calls inside it. -/
def call (grammar : Grammar) (tokens : Array Token) (memoize : Bool) :
    (depth : Nat) -> (active : List Frame) -> String -> Nat -> Matching (Option Tree)
  | 0, _, name, position => answer grammar memoize ⟨name, position⟩ fun _ => refusal
  | depth + 1, active, name, position =>
    answer grammar memoize ⟨name, position⟩ fun rule =>
      if active.contains ⟨name, position⟩ then refusal
      else
        enter tokens memoize ⟨name, position⟩
          (call grammar tokens memoize depth (⟨name, position⟩ :: active)) rule

/-- The number of frames for a grammar and a number of tokens; a place may also be the end.  So many
calls can be inside each other before one of them repeats an active frame. -/
def frames (grammar : Grammar) (size : Nat) : Nat :=
  grammar.size * (size + 1)

/-- Call a rule from outside. -/
def start (grammar : Grammar) (tokens : Array Token) (memoize : Bool) (name : String)
    (position : Nat) : Matching (Option Tree) :=
  call grammar tokens memoize (frames grammar tokens.size) [] name position

end Matching
end Packrat
