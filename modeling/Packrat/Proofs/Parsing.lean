import Packrat.Match.Parse
import Packrat.Proofs.Outcome

namespace Packrat
namespace Grammar

/-!
# Parses are evaluations

A rule is parsed when the source has tokens, everything that the rule needs is defined, and the rule
evaluates to a tree that reaches the end of the file.
-/

variable {grammar : Grammar} {rule source : String} {tabSize : Nat} {memoize : Bool}

/-- What is matched entirely is valid and evaluated to the tree. -/
theorem evaluates_of_matchEntirely {tokens : Array Token} {tree : Tree}
    (matched : grammar.matchEntirely rule tokens memoize = .ok (.success tree)) :
    grammar.validate rule = .ok () ∧ Exists fun log =>
      Matching.Evaluates grammar tokens [] rule (.rule rule) 0 (.ok (some tree.step)) log := by
  unfold matchEntirely at matched
  cases valid : grammar.validate rule with
  | error error =>
    rw [valid] at matched
    cases matched
  | ok checked =>
    rw [valid] at matched
    have matched : ((Matcher.mk grammar tokens memoize {}).matchEntirely rule).1 =
      .ok (.success tree) := matched
    rcases (Matcher.mk grammar tokens memoize {}).matchEntirely_evaluates rule with
      ⟨result, log, evaluates, reports⟩
    rw [matched] at reports
    refine ⟨rfl, log, ?_⟩
    rcases result with error | none | found
    · cases reports
    · cases reports
    · rw [Matcher.reportEntirely] at reports
      split at reports
      · cases reports
      · cases reports
        exact evaluates

/-- A valid rule that is evaluated up to the end of the file, or beyond, matches entirely. -/
theorem matchEntirely_of_evaluates {tokens : Array Token} {step : Step} {log : Log}
    (valid : grammar.validate rule = .ok ())
    (evaluates : Matching.Evaluates grammar tokens [] rule (.rule rule) 0 (.ok (some step)) log)
    (whole : Matcher.endOf tokens ≤ step.next) (memoize : Bool) :
    Exists fun tree => grammar.matchEntirely rule tokens memoize = .ok (.success tree) := by
  rcases (Matcher.mk grammar tokens memoize {}).matchEntirely_evaluates rule with
    ⟨result, log', evaluates', reports⟩
  have same := (evaluates.unique evaluates').1
  rcases result with error | none | tree
  · cases same
  · cases same
  · cases same
    refine ⟨tree, ?_⟩
    rw [matchEntirely, valid]
    refine Eq.trans reports ?_
    exact if_neg (Nat.not_lt_of_le whole)

/-- A parse has the tokens of its source and the tree that they are matched with entirely. -/
theorem parse_eq_ok_iff {parse : Parse} :
    grammar.parse rule source tabSize memoize = .ok parse <->
      Exists fun tokens => Token.stream tabSize source = .ok tokens ∧
        parse.tokens = tokens.toArray ∧
        grammar.matchEntirely rule tokens.toArray memoize = .ok (.success parse.root) := by
  rcases parse with ⟨texts, root⟩
  cases read : Token.stream tabSize source with
  | error error =>
    rw [Grammar.parse, read]
    constructor
    · intro impossible
      cases impossible
    · rintro ⟨tokens, impossible, -⟩
      cases impossible
  | ok tokens =>
    rw [Grammar.parse, read]
    show (Except.mapError ParseError.grammar
      (grammar.matchEntirely rule tokens.toArray memoize) >>= _) = _ <-> _
    simp only [Except.ok.injEq, exists_eq_left']
    rcases grammar.matchEntirely rule tokens.toArray memoize with error | tree | failure
    · constructor
      · intro impossible
        cases impossible
      · rintro ⟨-, impossible⟩
        cases impossible
    · constructor
      · intro parsed
        cases parsed
        exact ⟨rfl, rfl⟩
      · rintro ⟨rfl, same⟩
        cases same
        rfl
    · constructor
      · intro impossible
        cases impossible
      · rintro ⟨-, impossible⟩
        cases impossible

theorem matchEntirely_of_parse {parse : Parse}
    (parsed : grammar.parse rule source tabSize memoize = .ok parse) :
    Exists fun tokens => Token.stream tabSize source = .ok tokens ∧
      grammar.matchEntirely rule tokens.toArray memoize = .ok (.success parse.root) := by
  rcases parse_eq_ok_iff.mp parsed with ⟨tokens, read, -, matched⟩
  exact ⟨tokens, read, matched⟩

theorem parse_of_matchEntirely {tokens : List Token} {tree : Tree}
    (read : Token.stream tabSize source = .ok tokens)
    (matched : grammar.matchEntirely rule tokens.toArray memoize = .ok (.success tree)) :
    grammar.parse rule source tabSize memoize = .ok ⟨tokens.toArray, tree⟩ :=
  parse_eq_ok_iff.mpr ⟨tokens, read, rfl, matched⟩

end Grammar
end Packrat
