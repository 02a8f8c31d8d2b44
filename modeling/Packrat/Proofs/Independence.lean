import Packrat.Match.Matcher

namespace Packrat

/-!
# Calls of one matcher

A matcher can be called again and again, and every call may leave something behind: remembered
results, refused calls, a furthest failure, and after an error whatever there was at that moment.
None of it gets into the next call.  A call that begins replaces the session of the one before it,
and a call of an undefined root, which ends before it begins, neither looks at that session nor
touches it.

So the answers to a sequence of calls are those of fresh matchers, one for each call, and what is
left at the end comes from the last call that began.
-/

/-- A call of a matcher: for a rule from a token on, or for a rule and the whole input.  The rule
may be undefined, and the token may lie behind the last one. -/
inductive Request where
  | rule (name : String) (start : Nat)
  | entirely (name : String)

namespace Request

def root : Request -> String
  | rule name _ => name
  | entirely name => name

end Request

namespace Matcher

/-- The matcher of the same grammar and tokens that has not been called yet. -/
def fresh (matcher : Matcher) : Matcher :=
  { matcher with session := {} }

/-- The answer to a call, and the matcher after it. -/
def answer (matcher : Matcher) : Request -> Except GrammarError Outcome × Matcher
  | .rule name start => matcher.matchRule name start
  | .entirely name => matcher.matchEntirely name

def answers (matcher : Matcher) : List Request -> List (Except GrammarError Outcome) × Matcher
  | [] => ([], matcher)
  | request :: requests =>
    let (result, next) := matcher.answer request
    let (results, last) := next.answers requests
    (result :: results, last)

variable {matcher : Matcher} {request : Request} {rule : String}

/-! ## One call -/

/-- A match of a defined root begins afresh: it does not see what earlier calls have left. -/
theorem matchRule_of_defined (defined : matcher.grammar.contains rule = true) (start : Nat) :
    matcher.matchRule rule start = matcher.fresh.matchRule rule start := by
  unfold matchRule Grammar.get fresh
  cases found : matcher.grammar.find? rule with
  | none =>
    rw [Grammar.contains_of_missing found] at defined
    cases defined
  | some target => rfl

/-- A match of an undefined root ends before it begins, and leaves everything as it was. -/
theorem matchRule_of_undefined (undefined : matcher.grammar.contains rule = false) (start : Nat) :
    matcher.matchRule rule start = (.error (.undefinedRule rule none), matcher) := by
  unfold matchRule Grammar.get
  cases found : matcher.grammar.find? rule with
  | none => rfl
  | some target =>
    rw [Grammar.contains_of_found found] at undefined
    cases undefined

/-- A match of the whole input looks only at the session of its own match. -/
theorem answer_of_defined (defined : matcher.grammar.contains request.root = true) :
    matcher.answer request = matcher.fresh.answer request := by
  cases request with
  | rule name start => exact matchRule_of_defined defined start
  | entirely name =>
    have defined' : matcher.grammar.contains name = true := defined
    rw [answer, answer, matchEntirely, matchEntirely, matchRule_of_defined defined']
    rfl

theorem answer_of_undefined (undefined : matcher.grammar.contains request.root = false) :
    matcher.answer request = (.error (.undefinedRule request.root none), matcher) := by
  cases request with
  | rule name start => exact matchRule_of_undefined undefined start
  | entirely name =>
    have undefined' : matcher.grammar.contains name = false := undefined
    rw [answer, matchEntirely, matchRule_of_undefined undefined']
    rfl

/-- A call changes neither the grammar nor the tokens nor whether results are remembered. -/
theorem fresh_answer (matcher : Matcher) (request : Request) :
    (matcher.answer request).2.fresh = matcher.fresh := by
  have matches' : forall rule start, (matcher.matchRule rule start).2.fresh = matcher.fresh := by
    intro rule start
    unfold matchRule
    split
    · rfl
    · split <;> rfl
  cases request with
  | rule name start => exact matches' name start
  | entirely name =>
    have same := matches' name 0
    rw [answer, matchEntirely]
    split
    · rename_i tree after matched
      rw [matched] at same
      split <;> exact same
    · exact same

/-- The answer to a call is that of a fresh matcher. -/
theorem answer_eq_fresh (matcher : Matcher) (request : Request) :
    (matcher.answer request).1 = (matcher.fresh.answer request).1 := by
  cases defined : matcher.grammar.contains request.root with
  | true => rw [answer_of_defined defined]
  | false =>
    have undefined : matcher.fresh.grammar.contains request.root = false := defined
    rw [answer_of_undefined defined, answer_of_undefined undefined]

/-! ## Calls one after the other -/

/-- Calls of one matcher do not depend on each other.  Whatever has been called before, with or
without success, with an error on the way or an undefined root, each call is answered as by a fresh
matcher of the same grammar, the same tokens and the same use of its memory.  What is left at the
end is what the last call of a defined root leaves on a fresh matcher, and if there was none,
nothing has changed. -/
theorem answers_eq_fresh (matcher : Matcher) (requests : List Request) :
    (matcher.answers requests).1 =
        requests.map (fun request => (matcher.fresh.answer request).1) ∧
      (matcher.answers requests).2 =
        ((requests.filter fun request => matcher.grammar.contains request.root).getLast?.map
          fun request => (matcher.fresh.answer request).2).getD matcher := by
  induction requests generalizing matcher with
  | nil => exact ⟨rfl, rfl⟩
  | cons request requests inductionHypothesis =>
    have kept := fresh_answer matcher request
    have same : (matcher.answer request).2.fresh.grammar = matcher.fresh.grammar :=
      congrArg Matcher.grammar kept
    have grammar : (matcher.answer request).2.grammar = matcher.grammar := same
    rcases inductionHypothesis (matcher.answer request).2 with ⟨results, last⟩
    rw [kept] at results last
    rw [grammar] at last
    refine ⟨congr (congrArg List.cons (answer_eq_fresh matcher request)) results, ?_⟩
    refine last.trans ?_
    cases defined : matcher.grammar.contains request.root with
    | true =>
      rw [List.filter_cons, if_pos defined, List.getLast?_cons, answer_of_defined defined]
      cases (requests.filter fun request =>
        matcher.grammar.contains request.root).getLast? <;> rfl
    | false =>
      rw [List.filter_cons, if_neg (Bool.eq_false_iff.mp defined), answer_of_undefined defined]

end Matcher
end Packrat
