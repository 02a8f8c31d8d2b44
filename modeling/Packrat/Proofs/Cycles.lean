import Mathlib.Data.List.Chain
import Mathlib.Data.List.Nodup
import Packrat.Proofs.Generation
import Packrat.Proofs.LeftRecursion

namespace Packrat

/-!
# A left recursion is a cycle of calls

The path of a search goes from call to call, and it never has a name twice.  When the search comes
to a name of its path, the path leads from this name back to it.  So what the search reports is a
cycle of calls on the left.  Together with what a search establishes that reports nothing, it finds
a cycle exactly where there is one.
-/

open Relation (TransGen ReflTransGen)

namespace Grammar

variable {calls : String -> List String} {cycle path done names : List String}
  {name called : String} {depth : Nat}

/-! ## Cycles -/

/-- Names from call to call that end with the first one again and have no other name twice.  A rule
that calls itself is a cycle of one call. -/
structure IsCycle (calls : String -> List String) (cycle : List String) : Prop where
  length_ge : 2 ≤ cycle.length
  closed : cycle.getLast? = cycle.head?
  distinct : cycle.dropLast.Nodup
  chained : cycle.IsChain fun name called => called ∈ calls name

theorem IsCycle.reaches (loop : IsCycle calls cycle) :
    Exists fun name => TransGen (fun name called => called ∈ calls name) name name := by
  rcases loop with ⟨long, closed, -, chained⟩
  match cycle with
  | [] | [_] => contradiction
  | first :: second :: rest =>
    rcases List.isChain_cons_cons.mp chained with ⟨call, chained⟩
    have ends : (second :: rest).getLast (List.cons_ne_nil _ _) = first := by
      rw [List.getLast?_cons_cons, List.getLast?_eq_some_getLast (List.cons_ne_nil _ _)] at closed
      exact Option.some.inj closed
    exact ⟨first, .head' call (List.relationReflTransGen_of_exists_isChain_cons rest chained ends)⟩

/-! ## The path of a search -/

/-- Different names from call to call, the last of which calls the given one. -/
structure Trail (calls : String -> List String) (path : List String) (name : String) : Prop where
  distinct : path.Nodup
  chained : (path ++ [name]).IsChain fun name called => called ∈ calls name

namespace Trail

theorem start : Trail calls [] name :=
  ⟨List.nodup_nil, List.isChain_singleton name⟩

theorem extend (trail : Trail calls path name) (fresh : name ∉ path)
    (call : called ∈ calls name) : Trail calls (path ++ [name]) called := by
  refine ⟨?_, ?_⟩
  · rw [← List.concat_eq_append]
    exact List.Nodup.concat fresh trail.distinct
  · refine trail.chained.append (List.isChain_singleton called) ?_
    intro last ends first begins
    rw [List.getLast?_concat] at ends
    cases ends
    cases begins
    exact call

end Trail

theorem exists_dropWhile_eq (member : name ∈ path) :
    Exists fun rest => path.dropWhile (· != name) = name :: rest := by
  induction path with
  | nil => cases member
  | cons first path inductionHypothesis =>
    by_cases same : first = name
    · subst same
      exact ⟨path, by simp⟩
    · have later := (List.mem_cons.mp member).resolve_left (Ne.symm same)
      rw [List.dropWhile_cons_of_pos (by simpa using same)]
      exact inductionHypothesis later

/-- A path that comes to one of its names has made a cycle. -/
theorem Trail.isCycle (trail : Trail calls path name) (again : name ∈ path) :
    IsCycle calls (path.dropWhile (· != name) ++ [name]) := by
  rcases exists_dropWhile_eq again with ⟨rest, from_name⟩
  have part : path.dropWhile (· != name) <:+ path := List.dropWhile_suffix _
  refine ⟨?_, ?_, ?_, ?_⟩
  · rw [from_name, List.length_append, List.length_cons, List.length_singleton]
    omega
  · rw [List.getLast?_concat, from_name]
    rfl
  · rw [List.dropLast_concat]
    exact trail.distinct.sublist part.sublist
  · refine trail.chained.suffix ?_
    rcases part with ⟨front, whole⟩
    exact ⟨front, by rw [← List.append_assoc, whole]⟩

/-! ## What a search reports -/

/-- When searches one after the other report a cycle, one of them does. -/
theorem exists_of_foldlM_error
    {search : List String -> String -> Except (List String) (List String)}
    (failed : names.foldlM search done = .error cycle) :
    Exists fun name => name ∈ names ∧ Exists fun done => search done name = .error cycle := by
  induction names generalizing done with
  | nil => cases failed
  | cons name names inductionHypothesis =>
    rw [List.foldlM_cons] at failed
    cases first : search done name with
    | error other =>
      rw [first] at failed
      cases failed
      exact ⟨name, List.mem_cons_self, done, first⟩
    | ok middle =>
      rw [first] at failed
      rcases inductionHypothesis failed with ⟨later, member, reported⟩
      exact ⟨later, List.mem_cons_of_mem name member, reported⟩

/-- Whatever a search reports is a cycle. -/
theorem search_isCycle (trail : Trail calls path name)
    (failed : search calls depth path done name = .error cycle) : IsCycle calls cycle := by
  induction depth generalizing path done name with
  | zero =>
    rw [search] at failed
    split at failed
    · rename_i again
      cases failed
      exact trail.isCycle (List.contains_iff_mem.mp again)
    · split at failed <;> cases failed
  | succ depth inductionHypothesis =>
    rw [search] at failed
    split at failed
    · rename_i again
      cases failed
      exact trail.isCycle (List.contains_iff_mem.mp again)
    · rename_i fresh
      rw [List.contains_iff_mem] at fresh
      split at failed
      · cases failed
      · cases below : (calls name).foldlM (search calls depth (path ++ [name])) done with
        | ok after =>
          rw [below] at failed
          cases failed
        | error other =>
          rw [below] at failed
          cases failed
          rcases exists_of_foldlM_error below with ⟨called, call, between, reported⟩
          exact inductionHypothesis (trail.extend fresh call) reported

theorem isCycle_of_find {grammar : Grammar} (searched : grammar.findLeftRecursion = some cycle) :
    IsCycle (grammar.leftCallsOf grammar.nullableRules) cycle := by
  unfold findLeftRecursion at searched
  simp only at searched
  split at searched
  · rename_i other failed
    cases searched
    rcases exists_of_foldlM_error failed with ⟨name, -, done, reported⟩
    exact search_isCycle .start reported
  · cases searched

/-- The search finds nothing exactly when there is no left recursion. -/
theorem findLeftRecursion_eq_none_iff {grammar : Grammar} :
    grammar.findLeftRecursion = none <-> grammar.LeftAcyclic := by
  refine ⟨leftAcyclic_of_find, fun acyclic => ?_⟩
  cases searched : grammar.findLeftRecursion with
  | none => rfl
  | some cycle =>
    rcases (isCycle_of_find searched).reaches with ⟨name, back⟩
    rw [← callsOnLeft_eq] at back
    exact absurd back (acyclic name)

/-- The search for a left recursion is exact.  It finds nothing exactly when no rule can come back
to itself by calls on the left.  What it finds is a cycle of such calls. -/
theorem findLeftRecursion_exact (grammar : Grammar) :
    let calls := grammar.leftCallsOf grammar.nullableRules
    (grammar.findLeftRecursion = none <->
      forall name, ¬ TransGen (fun name called => called ∈ calls name) name name) ∧
    forall cycle, grammar.findLeftRecursion = some cycle -> IsCycle calls cycle := by
  intro calls
  refine ⟨?_, fun cycle => isCycle_of_find⟩
  rw [← callsOnLeft_eq]
  exact findLeftRecursion_eq_none_iff

/-- A cycle behind a rule that is not on it, found after an undefined rule and a nullable one; the
mocked rule would close a shorter one. -/
theorem findLeftRecursion_exact_indirect :
    let grammar := ({} : Grammar).changes
      [.define "a" (.sequence [.optional (.word "not"), .rule "b"]),
        .define "b" (.choice [.rule "missing", .sequence [.rule "d", .rule "e"],
          .sequence [.rule "c", .rule "b"]]),
        .define "c" (.choice [.rule "c", .word "x"]), .define "d" (.zeroOrMore (.word "y")),
        .define "e" (.sequence [.rule "d", .rule "b", .word "z"]), .mock "c"]
    grammar.findLeftRecursion = some ["b", "e", "b"] ∧
      IsCycle (grammar.leftCallsOf grammar.nullableRules) ["b", "e", "b"] := by
  intro grammar
  have searched : grammar.findLeftRecursion = some ["b", "e", "b"] := by decide
  exact ⟨searched, (findLeftRecursion_exact grammar).2 _ searched⟩

end Grammar
end Packrat
