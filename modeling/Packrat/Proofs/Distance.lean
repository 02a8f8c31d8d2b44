import Packrat.Proofs.Validation

namespace Packrat

/-!
# The nearest undefined rule is reported

The search for undefined rules goes breadth first.  Its queue is ordered by the distance from the
root, and two distances in it differ by at most one.  Every name that can be reached has been
explored, or the way to it leads through the queue, so no name outside the queue is nearer than its
first one.  The first undefined name that the search meets is therefore one of the nearest.
-/

namespace Grammar

/-! ## Distances -/

/-- A name can be reached from a root by a number of references. -/
inductive ReachesIn (grammar : Grammar) (root : String) : Nat -> String -> Prop
  | refl : ReachesIn grammar root 0 root
  | tail {count name mentioned} : ReachesIn grammar root count name ->
      grammar.RefersTo name mentioned -> ReachesIn grammar root (count + 1) mentioned

/-- The least number of references by which a name can be reached from a root. -/
structure Distance (grammar : Grammar) (root name : String) (count : Nat) : Prop where
  reaches : grammar.ReachesIn root count name
  least : forall other, grammar.ReachesIn root other name -> count ≤ other

variable {grammar : Grammar} {root name user : String} {count near far steps : Nat}
  {seen fresh : List String} {visit other : Visit} {queue : List Visit} {target : Rule}

theorem reaches_iff : grammar.Reaches root name <-> Exists fun count =>
    grammar.ReachesIn root count name := by
  constructor
  · intro reaches
    induction reaches with
    | refl => exact ⟨0, .refl⟩
    | tail _ refers inductionHypothesis =>
      rcases inductionHypothesis with ⟨count, reached⟩
      exact ⟨count + 1, reached.tail refers⟩
  · rintro ⟨count, reached⟩
    induction reached with
    | refl => exact .refl
    | tail _ refers inductionHypothesis => exact inductionHypothesis.tail refers

namespace Distance

theorem unique (distance : grammar.Distance root name near)
    (again : grammar.Distance root name far) : near = far := by
  have forward := distance.least far again.reaches
  have backward := again.least near distance.reaches
  omega

theorem zero (grammar : Grammar) (root : String) : grammar.Distance root root 0 :=
  ⟨.refl, fun _ _ => Nat.zero_le _⟩

theorem ne_root (distance : grammar.Distance root name (count + 1)) : name ≠ root := by
  rintro rfl
  have same := distance.unique (zero grammar name)
  cases same

end Distance

/-! ## What is in the queue -/

/-- A visit at some distance is the one of the root, or it names a rule that refers to its name and
is one step nearer. -/
inductive CitedAt (grammar : Grammar) (root : String) : Visit -> Nat -> Prop
  | root : CitedAt grammar root ⟨root, none⟩ 0
  | reference {user name before} : grammar.Distance root user before ->
      grammar.RefersTo user name -> CitedAt grammar root ⟨name, some user⟩ (before + 1)

/-- An earlier visit of a queue is as near as a later one, or nearer by one step. -/
def Ahead (grammar : Grammar) (root : String) (earlier later : Visit) : Prop :=
  forall near far, grammar.Distance root earlier.name near ->
    grammar.Distance root later.name far -> near ≤ far ∧ far ≤ near + 1

/-- A queue of cited visits in the order of their distances. -/
structure Nearing (grammar : Grammar) (root : String) (queue : List Visit) : Prop where
  cited : forall visit, visit ∈ queue -> Exists fun count =>
    grammar.Distance root visit.name count ∧ grammar.CitedAt root visit count
  ordered : queue.Pairwise (grammar.Ahead root)

/-- A name is explored when it has been seen, is defined and refers to seen names only. -/
def Explored (grammar : Grammar) (seen : List String) (name : String) : Prop :=
  name ∈ seen ∧ Exists fun target => grammar.find? name = some target ∧
    target.effective.mentions ⊆ seen

/-- The way to a name by a number of references leads through the queue, and ends behind it when the
name has not been seen. -/
def LeadsThrough (grammar : Grammar) (root : String) (seen : List String) (queue : List Visit)
    (name : String) (count : Nat) : Prop :=
  Exists fun visit => visit ∈ queue ∧ Exists fun before =>
    grammar.ReachesIn root before visit.name ∧ before ≤ count ∧ (name ∉ seen -> before < count)

namespace Following

theorem frontier_of_seen (following : Following grammar root steps seen queue)
    (reaches : grammar.ReachesIn root count name) (member : name ∈ seen) :
    grammar.Explored seen name ∨ grammar.LeadsThrough root seen queue name count := by
  rcases following.explored name member with ⟨visit, waiting, rfl⟩ | explored
  · exact Or.inr ⟨visit, waiting, count, reaches, Nat.le_refl count,
      fun unseen => absurd member unseen⟩
  · exact Or.inl ⟨member, explored⟩

/-- Every name that can be reached is explored, or the way to it leads through the queue. -/
theorem frontier (following : Following grammar root steps seen queue)
    (reaches : grammar.ReachesIn root count name) :
    grammar.Explored seen name ∨ grammar.LeadsThrough root seen queue name count := by
  induction reaches with
  | refl => exact following.frontier_of_seen .refl following.rooted
  | tail reached refers inductionHypothesis =>
    rcases inductionHypothesis with ⟨-, target, found, known⟩ | ⟨visit, waiting, before, way, le, -⟩
    · rcases refers with ⟨user, found', mentioned⟩
      cases found.symm.trans found'
      exact following.frontier_of_seen (reached.tail ⟨target, found, mentioned⟩) (known mentioned)
    · exact Or.inr ⟨visit, waiting, before, way, Nat.le_succ_of_le le,
        fun _ => Nat.lt_succ_of_le le⟩

end Following

namespace Nearing

theorem start (grammar : Grammar) (root : String) : Nearing grammar root [⟨root, none⟩] := by
  constructor
  · intro visit member
    cases List.mem_singleton.mp member
    exact ⟨0, Distance.zero grammar root, .root⟩
  · exact List.pairwise_singleton _ _

theorem first_le (nearing : Nearing grammar root (visit :: queue))
    (distance : grammar.Distance root visit.name near) (member : other ∈ visit :: queue)
    (further : grammar.Distance root other.name far) : near ≤ far := by
  rcases List.mem_cons.mp member with rfl | later
  · exact Nat.le_of_eq (distance.unique further)
  · have ahead := (List.pairwise_cons.mp nearing.ordered).1 other later
    exact (ahead near far distance further).1

/-- What is not explored is not nearer than the first visit, and further away if it has not been
seen. -/
theorem le_of_reachesIn (nearing : Nearing grammar root (visit :: queue))
    (following : Following grammar root steps seen (visit :: queue))
    (distance : grammar.Distance root visit.name near)
    (reaches : grammar.ReachesIn root count name) :
    grammar.Explored seen name ∨ near ≤ count ∧ (name ∉ seen -> near < count) := by
  rcases following.frontier reaches with explored | ⟨waiting, member, before, way, le, behind⟩
  · exact Or.inl explored
  · rcases nearing.cited waiting member with ⟨far, further, -⟩
    have ahead := nearing.first_le distance member further
    have least := further.least before way
    refine Or.inr ⟨by omega, fun unseen => ?_⟩
    have strict := behind unseen
    omega

/-- The new references of the first visit are one step further away than the visit. -/
theorem distance_of_fresh (nearing : Nearing grammar root (visit :: queue))
    (following : Following grammar root steps seen (visit :: queue))
    (distance : grammar.Distance root visit.name near)
    (refers : grammar.RefersTo visit.name name) (unseen : name ∉ seen) :
    grammar.Distance root name (near + 1) := by
  refine ⟨distance.reaches.tail refers, fun count reaches => ?_⟩
  rcases nearing.le_of_reachesIn following distance reaches with ⟨member, -⟩ | ⟨-, behind⟩
  · exact absurd member unseen
  · exact behind unseen

/-- A visit leaves the queue cited and in order. -/
theorem step (nearing : Nearing grammar root (visit :: queue))
    (following : Following grammar root steps seen (visit :: queue))
    (found : grammar.find? visit.name = some target)
    (new : fresh = target.effective.references.filter fun name => !seen.contains name) :
    Nearing grammar root (queue ++ fresh.map fun name => ⟨name, some target.name⟩) := by
  rcases nearing.cited visit List.mem_cons_self with ⟨near, distance, -⟩
  have named : target.name = visit.name := (mem_rules_of_find? found).2
  have refers : forall name, name ∈ fresh -> grammar.RefersTo visit.name name := by
    intro name member
    rw [new, List.mem_filter, Expression.mem_references] at member
    exact ⟨target, found, member.1⟩
  have one_step : forall name, name ∈ fresh -> grammar.Distance root name (near + 1) := by
    intro name member
    have unseen : name ∉ seen := by
      rw [new, List.mem_filter] at member
      simpa using member.2
    exact nearing.distance_of_fresh following distance (refers name member) unseen
  constructor
  · intro other member
    rcases List.mem_append.mp member with waiting | added
    · exact nearing.cited other (List.mem_cons_of_mem _ waiting)
    · rcases List.mem_map.mp added with ⟨name, listed, rfl⟩
      rw [named]
      exact ⟨near + 1, one_step name listed, .reference distance (refers name listed)⟩
  · have rest := List.pairwise_cons.mp nearing.ordered
    apply List.pairwise_append.mpr
    refine ⟨rest.2, List.pairwise_map.mpr ?_, ?_⟩
    · apply List.pairwise_of_forall_mem_list
      intro name listed name' listed' first second reaches reaches'
      have same := reaches.unique (one_step name listed)
      have same' := reaches'.unique (one_step name' listed')
      omega
    · intro waiting member added listed first second reaches reaches'
      rcases List.mem_map.mp listed with ⟨name, within, rfl⟩
      have last := reaches'.unique (one_step name within)
      have ahead := rest.1 waiting member near first distance reaches
      omega

end Nearing

/-! ## The report of the search -/

/-- An error of the search is about a cited name that is not defined, and no undefined name is
nearer. -/
theorem nearest_of_follow {error : GrammarError}
    (following : Following grammar root steps seen queue) (nearing : Nearing grammar root queue)
    (failed : follow grammar steps seen queue = .error error) :
    Exists fun visit => Exists fun near =>
      error = .undefinedRule visit.name visit.referencedBy ∧ grammar.find? visit.name = none ∧
        grammar.Distance root visit.name near ∧ grammar.CitedAt root visit near ∧
        forall other, grammar.find? other = none -> forall count,
          grammar.ReachesIn root count other -> near ≤ count := by
  induction steps generalizing seen queue with
  | zero =>
    cases queue <;> cases failed
  | succ steps inductionHypothesis =>
    cases queue with
    | nil => cases failed
    | cons visit queue =>
      rw [follow] at failed
      cases found : grammar.find? visit.name with
      | some target =>
        rw [found] at failed
        exact inductionHypothesis (following.step found rfl)
          (nearing.step following found rfl) failed
      | none =>
        rw [found] at failed
        cases failed
        rcases nearing.cited visit List.mem_cons_self with ⟨near, distance, cited⟩
        refine ⟨visit, near, rfl, found, distance, cited, fun other missing count reaches => ?_⟩
        rcases nearing.le_of_reachesIn following distance reaches with
          ⟨-, target, found', -⟩ | ahead
        · rw [missing] at found'
          cases found'
        · exact ahead.1

/-- The search accepts exactly the roots from which no undefined rule can be reached. -/
theorem validate_eq_ok_iff : grammar.validate root = .ok () <-> grammar.Complete root := by
  constructor
  · exact complete_of_validate
  · intro complete
    cases searched : grammar.validate root with
    | ok => rfl
    | error error =>
      rcases nearest_of_follow .start (.start grammar root) searched with
        ⟨visit, near, -, missing, distance, -⟩
      have reaches := reaches_iff.mpr ⟨near, distance.reaches⟩
      exact absurd missing (complete.find?_ne_none reaches)

/-- The search for undefined rules is exact.  It accepts a root exactly when every rule that can be
reached from it is defined, and then no match of the root ends in an error.  Otherwise it reports a
nearest undefined name, with no rule when this is the root itself, and else with a rule that refers
to it and is one step nearer.  A match of a root that was not checked can only end in an error about
an undefined rule that can be reached from it. -/
theorem validate_exact (grammar : Grammar) (root : String) :
    (grammar.validate root = .ok () <-> grammar.Complete root) ∧
    (grammar.validate root = .ok () -> forall matcher : Matcher, matcher.grammar = grammar ->
      (forall start, Exists fun outcome => (matcher.matchRule root start).1 = .ok outcome) ∧
        Exists fun outcome => (matcher.matchEntirely root).1 = .ok outcome) ∧
    (forall error, grammar.validate root = .error error ->
      Exists fun name => Exists fun referencedBy => Exists fun near =>
        error = .undefinedRule name referencedBy ∧ grammar.find? name = none ∧
          grammar.Distance root name near ∧
          (forall other count, grammar.find? other = none -> grammar.Distance root other count ->
            near ≤ count) ∧
          (name = root ∧ referencedBy = none ∨
            name ≠ root ∧ Exists fun user => Exists fun before =>
              referencedBy = some user ∧ grammar.Distance root user before ∧ near = before + 1 ∧
                grammar.RefersTo user name)) ∧
    (forall (matcher : Matcher) (start : Nat) (error : GrammarError), matcher.grammar = grammar ->
      (matcher.matchRule root start).1 = .error error ∨
          (matcher.matchEntirely root).1 = .error error ->
        Exists fun name => error = .undefinedRule name none ∧ grammar.find? name = none ∧
          grammar.Reaches root name) := by
  refine ⟨validate_eq_ok_iff, ?_, ?_, ?_⟩
  · rintro validated matcher rfl
    exact ⟨fun start => matcher.matchRule_ok root start validated,
      matcher.matchEntirely_ok root validated⟩
  · intro error failed
    rcases nearest_of_follow .start (.start grammar root) failed with
      ⟨visit, near, same, missing, distance, cited, nearest⟩
    refine ⟨visit.name, visit.referencedBy, near, same, missing, distance, ?_, ?_⟩
    · intro other count missing' further
      exact nearest other missing' count further.reaches
    · cases cited with
      | root => exact Or.inl ⟨rfl, rfl⟩
      | @reference user name before closer refers =>
        exact Or.inr ⟨distance.ne_root, user, before, rfl, closer, rfl, refers⟩
  · rintro matcher start error rfl (failed | failed)
    · exact Matcher.undefined_of_matchRule failed
    · exact Matcher.undefined_of_matchEntirely failed

/-- Two rules refer to undefined ones, and the nearer of these is reported although the other one
would be met first by going deeper.  A match that takes another way meets the other one. -/
theorem validate_exact_two_missing :
    let grammar : Grammar :=
      ⟨[⟨"a", .choice [.rule "b", .rule "c"], false⟩, ⟨"b", .sequence [.rule "d"], false⟩,
        ⟨"c", .optional (.rule "near"), false⟩, ⟨"d", .rule "far", false⟩], 0⟩
    grammar.validate "a" = .error (.undefinedRule "near" (some "c")) ∧
      (forall count, grammar.Distance "a" "far" count ->
        Exists fun near => grammar.Distance "a" "near" near ∧ near ≤ count) ∧
      grammar.Reaches "a" "far" := by
  intro grammar
  have failed : grammar.validate "a" = .error (.undefinedRule "near" (some "c")) := by rfl
  rcases (validate_exact grammar "a").2.2.1 _ failed with
    ⟨name, referencedBy, near, same, -, distance, nearest, -⟩
  cases same
  refine ⟨failed, fun count further => ⟨near, distance, nearest "far" count rfl further⟩, ?_⟩
  let matcher : Matcher := { grammar, tokens := #[] }
  have met : (matcher.matchRule "a" 0).1 = .error (.undefinedRule "far" none) :=
    Matcher.matchRule_of_unremembered rfl
  rcases (validate_exact grammar "a").2.2.2 matcher 0 _ rfl (Or.inl met) with
    ⟨name, same, -, reaches⟩
  cases same
  exact reaches

end Grammar
end Packrat
