namespace Packrat

/-!
# Patterns of characters

A pattern is a regular expression whose letters are tests on characters.  `Pattern.Matches` is its
language.  Reading a text with a pattern goes by derivatives: `after c p` matches what may follow
`c` in a text of `p`, and `acceptsEmpty p` tells whether the text may end here.
-/

/-- Regular expressions over tests of single characters.  They are matched by derivatives, and there
is neither a capture nor a choice that is tried first. -/
inductive Pattern where
  | void
  | empty
  | one (test : Char -> Bool)
  | append (first second : Pattern)
  | either (first second : Pattern)
  | many (body : Pattern)

namespace Pattern

/-- The texts of a pattern.  This is the language that the derivatives of the pattern are proved to
decide. -/
inductive Matches : Pattern -> List Char -> Prop where
  | empty : Matches .empty []
  | one {test : Char -> Bool} {c : Char} : test c = true -> Matches (.one test) [c]
  | append {p q : Pattern} {s t : List Char} :
      Matches p s -> Matches q t -> Matches (.append p q) (s ++ t)
  | first {p q : Pattern} {s : List Char} : Matches p s -> Matches (.either p q) s
  | second {p q : Pattern} {s : List Char} : Matches q s -> Matches (.either p q) s
  | stop {p : Pattern} : Matches (.many p) []
  | more {p : Pattern} {s t : List Char} :
      Matches p s -> Matches (.many p) t -> Matches (.many p) (s ++ t)

def char (c : Char) : Pattern :=
  one (· == c)

def oneOf (allowed : String) : Pattern :=
  one fun c => allowed.toList.contains c

/-- Any character outside some given ones. -/
def noneOf (excluded : String) : Pattern :=
  one fun c => !excluded.toList.contains c

def chars : List Char -> Pattern
  | [] => empty
  | [c] => char c
  | c :: rest => append (char c) (chars rest)

def literal (t : String) : Pattern :=
  chars t.toList

def anyOf : List Pattern -> Pattern
  | [] => void
  | [p] => p
  | p :: rest => either p (anyOf rest)

def inOrder : List Pattern -> Pattern
  | [] => empty
  | [p] => p
  | p :: rest => append p (inOrder rest)

def perhaps (p : Pattern) : Pattern :=
  either p empty

def atLeastOnce (p : Pattern) : Pattern :=
  append p (many p)

def acceptsEmpty : Pattern -> Bool
  | void => false
  | empty => true
  | one _ => false
  | append p q => p.acceptsEmpty && q.acceptsEmpty
  | either p q => p.acceptsEmpty || q.acceptsEmpty
  | many _ => true

/-- One pattern after another, where nothing follows an impossible beginning. -/
def join : Pattern -> Pattern -> Pattern
  | void, _ => void
  | empty, q => q
  | p, q => append p q

/-- Either of two patterns, where an impossible one is left out. -/
def alternative : Pattern -> Pattern -> Pattern
  | void, q => q
  | p, void => p
  | p, q => either p q

/-- What may follow a first character.  This is the derivative of a pattern, simplified so far that
an impossible part is left out. -/
def after (c : Char) : Pattern -> Pattern
  | void => void
  | empty => void
  | one test => if test c then empty else void
  | append p q =>
    if p.acceptsEmpty then alternative (join (after c p) q) (after c q)
    else join (after c p) q
  | either p q => alternative (after c p) (after c q)
  | many p => join (after c p) (many p)

/-- Whether a text as a whole matches. -/
def accepts (p : Pattern) (s : List Char) : Bool :=
  (s.foldl (fun rest c => rest.after c) p).acceptsEmpty

/-- Whether no text is known to be left; a pattern without this mark may still have none. -/
def isVoid : Pattern -> Bool
  | void => true
  | _ => false

theorem not_matches_void (s : List Char) : ¬ Matches void s := by
  intro derivation
  cases derivation

theorem matches_empty_iff {s : List Char} : Matches empty s <-> s = [] := by
  constructor
  · intro derivation
    cases derivation
    rfl
  · rintro rfl
    exact Matches.empty

theorem matches_one_iff {test : Char -> Bool} {s : List Char} :
    Matches (one test) s <-> exists c, test c = true ∧ s = [c] := by
  constructor
  · intro derivation
    cases derivation with
    | one passes => exact ⟨_, passes, rfl⟩
  · rintro ⟨c, passes, rfl⟩
    exact Matches.one passes

theorem matches_append_iff {p q : Pattern} {s : List Char} :
    Matches (append p q) s <->
      exists first last, Matches p first ∧ Matches q last ∧ s = first ++ last := by
  constructor
  · intro derivation
    cases derivation with
    | append left right => exact ⟨_, _, left, right, rfl⟩
  · rintro ⟨first, last, left, right, rfl⟩
    exact Matches.append left right

theorem matches_either_iff {p q : Pattern} {s : List Char} :
    Matches (either p q) s <-> Matches p s ∨ Matches q s := by
  constructor
  · intro derivation
    cases derivation with
    | first left => exact Or.inl left
    | second right => exact Or.inr right
  · rintro (left | right)
    · exact Matches.first left
    · exact Matches.second right

theorem matches_join_iff {p q : Pattern} {s : List Char} :
    Matches (join p q) s <-> Matches (append p q) s := by
  cases p <;> simp only [join]
  · rw [matches_append_iff]
    constructor
    · intro derivation
      exact absurd derivation (not_matches_void s)
    · rintro ⟨first, _, left, _⟩
      exact absurd left (not_matches_void first)
  · rw [matches_append_iff]
    constructor
    · intro derivation
      exact ⟨[], s, Matches.empty, derivation, rfl⟩
    · rintro ⟨first, last, left, right, rfl⟩
      rw [matches_empty_iff] at left
      subst left
      exact right

theorem matches_alternative_iff {p q : Pattern} {s : List Char} :
    Matches (alternative p q) s <-> Matches p s ∨ Matches q s := by
  have plain := @matches_either_iff p q s
  unfold alternative
  split
  · simp [not_matches_void]
  · simp [not_matches_void]
  · exact plain

theorem acceptsEmpty_iff {p : Pattern} : p.acceptsEmpty = true <-> Matches p [] := by
  induction p with
  | void => simp [acceptsEmpty, not_matches_void]
  | empty => simp [acceptsEmpty, matches_empty_iff]
  | one test => simp [acceptsEmpty, matches_one_iff]
  | append p q left right =>
    rw [matches_append_iff]
    simp only [acceptsEmpty, Bool.and_eq_true, left, right]
    constructor
    · rintro ⟨first, last⟩
      exact ⟨[], [], first, last, rfl⟩
    · rintro ⟨first, last, matched, rest, same⟩
      obtain ⟨rfl, rfl⟩ := List.append_eq_nil_iff.mp same.symm
      exact ⟨matched, rest⟩
  | either p q left right => simp [acceptsEmpty, matches_either_iff, left, right]
  | many p _ => simp [acceptsEmpty, Matches.stop]

/-- A repetition that matches a text with a first character has a first round with it. -/
private theorem many_cons {p : Pattern} {c : Char} {s : List Char} :
    Matches (many p) (c :: s) <->
      exists first last, Matches p (c :: first) ∧ Matches (many p) last ∧ s = first ++ last := by
  constructor
  · intro derivation
    generalize source : many p = body at derivation
    generalize goal : c :: s = target at derivation
    induction derivation with
    | empty | one _ | append _ _ | first _ | second _ => cases source
    | stop => cases goal
    | @more p' s' t' matched rest _ again =>
      cases source
      cases s' with
      | nil => exact again rfl goal
      | cons d first =>
        simp only [List.cons_append, List.cons.injEq] at goal
        obtain ⟨rfl, rfl⟩ := goal
        exact ⟨first, t', matched, rest, rfl⟩
  · rintro ⟨first, last, matched, rest, rfl⟩
    exact Matches.more matched rest

/-- A derivative matches exactly the continuations of its character. -/
theorem matches_after {p : Pattern} {c : Char} {s : List Char} :
    Matches (after c p) s <-> Matches p (c :: s) := by
  induction p generalizing s with
  | void => simp [after, not_matches_void]
  | empty => simp [after, not_matches_void, matches_empty_iff]
  | one test =>
    rw [matches_one_iff]
    simp only [after]
    by_cases passes : test c = true
    · rw [if_pos passes, matches_empty_iff]
      constructor
      · rintro rfl
        exact ⟨c, passes, rfl⟩
      · rintro ⟨_, _, same⟩
        exact (List.cons.inj same).2
    · rw [if_neg passes]
      constructor
      · intro derivation
        exact absurd derivation (not_matches_void s)
      · rintro ⟨d, other, same⟩
        exact absurd ((List.cons.inj same).1 ▸ other) passes
  | append p q left right =>
    have inside : Matches (join (after c p) q) s <->
        exists first last, Matches p (c :: first) ∧ Matches q last ∧ s = first ++ last := by
      rw [matches_join_iff, matches_append_iff]
      simp only [left]
    have split : Matches (append p q) (c :: s) <->
        (exists first last, Matches p (c :: first) ∧ Matches q last ∧ s = first ++ last) ∨
          (Matches p [] ∧ Matches q (c :: s)) := by
      rw [matches_append_iff]
      constructor
      · rintro ⟨first, last, matched, rest, same⟩
        cases first with
        | nil =>
          rw [List.nil_append] at same
          exact Or.inr ⟨matched, same ▸ rest⟩
        | cons d first =>
          simp only [List.cons_append, List.cons.injEq] at same
          obtain ⟨rfl, rfl⟩ := same
          exact Or.inl ⟨first, last, matched, rest, rfl⟩
      · rintro (⟨first, last, matched, rest, rfl⟩ | ⟨matched, rest⟩)
        · exact ⟨c :: first, last, matched, rest, rfl⟩
        · exact ⟨[], c :: s, matched, rest, rfl⟩
    rw [split]
    by_cases skip : p.acceptsEmpty = true
    · simp only [after, skip, if_true]
      rw [matches_alternative_iff, inside, right]
      simp [acceptsEmpty_iff.mp skip]
    · have blocked : ¬ Matches p [] := fun matched => skip (acceptsEmpty_iff.mpr matched)
      simp only [after, skip]
      simp [inside, blocked]
  | either p q left right =>
    simp only [after]
    rw [matches_alternative_iff, left, right, matches_either_iff]
  | many p body =>
    simp only [after]
    rw [matches_join_iff, matches_append_iff, many_cons]
    simp only [body]

/-- Reading a text to its end decides whether it matches. -/
theorem accepts_iff {p : Pattern} {s : List Char} : p.accepts s = true <-> Matches p s := by
  induction s generalizing p with
  | nil => exact acceptsEmpty_iff
  | cons c s rest => exact (rest (p := p.after c)).trans matches_after

end Pattern
end Packrat
