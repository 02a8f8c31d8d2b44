import Packrat.Shape

namespace Packrat
namespace Shape

/-!
# The longest match of several shapes

Reading by derivatives finds the longest beginning of a text that is in the language of one of the
shapes: what it finds is in such a language, and no longer beginning is.  It finds nothing only
where no beginning is in any of the languages.
-/

variable {Reading : Type} {live : List (Shape Reading)} {reading : Reading} {text rest : List Char}
  {c : Char} {length : Nat}

/-- A whole text is in the language of a shape with a reading.  Several shapes may have the same
reading, and one of them is enough. -/
def Accepts (live : List (Shape Reading)) (reading : Reading) (text : List Char) : Prop :=
  Exists fun shape => shape ∈ live ∧ shape.reading = reading ∧ shape.pattern.Matches text

/-! ## Derivatives of several shapes -/

theorem after?_eq_some_iff {shape next : Shape Reading} :
    shape.after? c = some next <->
      (shape.pattern.after c).isVoid = false ∧ next = ⟨shape.reading, shape.pattern.after c⟩ := by
  simp only [after?]
  split
  · rename_i dead
    simp [dead]
  · rename_i alive
    simp [alive, eq_comm]

theorem not_matches_of_isVoid {pattern : Pattern} (dead : pattern.isVoid = true) :
    ¬ pattern.Matches text := by
  cases pattern <;> cases dead
  exact Pattern.not_matches_void text

/-- The shapes that are left after a character accept what may follow it. -/
theorem accepts_filterMap_after?_iff :
    Accepts (live.filterMap (after? c)) reading rest <-> Accepts live reading (c :: rest) := by
  constructor
  · rintro ⟨next, listed, rfl, matched⟩
    rcases List.mem_filterMap.mp listed with ⟨shape, member, goes⟩
    rcases after?_eq_some_iff.mp goes with ⟨-, rfl⟩
    exact ⟨shape, member, rfl, Pattern.matches_after.mp matched⟩
  · rintro ⟨shape, member, rfl, matched⟩
    have onward := Pattern.matches_after.mpr matched
    have alive : (shape.pattern.after c).isVoid = false :=
      Bool.eq_false_iff.mpr fun dead => not_matches_of_isVoid dead onward
    exact ⟨_, List.mem_filterMap.mpr ⟨shape, member, after?_eq_some_iff.mpr ⟨alive, rfl⟩⟩, rfl,
      onward⟩

/-- The shapes that are left after some characters. -/
def leftAfter (live : List (Shape Reading)) (text : List Char) : List (Shape Reading) :=
  text.foldl (fun live c => live.filterMap (after? c)) live

theorem accepts_leftAfter_iff :
    Accepts (leftAfter live text) reading rest <-> Accepts live reading (text ++ rest) := by
  induction text generalizing live with
  | nil => exact Iff.rfl
  | cons c text inductionHypothesis =>
    exact inductionHypothesis.trans accepts_filterMap_after?_iff

theorem not_accepts_nil : ¬ Accepts [] reading text := by
  rintro ⟨shape, impossible, -⟩
  cases impossible

theorem accepts_of_accepted? (found : accepted? live = some reading) :
    Accepts live reading [] := by
  rcases Option.map_eq_some_iff.mp found with ⟨shape, first, rfl⟩
  have empty : shape.pattern.acceptsEmpty = true := by simpa using List.find?_some first
  exact ⟨shape, List.mem_of_find?_eq_some first, rfl, Pattern.acceptsEmpty_iff.mp empty⟩

theorem not_accepts_of_accepted? (missing : accepted? live = none) :
    ¬ Accepts live reading [] := by
  rintro ⟨shape, member, -, matched⟩
  have none_accepts := List.find?_eq_none.mp (Option.map_eq_none_iff.mp missing) shape member
  exact none_accepts (Pattern.acceptsEmpty_iff.mpr matched)

/-! ## Longest beginnings -/

/-- A beginning of a text is accepted with a reading, and no longer one with any.  Nothing is said
about which reading is taken when there are several. -/
structure IsLongest (live : List (Shape Reading)) (text : List Char) (reading : Reading)
    (length : Nat) : Prop where
  length_le : length ≤ text.length
  accepted : Accepts live reading (text.take length)
  longest : forall other more, length < more -> more ≤ text.length ->
    ¬ Accepts live other (text.take more)

theorem IsLongest.cons (longest : IsLongest (live.filterMap (after? c)) rest reading length) :
    IsLongest live (c :: rest) reading (length + 1) := by
  refine ⟨Nat.succ_le_succ longest.length_le,
    accepts_filterMap_after?_iff.mp longest.accepted, fun other more beyond inside => ?_⟩
  cases more with
  | zero => exact absurd beyond (Nat.not_lt_zero _)
  | succ more =>
    intro accepts
    exact longest.longest other more (Nat.lt_of_succ_lt_succ beyond)
      (Nat.le_of_succ_le_succ inside) (accepts_filterMap_after?_iff.mpr accepts)

/-- No beginning of a text with at least one character is accepted. -/
def NothingFurther (live : List (Shape Reading)) (text : List Char) : Prop :=
  forall other more, 0 < more -> more ≤ text.length -> ¬ Accepts live other (text.take more)

theorem nothingFurther_nil : NothingFurther live [] := by
  intro other more positive inside
  exact absurd positive (Nat.not_lt_of_ge inside)

theorem nothingFurther_cons
    (nothing : forall other more, more ≤ rest.length ->
      ¬ Accepts (live.filterMap (after? c)) other (rest.take more)) :
    NothingFurther live (c :: rest) := by
  intro other more positive inside accepts
  cases more with
  | zero => exact absurd positive (Nat.lt_irrefl 0)
  | succ more =>
    exact nothing other more (Nat.le_of_succ_le_succ inside)
      (accepts_filterMap_after?_iff.mpr accepts)

/-- Where nothing goes further, the empty beginning is the longest or nothing is accepted. -/
theorem accepted?_longest (nothing : NothingFurther live text) :
    match (accepted? live).map (·, 0) with
    | some (reading, length) => IsLongest live text reading length
    | none => forall other more, more ≤ text.length -> ¬ Accepts live other (text.take more) := by
  cases found : accepted? live with
  | some reading =>
    exact ⟨Nat.zero_le _, accepts_of_accepted? found, fun other more => nothing other more⟩
  | none =>
    intro other more inside
    cases more with
    | zero => exact not_accepts_of_accepted? found
    | succ more => exact nothing other _ (Nat.succ_pos more) inside

/-- Reading finds the longest accepted beginning, or there is no accepted beginning. -/
theorem longest?_spec (live : List (Shape Reading)) (text : List Char) :
    match longest? live text with
    | some (reading, length) => IsLongest live text reading length
    | none => forall other more, more ≤ text.length -> ¬ Accepts live other (text.take more) := by
  induction text generalizing live with
  | nil => exact accepted?_longest nothingFurther_nil
  | cons c rest inductionHypothesis =>
    have further := inductionHypothesis (live.filterMap (after? c))
    rw [longest?]
    by_cases empty : (live.filterMap (after? c)).isEmpty = true
    · simp only [empty, if_true]
      refine accepted?_longest (nothingFurther_cons fun other more _ => ?_)
      rw [List.isEmpty_iff.mp empty]
      exact not_accepts_nil
    · simp only [empty]
      cases found : longest? (live.filterMap (after? c)) rest with
      | some answer =>
        rw [found] at further
        exact IsLongest.cons further
      | none =>
        rw [found] at further
        exact accepted?_longest (nothingFurther_cons further)

/-! ## What is read of a longest beginning -/

/-- What the first of some shapes says whose language a whole text is in. -/
def reading? (live : List (Shape Reading)) (text : List Char) : Option Reading :=
  (live.find? fun shape => shape.pattern.accepts text).map Shape.reading

theorem accepts_of_reading? (found : reading? live text = some reading) :
    Accepts live reading text := by
  rcases Option.map_eq_some_iff.mp found with ⟨shape, first, rfl⟩
  exact ⟨shape, List.mem_of_find?_eq_some first, rfl,
    Pattern.accepts_iff.mp (by simpa using List.find?_some first)⟩

theorem reading?_eq_none_iff :
    reading? live text = none <-> forall reading, ¬ Accepts live reading text := by
  constructor
  · rintro missing reading ⟨shape, member, -, matched⟩
    have none_accepts := List.find?_eq_none.mp (Option.map_eq_none_iff.mp missing) shape member
    exact none_accepts (Pattern.accepts_iff.mpr matched)
  · intro nothing
    cases found : reading? live text with
    | none => rfl
    | some reading => exact absurd (accepts_of_reading? found) (nothing reading)

theorem reading?_filterMap_after? :
    reading? (live.filterMap (after? c)) rest = reading? live (c :: rest) := by
  induction live with
  | nil => rfl
  | cons shape live inductionHypothesis =>
    have accepts : shape.pattern.accepts (c :: rest) = (shape.pattern.after c).accepts rest := rfl
    by_cases dead : (shape.pattern.after c).isVoid = true
    · have missing : shape.after? c = none := by simp only [after?, dead, if_true]
      have rejects : shape.pattern.accepts (c :: rest) = false := by
        rw [accepts, Bool.eq_false_iff, ne_eq, Pattern.accepts_iff]
        exact not_matches_of_isVoid dead
      rw [List.filterMap_cons_none missing, inductionHypothesis, reading?, reading?,
        List.find?_cons, rejects]
    · have goes : shape.after? c = some ⟨shape.reading, shape.pattern.after c⟩ :=
        after?_eq_some_iff.mpr ⟨Bool.eq_false_iff.mpr dead, rfl⟩
      rw [List.filterMap_cons_some goes]
      unfold reading? at inductionHypothesis ⊢
      rw [List.find?_cons, List.find?_cons, accepts]
      cases (shape.pattern.after c).accepts rest with
      | true => rfl
      | false => exact inductionHypothesis

theorem reading?_of_accepted? (found : (accepted? live).map (·, 0) = some (reading, length)) :
    reading? live (text.take length) = some reading := by
  rcases Option.map_eq_some_iff.mp found with ⟨other, accepted, same⟩
  cases same
  exact accepted

/-- What is found of a beginning is what the beginning is read as. -/
theorem reading?_of_longest? (found : longest? live text = some (reading, length)) :
    reading? live (text.take length) = some reading := by
  induction text generalizing live length with
  | nil => exact reading?_of_accepted? found
  | cons c rest inductionHypothesis =>
    rw [longest?] at found
    by_cases empty : (live.filterMap (after? c)).isEmpty = true
    · simp only [empty, if_true] at found
      exact reading?_of_accepted? found
    · simp only [empty] at found
      cases further : longest? (live.filterMap (after? c)) rest with
      | none =>
        rw [further] at found
        exact reading?_of_accepted? found
      | some answer =>
        rw [further] at found
        cases found
        rw [List.take_succ_cons, ← reading?_filterMap_after?]
        exact inductionHypothesis further

/-- What is found is the longest beginning that is read at all, with what it is read as. -/
theorem longest?_eq_some_iff :
    longest? live text = some (reading, length) <->
      length ≤ text.length ∧ reading? live (text.take length) = some reading ∧
        forall more, length < more -> more ≤ text.length ->
          reading? live (text.take more) = none := by
  have spec := longest?_spec live text
  constructor
  · intro found
    rw [found] at spec
    exact ⟨spec.length_le, reading?_of_longest? found, fun more beyond inside =>
      reading?_eq_none_iff.mpr fun other => spec.longest other more beyond inside⟩
  · rintro ⟨inside, reads, longest⟩
    have accepts := accepts_of_reading? reads
    cases found : longest? live text with
    | none =>
      rw [found] at spec
      exact absurd accepts (spec reading length inside)
    | some answer =>
      rcases answer with ⟨other, size⟩
      rw [found] at spec
      have again := reading?_of_longest? found
      have same : size = length := by
        rcases Nat.lt_trichotomy size length with before | same | beyond
        · exact absurd accepts (spec.longest reading length before inside)
        · exact same
        · rw [longest size beyond spec.length_le] at again
          cases again
      subst same
      rw [Option.some.inj (again.symm.trans reads)]

theorem longest?_eq_none_iff :
    longest? live text = none <->
      forall length, length ≤ text.length -> reading? live (text.take length) = none := by
  have spec := longest?_spec live text
  constructor
  · intro missing length inside
    rw [missing] at spec
    exact reading?_eq_none_iff.mpr fun reading => spec reading length inside
  · intro nothing
    cases found : longest? live text with
    | none => rfl
    | some answer =>
      rcases answer with ⟨reading, length⟩
      rcases longest?_eq_some_iff.mp found with ⟨inside, reads, -⟩
      rw [nothing length inside] at reads
      cases reads

/-- A longest beginning is longest in itself, and is read alike. -/
theorem longest?_take (found : longest? live text = some (reading, length)) :
    longest? live (text.take length) = some (reading, length) := by
  rcases longest?_eq_some_iff.mp found with ⟨inside, reads, -⟩
  have size : (text.take length).length = length :=
    (List.length_take ..).trans (Nat.min_eq_left inside)
  refine longest?_eq_some_iff.mpr ⟨Nat.le_of_eq size.symm, ?_, fun more beyond within => ?_⟩
  · rw [List.take_take, Nat.min_self]
    exact reads
  · rw [size] at within
    exact absurd beyond (Nat.not_lt_of_ge within)

end Shape
end Packrat
