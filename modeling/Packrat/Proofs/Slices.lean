import Packrat.Proofs.Places

namespace Packrat
namespace Source

/-!
# Slices of a text

An offset counts bytes, and a text can only be cut between two characters.  So a slice from one
offset to another exists exactly when both are boundaries of the text and in order.  The bytes
before a boundary tell which characters are before it.
-/

variable {text first second rest between : List Char} {start stop offset count : Nat}

/-- An offset lies between two characters of a text or at one of its ends.  Only at such offsets a
text can be cut. -/
def IsBoundary (text : List Char) (offset : Nat) : Prop :=
  Exists fun before => Exists fun after => text = before ++ after ∧ byteLength before = offset

/-- The difference of two offsets, if it is not negative. -/
def minus? (first second : Nat) : Option Nat :=
  if second ≤ first then some (first - second) else none

/-- The text from an offset on, if it can be cut there. -/
def textFrom? (text : List Char) (offset : Nat) : Option (List Char) :=
  (charsBefore? text offset).map text.drop

/-- The text from one offset to another, if it can be cut at both. -/
def slice? (text : List Char) (start stop : Nat) : Option (List Char) :=
  if start ≤ stop then
    (textFrom? text start).bind fun rest => (charsBefore? rest (stop - start)).map rest.take
  else none

/-! ## Characters before an offset -/

theorem charsBefore?_eq_some_iff : charsBefore? text offset = some count <->
    Exists fun before => Exists fun after => text = before ++ after ∧
      byteLength before = offset ∧ before.length = count := by
  constructor
  · intro counted
    fun_induction charsBefore? text offset generalizing count with
    | case1 text =>
      cases counted
      exact ⟨[], text, rfl, rfl, rfl⟩
    | case2 => cases counted
    | case3 c rest offset _ inside inductionHypothesis =>
      rcases Option.map_eq_some_iff.mp counted with ⟨fewer, found, rfl⟩
      rcases inductionHypothesis found with ⟨before, after, rfl, size, rfl⟩
      exact ⟨c :: before, after, rfl, by rw [byteLength_cons]; omega, rfl⟩
    | case4 => cases counted
  · rintro ⟨before, after, rfl, rfl, rfl⟩
    exact charsBefore?_append before after

/-- What is before a boundary is told by the bytes before it. -/
theorem eq_of_byteLength {after after' : List Char} (whole : first ++ after = second ++ after')
    (same : byteLength first = byteLength second) : first = second := by
  have counted := charsBefore?_append first after
  rw [whole, same, charsBefore?_append] at counted
  exact (List.append_inj whole (Option.some.inj counted).symm).1

theorem length_lt_of_byteLength {after after' : List Char}
    (whole : first ++ after = second ++ after') (fewer : byteLength first < byteLength second) :
    first.length < second.length := by
  by_contra covers
  have part : second <+: first := by
    refine List.prefix_of_prefix_length_le (List.prefix_append second after') ?_
      (Nat.le_of_not_lt covers)
    rw [← whole]
    exact List.prefix_append first after
  rcases part with ⟨more, rfl⟩
  rw [byteLength_append] at fewer
  omega

theorem isBoundary_iff : IsBoundary text offset <->
    Exists fun count => charsBefore? text offset = some count := by
  simp only [charsBefore?_eq_some_iff, IsBoundary]
  constructor
  · rintro ⟨before, after, whole, size⟩
    exact ⟨before.length, before, after, whole, size, rfl⟩
  · rintro ⟨count, before, after, whole, size, -⟩
    exact ⟨before, after, whole, size⟩

theorem charsBefore?_eq_none_iff :
    charsBefore? text offset = none <-> ¬ IsBoundary text offset := by
  rw [isBoundary_iff, ← Option.isSome_iff_exists, Option.not_isSome_iff_eq_none]

/-! ## Cutting -/

theorem textFrom?_eq_some_iff : textFrom? text offset = some rest <->
    Exists fun before => text = before ++ rest ∧ byteLength before = offset := by
  rw [textFrom?, Option.map_eq_some_iff]
  constructor
  · rintro ⟨count, counted, rfl⟩
    rcases charsBefore?_eq_some_iff.mp counted with ⟨before, after, rfl, size, rfl⟩
    exact ⟨before, by rw [List.drop_left], size⟩
  · rintro ⟨before, rfl, rfl⟩
    exact ⟨before.length, charsBefore?_append before rest, List.drop_left⟩

theorem textFrom?_append (before rest : List Char) :
    textFrom? (before ++ rest) (byteLength before) = some rest :=
  textFrom?_eq_some_iff.mpr ⟨before, rfl, rfl⟩

theorem slice?_eq_some_iff : slice? text start stop = some between <->
    Exists fun before => Exists fun after => text = before ++ between ++ after ∧
      byteLength before = start ∧ byteLength (before ++ between) = stop := by
  unfold slice?
  constructor
  · intro found
    split at found
    · rename_i ordered
      rcases Option.bind_eq_some_iff.mp found with ⟨rest, cut, taken⟩
      rcases Option.map_eq_some_iff.mp taken with ⟨count, counted, rfl⟩
      rcases textFrom?_eq_some_iff.mp cut with ⟨before, rfl, rfl⟩
      rcases charsBefore?_eq_some_iff.mp counted with ⟨between, after, rfl, size, rfl⟩
      refine ⟨before, after, ?_, rfl, ?_⟩
      · rw [List.take_left, List.append_assoc]
      · rw [List.take_left, byteLength_append]
        omega
    · cases found
  · rintro ⟨before, after, rfl, rfl, rfl⟩
    rw [List.append_assoc, textFrom?_append, byteLength_append, if_pos (Nat.le_add_right _ _),
      Nat.add_sub_cancel_left, Option.bind_some, charsBefore?_append, Option.map_some,
      List.take_left]

theorem length_lt_of_slice {further : List Char} {far : Nat}
    (sliced : slice? text start stop = some between)
    (sliced' : slice? text start far = some further) (ordered : stop < far) :
    between.length < further.length := by
  rcases slice?_eq_some_iff.mp sliced with ⟨before, after, rfl, rfl, rfl⟩
  rcases slice?_eq_some_iff.mp sliced' with ⟨front, back, whole, first, rfl⟩
  have longer := length_lt_of_byteLength whole ordered
  rw [List.append_assoc, List.append_assoc] at whole
  have same : before = front := eq_of_byteLength whole first.symm
  rw [same, List.length_append, List.length_append] at longer
  omega

/-- Between two boundaries in order there is a slice. -/
theorem exists_slice (starts : IsBoundary text start) (stops : IsBoundary text stop)
    (ordered : start ≤ stop) : Exists fun between => slice? text start stop = some between := by
  rcases starts with ⟨before, after, rfl, rfl⟩
  rcases stops with ⟨front, back, whole, rfl⟩
  rcases List.append_eq_append_iff.mp whole with ⟨between, rfl, rfl⟩ | ⟨more, rfl, rfl⟩
  · exact ⟨between, slice?_eq_some_iff.mpr ⟨before, back, by rw [List.append_assoc], rfl, rfl⟩⟩
  · -- The second boundary is not before the first one, so nothing lies between them.
    have size := byteLength_append front more
    have same : front ++ more = front := eq_of_byteLength whole (by omega)
    refine ⟨[], slice?_eq_some_iff.mpr ⟨front, more ++ after, ?_, by rw [same], ?_⟩⟩
    · rw [List.append_nil, List.append_assoc]
    · rw [List.append_nil]

end Source
end Packrat
