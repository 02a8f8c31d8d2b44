import Mathlib.Data.List.Basic
import Packrat.Source.Lines

namespace Packrat
namespace Source

/-!
# Lines and columns of a place

The line of a place is the number of line breaks before it, and its column is the number of
characters behind the last of them.  Both are told by the text before the place, as long as the
place does not lie between a carriage return and its line feed.
-/

variable {text first rest front back : List Char} {c : Char} {offset start : Nat}

/-! ## The starts of lines -/

theorem getLast?_cons_of_some {α : Type} {rest : List α} {c : α} (last : rest.getLast? = some c)
    (d : α) : (d :: rest).getLast? = some c := by
  rw [List.getLast?_cons, last]
  rfl

/-- The line breaks of a text are those of its parts, unless the boundary divides a pair. -/
theorem startsAfterBreaks_append (whole : first.getLast? = some '\r' -> rest.head? ≠ some '\n')
    (offset : Nat) :
    startsAfterBreaks offset (first ++ rest) =
      startsAfterBreaks offset first ++ startsAfterBreaks (offset + byteLength first) rest := by
  fun_induction startsAfterBreaks offset first with
  | case1 => rfl
  | case2 offset more inductionHypothesis =>
    have later := inductionHypothesis fun last =>
      whole (getLast?_cons_of_some (getLast?_cons_of_some last '\n') '\r')
    have size : offset + byteLength ('\r' :: '\n' :: more) = offset + 2 + byteLength more :=
      (Nat.add_assoc offset 2 _).symm ▸ congrArg (offset + ·) (Nat.add_assoc 1 1 _).symm
    rw [List.cons_append, List.cons_append, startsAfterBreaks, later, size]
    rfl
  | case3 offset more single inductionHypothesis =>
    have later := inductionHypothesis fun last => whole (getLast?_cons_of_some last '\r')
    have size : offset + byteLength ('\r' :: more) = offset + 1 + byteLength more :=
      (Nat.add_assoc offset 1 _).symm
    rw [List.cons_append, startsAfterBreaks, later, size]
    · rfl
    · intro others same
      cases more with
      | nil =>
        have same : rest = '\n' :: others := same
        exact whole rfl (by rw [same]; rfl)
      | cons d more => exact single more (by rw [(List.cons.inj same).1])
  | case4 offset more inductionHypothesis =>
    have later := inductionHypothesis fun last => whole (getLast?_cons_of_some last '\n')
    have size : offset + byteLength ('\n' :: more) = offset + 1 + byteLength more :=
      (Nat.add_assoc offset 1 _).symm
    rw [List.cons_append, startsAfterBreaks, later, size]
    rfl
  | case5 offset c more notPair notReturn notFeed inductionHypothesis =>
    have later := inductionHypothesis fun last => whole (getLast?_cons_of_some last c)
    rw [List.cons_append, startsAfterBreaks, later, byteLength_cons, Nat.add_assoc]
    · exact fun others same => absurd same notReturn
    · exact notReturn
    · exact notFeed

/-- A line begins behind the offset, and not behind the end of the text. -/
theorem mem_startsAfterBreaks (member : start ∈ startsAfterBreaks offset text) :
    offset < start ∧ start ≤ offset + byteLength text := by
  fun_induction startsAfterBreaks offset text with
  | case1 => cases member
  | case2 offset rest inductionHypothesis =>
    have size : byteLength ('\r' :: '\n' :: rest) = 1 + (1 + byteLength rest) := rfl
    rcases List.mem_cons.mp member with rfl | later
    · omega
    · have bounds := inductionHypothesis later
      omega
  | case3 offset rest _ inductionHypothesis =>
    have size : byteLength ('\r' :: rest) = 1 + byteLength rest := rfl
    rcases List.mem_cons.mp member with rfl | later
    · omega
    · have bounds := inductionHypothesis later
      omega
  | case4 offset rest inductionHypothesis =>
    have size : byteLength ('\n' :: rest) = 1 + byteLength rest := rfl
    rcases List.mem_cons.mp member with rfl | later
    · omega
    · have bounds := inductionHypothesis later
      omega
  | case5 offset c rest _ _ _ inductionHypothesis =>
    have bounds := inductionHypothesis member
    rw [byteLength_cons]
    omega

theorem startsAfterBreaks_eq_nil (plain : forall c, c ∈ text -> c ≠ '\n' ∧ c ≠ '\r')
    (offset : Nat) : startsAfterBreaks offset text = [] := by
  induction text generalizing offset with
  | nil => rfl
  | cons c rest inductionHypothesis =>
    rcases plain c List.mem_cons_self with ⟨notFeed, notReturn⟩
    rw [startsAfterBreaks]
    · exact inductionHypothesis (fun d member => plain d (List.mem_cons_of_mem c member)) _
    · exact fun others same => absurd same notReturn
    · exact notReturn
    · exact notFeed

theorem getLast?_startsAfterBreaks
    (breaks : text.getLast? = some '\n' ∨ text.getLast? = some '\r') (offset : Nat) :
    (startsAfterBreaks offset text).getLast? = some (offset + byteLength text) := by
  have divided : Exists fun front => Exists fun last => text = front ++ [last] ∧
      (last = '\n' ∨ last = '\r') := by
    rcases breaks with last | last <;> rcases List.getLast?_eq_some_iff.mp last with ⟨front, rfl⟩
    · exact ⟨front, '\n', rfl, Or.inl rfl⟩
    · exact ⟨front, '\r', rfl, Or.inr rfl⟩
  rcases divided with ⟨front, last, rfl, known⟩
  by_cases paired : front.getLast? = some '\r' ∧ last = '\n'
  · -- The pair of characters is one line break.
    rcases paired with ⟨returns, rfl⟩
    rcases List.getLast?_eq_some_iff.mp returns with ⟨first, rfl⟩
    have ends : startsAfterBreaks (offset + byteLength first) ['\r', '\n'] =
        [offset + byteLength first + 2] := rfl
    rw [List.append_assoc, List.singleton_append, startsAfterBreaks_append (by simp), ends,
      List.getLast?_concat, byteLength_append, Nat.add_assoc]
    rfl
  · have whole : front.getLast? = some '\r' -> [last].head? ≠ some '\n' :=
      fun returns feed => paired ⟨returns, Option.some.inj feed⟩
    have ends : startsAfterBreaks (offset + byteLength front) [last] =
        [offset + byteLength front + byteLength [last]] := by
      rcases known with rfl | rfl <;> rfl
    rw [startsAfterBreaks_append whole, ends, List.getLast?_concat, byteLength_append,
      Nat.add_assoc]

/-! ## Positions -/

theorem charsBefore?_append (first rest : List Char) :
    charsBefore? (first ++ rest) (byteLength first) = some first.length := by
  induction first with
  | nil => cases rest <;> rfl
  | cons c first inductionHypothesis =>
    have positive := c.utf8Size_pos
    rw [List.cons_append, byteLength_cons, charsBefore?]
    · rw [if_pos (Nat.le_add_right _ _), Nat.add_sub_cancel_left, inductionHypothesis]
      rfl
    · omega

/-- A place behind some characters of a line, which begins with the text or behind a line feed. -/
structure OnLine (front rest : List Char) : Prop where
  begins : front = [] ∨ front.getLast? = some '\n'
  plain : forall c, c ∈ rest -> c ≠ '\n' ∧ c ≠ '\r'

namespace OnLine

theorem front_ne_return (place : OnLine front rest) : front.getLast? ≠ some '\r' := by
  rcases place.begins with rfl | feed
  · nofun
  · rw [feed]
    decide

theorem ne_return (place : OnLine front rest) : (front ++ rest).getLast? ≠ some '\r' := by
  intro last
  by_cases empty : rest = []
  · rw [empty, List.append_nil] at last
    exact place.front_ne_return last
  · rw [List.getLast?_append_of_ne_nil _ empty] at last
    exact (place.plain _ (List.mem_of_getLast? last)).2 rfl

/-- The lines that begin up to the place, and those that begin behind it. -/
theorem startsAfterBreaks_eq (place : OnLine front rest) (back : List Char) :
    startsAfterBreaks 0 (front ++ rest ++ back) = startsAfterBreaks 0 front ++
      startsAfterBreaks (byteLength (front ++ rest)) back := by
  rw [startsAfterBreaks_append (fun last => absurd last place.ne_return),
    startsAfterBreaks_append (fun last => absurd last place.front_ne_return),
    startsAfterBreaks_eq_nil place.plain, List.append_nil, Nat.zero_add]

theorem lineOf_eq (place : OnLine front rest) (back : List Char) :
    (Lines.ofText (front ++ rest ++ back)).lineOf (byteLength (front ++ rest)) =
      (startsAfterBreaks 0 front).length := by
  have before : (startsAfterBreaks 0 front).countP (· ≤ byteLength (front ++ rest)) =
      (startsAfterBreaks 0 front).length := by
    refine List.countP_eq_length.mpr fun start member => decide_eq_true ?_
    rw [byteLength_append]
    have bound := (mem_startsAfterBreaks member).2
    omega
  have behind : (startsAfterBreaks (byteLength (front ++ rest)) back).countP
      (· ≤ byteLength (front ++ rest)) = 0 := by
    refine List.countP_eq_zero.mpr fun start member within => ?_
    exact absurd (of_decide_eq_true within) (Nat.not_le_of_lt (mem_startsAfterBreaks member).1)
  rw [Lines.lineOf, Lines.ofText, place.startsAfterBreaks_eq,
    List.countP_cons_of_pos (by simp), List.countP_append, before, behind]
  rfl

theorem start?_eq (place : OnLine front rest) (back : List Char) :
    (Lines.ofText (front ++ rest ++ back)).start? (startsAfterBreaks 0 front).length =
      some (byteLength front) := by
  rw [Lines.start?, Lines.ofText, place.startsAfterBreaks_eq]
  rcases place.begins with rfl | feed
  · rfl
  · have last := getLast?_startsAfterBreaks (Or.inl feed) 0
    rw [Nat.zero_add] at last
    cases lines : startsAfterBreaks 0 front with
    | nil =>
      rw [lines] at last
      cases last
    | cons first others =>
      rw [lines, List.getLast?_eq_getElem?] at last
      rw [List.length_cons, List.getElem?_cons_succ, List.getElem?_append_left (by simp)]
      exact last

theorem column_eq (front rest back : List Char) :
    (Lines.ofText (front ++ rest ++ back)).column (byteLength front)
      (byteLength (front ++ rest)) = rest.length := by
  have first : charsBefore? (front ++ rest ++ back) (byteLength front) = some front.length := by
    rw [List.append_assoc, charsBefore?_append]
  have last := charsBefore?_append (front ++ rest) back
  simp only [Lines.column, Lines.ofText, first, last, List.length_append]
  exact Nat.add_sub_cancel_left _ _

/-- The line of a place is told by the text before its line, the column by the text on it. -/
theorem position_eq (place : OnLine front rest) (back : List Char) :
    (Lines.ofText (front ++ rest ++ back)).position (byteLength (front ++ rest)) =
      ⟨byteLength (front ++ rest), (startsAfterBreaks 0 front).length, rest.length⟩ := by
  rw [Lines.position, place.lineOf_eq, place.start?_eq, Option.getD_some, column_eq]

end OnLine

/-- A text is divided behind its last line feed. -/
theorem exists_lastLine (text : List Char) :
    Exists fun front => Exists fun rest => text = front ++ rest ∧
      (front = [] ∨ front.getLast? = some '\n') ∧ '\n' ∉ rest := by
  induction text with
  | nil => exact ⟨[], [], rfl, Or.inl rfl, List.not_mem_nil⟩
  | cons c text inductionHypothesis =>
    rcases inductionHypothesis with ⟨front, rest, rfl, rfl | feed, plain⟩
    · by_cases feed : c = '\n'
      · subst feed
        exact ⟨['\n'], rest, rfl, Or.inr rfl, plain⟩
      · refine ⟨[], c :: rest, rfl, Or.inl rfl, ?_⟩
        rw [List.mem_cons, not_or]
        exact ⟨Ne.symm feed, plain⟩
    · exact ⟨c :: front, rest, rfl, Or.inr (getLast?_cons_of_some feed c), plain⟩

end Source
end Packrat
