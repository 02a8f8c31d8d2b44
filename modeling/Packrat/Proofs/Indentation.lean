import Mathlib.Data.List.Dedup
import Packrat.Proofs.Conservation

namespace Packrat
namespace Offside

/-!
# The off-side rule without levels

Which events a line has can be told from the widths of the lines before it.  A width is open as long
as no later line is narrower.  A line that is wider than the one before it opens its own width; any
other line closes the wider ones, and then its own width must be open.

The levels hold exactly the open widths.  So a mapper that has been used before, with or without
success, goes on as if the widths of its levels were those of earlier lines.
-/

/-! ## Open widths -/

/-- A width is open after lines of some widths when it is the width of one of them and no later one
is narrower. -/
def IsOpen (history : List Nat) (width : Nat) : Prop :=
  Exists fun front => Exists fun back => history = front ++ width :: back ∧
    forall later, later ∈ back -> width ≤ later

variable {history widths : List Nat} {first last width bound : Nat}

theorem not_isOpen_nil : ¬ IsOpen [] width := by
  rintro ⟨front, back, impossible, -⟩
  exact absurd impossible.symm (List.append_ne_nil_of_right_ne_nil _ (List.cons_ne_nil _ _))

theorem isOpen_cons_iff :
    IsOpen (first :: history) width <->
      (width = first ∧ forall later, later ∈ history -> width ≤ later) ∨ IsOpen history width := by
  constructor
  · rintro ⟨front, back, split, least⟩
    rcases List.cons_eq_append_iff.mp split with ⟨-, here⟩ | ⟨rest, -, rfl⟩
    · cases here
      exact Or.inl ⟨rfl, least⟩
    · exact Or.inr ⟨rest, back, rfl, least⟩
  · rintro (⟨rfl, least⟩ | ⟨front, back, rfl, least⟩)
    · exact ⟨[], history, rfl, least⟩
    · exact ⟨first :: front, back, rfl, least⟩

/-- One more line opens its own width and closes the wider ones. -/
theorem isOpen_snoc_iff :
    IsOpen (history ++ [last]) width <-> IsOpen history width ∧ width ≤ last ∨ width = last := by
  induction history with
  | nil => simp [isOpen_cons_iff, not_isOpen_nil]
  | cons first history inductionHypothesis =>
    rw [List.cons_append, isOpen_cons_iff, isOpen_cons_iff, inductionHypothesis]
    simp only [List.mem_append, List.mem_singleton]
    grind

instance decidableIsOpen (width : Nat) : (history : List Nat) -> Decidable (IsOpen history width)
  | [] => isFalse not_isOpen_nil
  | first :: history =>
    have := decidableIsOpen width history
    decidable_of_iff ((width = first ∧ forall later, later ∈ history -> width ≤ later) ∨
      IsOpen history width) isOpen_cons_iff.symm

/-- The number of different widths above a bound that are open. -/
def openAbove (history : List Nat) (bound : Nat) : Nat :=
  (history.dedup.filter fun width => bound < width ∧ IsOpen history width).length

/-- The events of a line after lines of some widths. -/
def events (history : List Nat) (width : Nat) : List Token.Kind :=
  if history.getLastD 0 < width then [.indent]
  else List.replicate (openAbove history width) .dedent

/-- A line does not fit when it is narrower than the line before it and its width is not open: no
earlier line had this width with every line between them at least as wide. -/
def Misfits (history : List Nat) (width : Nat) : Prop :=
  width < history.getLastD 0 ∧ ¬ IsOpen history width

theorem mem_of_isOpen (opened : IsOpen history width) : width ∈ history := by
  rcases opened with ⟨front, back, rfl, -⟩
  exact List.mem_append_right _ List.mem_cons_self

/-- Any list of the open widths above a bound has their number. -/
theorem openAbove_eq (distinct : widths.Nodup)
    (above : forall width, width ∈ widths <-> bound < width ∧ IsOpen history width) :
    openAbove history bound = widths.length := by
  refine List.Perm.length_eq ((List.perm_ext_iff_of_nodup ?_ distinct).mpr fun width => ?_)
  · exact (List.nodup_dedup history).filter _
  · rw [above, List.mem_filter, List.mem_dedup, decide_eq_true_iff]
    exact and_iff_right_of_imp fun wider => mem_of_isOpen wider.2

/-! ## Levels -/

/-- The widths of the open levels from the outermost one on, which is at column zero. -/
def opened (levels : Offside) : List Nat :=
  0 :: levels.widths.reverse

variable {levels : Offside}

/-- The innermost level is the last one that is open. -/
theorem exists_opened_eq (levels : Offside) :
    Exists fun front => levels.opened = front ++ [levels.current] := by
  rcases levels with ⟨_ | ⟨innermost, outer⟩⟩
  · exact ⟨[], rfl⟩
  · exact ⟨0 :: outer.reverse, by simp [opened, current]⟩

theorem getLastD_opened (levels : Offside) : levels.opened.getLastD 0 = levels.current := by
  rcases levels.exists_opened_eq with ⟨front, split⟩
  rw [split, List.getLastD_eq_getLast?, List.getLast?_concat, Option.getD_some]

theorem current_mem_opened (levels : Offside) : levels.current ∈ levels.opened := by
  rcases levels.exists_opened_eq with ⟨front, split⟩
  rw [split]
  exact List.mem_append_right _ (List.mem_singleton_self _)

theorem mem_opened_iff : width ∈ levels.opened <-> width = 0 ∨ width ∈ levels.widths := by
  rw [opened, List.mem_cons, List.mem_reverse]

/-- From column zero on the open levels get strictly wider. -/
def Ascending (levels : Offside) : Prop :=
  levels.opened.Pairwise (· < ·)

namespace Ascending

theorem descending (ascending : levels.Ascending) : levels.widths.Pairwise (· > ·) :=
  List.pairwise_reverse.mp (List.pairwise_cons.mp ascending).2

theorem le_current (ascending : levels.Ascending) (isOpen : width ∈ levels.opened) :
    width ≤ levels.current := by
  rcases levels.exists_opened_eq with ⟨front, split⟩
  rw [Ascending, split] at ascending
  rw [split] at isOpen
  rcases List.mem_append.mp isOpen with outer | innermost
  · exact Nat.le_of_lt ((List.pairwise_append.mp ascending).2.2 width outer _
      (List.mem_singleton_self _))
  · exact Nat.le_of_eq (List.mem_singleton.mp innermost)

end Ascending

theorem takeWhile_dropWhile_eq (descending : widths.Pairwise (· > ·)) (bound : Nat) :
    widths.takeWhile (bound < ·) = widths.filter (bound < ·) ∧
      widths.dropWhile (bound < ·) = widths.filter (· ≤ bound) := by
  induction widths with
  | nil => exact ⟨rfl, rfl⟩
  | cons width widths inductionHypothesis =>
    rcases List.pairwise_cons.mp descending with ⟨widest, descending⟩
    by_cases wider : bound < width
    · rcases inductionHypothesis descending with ⟨taken, dropped⟩
      simp only [List.takeWhile_cons, List.dropWhile_cons, List.filter_cons, wider, decide_true,
        if_true, Nat.not_le_of_lt wider, decide_false, Bool.false_eq_true, if_false, taken, dropped,
        and_self]
    · have below : forall other, other ∈ width :: widths -> other ≤ bound := by
        intro other member
        rcases List.mem_cons.mp member with rfl | member
        · exact Nat.le_of_not_lt wider
        · have := widest other member
          omega
      have none : (width :: widths).filter (bound < ·) = [] := by
        refine List.filter_eq_nil_iff.mpr fun other member => ?_
        simpa using below other member
      have all : (width :: widths).filter (· ≤ bound) = width :: widths := by
        refine List.filter_eq_self.mpr fun other member => ?_
        exact decide_eq_true (below other member)
      rw [none, all]
      simp only [List.takeWhile_cons, List.dropWhile_cons, wider, decide_false, Bool.false_eq_true,
        if_false, and_self]

/-! ## Entering a line -/

theorem opened_enter_of_lt (deeper : levels.current < width) :
    (levels.enter width).2.opened = levels.opened ++ [width] := by
  rw [enter, if_pos deeper]
  simp only [opened, List.reverse_cons, List.cons_append]

theorem opened_enter_of_le (ascending : levels.Ascending) (outward : width ≤ levels.current) :
    (levels.enter width).2.opened = levels.opened.filter (· ≤ width) := by
  rw [enter, if_neg (Nat.not_lt_of_le outward)]
  simp only [opened, (takeWhile_dropWhile_eq ascending.descending width).2, List.filter_cons,
    Nat.zero_le, decide_true, if_true, List.filter_reverse]

/-- A line keeps the levels ascending, whether it fits or not. -/
theorem Ascending.enter (ascending : levels.Ascending) (width : Nat) :
    (levels.enter width).2.Ascending := by
  rw [Ascending]
  rcases Nat.lt_or_ge levels.current width with deeper | outward
  · rw [opened_enter_of_lt deeper]
    refine List.pairwise_append.mpr ⟨ascending, List.pairwise_singleton _ _, ?_⟩
    intro other isOpen last member
    cases List.mem_singleton.mp member
    exact Nat.lt_of_le_of_lt (ascending.le_current isOpen) deeper
  · rw [opened_enter_of_le ascending outward]
    exact ascending.filter _

/-- The levels hold the widths that are open after lines of some widths, the last of which is the
innermost level. -/
structure Holds (levels : Offside) (history : List Nat) : Prop where
  ascending : levels.Ascending
  current_eq : history.getLastD 0 = levels.current
  mem_iff : forall width, width ∈ levels.opened <-> IsOpen history width

namespace Holds

/-- The widths of the levels themselves are such a history. -/
theorem opened (ascending : levels.Ascending) : levels.Holds levels.opened := by
  refine ⟨ascending, levels.getLastD_opened, fun width => ⟨fun member => ?_, mem_of_isOpen⟩⟩
  rcases List.append_of_mem member with ⟨front, back, split⟩
  refine ⟨front, back, split, fun later member => ?_⟩
  rw [Ascending, split] at ascending
  exact Nat.le_of_lt
    ((List.pairwise_cons.mp (List.pairwise_append.mp ascending).2.1).1 later member)

/-- The events of a line are told by the history. -/
theorem enter_events (holds : levels.Holds history) (width : Nat) :
    (levels.enter width).1 = events history width := by
  rw [enter, events, holds.current_eq]
  split
  · rfl
  · have descending := holds.ascending.descending
    have count : openAbove history width = (levels.widths.filter (width < ·)).length := by
      refine openAbove_eq ((descending.imp Nat.ne_of_gt).filter _) fun other => ?_
      rw [← holds.mem_iff, mem_opened_iff, List.mem_filter, decide_eq_true_iff, and_comm]
      refine and_congr_right fun wider => ?_
      rw [or_iff_right (Nat.ne_of_gt (Nat.lt_of_le_of_lt (Nat.zero_le width) wider))]
    simp only [List.map_const', (takeWhile_dropWhile_eq descending width).1, count]

/-- A line is entered at its own width exactly when it fits. -/
theorem enter_fits_iff (holds : levels.Holds history) (width : Nat) :
    (levels.enter width).2.current = width <-> ¬ Misfits history width := by
  rw [Misfits, holds.current_eq, ← holds.mem_iff]
  have innermost := (levels.enter width).2.current_mem_opened
  rcases Nat.lt_or_ge levels.current width with deeper | outward
  · have fits : (levels.enter width).2.current = width := by rw [enter, if_pos deeper]; rfl
    exact iff_of_true fits fun misfits => Nat.lt_asymm deeper misfits.1
  · rw [opened_enter_of_le holds.ascending outward] at innermost
    rcases List.mem_filter.mp innermost with ⟨isOpen, bound⟩
    constructor
    · intro fits misfits
      exact misfits.2 (fits ▸ isOpen)
    · intro fits
      -- The innermost level that is left is at least as wide as any that is not wider.
      have isOpen' : width ∈ levels.opened := by
        by_contra closed
        rcases Nat.eq_or_lt_of_le outward with rfl | narrower
        · exact closed levels.current_mem_opened
        · exact fits ⟨narrower, closed⟩
      have kept : width ∈ (levels.enter width).2.opened := by
        rw [opened_enter_of_le holds.ascending outward]
        exact List.mem_filter.mpr ⟨isOpen', decide_eq_true (Nat.le_refl width)⟩
      exact Nat.le_antisymm (of_decide_eq_true bound)
        ((holds.ascending.enter width).le_current kept)

/-- After a line that fits the levels hold the open widths again. -/
theorem enter (holds : levels.Holds history) (fits : ¬ Misfits history width) :
    (levels.enter width).2.Holds (history ++ [width]) := by
  have entered := (holds.enter_fits_iff width).mpr fits
  refine ⟨holds.ascending.enter width, ?_, fun other => ?_⟩
  · rw [entered, List.getLastD_eq_getLast?, List.getLast?_concat, Option.getD_some]
  · rw [isOpen_snoc_iff, ← holds.mem_iff]
    rcases Nat.lt_or_ge levels.current width with deeper | outward
    · rw [opened_enter_of_lt deeper, List.mem_append, List.mem_singleton]
      refine or_congr_left (iff_self_and.mpr fun isOpen => ?_)
      exact Nat.le_of_lt (Nat.lt_of_le_of_lt (holds.ascending.le_current isOpen) deeper)
    · have innermost := (levels.enter width).2.current_mem_opened
      rw [entered] at innermost
      rw [opened_enter_of_le holds.ascending outward] at innermost ⊢
      rw [List.mem_filter, decide_eq_true_iff]
      refine iff_self_or.mpr ?_
      rintro rfl
      exact ⟨(List.mem_filter.mp innermost).1, Nat.le_refl _⟩

end Holds

/-! ## The lines of a text -/

/-- Some line does not fit after the lines before it, where lines of some widths came earlier. -/
def HasMisfit (history : List Nat) (logical : List Line) : Prop :=
  Exists fun front => Exists fun line => Exists fun back => logical = front ++ line :: back ∧
    Misfits (history ++ front.map Line.indent) line.indent

/-- The first line that does not fit. -/
def FirstMisfit (history : List Nat) (logical : List Line) (line : Line) : Prop :=
  Exists fun front => Exists fun back => logical = front ++ line :: back ∧
    Misfits (history ++ front.map Line.indent) line.indent ∧ ¬ HasMisfit history front

/-- The tokens of lines after lines of some widths, up to the end of the source: for each line its
events, its own tokens and its line break, and at the end what closes the open levels. -/
def tokensAfter (lines : Source.Lines) (stop : Nat) : List Nat -> List Line -> List Token
  | history, [] =>
    List.replicate (openAbove history 0) (.synthetic .dedent stop (lines.position stop)) ++
      [.synthetic .endOfFile stop (lines.position stop)]
  | history, line :: rest =>
    (events history line.indent).map
        (fun kind => .synthetic kind line.start (lines.position line.start)) ++
      line.tokens ++ line.newline.toList ++ tokensAfter lines stop (history ++ [line.indent]) rest

variable {lines : Source.Lines} {stop : Nat} {line : Line} {logical : List Line}

theorem not_hasMisfit_nil : ¬ HasMisfit history [] := by
  rintro ⟨front, line, back, impossible, -⟩
  exact absurd impossible.symm (List.append_ne_nil_of_right_ne_nil _ (List.cons_ne_nil _ _))

theorem hasMisfit_cons_iff :
    HasMisfit history (line :: logical) <->
      Misfits history line.indent ∨ HasMisfit (history ++ [line.indent]) logical := by
  constructor
  · rintro ⟨front, other, back, split, misfits⟩
    rcases List.cons_eq_append_iff.mp split with ⟨rfl, here⟩ | ⟨rest, rfl, rfl⟩
    · cases here
      exact Or.inl (List.append_nil history ▸ misfits)
    · rw [List.map_cons, List.append_cons] at misfits
      exact Or.inr ⟨rest, other, back, rfl, misfits⟩
  · rintro (here | ⟨front, other, back, rfl, misfits⟩)
    · exact ⟨[], line, logical, rfl, (List.append_nil history).symm ▸ here⟩
    · refine ⟨line :: front, other, back, rfl, ?_⟩
      rw [List.map_cons, List.append_cons]
      exact misfits

theorem FirstMisfit.here (misfits : Misfits history line.indent) (logical : List Line) :
    FirstMisfit history (line :: logical) line :=
  ⟨[], logical, rfl, (List.append_nil history).symm ▸ misfits, not_hasMisfit_nil⟩

theorem FirstMisfit.later {other : Line} (fits : ¬ Misfits history line.indent)
    (first : FirstMisfit (history ++ [line.indent]) logical other) :
    FirstMisfit history (line :: logical) other := by
  rcases first with ⟨front, back, rfl, misfits, none⟩
  refine ⟨line :: front, back, rfl, ?_, ?_⟩
  · rw [List.map_cons, List.append_cons]
    exact misfits
  · rw [hasMisfit_cons_iff]
    exact not_or.mpr ⟨fits, none⟩

/-- Reading lines fails at the first one that does not fit, and otherwise has the tokens that the
widths tell. -/
theorem Holds.tokens (holds : levels.Holds history) (lines : Source.Lines) (stop : Nat)
    (logical : List Line) :
    (¬ HasMisfit history logical ∧
        Offside.tokens lines stop levels logical =
          (.ok (tokensAfter lines stop history logical), {})) ∨
      Exists fun line => FirstMisfit history logical line ∧
        (Offside.tokens lines stop levels logical).1 =
          .error (.inconsistentDedent line.indent (lines.position line.start)) := by
  induction logical generalizing levels history with
  | nil =>
    have count : openAbove history 0 = levels.widths.length := by
      refine openAbove_eq (holds.ascending.descending.imp Nat.ne_of_gt) fun width => ?_
      have positive : width ∈ levels.widths -> 0 < width := fun member =>
        (List.pairwise_cons.mp holds.ascending).1 width (List.mem_reverse.mpr member)
      rw [← holds.mem_iff, mem_opened_iff]
      constructor
      · exact fun member => ⟨positive member, Or.inr member⟩
      · rintro ⟨wider, rfl | member⟩
        · exact absurd wider (Nat.lt_irrefl 0)
        · exact member
    refine Or.inl ⟨not_hasMisfit_nil, ?_⟩
    simp only [Offside.tokens, tokensAfter, count, List.map_const']
  | cons line logical inductionHypothesis =>
    rw [Offside.tokens]
    by_cases misfits : Misfits history line.indent
    · have entered := mt (holds.enter_fits_iff line.indent).mp (not_not_intro misfits)
      refine Or.inr ⟨line, .here misfits logical, ?_⟩
      simp only [entered, if_false]
    · have entered := (holds.enter_fits_iff line.indent).mpr misfits
      simp only [entered, if_true]
      rcases inductionHypothesis (holds.enter misfits) with ⟨none, read⟩ | ⟨other, first, failed⟩
      · refine Or.inl ⟨?_, ?_⟩
        · rw [hasMisfit_cons_iff]
          exact not_or.mpr ⟨misfits, none⟩
        · rw [read, holds.enter_events]
          rfl
      · refine Or.inr ⟨other, first.later misfits, ?_⟩
        rw [failed]
        rfl

/-! ## A mapper in use -/

/-- The levels of a mapper that has read some texts, with or without success. -/
inductive Reachable : Offside -> Prop
  | fresh : Reachable {}
  | read {levels : Offside} (lines : Source.Lines) (stop : Nat) (logical : List Line) :
      Reachable levels -> Reachable (Offside.tokens lines stop levels logical).2

theorem Ascending.tokens (ascending : levels.Ascending) (lines : Source.Lines) (stop : Nat)
    (logical : List Line) : (Offside.tokens lines stop levels logical).2.Ascending := by
  induction logical generalizing levels with
  | nil => exact List.pairwise_singleton _ _
  | cons line logical inductionHypothesis =>
    rw [Offside.tokens]
    have next := ascending.enter line.indent
    simp only
    split
    · exact inductionHypothesis next
    · exact next

theorem Reachable.ascending (reachable : levels.Reachable) : levels.Ascending := by
  induction reachable with
  | fresh => exact List.pairwise_singleton _ _
  | read lines stop logical _ inductionHypothesis =>
    exact inductionHypothesis.tokens lines stop logical

/-- A mapper in use, whose levels begin at column zero and get strictly wider, reads lines as if
the widths of its levels were those of earlier lines.  It fails when some line does not fit, with
the width and the position of the first one.  Otherwise it has the tokens that the widths tell, and
no level is open afterwards.  In both cases its levels begin at column zero and get strictly wider
again. -/
theorem tokens_exact (levels : Offside) (reachable : levels.Reachable) (lines : Source.Lines)
    (stop : Nat) (logical : List Line) :
    let history := levels.opened
    let result := (Offside.tokens lines stop levels logical).1
    let after := (Offside.tokens lines stop levels logical).2
    (history.head? = some 0 ∧ history.Pairwise (· < ·)) ∧
    ((Exists fun error => result = .error error) <-> HasMisfit history logical) ∧
    (forall error, result = .error error -> Exists fun line =>
      FirstMisfit history logical line ∧
        error = .inconsistentDedent line.indent (lines.position line.start)) ∧
    (¬ HasMisfit history logical ->
      result = .ok (tokensAfter lines stop history logical) ∧ after.depth = 0) ∧
    after.opened.head? = some 0 ∧ after.opened.Pairwise (· < ·) := by
  intro history result after
  have ascending := reachable.ascending
  have again : after.opened.Pairwise (· < ·) := ascending.tokens lines stop logical
  refine ⟨⟨rfl, ascending⟩, ?_⟩
  rcases (Holds.opened ascending).tokens lines stop logical with
    ⟨none, read⟩ | ⟨line, first, failed⟩
  · have ok : result = .ok (tokensAfter lines stop history logical) := congrArg Prod.fst read
    have closed : after = {} := congrArg Prod.snd read
    refine ⟨iff_of_false ?_ none, ?_, fun _ => ⟨ok, by rw [closed]; rfl⟩, rfl, again⟩
    · rintro ⟨error, failed⟩
      cases ok.symm.trans failed
    · intro error failed
      cases ok.symm.trans failed
  · have misfit : HasMisfit history logical := by
      rcases first with ⟨front, back, split, misfits, -⟩
      exact ⟨front, line, back, split, misfits⟩
    refine ⟨iff_of_true ⟨_, failed⟩ misfit, ?_, fun none => absurd misfit none, rfl, again⟩
    intro error failed'
    exact ⟨line, first, Except.error.inj (failed'.symm.trans failed)⟩

/-- A line between two levels fails and leaves the outer one open.  The next text begins in that
level, goes one deeper and closes both. -/
theorem tokens_exact_inherited :
    let lines := Source.Lines.ofText []
    let line (width : Nat) : Line := ⟨width, 0, [⟨.identifier, "a", ⟨0, 1⟩, {}⟩], none⟩
    let levels := (Offside.tokens lines 0 {} [line 4, line 8, line 6]).2
    levels.Reachable ∧ levels.opened = [0, 4] ∧
      HasMisfit levels.opened [line 4, line 6, line 2] ∧
      (Offside.tokens lines 0 levels [line 4, line 6, line 0]).1 =
        .ok (tokensAfter lines 0 [0, 4] [line 4, line 6, line 0]) ∧
      (tokensAfter lines 0 [0, 4] [line 4, line 6, line 0]).map Token.kind =
        [.identifier, .indent, .identifier, .dedent, .dedent, .identifier, .endOfFile] := by
  intro lines line levels
  have reachable : levels.Reachable := .read lines 0 _ .fresh
  have inherited : levels.opened = [0, 4] := by decide
  have exact_at := levels.tokens_exact reachable lines 0
  refine ⟨reachable, inherited, ?_, ?_, by decide⟩
  · have failed : (Offside.tokens lines 0 levels [line 4, line 6, line 2]).1 =
        .error (.inconsistentDedent 2 {}) := by rfl
    exact (exact_at _).2.1.mp ⟨_, failed⟩
  · have fits : ¬ HasMisfit levels.opened [line 4, line 6, line 0] := by
      intro misfit
      rcases (exact_at _).2.1.mpr misfit with ⟨error, failed⟩
      cases failed
    have read := ((exact_at _).2.2.2.1 fits).1
    rw [inherited] at read
    exact read

end Offside
end Packrat
