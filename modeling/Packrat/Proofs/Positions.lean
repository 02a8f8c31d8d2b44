import Mathlib.Data.List.Nodup
import Mathlib.Data.Set.Card
import Mathlib.Order.Bounds.Basic
import Packrat.Proofs.Bytes
import Packrat.Proofs.Slices

namespace Packrat
namespace Source

/-!
# Positions are exact

Behind the first line, which begins with the text, the lines begin at the ends of the line breaks,
one after the other.  So a search for an offset finds the line of the last break up to it, and there
is such a line for every offset.  The line begins at a boundary, so a column counts characters
whenever the offset is a boundary too.
-/

variable {text before after : List Char} {starts : List Nat} {offset start stop near far : Nat}

/-! ## Line breaks -/

/-- A line break ends between two parts of a text: the first one ends with a line feed, or with a
carriage return, and no line feed follows. -/
def BreaksBetween (before after : List Char) : Prop :=
  before.getLast? = some '\n' ∨ before.getLast? = some '\r' ∧ after.head? ≠ some '\n'

/-- A line break of a text ends at an offset. -/
def BreakEnds (text : List Char) (offset : Nat) : Prop :=
  Exists fun before => Exists fun after => text = before ++ after ∧ byteLength before = offset ∧
    BreaksBetween before after

theorem BreakEnds.cons (ends : BreakEnds text stop) (c : Char) :
    BreakEnds (c :: text) (c.utf8Size + stop) := by
  rcases ends with ⟨before, after, rfl, rfl, breaks⟩
  refine ⟨c :: before, after, rfl, rfl, ?_⟩
  exact breaks.imp (fun feed => getLast?_cons_of_some feed c)
    fun ⟨last, alone⟩ => ⟨getLast?_cons_of_some last c, alone⟩

theorem exists_of_mem_startsAfterBreaks (member : start ∈ startsAfterBreaks offset text) :
    Exists fun stop => start = offset + stop ∧ BreakEnds text stop := by
  fun_induction startsAfterBreaks offset text with
  | case1 => cases member
  | case2 offset rest inductionHypothesis =>
    rcases List.mem_cons.mp member with rfl | later
    · exact ⟨2, rfl, ['\r', '\n'], rest, rfl, rfl, Or.inl rfl⟩
    · rcases inductionHypothesis later with ⟨stop, rfl, ends⟩
      refine ⟨_, ?_, (ends.cons '\n').cons '\r'⟩
      have return_size : '\r'.utf8Size = 1 := rfl
      have feed_size : '\n'.utf8Size = 1 := rfl
      omega
  | case3 offset rest single inductionHypothesis =>
    rcases List.mem_cons.mp member with rfl | later
    · refine ⟨1, rfl, ['\r'], rest, rfl, rfl, Or.inr ⟨rfl, fun first => ?_⟩⟩
      rcases List.head?_eq_some_iff.mp first with ⟨more, rfl⟩
      exact single more rfl
    · rcases inductionHypothesis later with ⟨stop, rfl, ends⟩
      exact ⟨_, Nat.add_assoc .., ends.cons '\r'⟩
  | case4 offset rest inductionHypothesis =>
    rcases List.mem_cons.mp member with rfl | later
    · exact ⟨1, rfl, ['\n'], rest, rfl, rfl, Or.inl rfl⟩
    · rcases inductionHypothesis later with ⟨stop, rfl, ends⟩
      exact ⟨_, Nat.add_assoc .., ends.cons '\n'⟩
  | case5 offset c rest _ _ _ inductionHypothesis =>
    rcases inductionHypothesis member with ⟨stop, rfl, ends⟩
    exact ⟨_, Nat.add_assoc .., ends.cons c⟩

/-- Besides the first one, the lines begin at the ends of the line breaks. -/
theorem mem_startsAfterBreaks_iff : stop ∈ startsAfterBreaks 0 text <-> BreakEnds text stop := by
  constructor
  · intro member
    rcases exists_of_mem_startsAfterBreaks member with ⟨stop, rfl, ends⟩
    rw [Nat.zero_add]
    exact ends
  · rintro ⟨before, after, rfl, rfl, breaks⟩
    have ends : before.getLast? = some '\n' ∨ before.getLast? = some '\r' :=
      breaks.imp_right And.left
    have whole : before.getLast? = some '\r' -> after.head? ≠ some '\n' := by
      intro returns
      rcases breaks with feed | ⟨-, alone⟩
      · rw [returns] at feed
        cases feed
      · exact alone
    -- Split behind the line break, the text before it has its own end as the last start.
    have last := List.mem_of_getLast? (getLast?_startsAfterBreaks ends 0)
    rw [Nat.zero_add] at last
    rw [startsAfterBreaks_append whole]
    exact List.mem_append_left _ last

theorem startsAfterBreaks_ascending (offset : Nat) (text : List Char) :
    (startsAfterBreaks offset text).Pairwise (· < ·) := by
  fun_induction startsAfterBreaks offset text with
  | case1 => exact .nil
  | case2 _ _ inductionHypothesis | case3 _ _ _ inductionHypothesis
  | case4 _ _ inductionHypothesis =>
    exact .cons (fun _ member => (mem_startsAfterBreaks member).1) inductionHypothesis
  | case5 _ _ _ _ _ _ inductionHypothesis => exact inductionHypothesis

theorem starts_ascending (text : List Char) : (Lines.ofText text).starts.Pairwise (· < ·) :=
  .cons (fun _ member => (mem_startsAfterBreaks member).1) (startsAfterBreaks_ascending 0 text)

/-! ## The line of an offset -/

/-- A start is the last one up to an offset: it stands between the earlier ones and those behind the
offset. -/
structure Divides (starts : List Nat) (offset : Nat) (earlier : List Nat) (start : Nat)
    (later : List Nat) : Prop where
  whole : starts = earlier ++ start :: later
  before : forall other, other ∈ earlier -> other < start
  within : start ≤ offset
  behind : forall other, other ∈ later -> offset < other

/-- Ascending starts have a last one up to an offset if they have any. -/
theorem exists_divides (ascending : starts.Pairwise (· < ·)) (member : start ∈ starts)
    (within : start ≤ offset) : Exists fun earlier => Exists fun last => Exists fun later =>
      Divides starts offset earlier last later := by
  induction starts generalizing start with
  | nil => cases member
  | cons first starts inductionHypothesis =>
    rcases List.pairwise_cons.mp ascending with ⟨least, ascending⟩
    by_cases further : Exists fun other => other ∈ starts ∧ other ≤ offset
    · rcases further with ⟨other, listed, inside⟩
      rcases inductionHypothesis ascending listed inside with ⟨earlier, last, later, divides⟩
      have whole := divides.whole
      subst whole
      refine ⟨first :: earlier, last, later, rfl, ?_, divides.within, divides.behind⟩
      intro other listed
      rcases List.mem_cons.mp listed with rfl | listed
      · exact least last (List.mem_append_right _ List.mem_cons_self)
      · exact divides.before other listed
    · have first_within : first ≤ offset := by
        rcases List.mem_cons.mp member with rfl | listed
        · exact within
        · exact absurd ⟨start, listed, within⟩ further
      refine ⟨[], first, starts, rfl, nofun, first_within, fun other listed => ?_⟩
      exact Nat.lt_of_not_le fun inside => further ⟨other, listed, inside⟩

namespace Divides

variable {earlier later : List Nat}

theorem countP_eq (divides : Divides starts offset earlier start later) :
    starts.countP (· ≤ offset) = earlier.length + 1 := by
  have before : earlier.countP (· ≤ offset) = earlier.length := by
    refine List.countP_eq_length.mpr fun other member => decide_eq_true ?_
    exact Nat.le_trans (Nat.le_of_lt (divides.before other member)) divides.within
  have behind : later.countP (· ≤ offset) = 0 := by
    refine List.countP_eq_zero.mpr fun other member within => ?_
    exact absurd (of_decide_eq_true within) (Nat.not_le_of_lt (divides.behind other member))
  rw [divides.whole, List.countP_append, before,
    List.countP_cons_of_pos (by simpa using divides.within), behind]

theorem getElem?_eq (divides : Divides starts offset earlier start later) :
    starts[earlier.length]? = some start := by
  rw [divides.whole, List.getElem?_append_right (Nat.le_refl _), Nat.sub_self]
  rfl

theorem isGreatest (divides : Divides starts offset earlier start later) :
    IsGreatest {other | other ∈ starts ∧ other ≤ offset} start := by
  refine ⟨⟨?_, divides.within⟩, ?_⟩
  · rw [divides.whole]
    exact List.mem_append_right _ List.mem_cons_self
  · rintro other ⟨member, within⟩
    rw [divides.whole, List.mem_append, List.mem_cons] at member
    rcases member with before | rfl | behind
    · exact Nat.le_of_lt (divides.before other before)
    · exact Nat.le_refl other
    · exact absurd within (Nat.not_le_of_lt (divides.behind other behind))

end Divides

theorem exists_divides_starts (text : List Char) (offset : Nat) :
    Exists fun earlier => Exists fun start => Exists fun later =>
      Divides (Lines.ofText text).starts offset earlier start later :=
  exists_divides (starts_ascending text) List.mem_cons_self (Nat.zero_le offset)

/-! ## Positions with every step checked -/

/-- Where a number stands in an ascending list, or otherwise where it would have to be inserted. -/
def locate (starts : List Nat) (offset : Nat) : Except Nat Nat :=
  if offset ∈ starts then .ok (starts.idxOf offset) else .error (starts.countP (· < offset))

namespace Lines

/-- The lines of a source whose bytes are read one by one. -/
def ofBytes (source : String) : Lines :=
  ⟨source.toList, 0 :: startsOfBytes 0 source.toByteArray.data.toList⟩

/-- The line of an offset, if the search for it does not stop before the first line. -/
def line? (lines : Lines) (offset : Nat) : Option Nat :=
  match locate lines.starts offset with
  | .ok index => some index
  | .error index => minus? index 1

/-- The column of an offset in a line.  Without a slice between the two it counts bytes, if the
offset is not before the line. -/
def column? (lines : Lines) (start offset : Nat) : Option Nat :=
  match slice? lines.text start offset with
  | some between => some between.length
  | none => minus? offset start

/-- The position of an offset, if no step to it fails. -/
def position? (lines : Lines) (offset : Nat) : Option Position := do
  let line ← lines.line? offset
  let start ← lines.start? line
  let column ← lines.column? start offset
  return ⟨offset, line, column⟩

theorem ofBytes_eq (source : String) : ofBytes source = ofString source := by
  rw [ofBytes, ← bytesOf_toList, startsOfBytes_bytesOf]
  rfl

end Lines

namespace Divides

variable {earlier later : List Nat}

/-- A search for the offset stops at the start or behind it. -/
theorem locate_eq (divides : Divides starts offset earlier start later) :
    locate starts offset =
      if start = offset then .ok earlier.length else .error (earlier.length + 1) := by
  have not_earlier : offset ∉ earlier := fun member =>
    Nat.not_lt_of_le divides.within (divides.before offset member)
  have not_later : offset ∉ later := fun member =>
    Nat.lt_irrefl offset (divides.behind offset member)
  have listed : offset ∈ starts <-> start = offset := by
    rw [divides.whole, List.mem_append, List.mem_cons]
    simp only [not_earlier, not_later, false_or, or_false, eq_comm]
  rw [locate]
  by_cases same : start = offset
  · rw [if_pos (listed.mpr same), if_pos same, divides.whole,
      List.idxOf_append_of_notMem not_earlier, same, List.idxOf_cons_self, Nat.add_zero]
  · have absent : offset ∉ starts := fun member => same (listed.mp member)
    have fewer : starts.countP (· < offset) = starts.countP (· ≤ offset) := by
      refine List.countP_congr fun other member => ?_
      have different : other ≠ offset := fun equal => absent (equal ▸ member)
      simp only [decide_eq_true_eq]
      omega
    rw [if_neg absent, if_neg same, fewer, divides.countP_eq]

end Divides

namespace Lines

variable {earlier later : List Nat}

theorem lineOf_eq (divides : Divides (ofText text).starts offset earlier start later) :
    (ofText text).lineOf offset = earlier.length := by
  rw [lineOf, divides.countP_eq]
  rfl

/-- The last start up to an offset is the beginning of the text or the end of a line break. -/
theorem mem_starts_iff : start ∈ (ofText text).starts <-> start = 0 ∨ BreakEnds text start :=
  List.mem_cons.trans (or_congr Iff.rfl mem_startsAfterBreaks_iff)

theorem isBoundary_of_mem_starts (member : start ∈ (ofText text).starts) :
    IsBoundary text start := by
  rcases mem_starts_iff.mp member with rfl | ⟨before, after, whole, size, -⟩
  · exact ⟨[], text, rfl, rfl⟩
  · exact ⟨before, after, whole, size⟩

theorem column_of_slice {between : List Char}
    (sliced : slice? text start offset = some between) :
    (ofText text).column start offset = between.length := by
  rcases slice?_eq_some_iff.mp sliced with ⟨before, after, rfl, rfl, rfl⟩
  have first : charsBefore? (before ++ between ++ after) (byteLength before) =
      some before.length := by
    rw [List.append_assoc, charsBefore?_append]
  have last := charsBefore?_append (before ++ between) after
  simp only [column, ofText, first, last, List.length_append]
  exact Nat.add_sub_cancel_left ..

theorem column_of_not_isBoundary (inside : ¬ IsBoundary text offset) :
    (ofText text).column start offset = offset - start := by
  simp only [column, ofText, charsBefore?_eq_none_iff.mpr inside]
  cases charsBefore? text start <;> rfl

theorem position_eq (divides : Divides (ofText text).starts offset earlier start later) :
    (ofText text).position offset =
      ⟨offset, earlier.length, (ofText text).column start offset⟩ := by
  rw [position, lineOf_eq divides, start?, divides.getElem?_eq]
  rfl

theorem line?_eq (divides : Divides (ofText text).starts offset earlier start later) :
    (ofText text).line? offset = some earlier.length := by
  rw [line?, divides.locate_eq]
  by_cases same : start = offset
  · rw [if_pos same]
  · rw [if_neg same]
    rfl

theorem column?_eq (begins : IsBoundary text start) (within : start ≤ offset) :
    (ofText text).column? start offset = some ((ofText text).column start offset) := by
  rw [column?]
  by_cases boundary : IsBoundary text offset
  · rcases exists_slice begins boundary within with ⟨between, sliced⟩
    rw [column_of_slice sliced]
    simp only [ofText, sliced]
  · have missing : slice? text start offset = none := by
      refine Option.eq_none_iff_forall_ne_some.mpr fun between sliced => boundary ?_
      rcases slice?_eq_some_iff.mp sliced with ⟨before, after, whole, -, size⟩
      exact ⟨before ++ between, after, whole, size⟩
    rw [column_of_not_isBoundary boundary]
    simp only [ofText, missing]
    exact if_pos within

/-- No step to a position fails. -/
theorem position?_eq (text : List Char) (offset : Nat) :
    (ofText text).position? offset = some ((ofText text).position offset) := by
  rcases exists_divides_starts text offset with ⟨earlier, start, later, divides⟩
  have begins := isBoundary_of_mem_starts divides.isGreatest.1.1
  rw [position?, line?_eq divides, Option.bind_eq_bind, Option.bind_some, start?,
    divides.getElem?_eq, Option.bind_some, column?_eq begins divides.within, position_eq divides]
  rfl

end Lines

/-! ## What a position tells -/

/-- The position of an offset of a text.  Its line is the number of line breaks that end up to the
offset.  From the end of the last of these, or else from the beginning of the text, its column
counts the characters up to the offset; it counts the bytes when the offset is no boundary. -/
structure Tells (text : List Char) (position : Position) : Prop where
  line_eq : position.line = Set.ncard {stop | BreakEnds text stop ∧ stop ≤ position.offset}
  column_eq : Exists fun start =>
    IsGreatest {start | (start = 0 ∨ BreakEnds text start) ∧ start ≤ position.offset} start ∧
    (IsBoundary text position.offset -> Exists fun before => Exists fun between =>
      Exists fun after => text = before ++ between ++ after ∧ byteLength before = start ∧
        byteLength (before ++ between) = position.offset ∧ position.column = between.length) ∧
    (¬ IsBoundary text position.offset -> position.column = position.offset - start)

/-- The line breaks that end up to an offset are as many as the lines that begin after them. -/
theorem ncard_breakEnds (text : List Char) (offset : Nat) :
    Set.ncard {stop | BreakEnds text stop ∧ stop ≤ offset} =
      (startsAfterBreaks 0 text).countP (· ≤ offset) := by
  have once : ((startsAfterBreaks 0 text).filter (· ≤ offset)).Nodup :=
    ((startsAfterBreaks_ascending 0 text).imp Nat.ne_of_lt).filter _
  have same : {stop | BreakEnds text stop ∧ stop ≤ offset} =
      (((startsAfterBreaks 0 text).filter (· ≤ offset)).toFinset : Set Nat) := by
    ext stop
    simp [mem_startsAfterBreaks_iff]
  rw [same, Set.ncard_coe_finset, List.toFinset_card_of_nodup once, List.countP_eq_length_filter]

theorem tells_position (text : List Char) (offset : Nat) :
    Tells text ((Lines.ofText text).position offset) := by
  rcases exists_divides_starts text offset with ⟨earlier, start, later, divides⟩
  have greatest := divides.isGreatest
  simp only [Lines.mem_starts_iff] at greatest
  rw [Lines.position_eq divides]
  refine ⟨?_, start, greatest, fun boundary => ?_, Lines.column_of_not_isBoundary⟩
  · have counted := divides.countP_eq
    rw [Lines.ofText, List.countP_cons_of_pos (by simp)] at counted
    rw [ncard_breakEnds]
    exact (Nat.succ.inj counted).symm
  · have begins := Lines.isBoundary_of_mem_starts divides.isGreatest.1.1
    rcases exists_slice begins boundary divides.within with ⟨between, sliced⟩
    rcases slice?_eq_some_iff.mp sliced with ⟨before, after, whole, first, last⟩
    exact ⟨before, between, after, whole, first, last, Lines.column_of_slice sliced⟩

/-! ## The order of positions -/

/-- A position is on an earlier line than another one, or before it on the same line. -/
def Position.Precedes (position other : Position) : Prop :=
  position.line < other.line ∨ position.line = other.line ∧ position.column < other.column

theorem Divides.length_le {earlier later earlier' later' : List Nat} {start' : Nat}
    (divides : Divides starts near earlier start later)
    (divides' : Divides starts far earlier' start' later') (ordered : near ≤ far) :
    earlier.length ≤ earlier'.length := by
  have fewer : starts.countP (· ≤ near) ≤ starts.countP (· ≤ far) := by
    refine List.countP_mono_left fun other _ within => ?_
    exact decide_eq_true (Nat.le_trans (of_decide_eq_true within) ordered)
  rw [divides.countP_eq, divides'.countP_eq] at fewer
  exact Nat.le_of_succ_le_succ fewer

/-- The positions of boundaries are in the order of these. -/
theorem precedes_of_lt (nearer : IsBoundary text near) (further : IsBoundary text far)
    (ordered : near < far) :
    ((Lines.ofText text).position near).Precedes ((Lines.ofText text).position far) := by
  rcases exists_divides_starts text near with ⟨earlier, start, later, divides⟩
  rcases exists_divides_starts text far with ⟨earlier', start', later', divides'⟩
  rw [Lines.position_eq divides, Lines.position_eq divides']
  rcases Nat.lt_or_eq_of_le (divides.length_le divides' (Nat.le_of_lt ordered)) with above | same
  · exact Or.inl above
  · -- On the same line both columns count from the same start.
    have begins := Lines.isBoundary_of_mem_starts divides.isGreatest.1.1
    have line := divides.getElem?_eq
    rw [same, divides'.getElem?_eq] at line
    cases line
    rcases exists_slice begins nearer divides.within with ⟨between, sliced⟩
    rcases exists_slice begins further divides'.within with ⟨between', sliced'⟩
    rw [Lines.column_of_slice sliced, Lines.column_of_slice sliced']
    exact Or.inr ⟨same, length_lt_of_slice sliced sliced' ordered⟩

/-- The line and the column of a boundary determine it. -/
theorem eq_of_position_eq (nearer : IsBoundary text near) (further : IsBoundary text far)
    (line : ((Lines.ofText text).position near).line = ((Lines.ofText text).position far).line)
    (column : ((Lines.ofText text).position near).column =
      ((Lines.ofText text).position far).column) : near = far := by
  rcases Nat.lt_trichotomy near far with before | same | behind
  · have order := precedes_of_lt nearer further before
    rw [Position.Precedes, line, column] at order
    omega
  · exact same
  · have order := precedes_of_lt further nearer behind
    rw [Position.Precedes, line, column] at order
    omega

/-- Positions are exact.  No step to a position fails, whether its offset lies between two
characters, inside one or beyond the text, and it tells the line and the column of the offset.  The
positions of boundaries ascend with these, in lexicographic order, and determine them. -/
theorem position_exact (source : String) :
    (forall offset,
      (Lines.ofBytes source).position? offset = some ((Lines.ofString source).position offset) ∧
      ((Lines.ofString source).position offset).offset = offset ∧
      Tells source.toList ((Lines.ofString source).position offset)) ∧
    (forall near far, IsBoundary source.toList near -> IsBoundary source.toList far -> near < far ->
      ((Lines.ofString source).position near).Precedes ((Lines.ofString source).position far)) ∧
    forall near far, IsBoundary source.toList near -> IsBoundary source.toList far ->
      ((Lines.ofString source).position near).line =
        ((Lines.ofString source).position far).line ->
      ((Lines.ofString source).position near).column =
        ((Lines.ofString source).position far).column ->
      near = far := by
  refine ⟨fun offset => ⟨?_, rfl, tells_position source.toList offset⟩, ?_, ?_⟩
  · rw [Lines.ofBytes_eq]
    exact Lines.position?_eq source.toList offset
  · exact fun near far nearer further => precedes_of_lt nearer further
  · exact fun near far nearer further => eq_of_position_eq nearer further

/-- A character of two bytes, a carriage return with its line feed and one without.  The offset
between the two of the pair is still on the first line, and so is the one inside the character. -/
theorem position_exact_pair :
    let source := "é\r\nb\rc"
    let position := (Lines.ofString source).position
    IsBoundary source.toList 3 ∧ IsBoundary source.toList 4 ∧
      (position 3).Precedes (position 4) ∧ byteLength "é\r\nb\r".toList = 6 ∧
      position 1 = ⟨1, 0, 1⟩ ∧ position 3 = ⟨3, 0, 2⟩ ∧ position 4 = ⟨4, 1, 0⟩ ∧
      position 6 = ⟨6, 2, 0⟩ ∧ (Lines.ofBytes source).position? 9 = some ⟨9, 2, 3⟩ := by
  intro source position
  have between : IsBoundary source.toList 3 :=
    ⟨['é', '\r'], ['\n', 'b', '\r', 'c'], by decide, by decide⟩
  have behind : IsBoundary source.toList 4 :=
    ⟨['é', '\r', '\n'], ['b', '\r', 'c'], by decide, by decide⟩
  have last : IsBoundary source.toList 6 :=
    ⟨['é', '\r', '\n', 'b', '\r'], ['c'], by decide, by decide⟩
  have length : IsBoundary source.toList (byteLength "é\r\nb\r".toList) :=
    ⟨"é\r\nb\r".toList, ['c'], by decide, rfl⟩
  rcases position_exact source with ⟨exact, ordered, determined⟩
  refine ⟨between, behind, ordered 3 4 between behind (by decide), ?_, ?_⟩
  · exact determined _ 6 length last (by decide) (by decide)
  · exact ⟨by decide, by decide, by decide, by decide,
      (exact 9).1.trans (congrArg some (by decide))⟩

end Source
end Packrat
