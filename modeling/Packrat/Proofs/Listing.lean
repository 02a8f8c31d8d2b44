import Packrat.Proofs.Weights

namespace Packrat

/-!
# What a listing says

A reader goes over the glyphs of a listing once.  It keeps what it has read since the last open
bracket: the items of complete alternatives, and those of the alternative that it reads.  What an
expression adds there does not depend on what stands before it, so the content of a listing is known
from the expression.  It need not be the expression: an alternative that stands among items without
parentheses takes these items into it.
-/

namespace Listing

/-! ## Contents -/

/-- What stands between two brackets: the items of each complete alternative, and those of the last
one. -/
structure Content where
  complete : List (List Expression) := []
  items : List Expression := []

namespace Content

variable {content first second : Content} {expression : Expression}

def item (expression : Expression) : Content :=
  ⟨[], [expression]⟩

/-- The items of every alternative. -/
def alternatives (content : Content) : List (List Expression) :=
  content.complete ++ [content.items]

def value (content : Content) : Expression :=
  Combination.choice.combine (content.alternatives.map Combination.sequence.combine)

/-- One content behind another one: the first alternative of the second content goes on with the
last one of the first content. -/
def beside (first second : Content) : Content :=
  match second.complete with
  | [] => ⟨first.complete, first.items ++ second.items⟩
  | items :: complete => ⟨first.complete ++ (first.items ++ items) :: complete, second.items⟩

def or (first second : Content) : Content :=
  ⟨first.complete ++ first.items :: second.complete, second.items⟩

/-- A content whose last item is repeated. -/
def again (content : Content) (wrap : Expression -> Expression) : Content :=
  { content with items := content.items.dropLast ++ (content.items.getLast?.map wrap).toList }

/-- A content in parentheses, where these are needed. -/
def grouped (needed : Bool) (content : Content) : Content :=
  if needed then item content.value else content

theorem beside_assoc (first second third : Content) :
    (first.beside second).beside third = first.beside (second.beside third) := by
  rcases second with ⟨_ | ⟨_, _⟩, _⟩ <;> rcases third with ⟨_ | ⟨_, _⟩, _⟩ <;> simp [beside]

theorem beside_empty (content : Content) : content.beside {} = content := by
  simp [beside]

theorem empty_beside (content : Content) : Content.beside {} content = content := by
  rcases content with ⟨_ | ⟨_, _⟩, _⟩ <;> rfl

theorem beside_or (first second third : Content) :
    first.beside (second.or third) = (first.beside second).or third := by
  rcases second with ⟨_ | ⟨_, _⟩, _⟩ <;> simp [beside, or]

theorem beside_bar (first second : Content) :
    Content.beside ⟨first.complete ++ [first.items], []⟩ second = first.or second := by
  rcases second with ⟨_ | ⟨_, _⟩, _⟩ <;> simp [beside, or]

theorem beside_again (first : Content) (ne_nil : second.items ≠ [])
    (wrap : Expression -> Expression) :
    (first.beside second).again wrap = first.beside (second.again wrap) := by
  rcases second with ⟨_ | ⟨_, _⟩, items⟩
  · simp [beside, again, List.dropLast_append_of_ne_nil ne_nil,
      List.getLast?_append_of_ne_nil _ ne_nil]
  · rfl

end Content

/-! ## A reader of glyphs -/

/-- What was read of a listing: since the innermost open bracket, and before each open one. -/
structure Reader where
  content : Content := {}
  around : List Content := []

namespace Reader

variable {reader : Reader}

def add (reader : Reader) (item : Expression) : Reader :=
  { reader with content := reader.content.beside (.item item) }

def turn (reader : Reader) : Reader :=
  { reader with content := ⟨reader.content.alternatives, []⟩ }

def enter (reader : Reader) : Reader :=
  ⟨{}, reader.content :: reader.around⟩

def leave (reader : Reader) (wrap : Expression -> Expression) : Reader :=
  match reader.around with
  | [] => reader
  | content :: around => Reader.add ⟨content, around⟩ (wrap reader.content.value)

def step (reader : Reader) : Glyph -> Reader
  | .quoted text => reader.add (.op text)
  | .category kind => reader.add (.any kind)
  | .rule name => reader.add (.rule name)
  | .mock => reader.add .mock
  | .bar => reader.turn
  | .opening | .left => reader.enter
  | .closing => reader.leave id
  | .right => reader.leave .optional
  | .star => { reader with content := reader.content.again .zeroOrMore }
  | .plus => { reader with content := reader.content.again .oneOrMore }

def run (reader : Reader) (glyphs : List Glyph) : Reader :=
  glyphs.foldl step reader

theorem run_append (reader : Reader) (front back : List Glyph) :
    reader.run (front ++ back) = (reader.run front).run back :=
  List.foldl_append

theorem run_cons (reader : Reader) (glyph : Glyph) (glyphs : List Glyph) :
    reader.run (glyph :: glyphs) = (reader.step glyph).run glyphs :=
  rfl

end Reader

/-- The expression that a row of glyphs says. -/
def read (glyphs : List Glyph) : Expression :=
  (Reader.run {} glyphs).content.value

end Listing

namespace Expression

open Listing

mutual

/-- What the listing of an expression says. -/
def content : Expression -> Content
  | literal _ (some text) => .item (op text)
  | literal kind none => .item (any kind)
  | rule name => .item (rule name)
  | sequence items => contentOfItems items
  | choice alternatives => contentOfAlternatives alternatives
  | optional body => .item (optional (content body).value)
  | zeroOrMore body => ((content body).grouped body.isCompound).again zeroOrMore
  | oneOrMore body => ((content body).grouped body.isCompound).again oneOrMore
  | mock => .item mock

def contentOfItems : List Expression -> Content
  | [] => {}
  | item :: items => ((content item).grouped item.isAlternation).beside (contentOfItems items)

def contentOfAlternatives : List Expression -> Content
  | [] => {}
  | [item] => content item
  | item :: next :: items => (content item).or (contentOfAlternatives (next :: items))

end

end Expression

namespace Listing
namespace Content

variable {content first second : Content} {expression : Expression}

/-! ## Full contents -/

/-- An expression as it stands in a content. -/
def IsSolid (expression : Expression) : Prop :=
  expression.IsProper ∧ 2 ≤ expression.weight

/-- A content where every alternative has an item, and where every item is solid. -/
def Full (content : Content) : Prop :=
  forall items, items ∈ content.alternatives ->
    items ≠ [] ∧ forall item, item ∈ items -> IsSolid item

theorem items_mem_alternatives (content : Content) : content.items ∈ content.alternatives :=
  List.mem_append_right _ List.mem_cons_self

theorem alternatives_or (first second : Content) :
    (first.or second).alternatives = first.alternatives ++ second.alternatives := by
  simp [or, alternatives]

/-- The alternatives of one content behind another one. -/
theorem exists_alternatives_beside (second : Content) : Exists fun items => Exists fun others =>
    second.alternatives = items :: others ∧ forall first : Content,
      (first.beside second).alternatives = first.complete ++ (first.items ++ items) :: others := by
  rcases second with ⟨_ | ⟨items, complete⟩, last⟩
  · exact ⟨last, [], rfl, fun _ => rfl⟩
  · exact ⟨items, complete ++ [last], rfl, fun first => by simp [beside, alternatives]⟩

theorem Full.items_ne_nil (full : content.Full) : content.items ≠ [] :=
  (full content.items content.items_mem_alternatives).1

theorem full_item (solid : IsSolid expression) : (item expression).Full := by
  intro items member
  have member : items ∈ [[expression]] := member
  rw [List.mem_singleton] at member
  subst member
  refine ⟨List.cons_ne_nil _ _, fun item member => ?_⟩
  rw [List.mem_singleton.mp member]
  exact solid

theorem Full.or (full : first.Full) (fullNext : second.Full) : (first.or second).Full := by
  intro items member
  rw [alternatives_or] at member
  exact (List.mem_append.mp member).elim (full items) (fullNext items)

theorem Full.beside (full : first.Full) (fullNext : second.Full) : (first.beside second).Full := by
  rcases second.exists_alternatives_beside with ⟨next, others, second_eq, joined⟩
  rw [Full, second_eq, List.forall_mem_cons] at fullNext
  intro items member
  rw [joined, List.mem_append, List.mem_cons] at member
  rcases member with complete | rfl | later
  · exact full items (List.mem_append_left _ complete)
  · have last := full first.items first.items_mem_alternatives
    refine ⟨List.append_ne_nil_of_left_ne_nil last.1 _, fun item inside => ?_⟩
    exact (List.mem_append.mp inside).elim (last.2 item) (fullNext.1.2 item)
  · exact fullNext.2 items later

/-- The last item of a content, and what its repetition is. -/
theorem Full.exists_last (full : content.Full) : Exists fun front => Exists fun last =>
    content.items = front ++ [last] ∧ forall wrap,
      content.again wrap = ⟨content.complete, front ++ [wrap last]⟩ := by
  have split := List.dropLast_append_getLast full.items_ne_nil
  refine ⟨content.items.dropLast, content.items.getLast full.items_ne_nil, split.symm, ?_⟩
  intro wrap
  rw [again, List.getLast?_eq_getLast_of_ne_nil full.items_ne_nil]
  rfl

theorem Full.again (full : content.Full) {wrap : Expression -> Expression}
    (solid : forall item, IsSolid item -> IsSolid (wrap item)) : (content.again wrap).Full := by
  rcases full.exists_last with ⟨front, last, items_eq, again_eq⟩
  have own := (full content.items content.items_mem_alternatives).2
  rw [items_eq, List.forall_mem_append, List.forall_mem_singleton] at own
  intro items member
  rw [again_eq, alternatives, List.mem_append, List.mem_singleton] at member
  rcases member with complete | rfl
  · exact full items (List.mem_append_left _ complete)
  · refine ⟨List.append_ne_nil_of_right_ne_nil _ (List.cons_ne_nil _ _), ?_⟩
    rw [List.forall_mem_append, List.forall_mem_singleton]
    exact ⟨own.1, solid last own.2⟩

theorem isSolid_combine {combination : Combination} {expressions : List Expression}
    (ne_nil : expressions ≠ []) (solid : forall item, item ∈ expressions -> IsSolid item) :
    IsSolid (combination.combine expressions) := by
  refine ⟨Expression.isProper_combine ne_nil fun item member => (solid item member).1, ?_⟩
  rw [Expression.weight_combine]
  refine Expression.two_le_total combination (List.map_eq_nil_iff.not.mpr ne_nil)
    fun weight member => ?_
  rcases List.mem_map.mp member with ⟨item, listed, rfl⟩
  exact (solid item listed).2

theorem Full.isSolid_value (full : content.Full) : IsSolid content.value := by
  refine isSolid_combine (by simp [alternatives]) fun sequence member => ?_
  rcases List.mem_map.mp member with ⟨items, listed, rfl⟩
  exact isSolid_combine (full items listed).1 (full items listed).2

theorem Full.grouped (full : content.Full) (needed : Bool) : (content.grouped needed).Full := by
  cases needed with
  | true => exact full_item full.isSolid_value
  | false => exact full

end Content
end Listing

namespace Expression

open Listing

variable {expression first : Expression} {items others : List Expression}

theorem isSolid_repetition {wrap : Expression -> Expression}
    (proper : forall item, (wrap item).IsProper)
    (weight_eq : forall item, (wrap item).weight = item.weight * item.weight) :
    forall item, Content.IsSolid item -> Content.IsSolid (wrap item) := by
  intro item solid
  refine ⟨proper item, ?_⟩
  rw [weight_eq]
  exact Nat.le_trans solid.2 (Nat.le_mul_of_pos_right _ (Nat.zero_lt_of_lt solid.2))

theorem full_contentOfItems (ne_nil : items ≠ [])
    (full : forall item, item ∈ items -> item.content.Full) : (contentOfItems items).Full := by
  induction items with
  | nil => exact absurd rfl ne_nil
  | cons item items inductionHypothesis =>
    have here := (full item List.mem_cons_self).grouped item.isAlternation
    rw [contentOfItems]
    cases items with
    | nil =>
      rw [contentOfItems, Content.beside_empty]
      exact here
    | cons next items =>
      exact here.beside (inductionHypothesis (List.cons_ne_nil _ _)
        fun other member => full other (List.mem_cons_of_mem item member))

theorem full_contentOfAlternatives (ne_nil : items ≠ [])
    (full : forall item, item ∈ items -> item.content.Full) :
    (contentOfAlternatives items).Full := by
  induction items with
  | nil => exact absurd rfl ne_nil
  | cons item items inductionHypothesis =>
    have here := full item List.mem_cons_self
    cases items with
    | nil => exact here
    | cons next items =>
      exact here.or (inductionHypothesis (List.cons_ne_nil _ _)
        fun other member => full other (List.mem_cons_of_mem item member))

/-- What a listing says is full. -/
theorem full_content (expression : Expression) (listable : expression.isListable = true) :
    expression.content.Full := by
  induction expression using Expression.induction with
  | literal kind text =>
    cases text <;>
      exact Content.full_item
        ⟨isProper_of_not_isCompound (by rintro (_ | _) expressions ⟨⟩), Nat.le_refl 2⟩
  | rule | mock =>
    exact Content.full_item
      ⟨isProper_of_not_isCompound (by rintro (_ | _) expressions ⟨⟩), Nat.le_refl 2⟩
  | sequence items inductionHypothesis =>
    rcases isListable_parts_iff.mp listable with ⟨ne_nil, listable⟩
    exact full_contentOfItems ne_nil fun item member =>
      inductionHypothesis item member (listable item member)
  | choice alternatives inductionHypothesis =>
    rcases isListable_parts_iff.mp listable with ⟨ne_nil, listable⟩
    exact full_contentOfAlternatives ne_nil fun item member =>
      inductionHypothesis item member (listable item member)
  | optional body inductionHypothesis =>
    have value := (inductionHypothesis listable).isSolid_value
    exact Content.full_item
      ⟨isProper_of_not_isCompound (by rintro (_ | _) expressions ⟨⟩), value.2⟩
  | zeroOrMore body inductionHypothesis | oneOrMore body inductionHypothesis =>
    exact ((inductionHypothesis listable).grouped body.isCompound).again
      (isSolid_repetition
        (fun item => isProper_of_not_isCompound (by rintro (_ | _) expressions ⟨⟩)) fun _ => rfl)

/-! ## Reading the glyphs of an expression -/

/-- Glyphs that add a content wherever they stand. -/
def Adds (glyphs : List Glyph) (content : Content) : Prop :=
  forall before around,
    Reader.run ⟨before, around⟩ glyphs = ⟨before.beside content, around⟩

theorem Adds.grouped {glyphs : List Glyph} {content : Content} (adds : Adds glyphs content)
    (needed : Bool) : Adds (Expression.grouped needed glyphs) (content.grouped needed) := by
  cases needed with
  | false => exact adds
  | true =>
    intro before around
    show Reader.run ⟨before, around⟩ (.opening :: (glyphs ++ [.closing])) = _
    rw [Reader.run_cons, Reader.run_append]
    show (Reader.run ⟨{}, before :: around⟩ glyphs).run [.closing] = _
    rw [adds, Content.empty_beside]
    rfl

theorem Adds.again {glyphs : List Glyph} {content : Content} {glyph : Glyph}
    {wrap : Expression -> Expression} (adds : Adds glyphs content) (full : content.Full)
    (step : forall before around,
      Reader.step ⟨before, around⟩ glyph = ⟨before.again wrap, around⟩) :
    Adds (glyphs ++ [glyph]) (content.again wrap) := by
  intro before around
  rw [Reader.run_append, adds, Reader.run_cons, step,
    Content.beside_again before full.items_ne_nil]
  rfl

theorem adds_glyphsOfItems (adds : forall item, item ∈ items -> Adds item.glyphs item.content) :
    Adds (glyphsOfItems items) (contentOfItems items) := by
  induction items with
  | nil =>
    intro before around
    rw [contentOfItems, Content.beside_empty]
    rfl
  | cons item items inductionHypothesis =>
    intro before around
    have here := (adds item List.mem_cons_self).grouped item.isAlternation
    have further := inductionHypothesis fun other member =>
      adds other (List.mem_cons_of_mem item member)
    rw [glyphsOfItems, Reader.run_append, here, further, Content.beside_assoc, contentOfItems]

theorem adds_glyphsBehindBars (adds : Adds first.glyphs first.content)
    (addsOthers : forall item, item ∈ others -> Adds item.glyphs item.content) :
    Adds (first.glyphs ++ glyphsBehindBars others) (contentOfAlternatives (first :: others)) := by
  induction others generalizing first with
  | nil =>
    rw [glyphsBehindBars, List.append_nil]
    exact adds
  | cons next others inductionHypothesis =>
    have further := inductionHypothesis (addsOthers next List.mem_cons_self) fun other member =>
      addsOthers other (List.mem_cons_of_mem next member)
    intro before around
    rw [glyphsBehindBars, Reader.run_append, adds, Reader.run_cons]
    show Reader.run ⟨⟨(before.beside first.content).complete ++ _, []⟩, around⟩ _ = _
    rw [further, Content.beside_bar, contentOfAlternatives, Content.beside_or]

/-- The glyphs of an expression say its content, wherever they stand. -/
theorem adds_glyphs (expression : Expression) (listable : expression.isListable = true) :
    Adds expression.glyphs expression.content := by
  induction expression using Expression.induction with
  | literal kind text =>
    intro before around
    cases text <;> rfl
  | rule | mock =>
    intro before around
    rfl
  | sequence items inductionHypothesis =>
    rcases isListable_parts_iff.mp listable with ⟨-, listable⟩
    exact adds_glyphsOfItems fun item member =>
      inductionHypothesis item member (listable item member)
  | choice alternatives inductionHypothesis =>
    rcases isListable_parts_iff.mp listable with ⟨ne_nil, listable⟩
    have each := fun item member => inductionHypothesis item member (listable item member)
    cases alternatives with
    | nil => exact absurd rfl ne_nil
    | cons first others =>
      exact adds_glyphsBehindBars (each first List.mem_cons_self) fun item member =>
        each item (List.mem_cons_of_mem first member)
  | optional body inductionHypothesis =>
    intro before around
    rw [glyphs, Reader.run_cons, Reader.run_append]
    show (Reader.run ⟨{}, before :: around⟩ body.glyphs).run [.right] = _
    rw [inductionHypothesis listable, Content.empty_beside]
    rfl
  | zeroOrMore body inductionHypothesis =>
    have full := (full_content body listable).grouped body.isCompound
    exact ((inductionHypothesis listable).grouped body.isCompound).again full fun _ _ => rfl
  | oneOrMore body inductionHypothesis =>
    have full := (full_content body listable).grouped body.isCompound
    exact ((inductionHypothesis listable).grouped body.isCompound).again full fun _ _ => rfl

/-- What is read from the glyphs of an expression is what its content says. -/
theorem read_glyphs (listable : expression.isListable = true) :
    Listing.read expression.glyphs = expression.content.value := by
  show (Reader.run ⟨{}, []⟩ expression.glyphs).content.value = _
  rw [adds_glyphs expression listable, Content.empty_beside]

end Expression
end Packrat
