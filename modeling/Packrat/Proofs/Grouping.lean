import Packrat.Proofs.Listing

namespace Packrat

/-!
# Hidden compounds

The parentheses of a listing depend on the outermost form of an expression only.  A choice of one
part is not taken for a choice even when this part offers several alternatives, and then no
parentheses stand around them.  Where no compound hides in this way, a listing says the plain
expression.
-/

namespace Expression

open Listing

variable {expression : Expression} {expressions items : List Expression}

/-- An expression without the sequences and choices of one part around it that a listing does not
show.  A sequence around a choice shows, by parentheses. -/
def unwrapped : Expression -> Expression
  | choice [alternative] => unwrapped alternative
  | sequence [item] => if item.isAlternation then sequence [item] else unwrapped item
  | expression => expression

/-- Whether an expression is listed like several alternatives, without being taken for that. -/
def hidesAlternation (expression : Expression) : Bool :=
  expression.unwrapped.isAlternation && !expression.isAlternation

/-- Whether an expression is listed like several parts, without being taken for that. -/
def hidesCompound (expression : Expression) : Bool :=
  expression.unwrapped.isCompound && !expression.isCompound

mutual

/-- Whether nothing hides where parentheses are needed: no item beside others hides several
alternatives, and no repeated expression hides several parts. -/
def isGrouped : Expression -> Bool
  | literal _ _ => true
  | rule _ => true
  | sequence items =>
    isGroupedAll items && (items.length == 1 || items.all fun item => !item.hidesAlternation)
  | choice alternatives => isGroupedAll alternatives
  | optional body => isGrouped body
  | zeroOrMore body => isGrouped body && !body.hidesCompound
  | oneOrMore body => isGrouped body && !body.hidesCompound
  | mock => true

def isGroupedAll : List Expression -> Bool
  | [] => true
  | item :: items => isGrouped item && isGroupedAll items

end

theorem isGroupedAll_eq_false_iff : isGroupedAll expressions = false <->
    Exists fun expression => expression ∈ expressions ∧ expression.isGrouped = false := by
  induction expressions with
  | nil => simp [isGroupedAll]
  | cons expression expressions inductionHypothesis =>
    rw [isGroupedAll, Bool.and_eq_false_iff, inductionHypothesis, List.exists_mem_cons_iff]

theorem isGroupedAll_iff : isGroupedAll expressions = true <->
    forall expression, expression ∈ expressions -> expression.isGrouped = true := by
  induction expressions with
  | nil => simp [isGroupedAll]
  | cons expression expressions inductionHypothesis => simp [isGroupedAll, inductionHypothesis]

/-! ## Where nothing hides -/

/-- The content of an expression whose listing says the plain expression. -/
structure Faithful (expression : Expression) : Prop where
  item : expression.unwrapped.isCompound = false -> expression.content = .item expression.plain
  items : expression.unwrapped.isAlternation = false -> expression.content.complete = []
  value : expression.content.value = expression.plain

theorem Faithful.of_item (content : expression.content = .item expression.plain) :
    expression.Faithful := by
  refine ⟨fun _ => content, fun _ => ?_, ?_⟩
  · rw [content]
    rfl
  · rw [content]
    rfl

/-- What is repeated is one item, by parentheses or by itself. -/
theorem Faithful.repeated (faithful : expression.Faithful)
    (shown : expression.hidesCompound = false) :
    expression.content.grouped expression.isCompound = .item expression.plain := by
  cases compound : expression.isCompound with
  | true => exact congrArg Content.item faithful.value
  | false =>
    rw [hidesCompound, compound, Bool.not_false, Bool.and_true] at shown
    exact faithful.item shown

/-- What stands beside other items has a single alternative, by parentheses or by itself. -/
theorem Faithful.beside (faithful : expression.Faithful)
    (shown : expression.hidesAlternation = false) :
    (expression.content.grouped expression.isAlternation).complete = [] ∧
      (expression.content.grouped expression.isAlternation).value = expression.plain := by
  cases alternation : expression.isAlternation with
  | true => exact ⟨rfl, faithful.value⟩
  | false =>
    rw [hidesAlternation, alternation, Bool.not_false, Bool.and_true] at shown
    exact ⟨faithful.items shown, faithful.value⟩

/-- A wrapper that does not show has the content of what it wraps. -/
theorem Faithful.wrapper {wrapper : Expression} (faithful : expression.Faithful)
    (content : wrapper.content = expression.content) (plain : wrapper.plain = expression.plain)
    (unwrapped : wrapper.unwrapped = expression.unwrapped) : wrapper.Faithful := by
  constructor
  · rw [content, plain, unwrapped]
    exact faithful.item
  · rw [content, unwrapped]
    exact faithful.items
  · rw [content, plain]
    exact faithful.value

/-- A sequence of one item is like the item, or like a choice in parentheses. -/
theorem Faithful.sequence_single {item : Expression} (faithful : item.Faithful) :
    (sequence [item]).Faithful := by
  have content : (sequence [item]).content = item.content.grouped item.isAlternation :=
    Content.beside_empty _
  cases alternation : item.isAlternation with
  | true =>
    refine .of_item ?_
    rw [content, alternation]
    exact congrArg Content.item faithful.value
  | false =>
    rw [alternation] at content
    refine faithful.wrapper content rfl ?_
    rw [unwrapped, alternation]
    rfl

theorem parts_value_of_complete {content : Content} (single : content.complete = []) :
    Combination.sequence.parts content.value =
      content.items.flatMap Combination.sequence.parts := by
  rw [Content.value, Content.alternatives, single]
  exact Combination.sequence.parts_combine content.items

theorem complete_beside {first second : Content} :
    (first.beside second).complete = [] <-> first.complete = [] ∧ second.complete = [] := by
  rcases second with ⟨_ | ⟨_, _⟩, _⟩ <;> simp [Content.beside]

/-- Items without alternatives are put together. -/
theorem parts_contentOfItems (single : forall item, item ∈ items ->
      (item.content.grouped item.isAlternation).complete = [] ∧
        (item.content.grouped item.isAlternation).value = item.plain) :
    (contentOfItems items).complete = [] ∧
      (contentOfItems items).items.flatMap Combination.sequence.parts =
        (items.map plain).flatMap Combination.sequence.parts := by
  induction items with
  | nil => exact ⟨rfl, rfl⟩
  | cons item items inductionHypothesis =>
    rcases single item List.mem_cons_self with ⟨here, value⟩
    have singleRest := fun other member => single other (List.mem_cons_of_mem item member)
    rcases inductionHypothesis singleRest with ⟨further, parts⟩
    have own := parts_value_of_complete here
    rw [value] at own
    refine ⟨complete_beside.mpr ⟨here, further⟩, ?_⟩
    rw [contentOfItems, Content.beside, further]
    simp only
    rw [List.flatMap_append, parts, ← own, List.map_cons, List.flatMap_cons]

theorem parts_value (content : Content) : Combination.choice.parts content.value =
    (content.alternatives.map Combination.sequence.combine).flatMap Combination.choice.parts :=
  Combination.choice.parts_combine _

/-- Alternatives are put together. -/
theorem parts_contentOfAlternatives (ne_nil : items ≠ [])
    (values : forall item, item ∈ items -> item.content.value = item.plain) :
    Combination.choice.parts (contentOfAlternatives items).value =
      (items.map plain).flatMap Combination.choice.parts := by
  induction items with
  | nil => exact absurd rfl ne_nil
  | cons item items inductionHypothesis =>
    have here := values item List.mem_cons_self
    cases items with
    | nil =>
      rw [contentOfAlternatives, here]
      exact (List.append_nil _).symm
    | cons next items =>
      have further := inductionHypothesis (List.cons_ne_nil _ _) fun other member =>
        values other (List.mem_cons_of_mem item member)
      rw [parts_value] at further
      rw [contentOfAlternatives, parts_value, Content.alternatives_or, List.map_append,
        List.flatMap_append, further, ← parts_value, here]
      rfl

/-- Where nothing hides, a content says the plain expression. -/
theorem faithful (expression : Expression) (listable : expression.isListable = true)
    (grouped : expression.isGrouped = true) : expression.Faithful := by
  induction expression using Expression.induction with
  | literal kind text =>
    refine .of_item ?_
    cases text <;> rfl
  | rule | mock => exact .of_item rfl
  | optional body inductionHypothesis =>
    have inner := inductionHypothesis listable grouped
    exact .of_item (congrArg (fun value => Content.item (optional value)) inner.value)
  | zeroOrMore body inductionHypothesis =>
    rw [isGrouped, Bool.and_eq_true, Bool.not_eq_true'] at grouped
    have inner := (inductionHypothesis listable grouped.1).repeated grouped.2
    exact .of_item (congrArg (Content.again · zeroOrMore) inner)
  | oneOrMore body inductionHypothesis =>
    rw [isGrouped, Bool.and_eq_true, Bool.not_eq_true'] at grouped
    have inner := (inductionHypothesis listable grouped.1).repeated grouped.2
    exact .of_item (congrArg (Content.again · oneOrMore) inner)
  | sequence items inductionHypothesis =>
    have proper := isProper_plain _ listable
    have solid := (full_content _ listable).isSolid_value
    rcases isListable_parts_iff.mp listable with ⟨ne_nil, listable⟩
    rw [isGrouped, Bool.and_eq_true, isGroupedAll_iff, Bool.or_eq_true, beq_iff_eq] at grouped
    have each := fun item member =>
      inductionHypothesis item member (listable item member) (grouped.1 item member)
    by_cases single : items.length = 1
    · rcases List.length_eq_one_iff.mp single with ⟨item, rfl⟩
      exact (each item List.mem_cons_self).sequence_single
    · have shown := List.all_eq_true.mp (grouped.2.resolve_left single)
      rcases parts_contentOfItems fun item member =>
        (each item member).beside (Bool.not_eq_true' _ ▸ shown item member) with ⟨complete, parts⟩
      refine ⟨fun simple => ?_, fun _ => complete, solid.1.eq_of_parts_eq .sequence proper ?_⟩
      · rcases items with _ | ⟨first, _ | ⟨second, others⟩⟩
        · exact absurd rfl ne_nil
        · exact absurd rfl single
        · cases simple
      · rw [plain, plainAll_eq, Combination.parts_combine, ← parts]
        exact parts_value_of_complete complete
  | choice alternatives inductionHypothesis =>
    have proper := isProper_plain _ listable
    have solid := (full_content _ listable).isSolid_value
    rcases isListable_parts_iff.mp listable with ⟨ne_nil, listable⟩
    rw [isGrouped, isGroupedAll_iff] at grouped
    have each := fun item member =>
      inductionHypothesis item member (listable item member) (grouped item member)
    rcases alternatives with _ | ⟨first, _ | ⟨second, others⟩⟩
    · exact absurd rfl ne_nil
    · exact (each first List.mem_cons_self).wrapper rfl rfl (by rw [unwrapped])
    · refine ⟨fun simple => ?_, fun simple => ?_, solid.1.eq_of_parts_eq .choice proper ?_⟩
      · cases simple
      · cases simple
      rw [plain, plainAll_eq, Combination.parts_combine]
      exact parts_contentOfAlternatives ne_nil fun item member => (each item member).value

end Expression

end Packrat
