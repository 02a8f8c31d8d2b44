import Mathlib.Algebra.Order.BigOperators.Group.List
import Mathlib.Algebra.Order.BigOperators.GroupWithZero.List
import Mathlib.Tactic.Ring
import Packrat.BuiltIn.Grammar
import Packrat.Proofs.Grouping

namespace Packrat

/-!
# Ambiguous listings

Where a compound hides, parentheses are missing from a listing, and what it says is lighter than the
expression.  So a listing says the plain expression exactly when nothing hides.  It is unambiguous
among the expressions where nothing hides, and where something does it can be the listing of another
expression.
-/

/-! ## Weights of contents -/

namespace Listing
namespace Content

variable {content first second : Content}

def product (items : List Expression) : Nat :=
  (items.map Expression.weight).prod

/-- The weight of the expression that a content says. -/
def total (content : Content) : Nat :=
  (content.alternatives.map product).sum

theorem weight_value (content : Content) : content.value.weight = content.total := by
  rw [value, Expression.weight_combine, List.map_map]
  refine congrArg List.sum (List.map_congr_left fun items _ => ?_)
  exact Expression.weight_combine .sequence items

theorem total_item (expression : Expression) : (item expression).total = expression.weight := by
  simp [total, item, alternatives, product]

theorem total_grouped (content : Content) (needed : Bool) :
    (content.grouped needed).total = content.total := by
  cases needed with
  | true => exact (total_item content.value).trans content.weight_value
  | false => rfl

theorem total_or (first second : Content) :
    (first.or second).total = first.total + second.total := by
  rw [total, alternatives_or, List.map_append, List.sum_append, total, total]

theorem product_append (first second : List Expression) :
    product (first ++ second) = product first * product second := by
  rw [product, List.map_append, List.prod_append, product, product]

theorem two_le_product {items : List Expression} (ne_nil : items ≠ [])
    (solid : forall item, item ∈ items -> IsSolid item) : 2 ≤ product items := by
  refine Expression.two_le_total .sequence (List.map_eq_nil_iff.not.mpr ne_nil)
    fun weight member => ?_
  rcases List.mem_map.mp member with ⟨item, listed, rfl⟩
  exact (solid item listed).2

theorem sum_pos {alternatives : List (List Expression)} (ne_nil : alternatives ≠ [])
    (full : forall items, items ∈ alternatives ->
      items ≠ [] ∧ forall item, item ∈ items -> IsSolid item) :
    0 < (alternatives.map product).sum := by
  cases alternatives with
  | nil => exact absurd rfl ne_nil
  | cons items others =>
    have here := full items List.mem_cons_self
    have some := two_le_product here.1 here.2
    rw [List.map_cons, List.sum_cons]
    omega

/-- Nothing gets heavier when it loses the parentheses that it had as a factor. -/
theorem loose_le (before after : Nat) {last next : Nat} (some : 1 ≤ last) (someNext : 1 ≤ next) :
    before + (last * next + after) ≤ (before + last) * (next + after) := by
  have lost : before ≤ before * (next + after) := Nat.le_mul_of_pos_right _ (by omega)
  have gained : after ≤ last * after := Nat.le_mul_of_pos_left _ some
  calc before + (last * next + after)
      ≤ before * (next + after) + (last * next + last * after) := by omega
    _ = (before + last) * (next + after) := by ring

/-- Something before or after that belonged to a factor gets lighter without its parentheses. -/
theorem loose_lt {before last next after : Nat} (some : 2 ≤ last) (someNext : 2 ≤ next)
    (several : 0 < before ∨ 0 < after) :
    before + (last * next + after) < (before + last) * (next + after) := by
  have kept : before * 2 ≤ before * (next + after) := Nat.mul_le_mul_left _ (by omega)
  have gained : 2 * after ≤ last * after := Nat.mul_le_mul_right _ some
  calc before + (last * next + after)
      < before * (next + after) + (last * next + last * after) := by omega
    _ = (before + last) * (next + after) := by ring

theorem total_eq (content : Content) :
    content.total = (content.complete.map product).sum + product content.items := by
  rw [total, alternatives, List.map_append, List.sum_append, List.map_singleton,
    List.sum_singleton]

/-- What stands behind a content without parentheses makes it at most as heavy as with them. -/
theorem total_beside_le (full : first.Full) (next : second = {} ∨ second.Full) :
    (first.beside second).total ≤ first.total * second.total := by
  rcases next with rfl | fullNext
  · rw [beside_empty]
    exact Nat.le_of_eq (Nat.mul_one _).symm
  · rcases second.exists_alternatives_beside with ⟨items, others, second_eq, joined⟩
    have last := full first.items first.items_mem_alternatives
    have some := two_le_product last.1 last.2
    rw [Full, second_eq] at fullNext
    have next := fullNext items List.mem_cons_self
    have someNext := two_le_product next.1 next.2
    rw [total, joined, total_eq first, total, second_eq, List.map_append, List.map_cons,
      List.map_cons, List.sum_append, List.sum_cons, List.sum_cons, product_append]
    exact loose_le _ _ (by omega) (by omega)

/-- Where there are several alternatives, missing parentheses make a content lighter. -/
theorem total_beside_lt (full : first.Full) (fullNext : second.Full)
    (several : first.complete ≠ [] ∨ second.complete ≠ []) :
    (first.beside second).total < first.total * second.total := by
  rcases second.exists_alternatives_beside with ⟨items, others, second_eq, joined⟩
  have last := full first.items first.items_mem_alternatives
  have some := two_le_product last.1 last.2
  have count : second.complete.length = others.length :=
    Nat.succ.inj (List.length_append.symm.trans (congrArg List.length second_eq))
  rw [Full, second_eq] at fullNext
  have next := fullNext items List.mem_cons_self
  have someNext := two_le_product next.1 next.2
  have more : 0 < (first.complete.map product).sum ∨ 0 < (others.map product).sum := by
    rcases several with before | after
    · exact Or.inl (sum_pos before fun items member => full items (List.mem_append_left _ member))
    · refine Or.inr (sum_pos ?_ fun items member => fullNext items (List.mem_cons_of_mem _ member))
      rintro rfl
      exact after (List.length_eq_zero_iff.mp count)
  rw [total, joined, total_eq first, total, second_eq, List.map_append, List.map_cons,
    List.map_cons, List.sum_append, List.sum_cons, List.sum_cons, product_append]
  exact loose_lt some someNext more

/-- A repetition of the last factor is at most as heavy as one of all that is before it. -/
theorem again_le (before : Nat) {front last : Nat} (some : 1 ≤ front) (someLast : 1 ≤ last) :
    before + front * (last * last) ≤ (before + front * last) * (before + front * last) := by
  have product : 1 ≤ front * last := Nat.mul_pos some someLast
  have least : front * (last * last) ≤ front * (front * (last * last)) :=
    Nat.le_mul_of_pos_left _ some
  calc before + front * (last * last)
      ≤ before + (front * (front * (last * last)) + before) := by omega
    _ = before + (front * last * (front * last) + before) := by ring
    _ ≤ (before + front * last) * (front * last + before) := loose_le before before product product
    _ = (before + front * last) * (before + front * last) := by ring

/-- Something before the last factor makes the repetition of all heavier. -/
theorem again_lt {before front last : Nat} (some : 1 ≤ front) (someLast : 2 ≤ last)
    (several : 0 < before ∨ 2 ≤ front) :
    before + front * (last * last) < (before + front * last) * (before + front * last) := by
  have square : 0 < last * last := Nat.mul_pos (by omega) (by omega)
  have more : front * (last * last) < before + front * (front * (last * last)) := by
    rcases several with early | factors
    · have least : front * (last * last) ≤ front * (front * (last * last)) :=
        Nat.le_mul_of_pos_left _ some
      omega
    · have twice : 2 * (front * (last * last)) ≤ front * (front * (last * last)) :=
        Nat.mul_le_mul_right _ factors
      have positive : 0 < front * (last * last) := Nat.mul_pos some square
      omega
  have product : 1 ≤ front * last := Nat.mul_pos some (by omega)
  calc before + front * (last * last)
      < before + (front * (front * (last * last)) + before) := by omega
    _ = before + (front * last * (front * last) + before) := by ring
    _ ≤ (before + front * last) * (front * last + before) := loose_le before before product product
    _ = (before + front * last) * (before + front * last) := by ring

/-- What is repeated is at least as heavy as what a star behind it repeats. -/
theorem Full.total_again (full : content.Full) {wrap : Expression -> Expression}
    (weight_eq : forall item, (wrap item).weight = item.weight * item.weight) :
    (content.again wrap).total ≤ content.total * content.total ∧
      (content.complete ≠ [] ∨ 2 ≤ content.items.length ->
        (content.again wrap).total < content.total * content.total) := by
  rcases full.exists_last with ⟨front, last, items_eq, again_eq⟩
  have own := full content.items content.items_mem_alternatives
  rw [items_eq, List.forall_mem_append, List.forall_mem_singleton] at own
  have last_eq : forall item, product [item] = item.weight := fun item => List.prod_singleton
  have whole : content.total =
      (content.complete.map product).sum + product front * last.weight := by
    rw [total_eq, items_eq, product_append, last_eq]
  have repeated : (content.again wrap).total =
      (content.complete.map product).sum + product front * (last.weight * last.weight) := by
    rw [again_eq, total_eq, product_append, last_eq, weight_eq]
  have heavy : 2 ≤ last.weight := own.2.2.2
  have frontPos : 1 ≤ product front := by
    cases front with
    | nil => exact Nat.le_refl 1
    | cons => exact Nat.le_of_succ_le (two_le_product (List.cons_ne_nil _ _) own.2.1)
  rw [whole, repeated]
  refine ⟨again_le _ frontPos (by omega), fun several => again_lt frontPos heavy ?_⟩
  rcases several with alternatives | items
  · exact Or.inl (sum_pos alternatives fun items member =>
      full items (List.mem_append_left _ member))
  · refine Or.inr (two_le_product ?_ own.2.1)
    rintro rfl
    rw [items_eq] at items
    exact absurd items (Nat.lt_irrefl 1)

/-- Two contents next to each other have several parts. -/
theorem Full.several_beside (full : first.Full) (fullNext : second.Full) :
    (first.beside second).complete ≠ [] ∨ 2 ≤ (first.beside second).items.length := by
  rcases second with ⟨_ | ⟨items, complete⟩, last⟩
  · have some := List.length_pos_iff.mpr full.items_ne_nil
    have someNext := List.length_pos_iff.mpr fullNext.items_ne_nil
    refine Or.inr ?_
    show 2 ≤ (first.items ++ last).length
    rw [List.length_append]
    exact Nat.add_le_add some someNext
  · exact Or.inl (List.append_ne_nil_of_right_ne_nil _ (List.cons_ne_nil _ _))

end Content
end Listing

/-! ## What missing parentheses weigh -/

namespace Expression

open Listing

variable {expression : Expression} {items : List Expression}

/-- What an expression hides is in its content. -/
theorem several_content (expression : Expression) (listable : expression.isListable = true) :
    (expression.unwrapped.isAlternation = true -> expression.content.complete ≠ []) ∧
      (expression.unwrapped.isCompound = true ->
        expression.content.complete ≠ [] ∨ 2 ≤ expression.content.items.length) := by
  induction expression using Expression.induction with
  | sequence items inductionHypothesis =>
    rcases isListable_parts_iff.mp listable with ⟨ne_nil, each⟩
    have full := fun item member => full_content item (each item member)
    rcases items with _ | ⟨first, _ | ⟨second, others⟩⟩
    · exact absurd rfl ne_nil
    · have here := inductionHypothesis first List.mem_cons_self (each first List.mem_cons_self)
      cases alternation : first.isAlternation with
      | true =>
        rw [unwrapped, alternation]
        exact ⟨fun hides => absurd hides Bool.false_ne_true,
          fun hides => absurd hides Bool.false_ne_true⟩
      | false =>
        rw [unwrapped, content, contentOfItems, contentOfItems, Content.beside_empty, alternation]
        exact here
    · refine ⟨fun hides => absurd hides Bool.false_ne_true, fun _ => ?_⟩
      exact ((full first List.mem_cons_self).grouped _).several_beside
        (full_contentOfItems (List.cons_ne_nil _ _) fun item member =>
          full item (List.mem_cons_of_mem first member))
  | choice alternatives inductionHypothesis =>
    rcases isListable_parts_iff.mp listable with ⟨ne_nil, each⟩
    rcases alternatives with _ | ⟨first, _ | ⟨second, others⟩⟩
    · exact absurd rfl ne_nil
    · rw [unwrapped]
      exact inductionHypothesis first List.mem_cons_self (each first List.mem_cons_self)
    · have several : (choice (first :: second :: others)).content.complete ≠ [] :=
        List.append_ne_nil_of_right_ne_nil _ (List.cons_ne_nil _ _)
      exact ⟨fun _ => several, fun _ => Or.inl several⟩
  | _ =>
    exact ⟨fun hides => absurd hides Bool.false_ne_true,
      fun hides => absurd hides Bool.false_ne_true⟩

theorem full_rest {item : Expression}
    (full : forall other, other ∈ item :: items -> other.content.Full) :
    contentOfItems items = {} ∨ (contentOfItems items).Full := by
  cases items with
  | nil => exact Or.inl rfl
  | cons => exact Or.inr (full_contentOfItems (List.cons_ne_nil _ _) fun other member =>
      full other (List.mem_cons_of_mem item member))

/-- Items next to each other are at most as heavy as their sequence. -/
theorem total_contentOfItems_le (full : forall item, item ∈ items -> item.content.Full)
    (least : forall item, item ∈ items -> item.content.total ≤ item.weight) :
    (contentOfItems items).total ≤ (items.map weight).prod := by
  induction items with
  | nil => exact Nat.le_refl 1
  | cons item items inductionHypothesis =>
    have here := (full item List.mem_cons_self).grouped item.isAlternation
    have fullRest := fun other member => full other (List.mem_cons_of_mem item member)
    have leastRest := fun other member => least other (List.mem_cons_of_mem item member)
    rw [contentOfItems, List.map_cons, List.prod_cons]
    refine (Content.total_beside_le here (full_rest full)).trans ?_
    rw [Content.total_grouped]
    exact Nat.mul_le_mul (least item List.mem_cons_self) (inductionHypothesis fullRest leastRest)

theorem prod_weight_pos (listable : forall item, item ∈ items -> item.isListable = true) :
    0 < (items.map weight).prod := by
  refine List.prod_pos fun weight member => ?_
  rcases List.mem_map.mp member with ⟨item, listed, rfl⟩
  exact Nat.zero_lt_of_lt (two_le_weight item (listable item listed))

/-- Where an item is lighter, the items next to each other are. -/
theorem total_contentOfItems_lt (listable : forall item, item ∈ items -> item.isListable = true)
    (least : forall item, item ∈ items -> item.content.total ≤ item.weight)
    (lighter : Exists fun item => item ∈ items ∧ item.content.total < item.weight) :
    (contentOfItems items).total < (items.map weight).prod := by
  have full := fun item member => full_content item (listable item member)
  induction items with
  | nil =>
    rcases lighter with ⟨item, member, -⟩
    cases member
  | cons item items inductionHypothesis =>
    have listableRest := fun other member => listable other (List.mem_cons_of_mem item member)
    have leastRest := fun other member => least other (List.mem_cons_of_mem item member)
    have fullRest := fun other member => full other (List.mem_cons_of_mem item member)
    have here := (full item List.mem_cons_self).grouped item.isAlternation
    rw [contentOfItems, List.map_cons, List.prod_cons]
    refine (Content.total_beside_le here (full_rest full)).trans_lt ?_
    rw [Content.total_grouped]
    rcases lighter with ⟨other, member, lighter⟩
    rcases List.mem_cons.mp member with rfl | later
    · exact Nat.mul_lt_mul_of_lt_of_le lighter (total_contentOfItems_le fullRest leastRest)
        (prod_weight_pos listableRest)
    · exact Nat.mul_lt_mul_of_le_of_lt (least item List.mem_cons_self)
        (inductionHypothesis listableRest leastRest ⟨other, later, lighter⟩ fullRest)
        (Nat.zero_lt_of_lt (two_le_weight item (listable item List.mem_cons_self)))

theorem complete_contentOfItems : (contentOfItems items).complete = [] <->
    forall item, item ∈ items -> (item.content.grouped item.isAlternation).complete = [] := by
  induction items with
  | nil => exact ⟨fun _ _ member => absurd member List.not_mem_nil, fun _ => rfl⟩
  | cons item items inductionHypothesis =>
    rw [contentOfItems, complete_beside, inductionHypothesis, List.forall_mem_cons]

/-- Where an item beside others has several alternatives, the items are lighter than their
sequence. -/
theorem total_contentOfItems_lt_of_complete
    (full : forall item, item ∈ items -> item.content.Full)
    (least : forall item, item ∈ items -> item.content.total ≤ item.weight)
    (several : items.length ≠ 1) (complete : (contentOfItems items).complete ≠ []) :
    (contentOfItems items).total < (items.map weight).prod := by
  rcases items with _ | ⟨item, _ | ⟨next, items⟩⟩
  · exact absurd rfl complete
  · exact absurd rfl several
  · have here := (full item List.mem_cons_self).grouped item.isAlternation
    have fullRest := fun other member => full other (List.mem_cons_of_mem item member)
    have leastRest := fun other member => least other (List.mem_cons_of_mem item member)
    rw [contentOfItems, Ne, complete_beside, not_and_or] at complete
    rw [contentOfItems, List.map_cons, List.prod_cons]
    refine (Content.total_beside_lt here (full_contentOfItems (List.cons_ne_nil _ _) fullRest)
      complete).trans_le ?_
    rw [Content.total_grouped]
    exact Nat.mul_le_mul (least item List.mem_cons_self)
      (total_contentOfItems_le fullRest leastRest)

/-- Alternatives are as heavy as their contents together. -/
theorem total_contentOfAlternatives (ne_nil : items ≠ []) :
    (contentOfAlternatives items).total = (items.map fun item => item.content.total).sum := by
  induction items with
  | nil => exact absurd rfl ne_nil
  | cons item items inductionHypothesis =>
    cases items with
    | nil => exact List.sum_singleton.symm
    | cons next items =>
      rw [contentOfAlternatives, Content.total_or, inductionHypothesis (List.cons_ne_nil _ _)]
      exact List.sum_cons.symm

/-- How heavy the content of an expression is: at most as the expression, and lighter when something
hides. -/
def Weighs (expression : Expression) : Prop :=
  expression.content.total ≤ expression.weight ∧
    (expression.isGrouped = false -> expression.content.total < expression.weight)

/-- A repetition is lighter when something hides in what is repeated, or when this hides several
parts. -/
theorem Weighs.repeated (weighs : expression.Weighs) (listable : expression.isListable = true)
    {wrap : Expression -> Expression}
    (weight_eq : forall item, (wrap item).weight = item.weight * item.weight) :
    let content := (expression.content.grouped expression.isCompound).again wrap
    content.total ≤ expression.weight * expression.weight ∧
      ((expression.isGrouped && !expression.hidesCompound) = false ->
        content.total < expression.weight * expression.weight) := by
  intro content
  have full := (full_content expression listable).grouped expression.isCompound
  rcases full.total_again weight_eq with ⟨least, lighter⟩
  rw [Content.total_grouped] at least lighter
  refine ⟨least.trans (Nat.mul_le_mul weighs.1 weighs.1), fun hides => ?_⟩
  rw [Bool.and_eq_false_iff, Bool.not_eq_false'] at hides
  rcases hides with inside | hides
  · exact least.trans_lt (Nat.mul_self_lt_mul_self (weighs.2 inside))
  · rw [hidesCompound, Bool.and_eq_true, Bool.not_eq_true'] at hides
    have several := (several_content expression listable).2 hides.1
    have alone : expression.content.grouped expression.isCompound = expression.content := by
      rw [hides.2]
      rfl
    rw [alone] at lighter
    show ((expression.content.grouped expression.isCompound).again wrap).total < _
    rw [alone]
    exact (lighter several).trans_le (Nat.mul_le_mul weighs.1 weighs.1)

theorem weighs (expression : Expression) (listable : expression.isListable = true) :
    expression.Weighs := by
  induction expression using Expression.induction with
  | literal kind text =>
    refine ⟨Nat.le_of_eq ?_, fun hides => absurd hides.symm Bool.false_ne_true⟩
    cases text <;> rfl
  | rule | mock => exact ⟨Nat.le_refl 2, fun hides => absurd hides.symm Bool.false_ne_true⟩
  | optional body inductionHypothesis =>
    have value : (Content.item (optional body.content.value)).total = body.content.total :=
      (Content.total_item _).trans body.content.weight_value
    have inner := inductionHypothesis listable
    rw [Weighs, content, value]
    exact inner
  | zeroOrMore body inductionHypothesis =>
    exact (inductionHypothesis listable).repeated listable fun _ => rfl
  | oneOrMore body inductionHypothesis =>
    exact (inductionHypothesis listable).repeated listable fun _ => rfl
  | sequence items inductionHypothesis =>
    rcases isListable_parts_iff.mp listable with ⟨ne_nil, listable⟩
    have each := fun item member => inductionHypothesis item member (listable item member)
    have full := fun item member => full_content item (listable item member)
    have least := fun item member => (each item member).1
    rw [Weighs, content, weight, weightAll_eq]
    refine ⟨total_contentOfItems_le full least, fun hides => ?_⟩
    rw [isGrouped, Bool.and_eq_false_iff, isGroupedAll_eq_false_iff, Bool.or_eq_false_iff,
      beq_eq_false_iff_ne, List.all_eq_false] at hides
    rcases hides with ⟨item, member, inside⟩ | ⟨several, item, member, hides⟩
    · exact total_contentOfItems_lt listable least ⟨item, member, (each item member).2 inside⟩
    · rw [Bool.not_eq_true', Bool.not_eq_false, hidesAlternation, Bool.and_eq_true,
        Bool.not_eq_true'] at hides
      refine total_contentOfItems_lt_of_complete full least several fun single => ?_
      have alone := complete_contentOfItems.mp single item member
      rw [hides.2] at alone
      exact (several_content item (listable item member)).1 hides.1 alone
  | choice alternatives inductionHypothesis =>
    rcases isListable_parts_iff.mp listable with ⟨ne_nil, listable⟩
    have each := fun item member => inductionHypothesis item member (listable item member)
    rw [Weighs, content, weight, weightAll_eq, total_contentOfAlternatives ne_nil]
    refine ⟨List.sum_le_sum fun item member => (each item member).1, fun hides => ?_⟩
    rw [isGrouped, isGroupedAll_eq_false_iff] at hides
    rcases hides with ⟨item, member, inside⟩
    exact List.sum_lt_sum _ _ (fun item member => (each item member).1)
      ⟨item, member, (each item member).2 inside⟩

/-- The content of an expression says the plain expression exactly when nothing hides. -/
theorem value_content_iff (listable : expression.isListable = true) :
    expression.content.value = expression.plain <-> expression.isGrouped = true := by
  refine ⟨fun same => ?_, fun grouped => (faithful expression listable grouped).value⟩
  have weight := expression.content.weight_value
  rw [same, weight_plain] at weight
  by_contra hides
  have lighter := (weighs expression listable).2 (Bool.eq_false_of_not_eq_true hides)
  exact Nat.ne_of_lt lighter weight.symm

/-- Listings are unambiguous where nothing hides, and only there.  Let every sequence and choice
have a part, every rule a name in lower case, and no text a quote.  Then an expression with the same
listing as one where nothing hides is the same expression, with flat sequences and choices, without
those of one part, and with texts taken without their kind, exactly when nothing hides in it
either. -/
theorem plain_eq_iff_of_display_eq {first second : Expression}
    (firstListable : first.isListable = true) (secondListable : second.isListable = true)
    (grouped : first.isGrouped = true) (same : first.display = second.display) :
    first.plain = second.plain <-> second.isGrouped = true := by
  have glyphs := glyphs_eq_of_display_eq firstListable secondListable same
  have value : second.content.value = first.plain := by
    rw [← read_glyphs secondListable, ← glyphs, read_glyphs firstListable]
    exact (value_content_iff firstListable).mpr grouped
  rw [← value_content_iff secondListable, value]

/-- Items in one sequence, and the same items in several sequences and choices. -/
theorem plain_eq_iff_of_display_eq_nested :
    let first := sequence [rule "item", zeroOrMore (sequence [op ",", rule "item"])]
    let second := sequence [choice [rule "item"],
      sequence [zeroOrMore (sequence [word ",", sequence [rule "item"]])]]
    first.isListable = true ∧ second.isListable = true ∧ first.isGrouped = true ∧
      second.isGrouped = true ∧ first.display = second.display ∧ first.plain = second.plain := by
  intro first second
  have firstListable : first.isListable = true := by decide
  have secondListable : second.isListable = true := by decide
  have firstGrouped : first.isGrouped = true := by decide
  have secondGrouped : second.isGrouped = true := by decide
  have same : first.display = second.display := by decide
  exact ⟨firstListable, secondListable, firstGrouped, secondGrouped, same,
    (plain_eq_iff_of_display_eq firstListable secondListable firstGrouped same).mpr secondGrouped⟩

/-- Where something hides, a listing is that of another expression too: a choice among items reads
like a sequence among alternatives, and a repeated sequence like a sequence with a repetition. -/
theorem plain_ne_of_display_eq :
    let hidden := sequence [choice [choice [rule "a", rule "b"]], rule "c"]
    let shown := choice [rule "a", sequence [rule "b", rule "c"]]
    let hiddenItems := zeroOrMore (sequence [sequence [rule "a", rule "b"]])
    let shownItems := sequence [rule "a", zeroOrMore (rule "b")]
    hidden.isListable = true ∧ shown.isListable = true ∧
      hidden.display = "a | b c" ∧ shown.display = "a | b c" ∧ hidden.plain ≠ shown.plain ∧
      hiddenItems.isListable = true ∧ shownItems.isListable = true ∧
      hiddenItems.display = "a b*" ∧ shownItems.display = "a b*" ∧
      hiddenItems.plain ≠ shownItems.plain := by
  decide

end Expression

/-- Nothing hides in the rules of the language. -/
theorem BuiltIn.isGrouped_of_mem_rules {rule : Rule} (listed : rule ∈ BuiltIn.grammar.rules) :
    rule.definition.isListable = true ∧ rule.definition.isGrouped = true := by
  have all : forall rule, rule ∈ BuiltIn.grammar.rules ->
      rule.definition.isListable = true ∧ rule.definition.isGrouped = true := by
    decide +kernel
  exact all rule listed

end Packrat
