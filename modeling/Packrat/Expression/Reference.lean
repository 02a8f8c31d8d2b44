import Packrat.Expression.Basic

namespace Packrat
namespace Expression

/-!
# Rules that an expression refers to
-/

/-- Add a name at the end of a list of names, unless it is there already.  The order of the names is
that of their first addition. -/
def addName (names : List String) (name : String) : List String :=
  if names.contains name then names else names ++ [name]

def addNames (names more : List String) : List String :=
  more.foldl addName names

mutual

/-- The names of the rules in an expression from left to right, each as often as it occurs. -/
def mentions : Expression -> List String
  | literal _ _ => []
  | rule name => [name]
  | sequence items => mentionsAll items
  | choice alternatives => mentionsAll alternatives
  | optional body => mentions body
  | zeroOrMore body => mentions body
  | oneOrMore body => mentions body
  | mock => []

def mentionsAll : List Expression -> List String
  | [] => []
  | item :: items => mentions item ++ mentionsAll items

end

/-- The rules that an expression refers to, in order of first mention.  Each of them is listed once,
however often it is mentioned. -/
def references (expression : Expression) : List String :=
  addNames [] expression.mentions

theorem mem_addName {names : List String} {name other : String} :
    other ∈ addName names name <-> other ∈ names ∨ other = name := by
  unfold addName
  split
  · rename_i known
    have member : name ∈ names := by simpa using known
    constructor
    · exact Or.inl
    · rintro (found | rfl)
      · exact found
      · exact member
  · simp

theorem mem_addNames {names more : List String} {name : String} :
    name ∈ addNames names more <-> name ∈ names ∨ name ∈ more := by
  unfold addNames
  induction more generalizing names with
  | nil => simp
  | cons head tail ih => rw [List.foldl_cons, ih, mem_addName]; simp [or_assoc]

theorem nodup_addNames {names more : List String} (nodup : names.Nodup) :
    (addNames names more).Nodup := by
  unfold addNames
  induction more generalizing names with
  | nil => exact nodup
  | cons head tail inductionHypothesis =>
    refine inductionHypothesis ?_
    unfold addName
    split
    · exact nodup
    · rename_i unknown
      rw [List.contains_iff_mem] at unknown
      refine List.nodup_append.mpr ⟨nodup, List.pairwise_singleton _ _, ?_⟩
      rintro other within last listed rfl
      cases List.mem_singleton.mp listed
      exact unknown within

theorem mem_references {expression : Expression} {name : String} :
    name ∈ expression.references <-> name ∈ expression.mentions := by
  simp [references, mem_addNames]

theorem nodup_references (expression : Expression) : expression.references.Nodup :=
  nodup_addNames List.nodup_nil

end Expression
end Packrat
