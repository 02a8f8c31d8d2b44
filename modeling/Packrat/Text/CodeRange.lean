namespace Packrat
namespace Text

/-!
# Ranges of code points

A character property is a union of closed ranges of code points.  The tables of the sibling
modules list these ranges in ascending order for the characters beyond ASCII; the ASCII part of
a property is written as a rule where it is used.
-/

/-- A closed range of code points, by its first and last member. -/
abbrev CodeRange := Nat × Nat

namespace CodeRange

def has (range : CodeRange) (c : Char) : Bool :=
  range.1 ≤ c.toNat && c.toNat ≤ range.2

def covers (ranges : List CodeRange) (c : Char) : Bool :=
  ranges.any fun range => range.has c

end CodeRange
end Text
end Packrat
