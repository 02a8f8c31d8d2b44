import Packrat.Pattern

namespace Packrat

/-!
# Longest matches

A shape is a pattern with what it says about the texts that it matches.  Of several shapes the one
that matches the longest beginning of a text is read, and among equals the first.
-/

/-- A pattern with what it says.  Of the shapes that are being read, each carries what is left of
its pattern and still says the same. -/
structure Shape (Reading : Type) where
  reading : Reading
  pattern : Pattern

namespace Shape

variable {Reading : Type}

/-- The shape left after a character, if any text is left for it. -/
def after? (c : Char) (shape : Shape Reading) : Option (Shape Reading) :=
  let rest := shape.pattern.after c
  if rest.isVoid then none else some ⟨shape.reading, rest⟩

/-- What the first of some shapes says that accepts the text as it stands. -/
def accepted? (live : List (Shape Reading)) : Option Reading :=
  (live.find? fun shape => shape.pattern.acceptsEmpty).map Shape.reading

/-- The longest beginning of a text that one of the shapes matches, with its length in
characters. -/
def longest? (live : List (Shape Reading)) : List Char -> Option (Reading × Nat)
  | [] => (accepted? live).map (·, 0)
  | c :: rest =>
    let next := live.filterMap (after? c)
    let further := if next.isEmpty then none else longest? next rest
    match further with
    | some (reading, length) => some (reading, length + 1)
    | none => (accepted? live).map (·, 0)

/-- How many characters of a text are read before no shape is left.  This may be far beyond the
longest match, and it says nothing about whether there is one. -/
def reach (live : List (Shape Reading)) : List Char -> Nat
  | [] => 0
  | c :: rest =>
    let next := live.filterMap (after? c)
    if next.isEmpty then 0 else reach next rest + 1

end Shape
end Packrat
