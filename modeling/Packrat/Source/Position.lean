namespace Packrat
namespace Source

/-!
# Places in a source text

An offset counts the bytes of the text in UTF-8 before a place.  A position adds the line and the
column, where a column counts characters.  All three start at zero and are shown starting at one.
-/

/-- The number of bytes that some characters take in UTF-8. -/
def byteLength : List Char -> Nat
  | [] => 0
  | c :: text => c.utf8Size + byteLength text

@[simp] theorem byteLength_nil : byteLength [] = 0 :=
  rfl

@[simp] theorem byteLength_cons (c : Char) (text : List Char) :
    byteLength (c :: text) = c.utf8Size + byteLength text :=
  rfl

@[simp] theorem byteLength_append (first second : List Char) :
    byteLength (first ++ second) = byteLength first + byteLength second := by
  induction first with
  | nil => simp
  | cons c first lengths => simp [lengths, Nat.add_assoc]

/-- A place in a source text.  The offset determines line and column; these are kept beside it so
that a message needs no text. -/
structure Position where
  offset : Nat := 0
  line : Nat := 0
  column : Nat := 0
  deriving DecidableEq, Inhabited

/-- The stretch of a source text from one offset up to another, which is not a part of it.  A token
without text has an empty one. -/
structure Span where
  start : Nat
  stop : Nat
  deriving DecidableEq, Inhabited

namespace Position

/-- Line and column, both counted from one. -/
def display (position : Position) : String :=
  s!"{position.line + 1}:{position.column + 1}"

end Position

namespace Span

/-- The empty span at an offset. -/
def emptyAt (offset : Nat) : Span :=
  ⟨offset, offset⟩

end Span
end Source
end Packrat
