import Packrat.Proofs.Places

namespace Packrat
namespace Source

/-!
# Line breaks byte by byte

In UTF-8 the bytes of a line feed and of a carriage return occur in no other character.  So the
lines of a text begin where a reader of single bytes finds them, which looks at one byte more behind
a carriage return.
-/

variable {c : Char} {byte : UInt8} {bytes rest : List UInt8} {text : List Char}

def feedByte : UInt8 :=
  10

def returnByte : UInt8 :=
  13

/-- The offsets just after the line ends of a sequence of bytes that begins at `offset`. -/
def startsOfBytes (offset : Nat) : List UInt8 -> List Nat
  | [] => []
  | byte :: rest =>
    if byte = feedByte ∨ byte = returnByte ∧ rest.head? ≠ some feedByte then
      (offset + 1) :: startsOfBytes (offset + 1) rest
    else startsOfBytes (offset + 1) rest

def bytesOf (text : List Char) : List UInt8 :=
  text.flatMap String.utf8EncodeChar

theorem bytesOf_toList (source : String) :
    bytesOf source.toList = source.toByteArray.data.toList := by
  rw [← String.utf8Encode_toList, List.utf8Encode, List.toList_data_toByteArray]
  rfl

theorem plain_of_mem_encode (notFeed : c ≠ '\n') (notReturn : c ≠ '\r')
    (member : byte ∈ String.utf8EncodeChar c) : byte ≠ feedByte ∧ byte ≠ returnByte := by
  have code : c.val.toNat ≠ 10 ∧ c.val.toNat ≠ 13 := by
    constructor
    · intro same
      exact notFeed (Char.ext (UInt32.toNat_inj.mp same))
    · intro same
      exact notReturn (Char.ext (UInt32.toNat_inj.mp same))
  have other : byte.toNat ≠ 10 ∧ byte.toNat ≠ 13 := by
    simp only [String.utf8EncodeChar] at member
    generalize c.val.toNat = value at code member
    -- Behind the first branch every byte has its highest bit set.
    split at member
    · cases List.mem_singleton.mp member
      rw [UInt8.toNat_ofNat']
      omega
    · split at member
      · simp only [List.mem_cons, List.not_mem_nil, or_false] at member
        rcases member with rfl | rfl <;> rw [UInt8.toNat_ofNat'] <;> omega
      · split at member
        · simp only [List.mem_cons, List.not_mem_nil, or_false] at member
          rcases member with rfl | rfl | rfl <;> rw [UInt8.toNat_ofNat'] <;> omega
        · simp only [List.mem_cons, List.not_mem_nil, or_false] at member
          rcases member with rfl | rfl | rfl | rfl <;> rw [UInt8.toNat_ofNat'] <;> omega
  exact ⟨fun same => other.1 (congrArg UInt8.toNat same),
    fun same => other.2 (congrArg UInt8.toNat same)⟩

theorem startsOfBytes_append
    (plain : forall byte, byte ∈ bytes -> byte ≠ feedByte ∧ byte ≠ returnByte) (offset : Nat) :
    startsOfBytes offset (bytes ++ rest) = startsOfBytes (offset + bytes.length) rest := by
  induction bytes generalizing offset with
  | nil => rfl
  | cons byte bytes inductionHypothesis =>
    rcases plain byte List.mem_cons_self with ⟨notFeed, notReturn⟩
    rw [List.cons_append, startsOfBytes, if_neg (by simp [notFeed, notReturn]),
      inductionHypothesis fun other member => plain other (List.mem_cons_of_mem byte member),
      List.length_cons, Nat.add_assoc, Nat.add_comm 1]

theorem head?_bytesOf : (bytesOf text).head? = some feedByte <-> text.head? = some '\n' := by
  cases text with
  | nil => exact iff_of_false nofun nofun
  | cons c text =>
    cases encoded : String.utf8EncodeChar c with
    | nil => exact absurd encoded String.utf8EncodeChar_ne_nil
    | cons byte bytes =>
      rw [bytesOf, List.flatMap_cons, encoded, List.cons_append, List.head?_cons, List.head?_cons,
        Option.some.injEq, Option.some.injEq]
      by_cases feed : c = '\n'
      · subst feed
        cases encoded
        exact iff_of_true rfl rfl
      · refine iff_of_false (fun first => ?_) feed
        by_cases returns : c = '\r'
        · subst returns
          cases encoded
          cases first
        · have member : byte ∈ String.utf8EncodeChar c := encoded ▸ List.mem_cons_self
          exact (plain_of_mem_encode feed returns member).1 first

/-- Reading bytes finds the lines of the text that they encode. -/
theorem startsOfBytes_bytesOf (text : List Char) (offset : Nat) :
    startsOfBytes offset (bytesOf text) = startsAfterBreaks offset text := by
  have feed_cons : forall rest, bytesOf ('\n' :: rest) = feedByte :: bytesOf rest := fun _ => rfl
  have return_cons : forall rest, bytesOf ('\r' :: rest) = returnByte :: bytesOf rest :=
    fun _ => rfl
  fun_induction startsAfterBreaks offset text with
  | case1 => rfl
  | case2 offset rest inductionHypothesis =>
    rw [return_cons, startsOfBytes, if_neg (by simp [feed_cons, returnByte, feedByte]), feed_cons,
      startsOfBytes, if_pos (Or.inl rfl), inductionHypothesis]
  | case3 offset rest single inductionHypothesis =>
    have alone : (bytesOf rest).head? ≠ some feedByte := by
      rw [ne_eq, head?_bytesOf]
      intro first
      rcases List.head?_eq_some_iff.mp first with ⟨more, rfl⟩
      exact single more rfl
    rw [return_cons, startsOfBytes, if_pos (Or.inr ⟨rfl, alone⟩), inductionHypothesis]
  | case4 offset rest inductionHypothesis =>
    rw [feed_cons, startsOfBytes, if_pos (Or.inl rfl), inductionHypothesis]
  | case5 offset c rest _ notReturn notFeed inductionHypothesis =>
    have plain : forall byte, byte ∈ String.utf8EncodeChar c ->
        byte ≠ feedByte ∧ byte ≠ returnByte := fun _ => plain_of_mem_encode notFeed notReturn
    rw [bytesOf, List.flatMap_cons, startsOfBytes_append plain, String.length_utf8EncodeChar]
    exact inductionHypothesis

end Source
end Packrat
