import Packrat.Lexeme.Scan

namespace Packrat

/-!
# Lexemes cover their source

Whatever is read, nothing of the text is lost: the lexemes and the text that is left are the text,
every lexeme has at least one byte, and each begins where the one before it ends.
-/

theorem Source.byteLength_pos {text : List Char} (nonempty : text ≠ []) : 0 < byteLength text := by
  cases text with
  | nil => exact absurd rfl nonempty
  | cons c rest => exact Nat.add_pos_left c.utf8Size_pos _

namespace Lexeme

variable {source : String} {lexemes : List Lexeme} {start stop : Nat}

/-- Lexemes that are not empty follow each other from one offset to another.  So they cover the text
between the offsets, without gaps and without overlaps. -/
def Tiles : Nat -> List Lexeme -> Nat -> Prop
  | start, [], stop => start = stop
  | start, lexeme :: rest, stop =>
    lexeme.start = start ∧ start < lexeme.stop ∧ Tiles lexeme.stop rest stop

theorem scan_append (offset : Nat) (text : List Char) :
    (scan offset text).1.flatMap Lexeme.text ++ (scan offset text).2 = text := by
  fun_induction scan offset text with
  | case1 => rfl
  | case2 offset c rest kind length found lexeme lexemes left again inductionHypothesis =>
    rw [again] at inductionHypothesis
    simp only at inductionHypothesis
    simp only [List.flatMap_cons, List.append_assoc, inductionHypothesis]
    exact congrArg (c :: ·) (List.take_append_drop length rest)
  | case3 => rfl

theorem scan_tiles (offset : Nat) (text : List Char) :
    Tiles offset (scan offset text).1
      (offset + Source.byteLength ((scan offset text).1.flatMap Lexeme.text)) := by
  fun_induction scan offset text with
  | case1 => rfl
  | case2 offset c rest kind length found lexeme lexemes left again inductionHypothesis =>
    rw [again] at inductionHypothesis
    refine ⟨rfl, Nat.lt_add_of_pos_right (Source.byteLength_pos (List.cons_ne_nil _ _)), ?_⟩
    rw [List.flatMap_cons, Source.byteLength_append, ← Nat.add_assoc]
    exact inductionHypothesis
  | case3 => rfl

theorem ofSource_eq_ok_iff :
    ofSource source = .ok lexemes <-> scan 0 source.toList = (lexemes, []) := by
  rw [ofSource, Reader.read?_standard]
  rcases scan 0 source.toList with ⟨found, _ | ⟨c, rest⟩⟩ <;> simp

/-- The error of a source is that of the place where scanning stops before its end. -/
theorem ofSource_eq_error_iff {error : LexError} :
    ofSource source = .error error <->
      Exists fun lexemes => Exists fun c => Exists fun rest =>
        scan 0 source.toList = (lexemes, c :: rest) ∧
          unreadable ((c :: rest).take (Reader.standard.reported (c :: rest))) c
            ((Source.Lines.ofString source).position
              (Source.byteLength (lexemes.flatMap Lexeme.text))) = error := by
  rw [ofSource, Reader.read?_standard]
  rcases scan 0 source.toList with ⟨found, _ | ⟨c, rest⟩⟩
  · simp
  · constructor
    · intro failed
      exact ⟨found, c, rest, rfl, Except.error.inj failed⟩
    · rintro ⟨_, _, _, same, rfl⟩
      cases same
      rfl

theorem position_unreadable (reported : List Char) (c : Char) (position : Source.Position) :
    (unreadable reported c position).position = position := by
  unfold unreadable
  split <;> rfl

/-- The lexemes of a source cover it from its beginning to its end. -/
theorem tiles_of_ofSource (read : ofSource source = .ok lexemes) :
    lexemes.flatMap Lexeme.text = source.toList ∧
      Tiles 0 lexemes (Source.byteLength source.toList) := by
  have scanned := ofSource_eq_ok_iff.mp read
  have whole := scan_append 0 source.toList
  have tiles := scan_tiles 0 source.toList
  rw [scanned] at whole tiles
  rw [List.append_nil] at whole
  rw [whole, Nat.zero_add] at tiles
  exact ⟨whole, tiles⟩

end Lexeme
end Packrat
