import Packrat.Proofs.Unclosed

namespace Packrat

/-!
# Reading begins afresh after a line feed

A source that can be read to its end and ends with a line feed can be followed by any other text
without being read differently: the lexemes of the two together are those of the first and, further
on, those of the second.

Among the shapes only strings go on behind a line feed, namely behind an escaped one.  But a text
that such a string begins with cannot be read on its own.
-/

/-! ## Longest matches in longer texts -/

namespace Shape

variable {Reading : Type} {live : List (Shape Reading)} {text more : List Char}

/-- No shape matches a beginning that goes beyond a text into what follows it. -/
def EndsWithin (live : List (Shape Reading)) (text more : List Char) : Prop :=
  forall reading beyond, beyond <+: more -> beyond ≠ [] -> ¬ Accepts live reading (text ++ beyond)

/-- Where no shape goes beyond a text, what follows it does not matter. -/
theorem longest?_append (ends : EndsWithin live text more) :
    longest? live (text ++ more) = longest? live text := by
  induction text generalizing live with
  | nil =>
    cases more with
    | nil => rfl
    | cons c rest =>
      have further : longest? (live.filterMap (after? c)) rest = none := by
        cases found : longest? (live.filterMap (after? c)) rest with
        | none => rfl
        | some answer =>
          have longest := longest?_spec (live.filterMap (after? c)) rest
          rw [found] at longest
          refine absurd (accepts_filterMap_after?_iff.mp longest.accepted)
            (ends answer.1 (c :: rest.take answer.2) ?_ (List.cons_ne_nil _ _))
          exact List.cons_prefix_cons.mpr ⟨rfl, List.take_prefix _ _⟩
      rw [List.nil_append, longest?, longest?, further]
      simp only [ite_self]
  | cons c text inductionHypothesis =>
    have later : EndsWithin (live.filterMap (after? c)) text more :=
      fun reading beyond begins some accepts =>
        ends reading beyond begins some (accepts_filterMap_after?_iff.mp accepts)
    rw [List.cons_append, longest?, longest?, inductionHypothesis later]

end Shape

/-! ## Characters that end a match -/

namespace Pattern

/-- Whether no text of a pattern has a character. -/
def avoids (c : Char) : Pattern -> Bool
  | void => true
  | empty => true
  | one test => !test c
  | append p q => p.avoids c && q.avoids c
  | either p q => p.avoids c && q.avoids c
  | many p => p.avoids c

/-- Whether a character is at the end of each text of a pattern in which it occurs. -/
def endsBehind (c : Char) : Pattern -> Bool
  | void => true
  | empty => true
  | one _ => true
  | append p q => p.avoids c && q.endsBehind c
  | either p q => p.endsBehind c && q.endsBehind c
  | many p => p.avoids c

variable {c : Char} {p : Pattern} {text front back : List Char}

theorem not_mem_of_avoids (matched : Matches p text) (avoids : p.avoids c = true) : c ∉ text := by
  induction matched with
  | empty => exact List.not_mem_nil
  | one passes =>
    intro member
    cases List.mem_singleton.mp member
    rw [Pattern.avoids, passes] at avoids
    cases avoids
  | append _ _ firstHypothesis lastHypothesis =>
    rcases Bool.and_eq_true_iff.mp avoids with ⟨first, last⟩
    exact List.not_mem_append (firstHypothesis first) (lastHypothesis last)
  | first _ inductionHypothesis =>
    exact inductionHypothesis (Bool.and_eq_true_iff.mp avoids).1
  | second _ inductionHypothesis =>
    exact inductionHypothesis (Bool.and_eq_true_iff.mp avoids).2
  | stop => exact List.not_mem_nil
  | more _ _ firstHypothesis restHypothesis =>
    exact List.not_mem_append (firstHypothesis avoids) (restHypothesis avoids)

theorem eq_nil_of_endsBehind (matched : Matches p text) (ends : p.endsBehind c = true)
    (split : text = front ++ c :: back) : back = [] := by
  have member : c ∈ text := split ▸ List.mem_append_right _ List.mem_cons_self
  induction matched generalizing front with
  | empty => cases member
  | one =>
    have sizes := congrArg List.length split
    rw [List.length_singleton, List.length_append, List.length_cons] at sizes
    exact List.eq_nil_of_length_eq_zero (by omega)
  | @append p q s t first _ _ lastHypothesis =>
    rcases Bool.and_eq_true_iff.mp ends with ⟨avoids, ends⟩
    have outside := not_mem_of_avoids first avoids
    rcases List.append_eq_append_iff.mp split with ⟨middle, -, last⟩ | ⟨middle, same, last⟩
    · exact lastHypothesis ends last (last ▸ List.mem_append_right _ List.mem_cons_self)
    · rcases List.cons_eq_append_iff.mp last with ⟨rfl, last⟩ | ⟨inside, rfl, -⟩
      · have same : t = [] ++ c :: back := last.symm
        exact lastHypothesis ends same (same ▸ List.mem_cons_self)
      · exact absurd (same ▸ List.mem_append_right _ List.mem_cons_self) outside
  | first _ inductionHypothesis =>
    exact inductionHypothesis (Bool.and_eq_true_iff.mp ends).1 split member
  | second _ inductionHypothesis =>
    exact inductionHypothesis (Bool.and_eq_true_iff.mp ends).2 split member
  | stop => cases member
  | more first rest =>
    exact absurd member (not_mem_of_avoids (.more first rest) ends)

end Pattern

namespace Lexeme

open Pattern

variable {text body : List Char} {quote : Char} {kind : Kind} {length offset : Nat}

private theorem endsBehind_lineFeed : (shapes.all fun shape =>
    shape.reading = .whole .string || shape.pattern.endsBehind '\n') = true := by
  decide

private theorem avoids_lineFeed : (shapes.all fun shape =>
    !(shape.reading = .whole .name) || shape.pattern.avoids '\n') = true := by
  decide

/-! ## Reading beyond a line feed -/

/-- A readable text that ends with a line feed is not read together with what follows it. -/
theorem endsWithin_of_first? (feed : text.getLast? = some '\n') (readable : first? text ≠ none)
    (more : List Char) : Shape.EndsWithin shapes text more := by
  intro reading beyond _ further accepts
  have split : text ++ beyond = text.dropLast ++ '\n' :: beyond := by
    conv_lhs => rw [← List.dropLast_append_getLast? '\n' feed]
    simp
  have string : reading = .whole .string := by
    rcases accepts with ⟨shape, member, rfl, matched⟩
    have computed := List.all_eq_true.mp endsBehind_lineFeed shape member
    simp only [Bool.or_eq_true, decide_eq_true_eq] at computed
    refine computed.resolve_right fun ends => further ?_
    exact eq_nil_of_endsBehind matched ends split
  rw [string] at accepts
  rcases accepts_string accepts with ⟨quote, known, matched⟩
  rcases opened_of_shortString known feed further matched with ⟨mark, body, rfl, marks, opened⟩
  exact readable (opened.first?_eq marks)

theorem Closes.append (closes : Closes quote text length) (more : List Char) :
    Closes quote (text ++ more) length := by
  have inside := closes.length_le
  refine ⟨by rw [List.length_append]; omega, ?_, fun fewer before => ?_⟩
  · rw [List.take_append_of_le_length inside]
    exact closes.matched
  · rw [List.take_append_of_le_length (by omega)]
    exact closes.first fewer before

theorem ne_of_accepts_name (accepts : Shape.Accepts shapes (.whole .name) text) :
    text.getLast? ≠ some '\n' := by
  rcases accepts with ⟨shape, member, named, matched⟩
  have computed := List.all_eq_true.mp avoids_lineFeed shape member
  simp only [named, decide_true, Bool.not_true, Bool.false_or] at computed
  exact fun feed => not_mem_of_avoids matched computed (List.mem_of_getLast? feed)

/-- A string mark without a string is read alike when more follows the last line feed. -/
theorem brokenString?_append {answer : Kind × Nat} (feed : body.getLast? = some '\n')
    (broken : brokenString? length body = some answer) (more : List Char) :
    brokenString? length (body ++ more) = some answer := by
  unfold brokenString? at broken
  split at broken
  · cases feed
  · exact broken
  · exact broken
  · exact absurd (Option.some.inj feed) (by decide)
  · cases broken

/-- The first lexeme of a readable text that ends with a line feed is its first lexeme before any
other text too. -/
theorem first?_append (feed : text.getLast? = some '\n')
    (readable : first? text = some (kind, length)) (more : List Char) :
    first? (text ++ more) = some (kind, length) := by
  have within := endsWithin_of_first? feed (by rw [readable]; exact Option.some_ne_none _) more
  have spec := Shape.longest?_spec shapes text
  rw [first?_eq_some_iff]
  cases first?_eq_some_iff.mp readable with
  | whole longest unmarked =>
    rw [longest] at spec
    refine .whole ((Shape.longest?_append within).trans longest) fun named c body rest => ?_
    subst named
    rw [List.drop_append_of_le_length spec.length_le] at rest
    rw [List.take_append_of_le_length spec.length_le]
    cases tail : text.drop length with
    | nil =>
      have accepted := spec.accepted
      rw [List.take_of_length_le (List.drop_eq_nil_iff.mp tail)] at accepted
      exact absurd feed (ne_of_accepts_name accepted)
    | cons d others =>
      rw [tail] at rest
      cases rest
      exact unmarked rfl c others tail
  | quoted longest closed =>
    rw [longest] at spec
    have notBackslash := quote_of_longest spec
    have closes := ((closing?_eq_some_iff notBackslash).mp closed).append more
    rw [← List.drop_append_of_le_length spec.length_le] at closes
    exact .quoted ((Shape.longest?_append within).trans longest)
      ((closing?_eq_some_iff notBackslash).mpr closes)
  | @marked size c body _ _ longest rest marks broken =>
    rw [longest] at spec
    have feedBody : body.getLast? = some '\n' := by
      rw [← List.take_append_drop size text, rest,
        List.getLast?_append_of_ne_nil _ (List.cons_ne_nil c body)] at feed
      cases body with
      | nil =>
        cases Option.some.inj feed
        cases (Bool.and_eq_true_iff.mp marks).1
      | cons d body => exact feed
    have rest' : (text ++ more).drop size = c :: (body ++ more) := by
      rw [List.drop_append_of_le_length spec.length_le, rest, List.cons_append]
    have begins : (text ++ more).take size = text.take size :=
      List.take_append_of_le_length spec.length_le
    rw [← begins] at marks
    exact .marked ((Shape.longest?_append within).trans longest) rest' marks
      (brokenString?_append feedBody broken more)

theorem brokenString?_le {more : Nat} (broken : brokenString? length body = some (kind, more)) :
    more ≤ length + 1 + body.length := by
  unfold brokenString? at broken
  split at broken <;> cases broken <;> simp only [List.length_cons, List.length_nil] <;> omega

theorem first?_le (found : first? text = some (kind, length)) : length ≤ text.length := by
  have spec := Shape.longest?_spec shapes text
  cases first?_eq_some_iff.mp found with
  | whole longest =>
    rw [longest] at spec
    exact spec.length_le
  | @quoted quote size more longest closed =>
    rw [longest] at spec
    have inside := spec.length_le
    have closes := ((closing?_eq_some_iff (quote_of_longest spec)).mp closed).length_le
    rw [List.length_drop] at closes
    omega
  | marked longest rest _ broken =>
    have sizes := congrArg List.length rest
    rw [List.length_drop, List.length_cons] at sizes
    have bound := brokenString?_le broken
    omega

/-! ## Scanning -/

/-- The lexeme that many bytes further on. -/
def shift (distance : Nat) (lexeme : Lexeme) : Lexeme :=
  { lexeme with start := lexeme.start + distance }

theorem scan_cons {c : Char} {rest : List Char}
    (found : first? (c :: rest) = some (kind, length + 1)) :
    scan offset (c :: rest) =
      (⟨kind, c :: rest.take length, offset⟩ ::
          (scan (offset + Source.byteLength (c :: rest.take length)) (rest.drop length)).1,
        (scan (offset + Source.byteLength (c :: rest.take length)) (rest.drop length)).2) := by
  rw [scan]
  simp only [found]
  rfl

theorem scan_first {piece more : List Char}
    (found : first? (piece ++ more) = some (kind, piece.length)) (nonempty : piece ≠ [])
    (offset : Nat) :
    scan offset (piece ++ more) =
      (⟨kind, piece, offset⟩ :: (scan (offset + Source.byteLength piece) more).1,
        (scan (offset + Source.byteLength piece) more).2) := by
  cases piece with
  | nil => exact absurd rfl nonempty
  | cons c rest =>
    have begins : c :: (rest ++ more).take rest.length = c :: rest := by rw [List.take_left]
    rw [List.cons_append] at found ⊢
    rw [scan_cons found, begins, List.drop_left]

theorem scan_stuck {c : Char} {rest : List Char}
    (nothing : forall kind length, first? (c :: rest) ≠ some (kind, length + 1)) :
    scan offset (c :: rest) = ([], c :: rest) := by
  rw [scan]
  split
  · rename_i kind length found
    exact absurd found (nothing kind length)
  · rfl

theorem scan_shift (distance offset : Nat) (text : List Char) :
    scan (offset + distance) text =
      ((scan offset text).1.map (shift distance), (scan offset text).2) := by
  fun_induction scan offset text with
  | case1 => simp [scan]
  | case2 offset c rest kind length found lexeme lexemes left again inductionHypothesis =>
    have onward : offset + distance + Source.byteLength (c :: rest.take length) =
        lexeme.stop + distance := Nat.add_right_comm _ _ _
    rw [again] at inductionHypothesis
    rw [scan_cons found, onward, inductionHypothesis]
    rfl
  | case3 offset c rest nothing => exact scan_stuck nothing

/-- What is scanned to the end and ends with a line feed is scanned alike before any other text. -/
theorem scan_append_text {text : List Char} (ends : text = [] ∨ text.getLast? = some '\n')
    (read : (scan offset text).2 = []) (more : List Char) :
    scan offset (text ++ more) =
      ((scan offset text).1 ++ (scan (offset + Source.byteLength text) more).1,
        (scan (offset + Source.byteLength text) more).2) := by
  fun_induction scan offset text with
  | case1 => rfl
  | case2 offset c rest kind length found lexeme lexemes left again inductionHypothesis =>
    have feed : (c :: rest).getLast? = some '\n' := ends.resolve_left (List.cons_ne_nil _ _)
    have found' := first?_append feed found more
    have inside : length ≤ rest.length := Nat.le_of_succ_le_succ (first?_le found)
    have whole : (c :: rest.take length) ++ rest.drop length = c :: rest :=
      congrArg (c :: ·) (List.take_append_drop length rest)
    have later : rest.drop length = [] ∨ (rest.drop length).getLast? = some '\n' := by
      by_cases empty : rest.drop length = []
      · exact Or.inl empty
      · rw [← whole, List.getLast?_append_of_ne_nil _ empty] at feed
        exact Or.inr feed
    have onward : offset + Source.byteLength (c :: rest) =
        lexeme.stop + Source.byteLength (rest.drop length) := by
      rw [← whole, Source.byteLength_append, ← Nat.add_assoc]
      rfl
    rw [again] at inductionHypothesis
    rw [List.cons_append] at found' ⊢
    rw [scan_cons found', List.take_append_of_le_length inside,
      List.drop_append_of_le_length inside]
    have further := inductionHypothesis later read
    rw [onward]
    exact congrArg (fun scanned : List Lexeme × List Char => (lexeme :: scanned.1, scanned.2))
      further
  | case3 => cases read

/-- The lexemes of two sources make up those of the sources together, if the first is empty or ends
with a line feed. -/
theorem ofSource_append {first second : String} {lexemes others : List Lexeme}
    (ends : first.toList = [] ∨ first.toList.getLast? = some '\n')
    (read : ofSource first = .ok lexemes) (readOther : ofSource second = .ok others) :
    ofSource (first ++ second) =
      .ok (lexemes ++ others.map (shift (Source.byteLength first.toList))) := by
  have scanned := ofSource_eq_ok_iff.mp read
  have scannedOther := ofSource_eq_ok_iff.mp readOther
  rw [ofSource_eq_ok_iff, String.toList_append,
    scan_append_text ends (congrArg Prod.snd scanned), scanned, scan_shift, scannedOther]

end Lexeme
end Packrat
