import Packrat.Line
import Packrat.Proofs.Munch

namespace Packrat
namespace Lexeme

/-!
# How lexemes are spelled

A lexeme that is neither a name nor a string is in the language of its kind, whatever stands around
it.  So white space, comments, line continuations and line breaks are what they seem, and brackets
can be told from operators by their texts alone.
-/

variable {kind : Kind} {text : List Char} {offset length : Nat} {lexeme : Lexeme}
  {lexemes : List Lexeme} {source : String}

/-- A lexeme is in the language of its kind, or a rule about quotes has gone beyond the patterns. -/
def Spelled (lexeme : Lexeme) : Prop :=
  lexeme.kind ≠ .name -> lexeme.kind ≠ .string ->
    Shape.Accepts shapes (.whole lexeme.kind) lexeme.text

/-! ## Lexemes that are read -/

/-- How a first lexeme is read.  A shape matches the whole of it, and it is no string mark before a
quote; a triple-quoted string goes on from its opening to its end; or a string mark stands before a
quote and no string follows. -/
inductive First (text : List Char) : Kind -> Nat -> Prop
  | whole {kind : Kind} {length : Nat} :
      Shape.longest? shapes text = some (.whole kind, length) ->
      (kind = .name -> forall c body, text.drop length = c :: body ->
        (isQuote c && isStringMark (text.take length)) = false) ->
      First text kind length
  | quoted {quote : Char} {size more : Nat} :
      Shape.longest? shapes text = some (.opening quote, size) ->
      closing? quote (text.drop size) = some more -> First text .string (size + more)
  | marked {size : Nat} {c : Char} {body : List Char} {kind : Kind} {length : Nat} :
      Shape.longest? shapes text = some (.whole .name, size) ->
      text.drop size = c :: body -> (isQuote c && isStringMark (text.take size)) = true ->
      brokenString? size body = some (kind, length) -> First text kind length

theorem first?_eq_some_iff : first? text = some (kind, length) <-> First text kind length := by
  constructor
  · intro found
    unfold first? at found
    split at found
    · cases found
    · rename_i quote size longest
      rcases Option.map_eq_some_iff.mp found with ⟨more, closed, same⟩
      cases same
      exact .quoted longest closed
    · rename_i size longest
      split at found
      · rename_i c body rest
        split at found
        · rename_i marks
          exact .marked longest rest marks found
        · rename_i unmarked
          cases found
          refine .whole longest fun _ d other same => ?_
          cases rest.symm.trans same
          exact Bool.eq_false_iff.mpr unmarked
      · rename_i ends
        cases found
        refine .whole longest fun _ d other same => ?_
        rw [ends] at same
        cases same
    · rename_i other size notName longest
      cases found
      exact .whole longest fun named => absurd named notName
  · intro first
    unfold first?
    cases first with
    | whole longest unmarked =>
      rw [longest]
      cases kind with
      | name =>
        cases rest : text.drop length with
        | nil => simp only [rest]
        | cons c body =>
          simp only [rest, if_neg (Bool.eq_false_iff.mp (unmarked rfl c body rest))]
      | _ => rfl
    | quoted longest closed =>
      rw [longest]
      simp only [closed, Option.map_some]
    | marked longest rest marks broken =>
      rw [longest]
      simp only [rest, if_pos marks, broken]

theorem name_of_brokenString? {more : Nat}
    (broken : brokenString? length text = some (kind, more)) : kind = .name := by
  unfold brokenString? at broken
  split at broken <;> cases broken <;> rfl

/-- A string mark does not stand alone before any other character. -/
theorem brokenString?_eq_none {c : Char} {rest : List Char} (notFeed : c ≠ '\n')
    (notReturn : c ≠ '\r') (notEscape : c = '\\' -> rest ≠ []) :
    brokenString? length (c :: rest) = none := by
  unfold brokenString?
  split
  · rename_i impossible
    cases impossible
  · rename_i same
    exact absurd (List.cons.inj same).1 notFeed
  · rename_i same
    exact absurd (List.cons.inj same).1 notReturn
  · rename_i same
    rcases List.cons.inj same with ⟨escape, ends⟩
    exact absurd ends (notEscape escape)
  · rfl

theorem accepts_of_first? (found : first? text = some (kind, length)) (notName : kind ≠ .name)
    (notString : kind ≠ .string) : Shape.Accepts shapes (.whole kind) (text.take length) := by
  cases first?_eq_some_iff.mp found with
  | whole longest =>
    have spec := Shape.longest?_spec shapes text
    rw [longest] at spec
    exact spec.accepted
  | quoted => exact absurd rfl notString
  | marked _ _ _ broken => exact absurd (name_of_brokenString? broken) notName

theorem spelled_of_mem_scan (read : lexeme ∈ (scan offset text).1) : lexeme.Spelled := by
  fun_induction scan offset text with
  | case1 => cases read
  | case2 offset c rest kind length found first lexemes left again inductionHypothesis =>
    rw [again] at inductionHypothesis
    rcases List.mem_cons.mp read with rfl | later
    · exact accepts_of_first? found
    · exact inductionHypothesis later
  | case3 => cases read

theorem spelled_of_ofSource (read : ofSource source = .ok lexemes) :
    forall lexeme, lexeme ∈ lexemes -> lexeme.Spelled := by
  intro lexeme member
  have whole := ofSource_eq_ok_iff.mp read
  have found : lexeme ∈ (scan 0 source.toList).1 := by
    rw [whole]
    exact member
  exact spelled_of_mem_scan found

/-! ## Line breaks, operators and brackets -/

open Pattern

theorem accepts_shapes_iff {reading : Reading} :
    Shape.Accepts shapes reading text <->
      Exists fun shape => shape ∈ shapes.filter (fun shape => shape.reading = reading) ∧
        shape.pattern.Matches text := by
  simp only [Shape.Accepts, List.mem_filter, decide_eq_true_eq, and_assoc]

theorem matches_chars_iff {symbol : List Char} : (chars symbol).Matches text <-> text = symbol := by
  fun_induction chars symbol generalizing text with
  | case1 => exact matches_empty_iff
  | case2 c => exact matches_char_iff
  | case3 c rest _ inductionHypothesis =>
    simp only [matches_append_iff, matches_char_iff, inductionHypothesis]
    constructor
    · rintro ⟨_, _, rfl, rfl, rfl⟩
      rfl
    · rintro rfl
      exact ⟨[c], rest, rfl, rfl, rfl⟩

theorem matches_lineBreak_iff :
    lineBreak.Matches text <-> text = ['\r', '\n'] ∨ text = ['\n'] ∨ text = ['\r'] := by
  simp only [lineBreak, anyOf, matches_either_iff, literal, matches_chars_iff, matches_char_iff]
  rfl

theorem lineBreak_of_accepts (accepts : Shape.Accepts shapes (.whole .newline) text) :
    text = ['\r', '\n'] ∨ text = ['\n'] ∨ text = ['\r'] := by
  have listed : shapes.filter (fun shape => shape.reading = .whole .newline) =
      [⟨.whole .newline, lineBreak⟩] := rfl
  rcases accepts_shapes_iff.mp accepts with ⟨shape, member, matched⟩
  rw [listed] at member
  cases List.mem_singleton.mp member
  exact matches_lineBreak_iff.mp matched

theorem operator_of_accepts (accepts : Shape.Accepts shapes (.whole .operator) text) :
    String.ofList text ∈ operators := by
  have listed : shapes.filter (fun shape => shape.reading = .whole .operator) =
      operators.map fun symbol => ⟨.whole .operator, literal symbol⟩ := rfl
  rcases accepts_shapes_iff.mp accepts with ⟨shape, member, matched⟩
  rw [listed] at member
  rcases List.mem_map.mp member with ⟨symbol, known, rfl⟩
  rw [matches_chars_iff.mp matched, String.ofList_toList]
  exact known

theorem bracket_of_accepts {allowed : String}
    (listed : shapes.filter (fun shape => shape.reading = .whole kind) =
      [⟨.whole kind, oneOf allowed⟩])
    (accepts : Shape.Accepts shapes (.whole kind) text) :
    Exists fun c => c ∈ allowed.toList ∧ text = [c] := by
  rcases accepts_shapes_iff.mp accepts with ⟨shape, member, matched⟩
  rw [listed] at member
  cases List.mem_singleton.mp member
  exact matches_oneOf_iff.mp matched

end Lexeme
end Packrat
