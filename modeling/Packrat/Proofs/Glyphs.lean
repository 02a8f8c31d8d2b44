import Mathlib.Data.List.Basic
import Packrat.Expression.Display

namespace Packrat

/-!
# Glyphs of a listing

The listing of an expression is a row of glyphs: quoted texts, names of kinds and of rules, the
mock, brackets, bars, and the stars and pluses of repetitions.  A blank stands before every glyph
except a star or a plus, which follows what it repeats.  Where no quoted text has a quote and no
rule has the name of another glyph, a row of glyphs is read again from its text, so that two rows
with one text are the same.
-/

/-- A part of a listing. -/
inductive Glyph where
  | quoted (text : String)
  | category (kind : Token.Kind)
  | rule (name : String)
  | mock
  | bar
  | opening
  | closing
  | left
  | right
  | star
  | plus
  deriving DecidableEq

namespace Glyph

variable {glyph : Glyph} {glyphs others : List Glyph} {rest : List Char} {name : String}

/-! ## Reading a glyph -/

def text : Glyph -> String
  | quoted text => "'" ++ text ++ "'"
  | category kind => kind.name
  | rule name => name
  | mock => "<mock>"
  | bar => "|"
  | opening => "("
  | closing => ")"
  | left => "["
  | right => "]"
  | star => "*"
  | plus => "+"

/-- The characters of a glyph in a row, with the blank before it. -/
def shown : Glyph -> List Char
  | star => ['*']
  | plus => ['+']
  | glyph => ' ' :: glyph.text.toList

def isMark (c : Char) : Bool :=
  " '*+|()[]<".toList.contains c

/-- Whether a name is shown unlike every glyph that is not a rule: it has no capital letter and no
mark.  Every identifier in lower case is such a name. -/
def isLowerName (name : String) : Bool :=
  name.toList.all fun c => !c.isUpper && !isMark c

/-- Whether a glyph can be told from its text. -/
def isReadable : Glyph -> Bool
  | quoted text => !text.toList.contains '\''
  | rule name => isLowerName name
  | _ => true

/-- The glyphs that are always shown in the same way, without those of repetitions. -/
def fixed : List Glyph :=
  Token.Kind.all.map category ++ [mock, bar, opening, closing, left, right]

/-- The glyph that is shown as a text outside of quotes. -/
def ofText (text : String) : Glyph :=
  (fixed.find? fun glyph => glyph.text == text).getD (rule text)

/-- Whether a character cannot be within a glyph outside of quotes. -/
def ends (c : Char) : Bool :=
  c == ' ' || c == '*' || c == '+' || c == '\''

/-- The first glyph of a text, with what follows it. -/
def next : List Char -> Glyph × List Char
  | '*' :: rest => (star, rest)
  | '+' :: rest => (plus, rest)
  | ' ' :: '\'' :: rest =>
    (quoted (String.ofList (rest.takeWhile (· != '\''))), (rest.dropWhile (· != '\'')).drop 1)
  | rest =>
    let text := rest.drop 1
    (ofText (String.ofList (text.takeWhile fun c => !ends c)), text.dropWhile fun c => !ends c)

/-- A rule is told by its name from the glyphs that are always shown in the same way. -/
theorem ofText_of_isLowerName (lower : isLowerName name = true) : ofText name = rule name := by
  have marked : fixed.all (fun glyph => !isLowerName glyph.text) = true := by decide
  have unknown : fixed.find? (fun glyph => glyph.text == name) = none := by
    refine List.find?_eq_none.mpr fun glyph listed same => ?_
    have different := List.all_eq_true.mp marked glyph listed
    rw [eq_of_beq same, lower] at different
    cases different
  rw [ofText, unknown, Option.getD_none]

/-- Whether a glyph is shown outside of quotes, with a blank before it. -/
def isWord : Glyph -> Bool
  | quoted _ | star | plus => false
  | _ => true

theorem mem_fixed (word : glyph.isWord = true) :
    glyph ∈ fixed ∨ Exists fun name => glyph = rule name := by
  cases glyph with
  | rule name => exact Or.inr ⟨name, rfl⟩
  | category kind =>
    exact Or.inl (List.mem_append_left _ (List.mem_map_of_mem (Token.Kind.mem_all kind)))
  | quoted => cases word
  | star => cases word
  | plus => cases word
  | _ => exact Or.inl (by decide)

theorem shown_of_isWord (word : glyph.isWord = true) :
    glyph.shown = ' ' :: glyph.text.toList := by
  cases glyph with
  | quoted | star | plus => cases word
  | _ => rfl

/-- A word is told from its text, and its text goes on until a character that ends it. -/
theorem word_spec (word : glyph.isWord = true) (readable : glyph.isReadable = true) :
    ofText glyph.text = glyph ∧ glyph.text.toList.all (fun c => !ends c) = true := by
  rcases mem_fixed word with listed | ⟨name, rfl⟩
  · have told : forall glyph, glyph ∈ fixed -> ofText glyph.text = glyph := by decide
    have inside : forall glyph, glyph ∈ fixed ->
        glyph.text.toList.all (fun c => !ends c) = true := by decide
    exact ⟨told glyph listed, inside glyph listed⟩
  · refine ⟨ofText_of_isLowerName readable, List.all_eq_true.mpr fun c member => ?_⟩
    have lower : (!c.isUpper && !isMark c) = true := List.all_eq_true.mp readable c member
    have different : forall mark, isMark mark = true -> (c == mark) = false := by
      intro mark marks
      refine beq_eq_false_iff_ne.mpr ?_
      rintro rfl
      rw [marks, Bool.not_true, Bool.and_false] at lower
      cases lower
    rw [ends, different ' ' (by decide), different '*' (by decide), different '+' (by decide),
      different '\'' (by decide)]
    rfl

/-- Nothing that follows belongs to a word before it. -/
def Stops (rest : List Char) : Prop :=
  forall c, rest.head? = some c -> c = ' ' ∨ c = '*' ∨ c = '+'

theorem Stops.ends {c : Char} (stops : Stops rest) (first : rest.head? = some c) :
    ends c = true ∧ c ≠ '\'' := by
  rcases stops c first with rfl | rfl | rfl <;> decide

theorem takeWhile_append (past : Char -> Bool) (text rest : List Char)
    (inside : forall c, c ∈ text -> past c = true)
    (stops : forall c, rest.head? = some c -> past c = false) :
    (text ++ rest).takeWhile past = text ∧ (text ++ rest).dropWhile past = rest := by
  rw [List.takeWhile_append_of_pos inside, List.dropWhile_append_of_pos inside]
  cases rest with
  | nil => exact ⟨List.append_nil text, rfl⟩
  | cons c rest =>
    have stopped := ne_true_of_eq_false (stops c rfl)
    rw [List.takeWhile_cons_of_neg stopped, List.dropWhile_cons_of_neg stopped, List.append_nil]
    exact ⟨rfl, rfl⟩

theorem next_shown_append (readable : glyph.isReadable = true) (stops : Stops rest) :
    next (glyph.shown ++ rest) = (glyph, rest) := by
  cases word : glyph.isWord with
  | true =>
    rcases word_spec word readable with ⟨told, inside⟩
    have inside : forall c, c ∈ glyph.text.toList -> (!ends c) = true := List.all_eq_true.mp inside
    have unquoted : (glyph.text.toList ++ rest).head? ≠ some '\'' := by
      cases characters : glyph.text.toList with
      | nil => exact fun first => (stops.ends first).2 rfl
      | cons =>
        intro first
        cases first
        cases inside '\'' (characters ▸ List.mem_cons_self)
    have cut := takeWhile_append _ _ rest inside
      (fun c first => by rw [(stops.ends first).1]; rfl)
    rw [shown_of_isWord word, List.cons_append, next]
    · simp only [List.drop_succ_cons, List.drop_zero]
      rw [cut.1, cut.2, String.ofList_toList, told]
    · nofun
    · nofun
    · rintro other same
      injection same with _ same
      exact unquoted (by rw [same]; rfl)
  | false =>
    cases glyph with
    | star => rfl
    | plus => rfl
    | quoted text =>
      have inside : forall c, c ∈ text.toList -> (c != '\'') = true := by
        rintro c member
        rw [bne_iff_ne]
        rintro rfl
        simp [isReadable, member] at readable
      have cut := takeWhile_append (fun c => c != '\'') text.toList ('\'' :: rest) inside
        (fun c first => by cases first; rfl)
      have shown : (quoted text).shown ++ rest = ' ' :: '\'' :: (text.toList ++ '\'' :: rest) := by
        simp [shown, Glyph.text]
      rw [shown, next, cut.1, cut.2, String.ofList_toList]
      rfl
    | _ => cases word

/-! ## Rows of glyphs -/

theorem stops_shown (glyph : Glyph) (rest : List Char) : Stops (glyph.shown ++ rest) := by
  intro c first
  cases glyph with
  | star =>
    cases first
    exact Or.inr (Or.inl rfl)
  | plus =>
    cases first
    exact Or.inr (Or.inr rfl)
  | _ =>
    cases first
    exact Or.inl rfl

theorem stops_flatMap_shown (glyphs : List Glyph) : Stops (glyphs.flatMap shown) := by
  cases glyphs with
  | nil => exact nofun
  | cons glyph glyphs => exact stops_shown glyph _

theorem shown_ne_nil (glyph : Glyph) : glyph.shown ≠ [] := by
  cases glyph <;> exact List.cons_ne_nil _ _

/-- Rows of glyphs with the same text are the same. -/
theorem flatMap_shown_injective (readable : forall glyph, glyph ∈ glyphs -> glyph.isReadable = true)
    (othersReadable : forall glyph, glyph ∈ others -> glyph.isReadable = true)
    (same : glyphs.flatMap shown = others.flatMap shown) : glyphs = others := by
  induction glyphs generalizing others with
  | nil =>
    cases others with
    | nil => rfl
    | cons other others => exact absurd (List.append_eq_nil_iff.mp same.symm).1 (shown_ne_nil other)
  | cons glyph glyphs inductionHypothesis =>
    cases others with
    | nil => exact absurd (List.append_eq_nil_iff.mp same).1 (shown_ne_nil glyph)
    | cons other others =>
      rw [List.flatMap_cons, List.flatMap_cons] at same
      have read := congrArg next same
      rw [next_shown_append (readable glyph List.mem_cons_self) (stops_flatMap_shown glyphs),
        next_shown_append (othersReadable other List.mem_cons_self) (stops_flatMap_shown others),
        Prod.mk.injEq] at read
      rw [read.1, inductionHypothesis (fun _ member => readable _ (List.mem_cons_of_mem _ member))
        (fun _ member => othersReadable _ (List.mem_cons_of_mem _ member)) read.2]

end Glyph

namespace Expression

/-! ## The glyphs of an expression -/

/-- An induction over an expression, where a list of expressions is left to lemmas about lists. -/
@[elab_as_elim]
theorem induction {motive : Expression -> Prop}
    (literal : forall kind text, motive (literal kind text))
    (rule : forall name, motive (rule name))
    (sequence : forall items, (forall item, item ∈ items -> motive item) -> motive (sequence items))
    (choice : forall alternatives, (forall item, item ∈ alternatives -> motive item) ->
      motive (choice alternatives))
    (optional : forall body, motive body -> motive (optional body))
    (zeroOrMore : forall body, motive body -> motive (zeroOrMore body))
    (oneOrMore : forall body, motive body -> motive (oneOrMore body)) (mock : motive mock)
    (expression : Expression) : motive expression :=
  @Expression.rec motive (fun items => forall item, item ∈ items -> motive item)
    literal rule sequence choice optional zeroOrMore oneOrMore mock (fun _ member => nomatch member)
    (fun _ _ first others _ member => (List.mem_cons.mp member).elim (· ▸ first) (others _))
    expression

/-- Glyphs with parentheses around them, where these are needed. -/
def grouped (needed : Bool) (glyphs : List Glyph) : List Glyph :=
  if needed then .opening :: (glyphs ++ [.closing]) else glyphs

mutual

/-- The glyphs of the listing of an expression. -/
def glyphs : Expression -> List Glyph
  | literal _ (some text) => [.quoted text]
  | literal kind none => [.category kind]
  | rule name => [.rule name]
  | sequence items => glyphsOfItems items
  | choice [] => []
  | choice (first :: others) => glyphs first ++ glyphsBehindBars others
  | optional body => .left :: (glyphs body ++ [.right])
  | zeroOrMore body => grouped body.isCompound (glyphs body) ++ [.star]
  | oneOrMore body => grouped body.isCompound (glyphs body) ++ [.plus]
  | mock => [.mock]

def glyphsOfItems : List Expression -> List Glyph
  | [] => []
  | item :: items => grouped item.isAlternation (glyphs item) ++ glyphsOfItems items

/-- The glyphs of the other alternatives of a choice, each behind a bar. -/
def glyphsBehindBars : List Expression -> List Glyph
  | [] => []
  | item :: items => .bar :: (glyphs item ++ glyphsBehindBars items)

end

mutual

/-- Whether an expression can be listed: every sequence and every choice has a part, the names of
rules are in lower case, and no text has a quote. -/
def isListable : Expression -> Bool
  | literal _ text => text.all fun text => !text.toList.contains '\''
  | rule name => Glyph.isLowerName name
  | sequence items => !items.isEmpty && isListableAll items
  | choice alternatives => !alternatives.isEmpty && isListableAll alternatives
  | optional body => isListable body
  | zeroOrMore body => isListable body
  | oneOrMore body => isListable body
  | mock => true

def isListableAll : List Expression -> Bool
  | [] => true
  | item :: items => isListable item && isListableAll items

end

variable {first second : Expression} {items : List Expression}

theorem isListableAll_iff :
    isListableAll items = true <-> forall item, item ∈ items -> item.isListable = true := by
  induction items with
  | nil => simp [isListableAll]
  | cons item items inductionHypothesis => simp [isListableAll, inductionHypothesis]

theorem isListable_parts_iff : (!items.isEmpty && isListableAll items) = true <->
    items ≠ [] ∧ forall item, item ∈ items -> item.isListable = true := by
  rw [Bool.and_eq_true, isListableAll_iff, Bool.not_eq_true', List.isEmpty_eq_false_iff]

theorem glyphsOfItems_eq (items : List Expression) :
    glyphsOfItems items = items.flatMap fun item => grouped item.isAlternation item.glyphs := by
  induction items with
  | nil => rfl
  | cons item items inductionHypothesis =>
    rw [glyphsOfItems, inductionHypothesis, List.flatMap_cons]

theorem glyphsBehindBars_eq (items : List Expression) :
    glyphsBehindBars items = items.flatMap fun item => .bar :: item.glyphs := by
  induction items with
  | nil => rfl
  | cons item items inductionHypothesis =>
    rw [glyphsBehindBars, inductionHypothesis, List.flatMap_cons]
    rfl

theorem glyphs_choice (ne_nil : items ≠ []) :
    .bar :: (choice items).glyphs = items.flatMap fun item => .bar :: item.glyphs := by
  cases items with
  | nil => exact absurd rfl ne_nil
  | cons item items => rw [glyphs, glyphsBehindBars_eq, List.flatMap_cons, List.cons_append]

theorem isReadable_of_mem_grouped {needed : Bool} {glyphs : List Glyph}
    (readable : forall glyph, glyph ∈ glyphs -> glyph.isReadable = true) :
    forall glyph, glyph ∈ grouped needed glyphs -> glyph.isReadable = true := by
  intro glyph member
  cases needed with
  | false => exact readable glyph member
  | true =>
    rw [grouped, if_pos rfl, List.mem_cons, List.mem_append, List.mem_singleton] at member
    rcases member with rfl | inside | rfl
    · rfl
    · exact readable glyph inside
    · rfl

/-- The glyphs of an expression that can be listed can be told from their texts. -/
theorem isReadable_of_mem_glyphs (expression : Expression)
    (listable : expression.isListable = true) :
    forall glyph, glyph ∈ expression.glyphs -> glyph.isReadable = true := by
  induction expression using Expression.induction with
  | literal kind text =>
    intro glyph member
    cases text with
    | none =>
      cases List.mem_singleton.mp member
      rfl
    | some text =>
      cases List.mem_singleton.mp member
      exact listable
  | rule name =>
    intro glyph member
    cases List.mem_singleton.mp member
    exact listable
  | sequence items inductionHypothesis =>
    rcases isListable_parts_iff.mp listable with ⟨-, listable⟩
    intro glyph member
    rw [glyphs, glyphsOfItems_eq, List.mem_flatMap] at member
    rcases member with ⟨item, listed, inside⟩
    exact isReadable_of_mem_grouped (inductionHypothesis item listed (listable item listed)) glyph
      inside
  | choice alternatives inductionHypothesis =>
    rcases isListable_parts_iff.mp listable with ⟨ne_nil, listable⟩
    intro glyph member
    have member := List.mem_cons_of_mem .bar member
    rw [glyphs_choice ne_nil, List.mem_flatMap] at member
    rcases member with ⟨item, listed, inside⟩
    rcases List.mem_cons.mp inside with rfl | inside
    · rfl
    · exact inductionHypothesis item listed (listable item listed) glyph inside
  | optional body inductionHypothesis =>
    intro glyph member
    rw [glyphs, List.mem_cons, List.mem_append, List.mem_singleton] at member
    rcases member with rfl | inside | rfl
    · rfl
    · exact inductionHypothesis listable glyph inside
    · rfl
  | zeroOrMore body inductionHypothesis | oneOrMore body inductionHypothesis =>
    intro glyph member
    rw [glyphs, List.mem_append, List.mem_singleton] at member
    rcases member with inside | rfl
    · exact isReadable_of_mem_grouped (inductionHypothesis listable) glyph inside
    · rfl
  | mock =>
    intro glyph member
    cases List.mem_singleton.mp member
    rfl

theorem displayItems_eq (items : List Expression) :
    displayItems items = items.map fun item =>
      if item.isAlternation then parenthesized item.display else item.display := by
  induction items with
  | nil => rfl
  | cons item items inductionHypothesis =>
    rw [displayItems, inductionHypothesis, List.map_cons]

theorem displayAlternatives_eq (items : List Expression) :
    displayAlternatives items = items.map display := by
  induction items with
  | nil => rfl
  | cons item items inductionHypothesis =>
    rw [displayAlternatives, inductionHypothesis, List.map_cons]

theorem append_toList_intercalate (separator : String) (text : Expression -> String)
    (ne_nil : items ≠ []) : separator.toList ++ (separator.intercalate (items.map text)).toList =
      items.flatMap fun item => separator.toList ++ (text item).toList := by
  rw [String.toList_intercalate]
  induction items with
  | nil => exact absurd rfl ne_nil
  | cons item items inductionHypothesis =>
    cases items with
    | nil => simp
    | cons next items =>
      rw [List.map_cons, List.map_cons, List.map_cons, List.map_cons, List.intercalate_cons_cons,
        ← List.map_cons, ← List.map_cons, List.append_assoc,
        inductionHypothesis (List.cons_ne_nil _ _), ← List.append_assoc]
      rfl

theorem shown_grouped {needed : Bool} {text : String} {glyphs : List Glyph}
    (shown : ' ' :: text.toList = glyphs.flatMap Glyph.shown) :
    ' ' :: (if needed then parenthesized text else text).toList =
      (grouped needed glyphs).flatMap Glyph.shown := by
  cases needed with
  | false => exact shown
  | true =>
    rw [if_pos rfl, parenthesized, grouped, if_pos rfl, List.flatMap_cons, List.flatMap_append,
      ← shown]
    simp [Glyph.shown, Glyph.text]

/-- The listing of an expression, with a blank before it, is the text of its glyphs. -/
theorem shown_glyphs (expression : Expression) (listable : expression.isListable = true) :
    ' ' :: expression.display.toList = expression.glyphs.flatMap Glyph.shown := by
  induction expression using Expression.induction with
  | literal kind text =>
    cases text with
    | none => simp [display, describeLiteral, glyphs, Glyph.shown, Glyph.text]
    | some text =>
      have quoted : (literal kind (some text)).display = "'" ++ text ++ "'" := rfl
      simp [quoted, glyphs, Glyph.shown, Glyph.text]
  | rule name => simp [display, glyphs, Glyph.shown, Glyph.text]
  | sequence items inductionHypothesis =>
    rcases isListable_parts_iff.mp listable with ⟨ne_nil, listable⟩
    rw [display, displayItems_eq]
    refine (append_toList_intercalate " " _ ne_nil).trans ?_
    rw [glyphs, glyphsOfItems_eq, List.flatMap_assoc]
    refine List.flatMap_congr fun item listed => ?_
    exact shown_grouped (inductionHypothesis item listed (listable item listed))
  | choice alternatives inductionHypothesis =>
    rcases isListable_parts_iff.mp listable with ⟨ne_nil, listable⟩
    -- A bar before the first alternative makes all alternatives alike.
    have texts := append_toList_intercalate " | " display ne_nil
    have bars := congrArg (List.flatMap Glyph.shown) (glyphs_choice ne_nil)
    rw [List.flatMap_cons, List.flatMap_assoc] at bars
    rw [display, displayAlternatives_eq]
    refine (List.append_right_inj [' ', '|']).mp (texts.trans (Eq.trans ?_ bars.symm))
    refine List.flatMap_congr fun item listed => ?_
    rw [List.flatMap_cons, ← inductionHypothesis item listed (listable item listed)]
    rfl
  | optional body inductionHypothesis =>
    rw [glyphs, List.flatMap_cons, List.flatMap_append, ← inductionHypothesis listable]
    simp [display, Glyph.shown, Glyph.text]
  | zeroOrMore body inductionHypothesis | oneOrMore body inductionHypothesis =>
    rw [glyphs, List.flatMap_append, ← shown_grouped (inductionHypothesis listable), display]
    simp [Glyph.shown]
  | mock => simp [display, glyphs, Glyph.shown, Glyph.text]

/-- Expressions with the same listing have the same glyphs. -/
theorem glyphs_eq_of_display_eq (firstListable : first.isListable = true)
    (secondListable : second.isListable = true) (same : first.display = second.display) :
    first.glyphs = second.glyphs := by
  refine Glyph.flatMap_shown_injective (isReadable_of_mem_glyphs first firstListable)
    (isReadable_of_mem_glyphs second secondListable) ?_
  rw [← shown_glyphs first firstListable, ← shown_glyphs second secondListable, same]

end Expression
end Packrat
