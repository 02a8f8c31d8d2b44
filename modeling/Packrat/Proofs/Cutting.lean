import Mathlib.Data.List.DropRight
import Mathlib.Data.List.SplitBy
import Packrat.Proofs.Conservation

namespace Packrat

/-!
# Logical lines in two passes

Logical lines are read in one pass, which knows the width of the white space so far, the line that
has begun and the number of its open brackets.  A reader of a grammar thinks of two passes instead.
The first deletes white space, comments, line continuations and the line breaks inside brackets; the
second cuts behind each line break that is left and drops the parts without a token.

Both make the same lines of all lexemes, whether or not their brackets are balanced.  The one pass
is after each lexeme where the two passes are: what it knows is told by the lexemes so far, namely
by those that stay since the last cut and by the white space since then.
-/

namespace Line

/-! ## Two passes -/

/-- The number of open brackets after some lexemes.  A closing bracket too many is not counted. -/
def openAfter (front : List Lexeme) : Nat :=
  front.foldl depthAfter 0

/-- A lexeme and all lexemes in front of it. -/
structure Placed where
  front : List Lexeme
  lexeme : Lexeme
  deriving DecidableEq

/-- The lexemes that come after some others, each with all that are in front of it. -/
def placed (front : List Lexeme) : List Lexeme -> List Placed
  | [] => []
  | lexeme :: rest => ⟨front, lexeme⟩ :: placed (front ++ [lexeme]) rest

namespace Placed

/-- A line break outside brackets: a line ends here, if one has begun. -/
def cuts (place : Placed) : Bool :=
  place.lexeme.kind == .newline && openAfter place.front == 0

def stays (place : Placed) : Bool :=
  !place.lexeme.kind.isTrivia && (place.lexeme.kind != .newline || openAfter place.front == 0)

def isSpace (place : Placed) : Bool :=
  place.lexeme.kind == .whitespace

/-- A lexeme is no line break. -/
def goesOn (place : Placed) : Bool :=
  place.lexeme.kind != .newline

end Placed

/-- The first pass: the lexemes after some others that are not deleted. -/
def kept (front lexemes : List Lexeme) : List Placed :=
  (placed front lexemes).filter Placed.stays

/-- The parts between the line breaks, each with the line break behind it. -/
def cut (places : List Placed) : List (List Placed) :=
  places.splitBy fun place _ => place.goesOn

/-- The white space in front of a line: all since the last line break outside brackets. -/
def leading (front : List Lexeme) : List Char :=
  (((placed [] front).rtakeWhile fun place => !place.cuts).filter Placed.isSpace).flatMap
    fun place => place.lexeme.text

/-- The line of a part, unless this has nothing but a line break. -/
def ofPart? (lines : Source.Lines) (tabSize : Nat) (part : List Placed) : Option Line :=
  (part.find? Placed.goesOn).map fun first =>
    { indent := indentationWidth tabSize 0 (leading first.front)
      start := first.lexeme.start
      tokens := part.filterMap fun place => token? lines place.lexeme
      newline := (part.find? fun place => !place.goesOn).map
        fun place => tokenOf lines .newline place.lexeme }

/-- The second pass: the lines of what the first one keeps. -/
def ofKept (lines : Source.Lines) (tabSize : Nat) (places : List Placed) : List Line :=
  (cut places).filterMap (ofPart? lines tabSize)

/-- The lines of some lexemes, in two passes. -/
def inTwoPasses (lines : Source.Lines) (tabSize : Nat) (lexemes : List Lexeme) : List Line :=
  ofKept lines tabSize (kept [] lexemes)

/-- The lexemes that stay since the last cut. -/
def pending (front : List Lexeme) : List Placed :=
  (kept [] front).rtakeWhile Placed.goesOn

variable {lines : Source.Lines} {tabSize : Nat} {front lexemes rest : List Lexeme}
  {lexeme : Lexeme} {kind : Token.Kind} {places part : List Placed} {place : Placed} {line : Line}
  {progress : Progress}

/-! ## The first pass -/

theorem openAfter_concat :
    openAfter (front ++ [lexeme]) = depthAfter (openAfter front) lexeme := by
  rw [openAfter, List.foldl_append]
  rfl

/-- Brackets are counted line by line: behind a cut the count begins afresh. -/
theorem openAfter_behind (cuts : Placed.cuts ⟨front, lexeme⟩ = true) :
    openAfter (front ++ lexeme :: rest) = openAfter rest := by
  rcases Bool.and_eq_true_iff.mp cuts with ⟨breaks, outside⟩
  have unchanged : depthAfter (openAfter front) lexeme = 0 := by
    rw [depthAfter, beq_iff_eq.mp breaks]
    exact beq_iff_eq.mp outside
  rw [openAfter, List.foldl_append, List.foldl_cons, ← openAfter, unchanged]
  rfl

theorem placed_append (front first rest : List Lexeme) :
    placed front (first ++ rest) = placed front first ++ placed (front ++ first) rest := by
  induction first generalizing front with
  | nil => rw [List.append_nil]; rfl
  | cons lexeme first inductionHypothesis =>
    rw [List.cons_append, placed, placed, inductionHypothesis, List.append_assoc]
    rfl

theorem Placed.goesOn_iff : place.goesOn = true <-> place.lexeme.kind ≠ .newline :=
  bne_iff_ne

theorem Placed.goesOn_of_newline (breaks : place.lexeme.kind = .newline) :
    place.goesOn = false := by
  rw [goesOn, breaks]
  rfl

theorem kept_append (front first rest : List Lexeme) :
    kept front (first ++ rest) = kept front first ++ kept (front ++ first) rest := by
  rw [kept, placed_append, List.filter_append]
  rfl

theorem kept_singleton (front : List Lexeme) (lexeme : Lexeme) :
    kept front [lexeme] = if Placed.stays ⟨front, lexeme⟩ then [⟨front, lexeme⟩] else [] := by
  rw [kept, placed, placed, List.filter_singleton]
  cases Placed.stays ⟨front, lexeme⟩ <;> rfl

theorem ne_newline_of_tokenKind? (becomes : tokenKind? lexeme = some kind) :
    lexeme.kind ≠ .newline := by
  intro breaks
  rw [tokenKind?, breaks] at becomes
  cases becomes

theorem stays_of_tokenKind? (becomes : tokenKind? lexeme = some kind) :
    Placed.stays ⟨front, lexeme⟩ = true := by
  rcases lexeme with ⟨shape, text, start⟩
  cases shape with
  | whitespace | newline | lineContinuation | comment => cases becomes
  | _ => rfl

theorem ne_newline_of_isTrivia (trivia : lexeme.kind.isTrivia = true) :
    lexeme.kind ≠ .newline := by
  intro breaks
  rw [breaks] at trivia
  cases trivia

theorem deleted_of_isTrivia (front : List Lexeme) (trivia : lexeme.kind.isTrivia = true) :
    Placed.stays ⟨front, lexeme⟩ = false := by
  rw [Placed.stays, trivia]
  rfl

theorem stays_of_cut (breaks : lexeme.kind = .newline) (outside : openAfter front = 0) :
    Placed.stays ⟨front, lexeme⟩ = true := by
  simp only [Placed.stays, breaks, outside]
  rfl

theorem deleted_of_open (breaks : lexeme.kind = .newline) (inside : openAfter front ≠ 0) :
    Placed.stays ⟨front, lexeme⟩ = false := by
  simp only [Placed.stays, breaks, beq_false_of_ne inside]
  rfl

theorem cut_of_stays (missing : tokenKind? lexeme = none)
    (stays : Placed.stays ⟨front, lexeme⟩ = true) :
    lexeme.kind = .newline ∧ openAfter front = 0 := by
  rcases trivia_or_newline_of_tokenKind? missing with trivia | breaks
  · rw [deleted_of_isTrivia front trivia] at stays
    cases stays
  · refine ⟨breaks, Decidable.byContradiction fun inside => ?_⟩
    rw [deleted_of_open breaks inside] at stays
    cases stays

/-! ## What is pending -/

theorem ne_newline_of_mem_pending (member : place ∈ pending front) :
    place.lexeme.kind ≠ .newline :=
  Placed.goesOn_iff.mp (List.mem_rtakeWhile_imp member)

theorem pending_of_token (becomes : tokenKind? lexeme = some kind) :
    pending (front ++ [lexeme]) = pending front ++ [⟨front, lexeme⟩] := by
  have goes : Placed.goesOn ⟨front, lexeme⟩ = true :=
    Placed.goesOn_iff.mpr (ne_newline_of_tokenKind? becomes)
  rw [pending, kept_append, List.nil_append, kept_singleton,
    if_pos (stays_of_tokenKind? becomes), List.rtakeWhile_concat_pos _ _ _ goes]
  rfl

theorem pending_of_deleted (deleted : Placed.stays ⟨front, lexeme⟩ = false) :
    pending (front ++ [lexeme]) = pending front := by
  rw [pending, kept_append, List.nil_append, kept_singleton, deleted,
    if_neg Bool.false_ne_true, List.append_nil]
  rfl

theorem pending_of_cut (breaks : lexeme.kind = .newline) (outside : openAfter front = 0) :
    pending (front ++ [lexeme]) = [] := by
  rw [pending, kept_append, List.nil_append, kept_singleton,
    if_pos (stays_of_cut breaks outside)]
  exact List.rtakeWhile_concat_neg _ _ _ fun goes => Placed.goesOn_iff.mp goes breaks

/-! ## The white space in front of a line -/

theorem leading_of_cut (breaks : lexeme.kind = .newline) (outside : openAfter front = 0) :
    leading (front ++ [lexeme]) = [] := by
  have cuts : Placed.cuts ⟨front, lexeme⟩ = true :=
    Bool.and_eq_true_iff.mpr ⟨beq_iff_eq.mpr breaks, beq_iff_eq.mpr outside⟩
  rw [leading, placed_append, placed, placed, List.nil_append, List.rtakeWhile_concat_neg]
  · rfl
  · rw [cuts]
    exact Bool.false_ne_true

theorem leading_of_trivia (trivia : lexeme.kind.isTrivia = true) :
    leading (front ++ [lexeme]) =
      leading front ++ if lexeme.kind = .whitespace then lexeme.text else [] := by
  have further : (!Placed.cuts ⟨front, lexeme⟩) = true := by
    rw [Placed.cuts, beq_false_of_ne (ne_newline_of_isTrivia trivia)]
    rfl
  rw [leading, placed_append, placed, placed, List.nil_append,
    List.rtakeWhile_concat_pos (fun place : Placed => !place.cuts) _ _ further,
    List.filter_append, List.flatMap_append, leading]
  congr 1
  by_cases space : lexeme.kind = .whitespace
  · have counted : Placed.isSpace ⟨front, lexeme⟩ = true := beq_iff_eq.mpr space
    rw [if_pos space, List.filter_cons_of_pos counted]
    exact List.append_nil _
  · have skipped : ¬ Placed.isSpace ⟨front, lexeme⟩ = true :=
      fun same => space (beq_iff_eq.mp same)
    rw [if_neg space, List.filter_cons_of_neg skipped]
    rfl

theorem indentationWidth_append (start : Nat) (first rest : List Char) :
    indentationWidth tabSize start (first ++ rest) =
      indentationWidth tabSize (indentationWidth tabSize start first) rest :=
  List.foldl_append

/-! ## The second pass -/

/-- A part goes on until a line break ends it. -/
theorem cut_append_newline (unbroken : forall place, place ∈ part -> place.lexeme.kind ≠ .newline)
    (breaks : place.lexeme.kind = .newline) :
    cut (part ++ place :: places) = (part ++ [place]) :: cut places := by
  have chain : (part ++ [place]).IsChain fun first _ => first.goesOn = true := by
    refine List.Pairwise.isChain (List.pairwise_append.mpr ⟨?_, List.pairwise_singleton _ _, ?_⟩)
    · exact List.pairwise_of_forall_mem_list fun first member _ _ =>
        Placed.goesOn_iff.mpr (unbroken first member)
    · exact fun first member _ _ => Placed.goesOn_iff.mpr (unbroken first member)
  have ends : forall first, first ∈ (part ++ [place]).getLast? -> forall second,
      second ∈ places.head? -> first.goesOn = false := by
    intro first last _ _
    rw [List.getLast?_concat] at last
    rw [← Option.some.inj last, Placed.goesOn_of_newline breaks]
  have whole := List.splitBy_of_isChain (List.concat_ne_nil place part) chain
  rw [cut, List.append_cons, List.splitBy_append ends, whole]
  rfl

theorem cut_unbroken (nonempty : part ≠ [])
    (unbroken : forall place, place ∈ part -> place.lexeme.kind ≠ .newline) :
    cut part = [part] :=
  List.splitBy_of_isChain nonempty (List.Pairwise.isChain
    (List.pairwise_of_forall_mem_list fun first member _ _ =>
      Placed.goesOn_iff.mpr (unbroken first member)))

theorem ofPart?_newline (breaks : place.lexeme.kind = .newline) :
    ofPart? lines tabSize [place] = none := by
  have empty : [place].find? Placed.goesOn = none := by
    rw [List.find?_singleton, Placed.goesOn_of_newline breaks]
    rfl
  rw [ofPart?, empty]
  rfl

theorem token?_of_newline (breaks : lexeme.kind = .newline) : token? lines lexeme = none := by
  rw [token?, tokenKind?, breaks]
  rfl

theorem ofPart?_token (becomes : tokenKind? lexeme = some kind) :
    ofPart? lines tabSize [⟨front, lexeme⟩] =
      some ⟨indentationWidth tabSize 0 (leading front), lexeme.start,
        [tokenOf lines kind lexeme], none⟩ := by
  have notNewline := ne_newline_of_tokenKind? becomes
  simp [ofPart?, token?, Placed.goesOn, becomes, notNewline]

theorem ofPart?_concat_token (made : ofPart? lines tabSize part = some line)
    (becomes : tokenKind? lexeme = some kind) :
    ofPart? lines tabSize (part ++ [⟨front, lexeme⟩]) =
      some { line with tokens := line.tokens ++ [tokenOf lines kind lexeme] } := by
  have notNewline := ne_newline_of_tokenKind? becomes
  rcases Option.map_eq_some_iff.mp made with ⟨first, found, rfl⟩
  simp [ofPart?, List.find?_append, found, token?, Placed.goesOn, becomes, notNewline]

theorem ofPart?_concat_newline (made : ofPart? lines tabSize part = some line)
    (unbroken : forall place, place ∈ part -> place.lexeme.kind ≠ .newline)
    (breaks : place.lexeme.kind = .newline) :
    ofPart? lines tabSize (part ++ [place]) =
      some { line with newline := some (tokenOf lines .newline place.lexeme) } := by
  rcases Option.map_eq_some_iff.mp made with ⟨first, found, rfl⟩
  have missing : (part.find? fun place => !place.goesOn) = none := by
    refine List.find?_eq_none.mpr fun place member => ?_
    rw [Placed.goesOn_iff.mpr (unbroken place member)]
    exact Bool.false_ne_true
  have ends := Placed.goesOn_of_newline breaks
  simp [ofPart?, List.find?_append, found, missing, ends, token?_of_newline breaks]

theorem ofKept_append_newline
    (unbroken : forall place, place ∈ part -> place.lexeme.kind ≠ .newline)
    (breaks : place.lexeme.kind = .newline) :
    ofKept lines tabSize (part ++ place :: places) =
      (ofPart? lines tabSize (part ++ [place])).toList ++ ofKept lines tabSize places := by
  rw [ofKept, cut_append_newline unbroken breaks]
  cases made : ofPart? lines tabSize (part ++ [place]) with
  | none => rw [List.filterMap_cons_none made]; rfl
  | some line => rw [List.filterMap_cons_some made]; rfl

theorem ofKept_unbroken (made : ofPart? lines tabSize part = some line)
    (unbroken : forall place, place ∈ part -> place.lexeme.kind ≠ .newline) :
    ofKept lines tabSize part = [line] := by
  have nonempty : part ≠ [] := by
    rintro rfl
    cases made
  rw [ofKept, cut_unbroken nonempty unbroken, List.filterMap_cons_some made]
  rfl

/-! ## The one pass -/

namespace Progress

theorem step_before_of_isTrivia (trivia : lexeme.kind.isTrivia = true) (width : Nat) :
    (before width).step lines tabSize lexeme = (none, before (indentationWidth tabSize width
      (if lexeme.kind = .whitespace then lexeme.text else []))) := by
  rcases lexeme with ⟨shape, text, start⟩
  cases shape with
  | whitespace | lineContinuation | comment => rfl
  | _ => cases trivia

theorem step_inside_of_deleted (deleted : Placed.stays ⟨front, lexeme⟩ = false) :
    (inside line (openAfter front)).step lines tabSize lexeme =
      (none, inside line (openAfter front)) := by
  rcases lexeme with ⟨shape, text, start⟩
  cases shape with
  | whitespace | lineContinuation | comment => rfl
  | newline =>
    have deep : openAfter front ≠ 0 := by
      intro outside
      rw [stays_of_cut rfl outside] at deleted
      cases deleted
    simp only [step, tokenKind?, deep, decide_false, Bool.and_false, Bool.false_eq_true, if_false]
  | _ => cases deleted

end Progress

/-- The one pass knows what the lexemes so far tell. -/
inductive Stands (lines : Source.Lines) (tabSize : Nat) (front : List Lexeme) : Progress -> Prop
  | before : openAfter front = 0 -> pending front = [] ->
      Stands lines tabSize front (.before (indentationWidth tabSize 0 (leading front)))
  | inside {line : Line} : ofPart? lines tabSize (pending front) = some line ->
      Stands lines tabSize front (.inside line (openAfter front))

/-- The one pass has made the lines that the two passes make of one more lexeme, whatever comes
after it. -/
structure Advances (lines : Source.Lines) (tabSize : Nat) (front : List Lexeme) (lexeme : Lexeme)
    (stepped : Option Line × Progress) : Prop where
  stands : Stands lines tabSize (front ++ [lexeme]) stepped.2
  lines : forall rest,
    stepped.1.toList ++ ofKept lines tabSize (pending (front ++ [lexeme]) ++ rest) =
      ofKept lines tabSize (pending front ++ (kept front [lexeme] ++ rest))

/-- A token is pending until its line ends. -/
theorem advances_of_token (becomes : tokenKind? lexeme = some kind)
    (made : ofPart? lines tabSize (pending (front ++ [lexeme])) = some line) :
    Advances lines tabSize front lexeme
      (none, .inside line (depthAfter (openAfter front) lexeme)) where
  stands := by
    rw [← openAfter_concat]
    exact .inside made
  lines rest := by
    rw [pending_of_token becomes, kept_singleton, if_pos (stays_of_tokenKind? becomes),
      List.append_assoc]
    rfl

theorem lines_of_deleted (deleted : Placed.stays ⟨front, lexeme⟩ = false) (rest : List Placed) :
    ofKept lines tabSize (pending (front ++ [lexeme]) ++ rest) =
      ofKept lines tabSize (pending front ++ (kept front [lexeme] ++ rest)) := by
  rw [pending_of_deleted deleted, kept_singleton, deleted, if_neg Bool.false_ne_true,
    List.nil_append]

/-- A line break outside brackets completes what is pending. -/
theorem lines_of_cut (lines : Source.Lines) (tabSize : Nat) (breaks : lexeme.kind = .newline)
    (outside : openAfter front = 0) (rest : List Placed) :
    (ofPart? lines tabSize (pending front ++ [⟨front, lexeme⟩])).toList ++
        ofKept lines tabSize (pending (front ++ [lexeme]) ++ rest) =
      ofKept lines tabSize (pending front ++ (kept front [lexeme] ++ rest)) := by
  rw [pending_of_cut breaks outside, kept_singleton, if_pos (stays_of_cut breaks outside),
    List.nil_append, List.singleton_append,
    ofKept_append_newline (fun _ => ne_newline_of_mem_pending) breaks]

theorem depthAfter_of_tokenKind? (missing : tokenKind? lexeme = none) (depth : Nat) :
    depthAfter depth lexeme = depth := by
  rcases lexeme with ⟨shape, text, start⟩
  cases shape with
  | whitespace | newline | lineContinuation | comment => rfl
  | _ => cases missing

/-- A line break outside brackets leads to the start of a line. -/
theorem stands_of_cut (lines : Source.Lines) (tabSize : Nat) (breaks : lexeme.kind = .newline)
    (outside : openAfter front = 0) : Stands lines tabSize (front ++ [lexeme]) (.before 0) := by
  have closed : openAfter (front ++ [lexeme]) = 0 := by
    rw [openAfter_concat, depthAfter, breaks]
    exact outside
  have stands : Stands lines tabSize (front ++ [lexeme]) _ :=
    .before closed (pending_of_cut breaks outside)
  rw [leading_of_cut breaks outside] at stands
  exact stands

/-- Before the first token of a line, no line is pending, and a line break drops nothing but
itself. -/
theorem advances_before (outside : openAfter front = 0) (fresh : pending front = [])
    (lexeme : Lexeme) :
    Advances lines tabSize front lexeme
      ((Progress.before (indentationWidth tabSize 0 (leading front))).step lines tabSize
        lexeme) := by
  cases becomes : tokenKind? lexeme with
  | some kind =>
    have made : ofPart? lines tabSize (pending (front ++ [lexeme])) = some
        ⟨indentationWidth tabSize 0 (leading front), lexeme.start,
          [tokenOf lines kind lexeme], none⟩ := by
      rw [pending_of_token becomes, fresh]
      exact ofPart?_token becomes
    have advances := advances_of_token becomes made
    rw [outside] at advances
    simp only [Progress.step, becomes]
    exact advances
  | none =>
    rcases trivia_or_newline_of_tokenKind? becomes with trivia | breaks
    · have closed : openAfter (front ++ [lexeme]) = 0 := by
        rw [openAfter_concat, depthAfter_of_tokenKind? becomes, outside]
      have deleted := deleted_of_isTrivia front trivia
      have stands : Stands lines tabSize (front ++ [lexeme]) _ :=
        .before closed ((pending_of_deleted deleted).trans fresh)
      rw [leading_of_trivia trivia, indentationWidth_append] at stands
      rw [Progress.step_before_of_isTrivia trivia]
      exact ⟨stands, lines_of_deleted deleted⟩
    · have empty : ofPart? lines tabSize (pending front ++ [⟨front, lexeme⟩]) = none := by
        rw [fresh]
        exact ofPart?_newline breaks
      have made := lines_of_cut lines tabSize breaks outside
      rw [empty] at made
      simp only [Progress.step, becomes, breaks]
      exact ⟨stands_of_cut lines tabSize breaks outside, made⟩

/-- Inside a line, tokens are pending, and a line break outside brackets completes it. -/
theorem advances_inside (made : ofPart? lines tabSize (pending front) = some line)
    (lexeme : Lexeme) :
    Advances lines tabSize front lexeme
      ((Progress.inside line (openAfter front)).step lines tabSize lexeme) := by
  cases becomes : tokenKind? lexeme with
  | some kind =>
    have longer : ofPart? lines tabSize (pending (front ++ [lexeme])) =
        some { line with tokens := line.tokens ++ [tokenOf lines kind lexeme] } := by
      rw [pending_of_token becomes]
      exact ofPart?_concat_token made becomes
    simp only [Progress.step, becomes]
    exact advances_of_token becomes longer
  | none =>
    cases stays : Placed.stays ⟨front, lexeme⟩ with
    | false =>
      rw [← pending_of_deleted stays] at made
      rw [Progress.step_inside_of_deleted stays,
        ← depthAfter_of_tokenKind? becomes (openAfter front), ← openAfter_concat]
      exact ⟨.inside made, lines_of_deleted stays⟩
    | true =>
      rcases cut_of_stays becomes stays with ⟨breaks, outside⟩
      have completed := lines_of_cut lines tabSize breaks outside
      rw [ofPart?_concat_newline made (fun _ => ne_newline_of_mem_pending) breaks] at completed
      simp only [Progress.step, becomes, breaks, outside, decide_true, Bool.and_self, if_true]
      exact ⟨stands_of_cut lines tabSize breaks outside, completed⟩

theorem Stands.advances (stands : Stands lines tabSize front progress) (lexeme : Lexeme) :
    Advances lines tabSize front lexeme (progress.step lines tabSize lexeme) := by
  cases stands with
  | before outside fresh => exact advances_before outside fresh lexeme
  | inside made => exact advances_inside made lexeme

theorem stands_nil : Stands lines tabSize [] (.before 0) :=
  .before rfl rfl

/-- After some lexemes, the one pass is where the two passes are. -/
theorem stands_reached (lines : Source.Lines) (tabSize : Nat) (front : List Lexeme) :
    Stands lines tabSize front ((Progress.before 0).reached lines tabSize front) := by
  induction front using List.reverseRecOn with
  | nil => exact stands_nil
  | append_singleton front lexeme inductionHypothesis =>
    rw [Progress.reached, List.foldl_append]
    exact (inductionHypothesis.advances lexeme).stands

theorem Stands.finish_eq (stands : Stands lines tabSize front progress) :
    progress.finish lines tabSize lexemes =
      ofKept lines tabSize (pending front ++ kept front lexemes) := by
  induction lexemes generalizing front progress with
  | nil =>
    rw [show kept front [] = [] from rfl, List.append_nil]
    cases stands with
    | before _ fresh =>
      rw [fresh]
      rfl
    | inside made =>
      rw [ofKept_unbroken made fun _ => ne_newline_of_mem_pending]
      rfl
  | cons lexeme lexemes inductionHypothesis =>
    have advances := stands.advances lexeme
    rw [Progress.finish_cons, inductionHypothesis advances.stands, advances.lines,
      ← kept_append]
    rfl

end Line
end Packrat
