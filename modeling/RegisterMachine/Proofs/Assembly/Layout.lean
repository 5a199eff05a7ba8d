/-
# The layout of a text

Blanks around a line and a comment behind it say nothing. So a text may be laid out anew, each of its
lines in a way of its own, and stays the same program with the same source lines.

* `Layout` : what may be put around a line;
* `Layout.codeOf_around` : the code of a line is found between;
* `layOut` : a text that is laid out anew;
* `endWithReturns` : a text with a carriage return before each line feed, which is one of its layouts;
* `Program.parse_layOut` : neither layout changes the program.

A line may hold a comment of its own. Then what is put behind the line belongs to this comment, and what
is read ends before it.
-/
import RegisterMachine.Proofs.Assembly.SourceLines

namespace RegisterMachine

open Text

/-! ## Around a line -/

/-- What may be put around a line: blanks at both ends, and possibly a comment behind them. -/
structure Layout where
  before : List Char
  after : List Char
  comment : Option (List Char)
  isBlank_before : ∀ c ∈ before, isBlank c = true
  isBlank_after : ∀ c ∈ after, isBlank c = true
  lineFeed_notMem_before : '\n' ∉ before
  lineFeed_notMem_after : '\n' ∉ after
  lineFeed_notMem_comment : ∀ text ∈ comment, '\n' ∉ text

namespace Layout

/-- What stands behind a line: the blanks, and the comment with its mark. -/
def trail (layout : Layout) : List Char :=
  layout.after ++ layout.comment.elim [] (';' :: ·)

/-- A line in its layout. -/
def around (layout : Layout) (line : List Char) : List Char :=
  layout.before ++ (line ++ layout.trail)

/-- Nothing is put around a line. -/
def plain : Layout where
  before := []
  after := []
  comment := none
  isBlank_before := by simp
  isBlank_after := by simp
  lineFeed_notMem_before := by simp
  lineFeed_notMem_after := by simp
  lineFeed_notMem_comment := by simp

/-- A line is followed by a carriage return. -/
def carriageReturn : Layout :=
  { plain with
    after := ['\r']
    isBlank_after := List.forall_mem_singleton.2 (by decide)
    lineFeed_notMem_after := by simp }

theorem around_plain (line : List Char) : plain.around line = line :=
  List.append_nil line

theorem around_carriageReturn (line : List Char) : carriageReturn.around line = line ++ ['\r'] :=
  rfl

/-- A layout stays on its line. -/
theorem lineFeed_notMem_around (layout : Layout) {line : List Char} (h : '\n' ∉ line) :
    '\n' ∉ layout.around line := by
  have hcomment : '\n' ∉ layout.comment.elim [] (';' :: ·) := by
    cases htext : layout.comment with
    | none => simp
    | some text =>
        have hfeed := layout.lineFeed_notMem_comment text htext
        simpa using hfeed
  unfold around trail
  simp only [List.mem_append, not_or]
  exact ⟨layout.lineFeed_notMem_before, h, layout.lineFeed_notMem_after, hcomment⟩

/-! ## The code of a line -/

/-- Up to the first comment, only blanks are added behind a line. -/
theorem exists_takeWhile_append_trail (layout : Layout) (line : List Char) :
    ∃ blanks, (∀ c ∈ blanks, isBlank c = true) ∧
      (line ++ layout.trail).takeWhile (· ≠ ';') = line.takeWhile (· ≠ ';') ++ blanks := by
  rw [List.takeWhile_append]
  split
  · next hwhole =>
      -- the line has no comment: the blanks are read, and the comment behind them is not
      have hline : line.takeWhile (· ≠ ';') = line :=
        (List.takeWhile_prefix _).eq_of_length hwhole
      have hafter : ';' ∉ layout.after := notMem_of_forall_isBlank (by decide) layout.isBlank_after
      refine ⟨layout.after, layout.isBlank_after, ?_⟩
      rw [hline, trail, takeWhile_ne_append hafter]
      cases layout.comment <;> simp
  · exact ⟨[], by simp, (List.append_nil _).symm⟩

/-- The code of a line does not depend on its layout. -/
theorem codeOf_around (layout : Layout) (line : List Char) :
    Instruction.codeOf (layout.around line) = Instruction.codeOf line := by
  have hbefore : ';' ∉ layout.before := notMem_of_forall_isBlank (by decide) layout.isBlank_before
  obtain ⟨blanks, hblanks, htake⟩ := layout.exists_takeWhile_append_trail line
  unfold Instruction.codeOf around
  rw [takeWhile_ne_append hbefore, trim_blanks_append layout.isBlank_before, htake,
    trim_append_blanks hblanks]

/-- A line says the same in every layout. -/
theorem ofLine?_around (layout : Layout) (line : List Char) :
    Instruction.ofLine? (layout.around line) = Instruction.ofLine? line := by
  unfold Instruction.ofLine?
  rw [codeOf_around]

end Layout

/-! ## Texts -/

/-- A text whose lines are laid out anew, each in the layout for its place. -/
def layOut (layouts : Nat → Layout) (text : List Char) : List Char :=
  unlines ((lines text).mapIdx fun place line => (layouts place).around line)

/-- The lines of a text that is laid out anew are its lines in their layouts. -/
theorem lines_layOut (layouts : Nat → Layout) (text : List Char) :
    lines (layOut layouts text) =
      (lines text).mapIdx fun place line => (layouts place).around line := by
  apply lines_unlines
  · rw [ne_eq, List.mapIdx_eq_nil_iff]
    exact lines_ne_nil text
  · intro line hline
    obtain ⟨place, hplace, rfl⟩ := List.mem_mapIdx.1 hline
    exact (layouts place).lineFeed_notMem_around
      (lineFeed_notMem_of_mem_lines (List.getElem_mem hplace))

/-- The lines of a text that is laid out anew say what they said before. -/
theorem map_ofLine?_lines_layOut (layouts : Nat → Layout) (text : List Char) :
    (lines (layOut layouts text)).map Instruction.ofLine? =
      (lines text).map Instruction.ofLine? := by
  rw [lines_layOut]
  apply List.ext_getElem?
  intro place
  rw [List.getElem?_map, List.getElem?_mapIdx, Option.map_map, List.getElem?_map]
  congr 1
  funext line
  exact (layouts place).ofLine?_around line

/-! ## Carriage returns -/

/-- A text with a carriage return before each of its line feeds. -/
def endWithReturns (text : List Char) : List Char :=
  text.flatMap fun c => if c = '\n' then ['\r', '\n'] else [c]

theorem endWithReturns_of_notMem {text : List Char} (h : '\n' ∉ text) :
    endWithReturns text = text := by
  induction text with
  | nil => rfl
  | cons c text ih =>
      rw [List.mem_cons, not_or] at h
      unfold endWithReturns at ih ⊢
      rw [List.flatMap_cons, if_neg (Ne.symm h.1), ih h.2]
      rfl

/-- Each line but the last gets a carriage return. -/
theorem endWithReturns_unlines {texts : List (List Char)} (h : ∀ text ∈ texts, '\n' ∉ text) :
    endWithReturns (unlines texts) =
      unlines (texts.mapIdx fun place text =>
        if place + 1 < texts.length then text ++ ['\r'] else text) := by
  induction texts with
  | nil => rfl
  | cons text texts ih =>
      have htext := endWithReturns_of_notMem (h text List.mem_cons_self)
      have hrest := ih fun t ht => h t (List.mem_cons_of_mem text ht)
      cases texts with
      | nil => simpa [unlines] using htext
      | cons second rest =>
          unfold unlines endWithReturns at htext hrest ⊢
          rw [List.intercalate_cons_cons, List.flatMap_append, List.flatMap_append, htext, hrest,
            List.mapIdx_cons, List.mapIdx_cons, List.mapIdx_cons, List.intercalate_cons_cons]
          simp

/-- To put carriage returns before the line feeds is to lay out a text anew. -/
theorem endWithReturns_eq_layOut (text : List Char) :
    endWithReturns text =
      layOut (fun place =>
        if place + 1 < (lines text).length then .carriageReturn else .plain) text := by
  have hfeed : ∀ line ∈ lines text, '\n' ∉ line := fun line => lineFeed_notMem_of_mem_lines
  have hends := endWithReturns_unlines hfeed
  rw [unlines_lines] at hends
  rw [hends, layOut]
  congr 2
  funext place line
  split
  · rw [Layout.around_carriageReturn]
  · rw [Layout.around_plain]

/-! ## Programs -/

namespace Program

/-- **The layout of a text is irrelevant.** Blanks may be put around each of its lines, and a comment
behind them, and the program is the same, source lines included. In particular the lines may end in a
carriage return and a line feed. -/
theorem parse_layOut (source : String) :
    (∀ layouts : Nat → Layout,
      parse (String.ofList (layOut layouts source.toList)) = parse source) ∧
    parse (String.ofList (endWithReturns source.toList)) = parse source := by
  have hlayouts : ∀ layouts : Nat → Layout,
      parse (String.ofList (layOut layouts source.toList)) = parse source := by
    intro layouts
    apply parse_eq_of_map_ofLine?
    rw [String.toList_ofList]
    exact map_ofLine?_lines_layOut layouts source.toList
  refine ⟨hlayouts, ?_⟩
  rw [endWithReturns_eq_layOut]
  exact hlayouts _

end Program

end RegisterMachine
