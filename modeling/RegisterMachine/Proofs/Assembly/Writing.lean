/-
# How a line may be written

A line is a label and a colon, then words set apart by separators, then a semicolon and a comment. Label and
comment may be missing. What the line says depends on its label and its words only, and not on the separators
around and between them.

* `Instruction.labelAndBody_trim` : blanks around a line do not matter to its label and words;
* `Instruction.Writing` : a line with its parts;
* `Instruction.Writing.ofLine?_line` : what it says;
* `Instruction.exists_writing` : every line has such parts;
* `Instruction.tokens_eq_iff_and_ofLine?_eq` : tokens are the words of a text, and separators between and
  around the words of a line may be replaced.
-/
import RegisterMachine.Assembly.Instruction
import RegisterMachine.Proofs.Text.Spacing

namespace RegisterMachine

open Text

namespace Instruction

/-! ## Labels and words -/

/-- Blanks around a line matter neither to its label nor to its words. -/
theorem labelAndBody_trim (code : List Char) :
    (labelAndBody (trim code)).1 = (labelAndBody code).1 ∧
      tokens (labelAndBody (trim code)).2 = tokens (labelAndBody code).2 := by
  obtain ⟨before, after, hbefore, hafter, hcode⟩ := exists_eq_append_trim_append code
  have hstart : ':' ∉ before := notMem_of_forall_isBlank (by decide) hbefore
  have hend : ':' ∉ after := notMem_of_forall_isBlank (by decide) hafter
  generalize trim code = middle at hcode ⊢
  subst hcode
  cases hcut : cut? ':' middle with
  | none =>
      have hmiddle : ':' ∉ middle := cut?_eq_none_iff.1 hcut
      have hwhole : ':' ∉ before ++ (middle ++ after) := by
        simp only [List.mem_append, not_or]
        exact ⟨hstart, hmiddle, hend⟩
      rw [labelAndBody_of_notMem hmiddle, labelAndBody_of_notMem hwhole]
      refine ⟨rfl, ?_⟩
      rw [tokens_separators_append fun c hc => isSeparator_of_isBlank (hbefore c hc),
        tokens_append_separators fun c hc => isSeparator_of_isBlank (hafter c hc)]
  | some parts =>
      obtain ⟨label, body⟩ := parts
      obtain ⟨rfl, hlabel⟩ := cut?_eq_some_iff.1 hcut
      -- the blanks before go to the label, and those behind to the body
      have hwhole : before ++ (label ++ ':' :: body ++ after) =
          (before ++ label) ++ ':' :: (body ++ after) := by
        simp only [List.append_assoc, List.cons_append]
      have hlonger : ':' ∉ before ++ label := by
        rw [List.mem_append, not_or]
        exact ⟨hstart, hlabel⟩
      rw [hwhole, labelAndBody_append hlabel, labelAndBody_append hlonger,
        trim_blanks_append hbefore]
      refine ⟨rfl, ?_⟩
      rw [tokens_append_separators fun c hc => isSeparator_of_isBlank (hafter c hc)]

/-! ## Lines -/

/-- The parts of a line: the text before a colon, words set apart, and the text behind a semicolon. No part
holds a mark that would end it early. -/
structure Writing where
  label : Option (List Char)
  spacing : Spacing
  comment : Option (List Char)
  isLabel : ∀ text ∈ label, ':' ∉ text ∧ ';' ∉ text
  noComment : ∀ word ∈ spacing.words, ';' ∉ word
  noLabel : label = none → ∀ word ∈ spacing.words, ':' ∉ word

namespace Writing

/-- The line up to its comment. -/
def code (writing : Writing) : List Char :=
  writing.label.elim [] (· ++ [':']) ++ writing.spacing.text

/-- The whole line. -/
def line (writing : Writing) : List Char :=
  writing.code ++ writing.comment.elim [] (';' :: ·)

/-- No comment opens before the comment. -/
theorem semicolon_notMem_code (writing : Writing) : ';' ∉ writing.code := by
  have htext : ';' ∉ writing.spacing.text := (notMem_text_iff (by decide)).2 writing.noComment
  unfold code
  cases hlabel : writing.label with
  | none => simpa using htext
  | some label =>
      have hparts := writing.isLabel label hlabel
      simpa using ⟨hparts.2, htext⟩

/-- The comment is not read. -/
theorem codeOf_line (writing : Writing) : codeOf writing.line = trim writing.code := by
  unfold codeOf line
  rw [takeWhile_ne_append writing.semicolon_notMem_code]
  cases writing.comment <;> simp

theorem labelAndBody_code (writing : Writing) :
    labelAndBody writing.code =
      (writing.label.map fun label => String.ofList (trim label), writing.spacing.text) := by
  unfold code
  cases hlabel : writing.label with
  | none =>
      have htext : ':' ∉ writing.spacing.text :=
        (notMem_text_iff (by decide)).2 (writing.noLabel hlabel)
      exact labelAndBody_of_notMem htext
  | some label =>
      have hparts := writing.isLabel label hlabel
      show labelAndBody (label ++ [':'] ++ writing.spacing.text) = _
      rw [List.append_assoc, List.singleton_append, labelAndBody_append hparts.1]
      rfl

/-- **A line says its label and its words.** -/
theorem ofLine?_line (writing : Writing) :
    ofLine? writing.line =
      ofWords? (writing.label.map fun label => String.ofList (trim label)) writing.spacing.words := by
  obtain ⟨hlabel, hwords⟩ := labelAndBody_trim writing.code
  rw [labelAndBody_code] at hlabel hwords
  show ofWords? (labelAndBody (codeOf writing.line)).1
    (tokens (labelAndBody (codeOf writing.line)).2) = _
  rw [codeOf_line, hlabel, hwords, tokens_text]

end Writing

/-- A text is what stands before a mark, and the mark and what stands behind it, if there is a mark. -/
theorem exists_before_mark (mark : Char) (text : List Char) :
    ∃ (before : List Char) (after : Option (List Char)),
      mark ∉ before ∧ text = before ++ after.elim [] (mark :: ·) := by
  cases hcut : cut? mark text with
  | none => exact ⟨text, none, cut?_eq_none_iff.1 hcut, (List.append_nil text).symm⟩
  | some parts =>
      obtain ⟨htext, hbefore⟩ := cut?_eq_some_iff.1 hcut
      exact ⟨parts.1, some parts.2, hbefore, htext⟩

/-- Every line has these parts. -/
theorem exists_writing (line : List Char) : ∃ writing : Writing, writing.line = line := by
  obtain ⟨code, comment, hcomment, rfl⟩ := exists_before_mark ';' line
  obtain ⟨before, after, hcolon, rfl⟩ := exists_before_mark ':' code
  rw [List.mem_append, not_or] at hcomment
  cases after with
  | none =>
      obtain ⟨spacing, rfl⟩ := exists_spacing before
      have hsemicolons := (notMem_text_iff (by decide)).1 hcomment.1
      have hcolons := (notMem_text_iff (by decide)).1 hcolon
      refine ⟨⟨none, spacing, comment, by simp, hsemicolons, fun _ => hcolons⟩, ?_⟩
      simp [Writing.line, Writing.code]
  | some body =>
      obtain ⟨spacing, rfl⟩ := exists_spacing body
      have hbody : ';' ∉ spacing.text := fun hmem => hcomment.2 (List.mem_cons_of_mem _ hmem)
      have hsemicolons := (notMem_text_iff (by decide)).1 hbody
      have hlabel : ∀ text ∈ some before, ':' ∉ text ∧ ';' ∉ text := by
        simpa using ⟨hcolon, hcomment.1⟩
      refine ⟨⟨some before, spacing, comment, hlabel, hsemicolons, nofun⟩, ?_⟩
      simp [Writing.line, Writing.code]

/-- **Tokens are the words set apart in a text**: it can be taken apart into its tokens with separators before,
between and behind them, and into no other words. So each line is a label, words set apart and a comment, and
where any other separators stand between two words of it, or before and behind them, it says the same opcode
and operands. -/
theorem tokens_eq_iff_and_ofLine?_eq :
    (∀ (text : List Char) (words : List (List Char)), tokens text = words ↔
      ∃ spacing : Spacing, spacing.text = text ∧ spacing.words = words) ∧
    (∀ line : List Char, ∃ writing : Writing, writing.line = line) ∧
    ∀ writing other : Writing, writing.label = other.label →
      writing.spacing.words = other.spacing.words → ofLine? writing.line = ofLine? other.line := by
  refine ⟨fun _ _ => tokens_eq_iff, exists_writing, ?_⟩
  intro writing other hlabel hwords
  rw [writing.ofLine?_line, other.ofLine?_line, hlabel, hwords]

/-- Commas, blanks and tabs may stand around the words as one likes, and behind the colon there may be
nothing. -/
theorem ofLine?_eq_of_start : ∃ writing other : Writing,
    writing.line = "start:MOV AX, 5".toList ∧
    other.line = "start: ,\tMOV AX\t,,5,;five: 5".toList ∧
    writing.label = other.label ∧ writing.spacing.words = other.spacing.words ∧
    ofLine? "start:MOV AX, 5".toList = ofLine? "start: ,\tMOV AX\t,,5,;five: 5".toList := by
  have hmov : IsWord ['M', 'O', 'V'] := isWord_of_tokens rfl
  have hax : IsWord ['A', 'X'] := isWord_of_tokens rfl
  have hfive : IsWord ['5'] := isWord_of_tokens rfl
  have hwords : ∀ word ∈ [['M', 'O', 'V'], ['A', 'X'], ['5']], ';' ∉ word := by decide
  have hlabel : ∀ text ∈ some "start".toList, ':' ∉ text ∧ ';' ∉ text := by decide
  have hgap : ∀ {gap : List Char}, gap.all isSeparator = true → ∀ c ∈ gap, isSeparator c = true :=
    List.all_eq_true.1
  obtain ⟨-, -, hsame⟩ := tokens_eq_iff_and_ofLine?_eq
  let close : Spacing :=
    { start := []
      parts := [(['M', 'O', 'V'], [' ']), (['A', 'X'], [',', ' ']), (['5'], [])]
      isSeparator_start := hgap rfl
      setApart := .cons hmov (hgap rfl) (by simp) <| .cons hax (hgap rfl) (by simp) <|
        .cons hfive (hgap rfl) (by simp) .nil }
  let wide : Spacing :=
    { start := [' ', ',', '\t']
      parts := [(['M', 'O', 'V'], [' ']), (['A', 'X'], ['\t', ',', ',']), (['5'], [','])]
      isSeparator_start := hgap rfl
      setApart := .cons hmov (hgap rfl) (by simp) <| .cons hax (hgap rfl) (by simp) <|
        .cons hfive (hgap rfl) (by simp) .nil }
  let writing : Writing := ⟨some "start".toList, close, none, hlabel, hwords, nofun⟩
  let other : Writing :=
    ⟨some "start".toList, wide, some "five: 5".toList, hlabel, hwords, nofun⟩
  exact ⟨writing, other, rfl, rfl, rfl, rfl, hsame writing other rfl rfl⟩

end Instruction

end RegisterMachine
