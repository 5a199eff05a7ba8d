/-
# Cutting a text into pieces

A text is cut at characters, which are dropped:

* `cut?` : the two parts at the first cut;
* `lines` : the pieces between line feeds, empty ones included;
* `tokens` : the non-empty pieces between separators, which are blanks and commas.
-/
import RegisterMachine.Text.Blank

namespace RegisterMachine.Text

/-! ## One cut -/

/-- The parts of a text before and after its first `mark`, if it has one. -/
def cut? (mark : Char) : List Char → Option (List Char × List Char)
  | [] => none
  | c :: text =>
      if c = mark then some ([], text)
      else (cut? mark text).map fun (before, after) => (c :: before, after)

/-- A cut loses nothing but the mark, and the first part has no mark. -/
theorem cut?_eq_some_iff {mark : Char} {text before after : List Char} :
    cut? mark text = some (before, after) ↔ text = before ++ mark :: after ∧ mark ∉ before := by
  induction text generalizing before with
  | nil => simp [cut?]
  | cons c text ih =>
      by_cases hc : c = mark
      · subst hc
        cases before <;> simp [cut?]
        rintro rfl rfl h
        exact absurd rfl h
      · cases before with
        | nil => simp [cut?, hc]
        | cons d before =>
            simp only [cut?, hc, if_false, Option.map_eq_some_iff, Prod.exists, Prod.mk.injEq,
              List.cons.injEq, List.cons_append, List.mem_cons, not_or]
            constructor
            · rintro ⟨u, v, h, ⟨rfl, rfl⟩, rfl⟩
              obtain ⟨rfl, hu⟩ := ih.1 h
              exact ⟨⟨rfl, rfl⟩, fun h => hc h.symm, hu⟩
            · rintro ⟨⟨rfl, rfl⟩, _, hu⟩
              exact ⟨before, after, ih.2 ⟨rfl, hu⟩, ⟨rfl, rfl⟩, rfl⟩

/-- There is no cut when there is no mark. -/
theorem cut?_eq_none_iff {mark : Char} {text : List Char} :
    cut? mark text = none ↔ mark ∉ text := by
  induction text with
  | nil => simp [cut?]
  | cons c text ih =>
      by_cases hc : c = mark
      · simp [cut?, hc]
      · simp [cut?, hc, ih, Ne.symm hc]

/-! ## Lines and tokens -/

/-- The lines of a text. A line feed at the end opens one more, empty line. -/
def lines (text : List Char) : List (List Char) :=
  text.splitOn '\n'

/-- Separators stand between the words of an instruction: blanks and commas. -/
def isSeparator (c : Char) : Bool :=
  isBlank c || c == ','

/-- The words of a text: its maximal runs of characters that are no separators. -/
def tokens (text : List Char) : List (List Char) :=
  (text.splitOnP isSeparator).filter fun piece => !piece.isEmpty

@[simp] theorem tokens_nil : tokens [] = [] := rfl

end RegisterMachine.Text
