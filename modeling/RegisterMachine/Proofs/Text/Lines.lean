/-
# Lines and the text that they make up

A text is cut into lines at its line feeds, and is put together again with a line feed between two lines.

* `unlines` : the text that lines make up;
* `unlines_lines` : the lines of a text make up the text;
* `lines_unlines` : lines are read back from the text that they make up, if no line feed stands in them;
* `length_lines` : a text has one line more than line feeds.
-/
import RegisterMachine.Proofs.Text.Words

namespace RegisterMachine.Text

/-- The text that lines make up, with a line feed between two of them. -/
def unlines (texts : List (List Char)) : List Char :=
  ['\n'].intercalate texts

/-! ## Cutting and putting together -/

/-- The lines of a text make up the text. -/
theorem unlines_lines (text : List Char) : unlines (lines text) = text :=
  List.intercalate_splitOn '\n'

/-- Lines are read back from the text that they make up. -/
theorem lines_unlines {texts : List (List Char)} (hne : texts ≠ [])
    (h : ∀ text ∈ texts, '\n' ∉ text) : lines (unlines texts) = texts :=
  List.splitOn_intercalate '\n' h hne

/-! ## Single lines -/

/-- There is always a line, also in the empty text. -/
theorem lines_ne_nil (text : List Char) : lines text ≠ [] :=
  List.splitOn_ne_nil '\n' text

/-- A line ends before the next line feed. -/
theorem lineFeed_notMem_of_mem_lines {text line : List Char} (h : line ∈ lines text) :
    '\n' ∉ line := by
  intro hfeed
  unfold lines at h
  rw [List.splitOn_eq_splitOnP] at h
  exact absurd (mem_of_mem_splitOnP h _ hfeed).2 (by simp)

/-- A text has one line more than line feeds. -/
theorem length_lines (text : List Char) : (lines text).length = text.count '\n' + 1 := by
  unfold lines
  induction text with
  | nil => rfl
  | cons c text ih =>
      rw [List.splitOn_cons_eq_if_modifyHead, List.count_cons]
      by_cases hc : c = '\n'
      · subst hc
        rw [if_pos (by rfl), if_pos (by rfl), List.length_cons, ih]
      · rw [if_neg (by simpa using hc), if_neg (by simpa using hc), List.length_modifyHead, ih]

end RegisterMachine.Text
