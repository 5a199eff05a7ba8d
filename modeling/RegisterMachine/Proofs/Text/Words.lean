/-
# Words and trimmed texts

What reading a line takes from it, and texts that are read back as they are:

* `lines_append_lineFeed` : a line feed ends the lines before it;
* `mem_tokens` : a token is a word, and its characters stand in the text;
* `tokens_append_separator` : a separator ends the words before it, from which the words of texts that
  are put together follow;
* `tokens_intercalate` : words written with a comma and a space between them are read back;
* `trimmed_trim`, `trim_of_trimmed` : the texts without blanks at their ends are those that trimming
  gives, and those that it leaves alone;
* `trim_blanks_append`, `trim_append_blanks` : blanks at either end do not matter to it.
-/
import Mathlib.Data.List.Basic
import Mathlib.Data.List.TakeWhile
import RegisterMachine.Text.Split

namespace RegisterMachine.Text

/-! ## Pieces and lines -/

/-- The characters of a piece stand in the text and are no cuts. -/
theorem mem_of_mem_splitOnP {isCut : Char → Bool} {text piece : List Char}
    (h : piece ∈ text.splitOnP isCut) : ∀ c ∈ piece, c ∈ text ∧ isCut c = false := by
  induction text generalizing piece with
  | nil =>
      rw [List.splitOnP_nil, List.mem_singleton] at h
      subst h
      simp
  | cons d text ih =>
      rw [List.splitOnP_cons_eq_if_modifyHead] at h
      cases hd : isCut d with
      | true =>
          -- a cut opens an empty piece, and stands in none
          rw [hd, if_pos rfl] at h
          intro c hc
          rcases List.mem_cons.1 h with rfl | h
          · simp at hc
          · exact ⟨List.mem_cons_of_mem d (ih h c hc).1, (ih h c hc).2⟩
      | false =>
          -- any other character goes to the front of the first piece
          rw [hd, if_neg (by simp)] at h
          obtain ⟨first, pieces, hsplit⟩ :=
            List.exists_cons_of_ne_nil (List.splitOnP_ne_nil isCut text)
          rw [hsplit, List.modifyHead_cons] at h
          intro c hc
          rcases List.mem_cons.1 h with rfl | h
          · rcases List.mem_cons.1 hc with rfl | hc
            · exact ⟨List.mem_cons_self, hd⟩
            · have hfirst := ih (hsplit ▸ List.mem_cons_self) c hc
              exact ⟨List.mem_cons_of_mem d hfirst.1, hfirst.2⟩
          · have hpiece := ih (hsplit ▸ List.mem_cons_of_mem first h) c hc
            exact ⟨List.mem_cons_of_mem d hpiece.1, hpiece.2⟩

/-- A line feed ends the lines of what stands before it. -/
theorem lines_append_lineFeed (before after : List Char) :
    lines (before ++ '\n' :: after) = lines before ++ lines after :=
  List.splitOn_append_cons_self before after

/-- A text without line feeds is its only line. -/
theorem lines_of_notMem {text : List Char} (h : '\n' ∉ text) : lines text = [text] :=
  List.splitOn_eq_singleton h

/-- Texts without line feeds, each ended by one, are the lines of what they make up. -/
theorem lines_flatMap {texts : List (List Char)} (h : ∀ text ∈ texts, '\n' ∉ text) :
    lines (texts.flatMap fun text => text ++ ['\n']) = texts ++ [[]] := by
  induction texts with
  | nil => rfl
  | cons text texts ih =>
      have hrest := ih fun t ht => h t (List.mem_cons_of_mem text ht)
      rw [List.flatMap_cons, List.append_assoc, List.singleton_append, lines_append_lineFeed,
        lines_of_notMem (h text List.mem_cons_self), hrest]
      rfl

/-! ## Words -/

/-- What is no separator is no blank. -/
theorem isBlank_of_not_isSeparator {c : Char} (h : isSeparator c = false) : isBlank c = false :=
  (Bool.or_eq_false_iff.1 h).1

theorem isSeparator_of_isBlank {c : Char} (h : isBlank c = true) : isSeparator c = true := by
  rw [isSeparator, h, Bool.true_or]

/-- A word has characters, and none of them is a separator. -/
def IsWord (text : List Char) : Prop :=
  text ≠ [] ∧ ∀ c ∈ text, isSeparator c = false

/-- A token is a word whose characters stand in the text. -/
theorem mem_tokens {text token : List Char} (h : token ∈ tokens text) :
    IsWord token ∧ ∀ c ∈ token, c ∈ text := by
  obtain ⟨hsplit, hne⟩ := List.mem_filter.1 h
  have hmem := mem_of_mem_splitOnP hsplit
  refine ⟨⟨?_, fun c hc => (hmem c hc).2⟩, fun c hc => (hmem c hc).1⟩
  rintro rfl
  simp at hne

/-- A separator ends the words of what stands before it. -/
theorem tokens_append_separator {mark : Char} (h : isSeparator mark = true)
    (before after : List Char) :
    tokens (before ++ mark :: after) = tokens before ++ tokens after := by
  unfold tokens
  rw [List.splitOnP_append_cons before after h, List.filter_append]

/-- A separator at the start of a text belongs to no word. -/
theorem tokens_cons_separator {mark : Char} (h : isSeparator mark = true) (text : List Char) :
    tokens (mark :: text) = tokens text := by
  have hempty := tokens_append_separator h [] text
  rwa [List.nil_append, tokens_nil, List.nil_append] at hempty

/-- A word is the only token of itself. -/
theorem tokens_of_isWord {word : List Char} (h : IsWord word) : tokens word = [word] := by
  unfold tokens
  rw [List.splitOnP_eq_singleton h.2]
  simp [h.1]

theorem isWord_of_tokens {word : List Char} (h : tokens word = [word]) : IsWord word :=
  (mem_tokens (h ▸ List.mem_singleton_self word)).1

/-- Words with a comma and a space between them are the tokens of what they make up. -/
theorem tokens_intercalate {words : List (List Char)} (h : ∀ word ∈ words, IsWord word) :
    tokens ([',', ' '].intercalate words) = words := by
  induction words with
  | nil => rfl
  | cons word words ih =>
      have hword : tokens word = [word] := tokens_of_isWord (h word List.mem_cons_self)
      have hrest := ih fun w hw => h w (List.mem_cons_of_mem word hw)
      cases words with
      | nil => rwa [List.intercalate_singleton]
      | cons second rest =>
          rw [List.intercalate_cons_cons, List.append_assoc, List.cons_append, List.cons_append,
            List.nil_append, tokens_append_separator (by decide), tokens_cons_separator (by decide),
            hword, hrest]
          rfl

/-- Words with a comma and a space between them bring in no other character. -/
theorem mem_intercalate {words : List (List Char)} {c : Char}
    (h : c ∈ [',', ' '].intercalate words) : c ∈ [',', ' '] ∨ ∃ word ∈ words, c ∈ word := by
  induction words with
  | nil => simp at h
  | cons word words ih =>
      cases words with
      | nil =>
          rw [List.intercalate_singleton] at h
          exact Or.inr ⟨word, List.mem_cons_self, h⟩
      | cons second rest =>
          rw [List.intercalate_cons_cons, List.mem_append, List.mem_append] at h
          rcases h with (h | h) | h
          · exact Or.inr ⟨word, List.mem_cons_self, h⟩
          · exact Or.inl h
          · rcases ih h with hbetween | ⟨w, hw, hc⟩
            · exact Or.inl hbetween
            · exact Or.inr ⟨w, List.mem_cons_of_mem word hw, hc⟩

/-- Words with a comma and a space between them leave something to read. -/
theorem intercalate_ne_nil {words : List (List Char)} (hne : words ≠ [])
    (h : ∀ word ∈ words, IsWord word) : [',', ' '].intercalate words ≠ [] := by
  intro hnil
  have htokens := tokens_intercalate h
  rw [hnil, tokens_nil] at htokens
  exact hne htokens.symm

/-- Words with a comma and a space between them end as the last of them ends. -/
theorem getLast?_intercalate {words : List (List Char)} (h : ∀ word ∈ words, IsWord word) :
    ∀ c ∈ ([',', ' '].intercalate words).getLast?, isSeparator c = false := by
  induction words with
  | nil => simp
  | cons word words ih =>
      have hword := h word List.mem_cons_self
      have hrest := ih fun w hw => h w (List.mem_cons_of_mem word hw)
      intro c hc
      cases words with
      | nil =>
          rw [List.intercalate_singleton] at hc
          exact hword.2 c (List.mem_of_getLast? hc)
      | cons second rest =>
          have hne : [',', ' '].intercalate (second :: rest) ≠ [] :=
            intercalate_ne_nil (List.cons_ne_nil _ _) fun w hw => h w (List.mem_cons_of_mem word hw)
          rw [List.intercalate_cons_cons, List.getLast?_append_of_ne_nil _ hne] at hc
          exact hrest c hc

/-! ## Marks -/

/-- What is read up to a mark goes on behind a text without this mark. -/
theorem takeWhile_ne_append {mark : Char} {text : List Char} (h : mark ∉ text) (rest : List Char) :
    (text ++ rest).takeWhile (· ≠ mark) = text ++ rest.takeWhile (· ≠ mark) := by
  apply List.takeWhile_append_of_pos
  intro c hc
  refine decide_eq_true fun heq => h ?_
  rwa [heq] at hc

/-- A mark that is no blank stands in no row of blanks. -/
theorem notMem_of_forall_isBlank {mark : Char} (hmark : isBlank mark = false) {blanks : List Char}
    (h : ∀ c ∈ blanks, isBlank c = true) : mark ∉ blanks := by
  intro hmem
  rw [h mark hmem] at hmark
  cases hmark

/-! ## Trimmed texts -/

/-- A text without a blank at either end. -/
structure Trimmed (text : List Char) : Prop where
  /-- The first character is no blank. -/
  head : ∀ c ∈ text.head?, isBlank c = false
  /-- The last character is no blank. -/
  last : ∀ c ∈ text.getLast?, isBlank c = false

/-- A text that starts with no blank keeps its start. -/
theorem trimStart_of_head {text : List Char} (h : ∀ c ∈ text.head?, isBlank c = false) :
    trimStart text = text := by
  cases text with
  | nil => rfl
  | cons c text =>
      unfold trimStart
      rw [List.dropWhile_cons_of_neg]
      simp [h c rfl]

/-- No blank is left at the start. -/
theorem head_trimStart (text : List Char) : ∀ c ∈ (trimStart text).head?, isBlank c = false := by
  intro c hc
  have hnot := List.head?_dropWhile_not isBlank text
  unfold trimStart at hc
  rw [Option.mem_def.1 hc] at hnot
  simpa using hnot

/-- A trimmed text stays as it is. -/
theorem trim_of_trimmed {text : List Char} (h : Trimmed text) : trim text = text := by
  have hlast : trimStart text.reverse = text.reverse := by
    apply trimStart_of_head
    rw [List.head?_reverse]
    exact h.last
  unfold trim
  rw [trimStart_of_head h.head, hlast, List.reverse_reverse]

/-- Trimming leaves no blank at either end. -/
theorem trimmed_trim (text : List Char) : Trimmed (trim text) := by
  constructor
  · -- what the second pass leaves is the start of what the first pass left
    intro c hc
    have hprefix : trim text <+: trimStart text := by
      have hsuffix : trimStart (trimStart text).reverse <:+ (trimStart text).reverse :=
        List.dropWhile_suffix isBlank
      have hreverse := List.reverse_prefix.2 hsuffix
      rwa [List.reverse_reverse] at hreverse
    obtain ⟨rest, hrest⟩ := hprefix
    apply head_trimStart text c
    rw [← hrest, List.head?_append]
    rw [Option.mem_def.1 hc]
    rfl
  · intro c hc
    unfold trim at hc
    rw [List.getLast?_reverse] at hc
    exact head_trimStart _ c hc

/-- Blanks at the start do not matter for a trimmed text. -/
theorem trim_blanks_append {blanks : List Char} (h : ∀ c ∈ blanks, isBlank c = true)
    (text : List Char) : trim (blanks ++ text) = trim text := by
  unfold trim trimStart
  rw [List.dropWhile_append_of_pos h]

/-- Nor do blanks at the end. -/
theorem trim_append_blanks {blanks : List Char} (h : ∀ c ∈ blanks, isBlank c = true)
    (text : List Char) : trim (text ++ blanks) = trim text := by
  unfold trim trimStart
  rw [List.dropWhile_append]
  split
  · next hnone =>
      -- there are blanks only, and all of them are dropped from the start on
      have hall : blanks.dropWhile isBlank = [] := List.dropWhile_eq_nil_iff.2 h
      rw [hall, List.isEmpty_iff.1 hnone]
  · rw [List.reverse_append, List.dropWhile_append_of_pos]
    intro c hc
    exact h c (List.mem_reverse.1 hc)

/-- Trimming takes blanks from the ends of a text, and nothing else. -/
theorem exists_eq_append_trim_append (text : List Char) : ∃ before after,
    (∀ c ∈ before, isBlank c = true) ∧ (∀ c ∈ after, isBlank c = true) ∧
      text = before ++ (trim text ++ after) := by
  have hstart : text = text.takeWhile isBlank ++ trimStart text :=
    List.takeWhile_append_dropWhile.symm
  have hend : trimStart text =
      trim text ++ ((trimStart text).reverse.takeWhile isBlank).reverse := by
    unfold trim
    rw [← List.reverse_append]
    unfold trimStart
    rw [List.takeWhile_append_dropWhile, List.reverse_reverse]
  refine ⟨_, _, fun c hc => List.mem_takeWhile_imp hc, fun c hc => ?_, hend ▸ hstart⟩
  exact List.mem_takeWhile_imp (List.mem_reverse.1 hc)

/-- Trimming brings nothing into a text. -/
theorem mem_of_mem_trim {text : List Char} {c : Char} (h : c ∈ trim text) : c ∈ text := by
  have hreverse : c ∈ trimStart (trimStart text).reverse := List.mem_reverse.1 h
  have hstart : c ∈ (trimStart text).reverse := List.dropWhile_subset isBlank hreverse
  exact List.dropWhile_subset isBlank (List.mem_reverse.1 hstart)

end RegisterMachine.Text
