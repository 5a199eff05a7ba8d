/-
# Words set apart in a text

A text is separators, then a word and separators, then the next word and separators, and so on. There is one
way only to take it apart like this, and the words are its tokens.

* `SetApart` : words, each with the separators behind it, so that no two run together;
* `Spacing` : a text taken apart;
* `tokens_separators_append`, `tokens_append_separators` : separators at either end do not matter;
* `tokens_text` : the words of a text taken apart are its tokens;
* `notMem_text_iff` : other characters stand in the words only;
* `exists_spacing` : every text can be taken apart;
* `tokens_eq_iff` : the tokens of a text are the words into which it can be taken apart.
-/
import RegisterMachine.Proofs.Text.Words

namespace RegisterMachine.Text

/-! ## Texts taken apart -/

/-- Words, each with the separators behind it. Where another word follows, there is one at least. -/
inductive SetApart : List (List Char × List Char) → Prop
  | nil : SetApart []
  | cons {word gap : List Char} {parts : List (List Char × List Char)} (hword : IsWord word)
      (hgap : ∀ c ∈ gap, isSeparator c = true) (hne : parts ≠ [] → gap ≠ [])
      (hparts : SetApart parts) : SetApart ((word, gap) :: parts)

/-- A text taken apart: separators, and then its words with those behind each of them. -/
structure Spacing where
  start : List Char
  parts : List (List Char × List Char)
  isSeparator_start : ∀ c ∈ start, isSeparator c = true
  setApart : SetApart parts

/-- Words and what stands behind them, put together. -/
def spell (parts : List (List Char × List Char)) : List Char :=
  parts.flatMap fun part => part.1 ++ part.2

theorem spell_cons (word gap : List Char) (parts : List (List Char × List Char)) :
    spell ((word, gap) :: parts) = word ++ (gap ++ spell parts) := by
  unfold spell
  rw [List.flatMap_cons, List.append_assoc]

namespace Spacing

/-- The text that was taken apart. -/
def text (spacing : Spacing) : List Char :=
  spacing.start ++ spell spacing.parts

/-- The words in it. -/
def words (spacing : Spacing) : List (List Char) :=
  spacing.parts.map Prod.fst

end Spacing

/-! ## Separators at the ends -/

theorem tokens_separators_append {gap : List Char} (h : ∀ c ∈ gap, isSeparator c = true)
    (text : List Char) : tokens (gap ++ text) = tokens text := by
  induction gap with
  | nil => rfl
  | cons mark gap ih =>
      rw [List.cons_append, tokens_cons_separator (h mark List.mem_cons_self)]
      exact ih fun c hc => h c (List.mem_cons_of_mem mark hc)

/-- Separators, and at least one of them, end the words before them. -/
theorem tokens_append_separators_append {gap : List Char} (hne : gap ≠ [])
    (h : ∀ c ∈ gap, isSeparator c = true) (before after : List Char) :
    tokens (before ++ (gap ++ after)) = tokens before ++ tokens after := by
  cases gap with
  | nil => exact absurd rfl hne
  | cons mark gap =>
      rw [List.cons_append, tokens_append_separator (h mark List.mem_cons_self),
        tokens_separators_append fun c hc => h c (List.mem_cons_of_mem mark hc)]

theorem tokens_append_separators {gap : List Char} (h : ∀ c ∈ gap, isSeparator c = true)
    (text : List Char) : tokens (text ++ gap) = tokens text := by
  by_cases hne : gap = []
  · rw [hne, List.append_nil]
  · have htokens := tokens_append_separators_append hne h text []
    rwa [List.append_nil, tokens_nil, List.append_nil] at htokens

/-! ## Words and tokens -/

theorem tokens_spell {parts : List (List Char × List Char)} (h : SetApart parts) :
    tokens (spell parts) = parts.map Prod.fst := by
  induction h with
  | nil => rfl
  | @cons word gap parts hword hgap hne hparts ih =>
      rw [spell_cons, List.map_cons, ← ih]
      by_cases hlast : parts = []
      · subst hlast
        show tokens (word ++ (gap ++ [])) = [word]
        rw [List.append_nil, tokens_append_separators hgap, tokens_of_isWord hword]
      · rw [tokens_append_separators_append (hne hlast) hgap, tokens_of_isWord hword,
          List.singleton_append]

/-- The words of a text taken apart are its tokens. -/
theorem tokens_text (spacing : Spacing) : tokens spacing.text = spacing.words := by
  unfold Spacing.text
  rw [tokens_separators_append spacing.isSeparator_start, tokens_spell spacing.setApart]
  rfl

/-- A character is a separator or stands in one of the words. -/
theorem mem_spell {parts : List (List Char × List Char)} (h : SetApart parts) {c : Char}
    (hc : c ∈ spell parts) : isSeparator c = true ∨ ∃ word ∈ parts.map Prod.fst, c ∈ word := by
  induction h with
  | nil => simp [spell] at hc
  | @cons word gap parts hword hgap hne hparts ih =>
      rw [spell_cons, List.mem_append, List.mem_append] at hc
      rcases hc with hc | hc | hc
      · exact Or.inr ⟨word, List.mem_cons_self, hc⟩
      · exact Or.inl (hgap c hc)
      · rcases ih hc with hseparator | ⟨other, hother, hc⟩
        · exact Or.inl hseparator
        · exact Or.inr ⟨other, List.mem_cons_of_mem word hother, hc⟩

/-- A mark that is no separator stands in a text only where it stands in a word. -/
theorem notMem_text_iff {spacing : Spacing} {mark : Char} (hmark : isSeparator mark = false) :
    mark ∉ spacing.text ↔ ∀ word ∈ spacing.words, mark ∉ word := by
  constructor
  · intro htext word hword hmem
    rw [← tokens_text] at hword
    exact htext ((mem_tokens hword).2 mark hmem)
  · intro hwords hmem
    have hparts : isSeparator mark = true ∨ ∃ word ∈ spacing.words, mark ∈ word := by
      rcases List.mem_append.1 hmem with hmem | hmem
      · exact Or.inl (spacing.isSeparator_start mark hmem)
      · exact mem_spell spacing.setApart hmem
    rcases hparts with hseparator | ⟨word, hword, hmem⟩
    · rw [hmark] at hseparator
      cases hseparator
    · exact hwords word hword hmem

/-- **Every text can be taken apart.** -/
theorem exists_spacing (text : List Char) : ∃ spacing : Spacing, spacing.text = text := by
  induction text with
  | nil => exact ⟨⟨[], [], by simp, .nil⟩, rfl⟩
  | cons c text ih =>
      obtain ⟨⟨start, parts, hstart, hparts⟩, rfl⟩ := ih
      by_cases hc : isSeparator c = true
      · exact ⟨⟨c :: start, parts, List.forall_mem_cons.2 ⟨hc, hstart⟩, hparts⟩, rfl⟩
      · rw [Bool.not_eq_true] at hc
        -- the character joins the word at the start of the text, if there is one, or is a word by itself
        have hsingle : IsWord [c] := ⟨List.cons_ne_nil c [], List.forall_mem_singleton.2 hc⟩
        cases start with
        | cons mark start =>
            refine ⟨⟨[], ([c], mark :: start) :: parts, by simp, ?_⟩, ?_⟩
            · exact .cons hsingle hstart (fun _ => List.cons_ne_nil mark start) hparts
            · exact spell_cons [c] (mark :: start) parts
        | nil =>
            cases hparts with
            | nil =>
                refine ⟨⟨[], [([c], [])], by simp, ?_⟩, rfl⟩
                exact .cons hsingle (by simp) (absurd rfl) .nil
            | @cons word gap parts hword hgap hne hparts =>
                refine ⟨⟨[], (c :: word, gap) :: parts, by simp, ?_⟩, rfl⟩
                have hlonger : IsWord (c :: word) :=
                  ⟨List.cons_ne_nil c word, List.forall_mem_cons.2 ⟨hc, hword.2⟩⟩
                exact .cons hlonger hgap hne hparts

/-- The tokens of a text are the words into which it can be taken apart, and there are no others. -/
theorem tokens_eq_iff {text : List Char} {words : List (List Char)} :
    tokens text = words ↔ ∃ spacing : Spacing, spacing.text = text ∧ spacing.words = words := by
  constructor
  · rintro rfl
    obtain ⟨spacing, rfl⟩ := exists_spacing text
    exact ⟨spacing, rfl, (tokens_text spacing).symm⟩
  · rintro ⟨spacing, rfl, rfl⟩
    exact tokens_text spacing

end RegisterMachine.Text
