/-
# Well-formed instructions

The instructions that lines say, and that are read back from the line that lists them.

* `Instruction.WellFormed` : the words are words, no part holds a mark that would end it early, and the
  opcode is one that reading gives;
* `Instruction.wellFormed_of_ofLine?` : what a line says is well formed;
* `Instruction.ofLine?_chars` : a well-formed instruction is read back.

Upper-casing matters in the first half only: a mnemonic that was read is in upper case, and reading it
again changes nothing.
-/
import Mathlib.Data.List.TakeWhile
import RegisterMachine.Assembly.Instruction
import RegisterMachine.Proofs.Text.UpperCase
import RegisterMachine.Proofs.Text.Words

namespace RegisterMachine

open Text

/-- An opcode that was read is read again from its mnemonic. -/
theorem Opcode.ofMnemonic_mnemonic_ofMnemonic (name : String) :
    ofMnemonic (ofMnemonic name).mnemonic = ofMnemonic name := by
  rw [mnemonic_ofMnemonic]
  unfold ofMnemonic
  rw [String.toList_ofList, upper_upper]

namespace Instruction

/-! ## Well-formed parts -/

/-- The words of an instruction: the mnemonic of its opcode, and its operands. -/
def words (instruction : Instruction) : List (List Char) :=
  match instruction.opcode with
  | none => []
  | some opcode => opcode.mnemonic.toList :: instruction.operands.map String.toList

theorem words_of_opcode {instruction : Instruction} {opcode : Opcode}
    (h : instruction.opcode = some opcode) :
    instruction.words = opcode.mnemonic.toList :: instruction.operands.map String.toList := by
  rw [words, h]

/-- Without an opcode there are no words. -/
theorem words_eq_nil_iff {instruction : Instruction} :
    instruction.words = [] ↔ instruction.opcode = none := by
  unfold words
  cases instruction.opcode <;> simp

/-- A word that stays whole after the given label: it does not open a comment, and without a label
before it, it does not end one either. -/
structure IsWordAfter (label : Option String) (word : List Char) : Prop where
  isWord : IsWord word
  noComment : ';' ∉ word
  noLabel : label = none → ':' ∉ word

/-- A text that stays whole as a label. It may be empty. -/
structure IsLabel (label : List Char) : Prop where
  trimmed : Trimmed label
  noColon : ':' ∉ label
  noComment : ';' ∉ label
  noLineFeed : '\n' ∉ label

/-- An instruction that some line says. -/
structure WellFormed (instruction : Instruction) : Prop where
  /-- Without an opcode there is a label alone. -/
  bare : instruction.opcode = none → instruction.operands = [] ∧ instruction.label.isSome
  /-- The opcode is read from its mnemonic. -/
  opcode : ∀ opcode ∈ instruction.opcode, Opcode.ofMnemonic opcode.mnemonic = opcode
  words : ∀ word ∈ instruction.words, IsWordAfter instruction.label word
  label : ∀ label ∈ instruction.label, IsLabel label.toList

/-- The upper case of a word stays whole where the word does. -/
theorem isWordAfter_upper {label : Option String} {word : List Char} (h : IsWordAfter label word) :
    IsWordAfter label (upper word) := by
  have hseparator : ∀ c ∈ upper word, isSeparator c = false := by
    intro c hc
    by_contra hnot
    rw [Bool.not_eq_false] at hnot
    have hmem := mem_of_mem_upper hc (by simp [isReserved, hnot])
    rw [h.isWord.2 c hmem] at hnot
    exact absurd hnot (by simp)
  exact
    { isWord := ⟨upper_ne_nil h.isWord.1, hseparator⟩
      noComment := fun hmem => h.noComment (mem_of_mem_upper hmem (by decide))
      noLabel := fun hlabel hmem => h.noLabel hlabel (mem_of_mem_upper hmem (by decide)) }

/-! ## What a line says is well formed -/

/-- Code stands in its line, and no comment opens in it. -/
theorem mem_codeOf {line : List Char} {c : Char} (h : c ∈ codeOf line) : c ∈ line ∧ c ≠ ';' := by
  have htake : c ∈ line.takeWhile (· ≠ ';') := mem_of_mem_trim h
  have hne := List.mem_takeWhile_imp htake
  exact ⟨(List.takeWhile_prefix _).subset htake, by simpa using hne⟩

/-- A label and words that stay whole make a well-formed instruction. -/
theorem wellFormed_of_ofWords? {label : Option String} {texts : List (List Char)}
    {instruction : Instruction} (h : ofWords? label texts = some instruction)
    (htexts : ∀ text ∈ texts, IsWordAfter label text)
    (hlabel : ∀ name ∈ label, IsLabel name.toList) : instruction.WellFormed := by
  cases texts with
  | nil =>
      obtain ⟨name, hname, rfl⟩ := Option.map_eq_some_iff.1 h
      exact
        { bare := fun _ => ⟨rfl, rfl⟩
          opcode := by simp
          words := by simp [words]
          label := by simpa [hname] using hlabel }
  | cons mnemonic operands =>
      -- the mnemonic that is listed is the first word in upper case
      cases h
      have hmnemonic := isWordAfter_upper (htexts mnemonic List.mem_cons_self)
      refine
        { bare := by simp
          opcode := ?_
          words := ?_
          label := hlabel }
      · intro opcode hopcode
        cases hopcode
        exact Opcode.ofMnemonic_mnemonic_ofMnemonic _
      · intro word hword
        simp only [words, Opcode.mnemonic_ofMnemonic, String.toList_ofList, List.map_map,
          List.mem_cons, List.mem_map, Function.comp_apply] at hword
        rcases hword with rfl | ⟨operand, hoperand, rfl⟩
        · exact hmnemonic
        · exact htexts operand (List.mem_cons_of_mem mnemonic hoperand)

/-- What a line says is well formed. -/
theorem wellFormed_of_ofLine? {line : List Char} {instruction : Instruction}
    (h : ofLine? line = some instruction) (hline : '\n' ∉ line) : instruction.WellFormed := by
  unfold ofLine? labelAndBody at h
  cases hcut : cut? ':' (codeOf line) with
  | none =>
      rw [hcut] at h
      refine wellFormed_of_ofWords? h (fun text htext => ?_) (by simp)
      obtain ⟨hword, hmem⟩ := mem_tokens htext
      exact
        { isWord := hword
          noComment := fun hc => (mem_codeOf (hmem _ hc)).2 rfl
          noLabel := fun _ hc => cut?_eq_none_iff.1 hcut (hmem _ hc) }
  | some parts =>
      obtain ⟨before, body⟩ := parts
      rw [hcut] at h
      obtain ⟨hcode, hcolon⟩ := cut?_eq_some_iff.1 hcut
      have hbefore : ∀ c ∈ before, c ∈ codeOf line := by
        intro c hc
        rw [hcode]
        exact List.mem_append_left _ hc
      have hbody : ∀ c ∈ body, c ∈ codeOf line := by
        intro c hc
        rw [hcode]
        exact List.mem_append_right _ (List.mem_cons_of_mem _ hc)
      refine wellFormed_of_ofWords? h (fun text htext => ?_) (fun name hname => ?_)
      · obtain ⟨hword, hmem⟩ := mem_tokens htext
        exact
          { isWord := hword
            noComment := fun hc => (mem_codeOf (hbody _ (hmem _ hc))).2 rfl
            noLabel := by simp }
      · rw [Option.mem_some_iff] at hname
        rw [← hname, String.toList_ofList]
        exact
          { trimmed := trimmed_trim before
            noColon := fun hc => hcolon (mem_of_mem_trim hc)
            noComment := fun hc => (mem_codeOf (hbefore _ (mem_of_mem_trim hc))).2 rfl
            noLineFeed := fun hc => hline (mem_codeOf (hbefore _ (mem_of_mem_trim hc))).1 }

/-! ## A well-formed instruction is read back -/

/-- The words of an instruction are read from its body. -/
theorem tokens_bodyChars {instruction : Instruction}
    (h : ∀ word ∈ instruction.words, IsWord word) :
    tokens instruction.bodyChars = instruction.words := by
  unfold words at h ⊢
  unfold bodyChars
  cases hopcode : instruction.opcode with
  | none => rfl
  | some opcode =>
      rw [hopcode] at h
      have hmnemonic := tokens_of_isWord (h _ List.mem_cons_self)
      have hoperands := tokens_intercalate fun w hw => h w (List.mem_cons_of_mem _ hw)
      cases hlist : instruction.operands with
      | nil => exact hmnemonic
      | cons first rest =>
          rw [hlist] at hoperands
          rw [tokens_append_separator (by decide), hmnemonic, hoperands]
          rfl

/-- The body of an instruction starts with its first word. -/
theorem bodyChars_of_opcode {instruction : Instruction} {opcode : Opcode}
    (h : instruction.opcode = some opcode) :
    ∃ rest, instruction.bodyChars = opcode.mnemonic.toList ++ rest := by
  unfold bodyChars
  rw [h]
  cases instruction.operands with
  | nil => exact ⟨[], (List.append_nil _).symm⟩
  | cons first rest => exact ⟨_, rfl⟩

/-- The body of an instruction holds its words, and commas and spaces between them. -/
theorem mem_bodyChars {instruction : Instruction} {c : Char} (h : c ∈ instruction.bodyChars) :
    c ∈ [',', ' '] ∨ ∃ word ∈ instruction.words, c ∈ word := by
  unfold words
  unfold bodyChars at h
  cases hopcode : instruction.opcode with
  | none =>
      rw [hopcode] at h
      simp at h
  | some opcode =>
      rw [hopcode] at h
      cases hlist : instruction.operands with
      | nil =>
          rw [hlist] at h
          exact Or.inr ⟨_, List.mem_cons_self, h⟩
      | cons first rest =>
          rw [hlist] at h
          rcases List.mem_append.1 h with h | h
          · exact Or.inr ⟨_, List.mem_cons_self, h⟩
          · rcases List.mem_cons.1 h with rfl | h
            · exact Or.inl (by decide)
            · rcases mem_intercalate h with hbetween | ⟨word, hword, hc⟩
              · exact Or.inl hbetween
              · exact Or.inr ⟨word, List.mem_cons_of_mem _ hword, hc⟩

/-- The body of an instruction ends as its last word ends. -/
theorem getLast?_bodyChars {instruction : Instruction}
    (h : ∀ word ∈ instruction.words, IsWord word) :
    ∀ c ∈ instruction.bodyChars.getLast?, isSeparator c = false := by
  unfold words at h
  unfold bodyChars
  cases hopcode : instruction.opcode with
  | none => simp
  | some opcode =>
      rw [hopcode] at h
      have hoperands : ∀ word ∈ instruction.operands.map String.toList, IsWord word :=
        fun word hword => h word (List.mem_cons_of_mem _ hword)
      intro c hc
      cases hlist : instruction.operands with
      | nil =>
          rw [hlist] at hc
          exact (h _ List.mem_cons_self).2 c (List.mem_of_getLast? hc)
      | cons first rest =>
          rw [hlist] at hc hoperands
          have hne := intercalate_ne_nil (by simp) hoperands
          rw [List.getLast?_append_of_ne_nil _ (List.cons_ne_nil _ _), ← List.singleton_append,
            List.getLast?_append_of_ne_nil _ hne] at hc
          exact getLast?_intercalate hoperands c hc

/-- An instruction is listed with its label and words, and with commas, spaces and a colon. -/
theorem mem_chars {instruction : Instruction} {c : Char} (h : c ∈ instruction.chars) :
    c ∈ [',', ' ', ':'] ∨ (∃ label ∈ instruction.label, c ∈ label.toList) ∨
      ∃ word ∈ instruction.words, c ∈ word := by
  rcases List.mem_append.1 h with h | h
  · unfold labelChars at h
    cases hlabel : instruction.label with
    | none =>
        rw [hlabel] at h
        simp at h
    | some label =>
        rw [hlabel] at h
        rcases List.mem_append.1 h with h | h
        · exact Or.inr (Or.inl ⟨label, rfl, h⟩)
        · left
          split at h <;> simp at h ⊢ <;> tauto
  · rcases mem_bodyChars h with hbetween | hword
    · left
      simp at hbetween ⊢
      tauto
    · exact Or.inr (Or.inr hword)

/-- No comment opens in a listed instruction. -/
theorem WellFormed.noComment {instruction : Instruction} (h : instruction.WellFormed) :
    ';' ∉ instruction.chars := by
  intro hmem
  rcases mem_chars hmem with hmark | ⟨label, hlabel, hc⟩ | ⟨word, hword, hc⟩
  · simp at hmark
  · exact (h.label label hlabel).noComment hc
  · exact (h.words word hword).noComment hc

/-- A listed instruction stays on its line. -/
theorem WellFormed.noLineFeed {instruction : Instruction} (h : instruction.WellFormed) :
    '\n' ∉ instruction.chars := by
  intro hmem
  rcases mem_chars hmem with hmark | ⟨label, hlabel, hc⟩ | ⟨word, hword, hc⟩
  · simp at hmark
  · exact (h.label label hlabel).noLineFeed hc
  · have hseparator := (h.words word hword).isWord.2 _ hc
    exact absurd hseparator (by decide)

/-- A listed instruction starts with no blank. -/
theorem WellFormed.head_chars {instruction : Instruction} (h : instruction.WellFormed) :
    ∀ c ∈ instruction.chars.head?, isBlank c = false := by
  intro c hc
  unfold chars labelChars at hc
  cases hlabel : instruction.label with
  | some label =>
      rw [hlabel, List.append_assoc] at hc
      cases hlist : label.toList with
      | nil =>
          -- the label is empty, and the colon comes first
          rw [hlist] at hc
          have hcolon : c = ':' := by
            split at hc <;> simpa using Eq.symm hc
          rw [hcolon]
          decide
      | cons d rest =>
          rw [hlist] at hc
          have htrimmed := (h.label label hlabel).trimmed
          rw [hlist] at htrimmed
          exact htrimmed.head c hc
  | none =>
      -- without a label there is an opcode, and its mnemonic comes first
      obtain ⟨opcode, hopcode⟩ : ∃ opcode, instruction.opcode = some opcode := by
        rw [← Option.ne_none_iff_exists']
        intro hnone
        have hsome := (h.bare hnone).2
        rw [hlabel] at hsome
        cases hsome
      obtain ⟨rest, hbody⟩ := bodyChars_of_opcode hopcode
      have hmnemonic : IsWord opcode.mnemonic.toList := by
        apply IsWordAfter.isWord
        apply h.words
        rw [words_of_opcode hopcode]
        exact List.mem_cons_self
      rw [hlabel, hbody, List.nil_append, List.head?_append_of_ne_nil _ hmnemonic.1] at hc
      exact isBlank_of_not_isSeparator (hmnemonic.2 c (List.mem_of_head? hc))

/-- A listed instruction ends with no blank. -/
theorem WellFormed.getLast?_chars {instruction : Instruction} (h : instruction.WellFormed) :
    ∀ c ∈ instruction.chars.getLast?, isBlank c = false := by
  have hwords : ∀ word ∈ instruction.words, IsWord word := fun word hword =>
    (h.words word hword).isWord
  intro c hc
  unfold chars at hc
  cases hbody : instruction.bodyChars with
  | cons d rest =>
      rw [hbody, List.getLast?_append_of_ne_nil _ (List.cons_ne_nil _ _), ← hbody] at hc
      exact isBlank_of_not_isSeparator (getLast?_bodyChars hwords c hc)
  | nil =>
      -- a bare label ends with its colon
      have hopcode : instruction.opcode = none := by
        rw [← words_eq_nil_iff, ← tokens_bodyChars hwords, hbody, tokens_nil]
      obtain ⟨label, hlabel⟩ := Option.isSome_iff_exists.1 (h.bare hopcode).2
      rw [hbody, labelChars, hlabel, hopcode, List.append_nil] at hc
      have hcolon : c = ':' := by
        simpa using Eq.symm hc
      rw [hcolon]
      decide

/-- A listed instruction has no blank at its ends. -/
theorem WellFormed.trimmed_chars {instruction : Instruction} (h : instruction.WellFormed) :
    Trimmed instruction.chars :=
  ⟨h.head_chars, h.getLast?_chars⟩

/-- The code of a listed instruction is the whole line. -/
theorem WellFormed.codeOf_chars {instruction : Instruction} (h : instruction.WellFormed) :
    codeOf instruction.chars = instruction.chars := by
  have hall := takeWhile_ne_append h.noComment []
  rw [List.append_nil, List.takeWhile_nil, List.append_nil] at hall
  rw [codeOf, hall, trim_of_trimmed h.trimmed_chars]

/-- A listed instruction shows its label, and its words after it. -/
theorem WellFormed.labelAndBody_chars {instruction : Instruction} (h : instruction.WellFormed) :
    ∃ body, labelAndBody instruction.chars = (instruction.label, body) ∧
      tokens body = instruction.words := by
  have htokens := tokens_bodyChars fun word hword => (h.words word hword).isWord
  unfold chars labelChars
  cases hlabel : instruction.label with
  | none =>
      have hcolon : ':' ∉ instruction.bodyChars := by
        intro hmem
        rcases mem_bodyChars hmem with hbetween | ⟨word, hword, hc⟩
        · exact absurd hbetween (by decide)
        · exact (h.words word hword).noLabel hlabel hc
      exact ⟨_, labelAndBody_of_notMem hcolon, htokens⟩
  | some label =>
      have hparts := h.label label hlabel
      -- a space may stand between the colon and the words
      obtain ⟨body, hbody, hread⟩ : ∃ body,
          (label.toList ++ if instruction.opcode.isSome then [':', ' '] else [':'])
            ++ instruction.bodyChars = label.toList ++ ':' :: body ∧
          tokens body = instruction.words := by
        cases instruction.opcode.isSome with
        | false => exact ⟨instruction.bodyChars, by simp, htokens⟩
        | true =>
            refine ⟨' ' :: instruction.bodyChars, by simp, ?_⟩
            rw [tokens_cons_separator (by decide), htokens]
      refine ⟨body, ?_, hread⟩
      rw [hbody, labelAndBody_append hparts.noColon, trim_of_trimmed hparts.trimmed,
        String.ofList_toList]

/-- A well-formed instruction is made of its label and its words. -/
theorem WellFormed.ofWords?_words {instruction : Instruction} (h : instruction.WellFormed) :
    ofWords? instruction.label instruction.words = some instruction := by
  obtain ⟨opcode, operands, label⟩ := instruction
  cases opcode with
  | none =>
      obtain ⟨hoperands, hlabel⟩ := h.bare rfl
      obtain ⟨name, hname⟩ := Option.isSome_iff_exists.1 hlabel
      dsimp only at hoperands hname
      subst hoperands hname
      rfl
  | some opcode =>
      have hopcode : Opcode.ofMnemonic opcode.mnemonic = opcode := h.opcode opcode rfl
      rw [words_of_opcode rfl]
      simp [ofWords?, hopcode]

/-- A well-formed instruction is read back from the line that lists it. -/
theorem ofLine?_chars {instruction : Instruction} (h : instruction.WellFormed) :
    ofLine? instruction.chars = some instruction := by
  obtain ⟨body, hbody, htokens⟩ := h.labelAndBody_chars
  unfold ofLine?
  rw [h.codeOf_chars, hbody]
  simp only [htokens]
  exact h.ofWords?_words

end Instruction

end RegisterMachine
