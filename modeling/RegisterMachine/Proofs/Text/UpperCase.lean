/-
# Upper case is stable

Upper-casing leaves its own results alone, and it brings no character into a text that sets the parts
of a line apart:

* `upper_upper` : upper-casing twice is upper-casing once;
* `upper_ne_nil` : a text with a character keeps one;
* `mem_of_mem_upper` : a blank, a comma, a colon or a semicolon of the result stood in the text.

The mapping is data, so all of this rests on one comparison of code points: the mapping yields none
that it changes, and none of a blank or a mark. Sets of code points are compared as the bits of
numbers, which takes one conjunction instead of a search for each code point.
-/
import Mathlib.Data.List.Basic
import RegisterMachine.Text.Split
import RegisterMachine.Text.UpperCase

namespace RegisterMachine.Text

/-! ## Sets of numbers as bits -/

/-- The number whose bits stand at the given places. -/
def bits (places : List Nat) : Nat :=
  places.foldr (fun n set => 1 <<< n ||| set) 0

/-- A bit stands exactly at the given places. -/
theorem testBit_bits (places : List Nat) (n : Nat) :
    (bits places).testBit n = decide (n ∈ places) := by
  induction places with
  | nil => simp [bits]
  | cons m places ih =>
      have hcons : bits (m :: places) = 1 <<< m ||| bits places := rfl
      rw [hcons, Nat.testBit_or, ih, Nat.one_shiftLeft, Nat.testBit_two_pow]
      by_cases h : n = m
      · subst h
        simp
      · simp [h, Ne.symm h]

/-- Numbers without a common bit come from lists without a common element. -/
theorem notMem_of_bits_and_eq_zero {s t : List Nat} (h : bits s &&& bits t = 0) {n : Nat}
    (hs : n ∈ s) : n ∉ t := by
  intro ht
  have hbit : (bits s &&& bits t).testBit n = true := by
    rw [Nat.testBit_and, testBit_bits, testBit_bits]
    simp [hs, ht]
  rw [h] at hbit
  simp at hbit

/-! ## The code points of the mapping -/

/-- The number of code points in a run. -/
def CaseRun.size (run : CaseRun) : Nat :=
  (run.last - run.first) / run.stride + 1

/-- The code points of a run. -/
def CaseRun.codes (run : CaseRun) : List Nat :=
  (List.range run.size).map fun k => run.first + run.stride * k

/-- The upper-case code points of a run. -/
def CaseRun.images (run : CaseRun) : List Nat :=
  (List.range run.size).map fun k => run.image + run.stride * k

/-- A run maps code points of its own, to images of its own. -/
theorem CaseRun.mem_of_map? {run : CaseRun} {n m : Nat} (h : run.map? n = some m) :
    n ∈ run.codes ∧ m ∈ run.images := by
  unfold CaseRun.map? at h
  split at h
  · next hn =>
      obtain ⟨hfirst, hlast, hstride⟩ := hn
      cases h
      -- the place of `n` in the run
      have hplace : run.stride * ((n - run.first) / run.stride) = n - run.first :=
        Nat.mul_div_cancel' (Nat.dvd_of_mod_eq_zero hstride)
      have hlt : (n - run.first) / run.stride < run.size := by
        have hle : (n - run.first) / run.stride ≤ (run.last - run.first) / run.stride :=
          Nat.div_le_div_right (by omega)
        unfold CaseRun.size
        omega
      constructor
      · refine List.mem_map.2 ⟨(n - run.first) / run.stride, List.mem_range.2 hlt, ?_⟩
        rw [hplace]
        omega
      · refine List.mem_map.2 ⟨(n - run.first) / run.stride, List.mem_range.2 hlt, ?_⟩
        rw [hplace]
  · cases h

/-- The code points that upper-casing changes. -/
def changedCodes : List Nat :=
  caseRuns.flatMap CaseRun.codes ++ expansions.map Prod.fst

/-- The code points that upper-casing yields in place of others. -/
def imageCodes : List Nat :=
  caseRuns.flatMap CaseRun.images ++ expansions.flatMap Prod.snd

/-- No expansion is empty. -/
theorem expansions_ne_nil : ∀ entry ∈ expansions, entry.2 ≠ [] := by
  decide +kernel

/-- A code point is its own upper case, or it is changed into images. -/
theorem upperCodes_cases (n : Nat) :
    upperCodes n = [n] ∨
      n ∈ changedCodes ∧ upperCodes n ≠ [] ∧ ∀ m ∈ upperCodes n, m ∈ imageCodes := by
  unfold upperCodes
  cases hrun : caseRuns.findSome? (·.map? n) with
  | some image =>
      right
      obtain ⟨run, hmem, hmap⟩ := List.exists_of_findSome?_eq_some hrun
      obtain ⟨hcode, himage⟩ := CaseRun.mem_of_map? hmap
      refine ⟨?_, List.cons_ne_nil _ _, ?_⟩
      · exact List.mem_append_left _ (List.mem_flatMap.2 ⟨run, hmem, hcode⟩)
      · intro m hm
        rw [List.mem_singleton.1 hm]
        exact List.mem_append_left _ (List.mem_flatMap.2 ⟨run, hmem, himage⟩)
  | none =>
      cases hlookup : expansions.lookup n with
      | none => exact Or.inl rfl
      | some codes =>
          right
          obtain ⟨before, after, hexpansions, -⟩ := List.lookup_eq_some_iff.1 hlookup
          have hmem : (n, codes) ∈ expansions := by
            rw [hexpansions]
            simp
          refine ⟨?_, expansions_ne_nil _ hmem, ?_⟩
          · exact List.mem_append_right _ (List.mem_map.2 ⟨(n, codes), hmem, rfl⟩)
          · intro m hm
            exact List.mem_append_right _ (List.mem_flatMap.2 ⟨(n, codes), hmem, hm⟩)

/-! ## The images -/

/-- The code points of the blanks and of the marks that set the parts of a line apart. -/
def reservedCodes : List Nat :=
  [','.toNat, ':'.toNat, ';'.toNat]
    ++ blankRanges.flatMap fun range => List.range' range.1 (range.2 + 1 - range.1)

/-- No image is changed again, and none is reserved. -/
theorem bits_imageCodes_and : bits imageCodes &&& bits (changedCodes ++ reservedCodes) = 0 := by
  decide +kernel

/-- Every image is the code point of a character. -/
theorem isValidChar_of_mem_imageCodes : ∀ n ∈ imageCodes, n.isValidChar := by
  decide +kernel

/-- An image is its own upper case. -/
theorem upperCodes_of_mem_imageCodes {n : Nat} (h : n ∈ imageCodes) : upperCodes n = [n] := by
  have hnot : n ∉ changedCodes ++ reservedCodes :=
    notMem_of_bits_and_eq_zero bits_imageCodes_and h
  rcases upperCodes_cases n with hself | ⟨hchanged, -⟩
  · exact hself
  · exact absurd (List.mem_append_left _ hchanged) hnot

/-- What upper-casing a code point yields is its own upper case. -/
theorem upperCodes_of_mem_upperCodes {n m : Nat} (h : m ∈ upperCodes n) : upperCodes m = [m] := by
  rcases upperCodes_cases n with hself | ⟨-, -, himages⟩
  · rw [hself, List.mem_singleton] at h
    rw [h, hself]
  · exact upperCodes_of_mem_imageCodes (himages m h)

/-! ## Characters and texts -/

/-- The character of a code point has this code point. -/
theorem toNat_ofNat_of_isValidChar {n : Nat} (h : n.isValidChar) : (Char.ofNat n).toNat = n := by
  rw [Char.ofNat, dif_pos h]
  rfl

/-- No character is dropped. -/
theorem upperChar_ne_nil (c : Char) : upperChar c ≠ [] := by
  unfold upperChar
  rw [ne_eq, List.map_eq_nil_iff]
  rcases upperCodes_cases c.toNat with hself | ⟨-, hne, -⟩
  · rw [hself]
    exact List.cons_ne_nil _ _
  · exact hne

/-- The upper case of a character is the character itself, or its characters are images. -/
theorem mem_upperChar {c d : Char} (h : d ∈ upperChar c) :
    d.toNat ∈ upperCodes c.toNat ∧ (d = c ∨ d.toNat ∈ imageCodes) := by
  obtain ⟨n, hn, rfl⟩ := List.mem_map.1 h
  rcases upperCodes_cases c.toNat with hself | ⟨-, -, himages⟩
  · rw [hself, List.mem_singleton] at hn
    subst hn
    rw [Char.ofNat_toNat, hself]
    simp
  · rw [toNat_ofNat_of_isValidChar (isValidChar_of_mem_imageCodes n (himages n hn))]
    exact ⟨hn, Or.inr (himages n hn)⟩

/-- A character of an upper case is its own upper case. -/
theorem upperChar_of_mem_upperChar {c d : Char} (h : d ∈ upperChar c) : upperChar d = [d] := by
  unfold upperChar
  rw [upperCodes_of_mem_upperCodes (mem_upperChar h).1]
  simp

/-- Upper-casing twice is upper-casing once. -/
theorem upper_upper (text : List Char) : upper (upper text) = upper text := by
  have hself : ∀ d ∈ upper text, upperChar d = [d] := by
    intro d hd
    obtain ⟨c, -, hdc⟩ := List.mem_flatMap.1 hd
    exact upperChar_of_mem_upperChar hdc
  calc upper (upper text) = (upper text).flatMap upperChar := rfl
    _ = (upper text).flatMap fun d => [d] := List.flatMap_congr hself
    _ = upper text := List.flatMap_singleton' _

/-- A text with a character keeps one. -/
theorem upper_ne_nil {text : List Char} (h : text ≠ []) : upper text ≠ [] := by
  cases text with
  | nil => exact absurd rfl h
  | cons c text =>
      rw [upper, List.flatMap_cons, ne_eq, List.append_eq_nil_iff, not_and_or]
      exact Or.inl (upperChar_ne_nil c)

/-- Whether a character sets the parts of a line apart: a separator, or the mark after a label or
before a comment. -/
def isReserved (c : Char) : Bool :=
  isSeparator c || c == ':' || c == ';'

/-- A reserved character has a reserved code point. -/
theorem toNat_mem_reservedCodes {c : Char} (h : isReserved c = true) :
    c.toNat ∈ reservedCodes := by
  simp only [isReserved, isSeparator, Bool.or_eq_true, beq_iff_eq] at h
  rcases h with ((hblank | rfl) | rfl) | rfl
  · obtain ⟨range, hrange, hc⟩ := List.any_eq_true.1 hblank
    simp only [Bool.and_eq_true, decide_eq_true_eq] at hc
    refine List.mem_append_right _ (List.mem_flatMap.2 ⟨range, hrange, ?_⟩)
    rw [List.mem_range'_1]
    omega
  all_goals simp [reservedCodes]

/-- Upper-casing brings no reserved character into a text. -/
theorem mem_of_mem_upper {text : List Char} {c : Char} (h : c ∈ upper text)
    (hc : isReserved c = true) : c ∈ text := by
  obtain ⟨d, hd, hcd⟩ := List.mem_flatMap.1 h
  rcases (mem_upperChar hcd).2 with rfl | himage
  · exact hd
  · have hnot : c.toNat ∉ changedCodes ++ reservedCodes :=
      notMem_of_bits_and_eq_zero bits_imageCodes_and himage
    exact absurd (List.mem_append_right _ (toNat_mem_reservedCodes hc)) hnot

end RegisterMachine.Text
