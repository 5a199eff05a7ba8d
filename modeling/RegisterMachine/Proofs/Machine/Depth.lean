/-
# Words by depth

The word at a depth stands at a place counted from the bottom, and the place is computed in arithmetic of 64
bits: one and the depth are taken from the size. Below zero this arithmetic gives up or wraps around. Either
way no depth below the bottom comes to a place in the stack.

* `Subtraction` : the two ways of going below zero;
* `Stack.index?` : the word at a depth, by its place in either arithmetic;
* `Stack.size_le_toNat_slot` : no depth below the bottom wraps around into the stack;
* `Stack.get?_eq_bind_place?`, `Stack.index?_eq_get?` : all ways to a word by its depth agree;
* `Stack.get?_push_of_succ` : under a word that is pushed all words are one deeper;
* `Stack.Change` : a word is pushed or popped;
* `Stack.toList_changed` : the words after any changes;
* `Stack.readsByDepth_changed` : what is read by depth, after any changes of any stack.
-/
import Mathlib.Algebra.Group.Nat.Defs
import RegisterMachine.Proofs.Machine.Walks

namespace RegisterMachine

/-! ## Arithmetic -/

/-- How arithmetic of 64 bits goes below zero: it gives up, or it wraps around. -/
inductive Subtraction
  | checked
  | wrapping
  deriving DecidableEq, Repr

namespace Subtraction

/-- The difference of two numbers, if there is one. -/
def difference? : Subtraction → UInt64 → UInt64 → Option UInt64
  | checked, a, b => if b ≤ a then some (a - b) else none
  | wrapping, a, b => some (a - b)

/-- What is left of a number after two others have been taken from it. -/
def twice? (subtraction : Subtraction) (a b c : UInt64) : Option UInt64 :=
  (subtraction.difference? a b).bind fun rest => subtraction.difference? rest c

variable {a b c : UInt64}

/-- Above zero it does not matter which arithmetic it is. -/
theorem difference?_of_le (subtraction : Subtraction) (h : b.toNat ≤ a.toNat) :
    subtraction.difference? a b = some (a - b) := by
  cases subtraction with
  | checked => exact if_pos (UInt64.le_iff_toNat_le.2 h)
  | wrapping => rfl

theorem difference?_checked_of_lt (h : a.toNat < b.toNat) : checked.difference? a b = none :=
  if_neg fun hle => absurd (UInt64.le_iff_toNat_le.1 hle) (Nat.not_le.2 h)

theorem toNat_sub_of_le (h : b.toNat ≤ a.toNat) : (a - b).toNat = a.toNat - b.toNat :=
  UInt64.toNat_sub_of_le a b (UInt64.le_iff_toNat_le.2 h)

theorem toNat_sub_sub_of_le (h : b.toNat + c.toNat ≤ a.toNat) :
    (a - b - c).toNat = a.toNat - b.toNat - c.toNat := by
  have hrest : (a - b).toNat = a.toNat - b.toNat := toNat_sub_of_le (by omega)
  rw [toNat_sub_of_le (by omega), hrest]

/-- Below zero it wraps around once, if no more is taken than that. -/
theorem toNat_sub_sub_of_lt (h : a.toNat < b.toNat + c.toNat)
    (hbound : b.toNat + c.toNat ≤ 2 ^ 64 + a.toNat) :
    (a - b - c).toNat = 2 ^ 64 + a.toNat - b.toNat - c.toNat := by
  have ha := a.toNat_lt
  have hb := b.toNat_lt
  have hc := c.toNat_lt
  rw [UInt64.toNat_sub, UInt64.toNat_sub]
  omega

theorem twice?_of_le (subtraction : Subtraction) (h : b.toNat + c.toNat ≤ a.toNat) :
    subtraction.twice? a b c = some (a - b - c) := by
  have hrest : (a - b).toNat = a.toNat - b.toNat := toNat_sub_of_le (by omega)
  rw [twice?, difference?_of_le subtraction (by omega), Option.bind_some,
    difference?_of_le subtraction (by omega)]

/-- The arithmetic that gives up does so in the first step or in the second. -/
theorem twice?_checked_of_lt (h : a.toNat < b.toNat + c.toNat) : checked.twice? a b c = none := by
  unfold twice?
  by_cases hb : b.toNat ≤ a.toNat
  · have hrest : (a - b).toNat = a.toNat - b.toNat := toNat_sub_of_le hb
    rw [difference?_of_le _ hb, Option.bind_some, difference?_checked_of_lt (by omega)]
  · rw [difference?_checked_of_lt (Nat.lt_of_not_le hb), Option.bind_none]

end Subtraction

namespace Stack

variable {stack : Stack} {depth : UInt64}

/-! ## Places -/

/-- The place of the word at a depth, where one is taken from the size before the depth is. -/
def slot? (stack : Stack) (subtraction : Subtraction) (depth : UInt64) : Option UInt64 :=
  subtraction.twice? (.ofNat stack.size) 1 depth

/-- The place of the word at a depth, where the depth is taken from the size before one is, and nothing is
left below zero. -/
def place? (stack : Stack) (depth : UInt64) : Option UInt64 :=
  Subtraction.checked.twice? (.ofNat stack.size) depth 1

/-- The word at a place counted from the bottom. -/
def wordAt? (stack : Stack) (place : UInt64) : Option Word :=
  stack.toList[place.toNat]?

/-- The word at a depth, by its place in either arithmetic. -/
def index? (stack : Stack) (subtraction : Subtraction) (depth : UInt64) : Option Word :=
  (stack.slot? subtraction depth).bind stack.wordAt?

/-- In the arithmetic that wraps around there is always a place to look at. -/
theorem index?_wrapping (stack : Stack) (depth : UInt64) :
    stack.index? .wrapping depth = stack.at? depth := rfl

theorem toNat_ofNat_size (hsize : stack.size < 2 ^ 64) :
    (UInt64.ofNat stack.size).toNat = stack.size :=
  UInt64.toNat_ofNat_of_lt' hsize

/-- In the stack there is a place in both arithmetics, and it is the same. -/
theorem slot?_of_lt (hsize : stack.size < 2 ^ 64) (h : depth.toNat < stack.size)
    (subtraction : Subtraction) : stack.slot? subtraction depth = some (stack.slot depth) := by
  have hnumber := toNat_ofNat_size hsize
  have hone : (1 : UInt64).toNat = 1 := rfl
  exact subtraction.twice?_of_le (by omega)

/-- This place is as far from the bottom as it has to be. -/
theorem toNat_slot_of_lt (hsize : stack.size < 2 ^ 64) (h : depth.toNat < stack.size) :
    (stack.slot depth).toNat = stack.size - 1 - depth.toNat := by
  have hnumber := toNat_ofNat_size hsize
  have hone : (1 : UInt64).toNat = 1 := rfl
  unfold slot
  rw [Subtraction.toNat_sub_sub_of_le (by omega), hnumber, hone]

/-- So it is when the depth is taken first. -/
theorem place?_of_lt (hsize : stack.size < 2 ^ 64) (h : depth.toNat < stack.size) :
    stack.place? depth = some (stack.slot depth) := by
  have hnumber := toNat_ofNat_size hsize
  have hone : (1 : UInt64).toNat = 1 := rfl
  have horder : UInt64.ofNat stack.size - depth - 1 = stack.slot depth := by
    rw [← UInt64.toNat_inj, toNat_slot_of_lt hsize h, Subtraction.toNat_sub_sub_of_le (by omega)]
    omega
  rw [← horder]
  exact Subtraction.checked.twice?_of_le (by omega)

/-- **No depth below the bottom wraps around into the stack.** -/
theorem size_le_toNat_slot (hsize : stack.size < 2 ^ 64) (h : stack.size ≤ depth.toNat) :
    stack.size ≤ (stack.slot depth).toNat := by
  have hnumber := toNat_ofNat_size hsize
  have hone : (1 : UInt64).toNat = 1 := rfl
  have hdepth := depth.toNat_lt
  unfold slot
  rw [Subtraction.toNat_sub_sub_of_lt (by omega) (by omega)]
  omega

/-- Where nothing is left below zero, such a depth has no place. -/
theorem slot?_checked_of_le (hsize : stack.size < 2 ^ 64) (h : stack.size ≤ depth.toNat) :
    stack.slot? .checked depth = none := by
  have hnumber := toNat_ofNat_size hsize
  have hone : (1 : UInt64).toNat = 1 := rfl
  exact Subtraction.twice?_checked_of_lt (by omega)

theorem place?_of_le (hsize : stack.size < 2 ^ 64) (h : stack.size ≤ depth.toNat) :
    stack.place? depth = none := by
  have hnumber := toNat_ofNat_size hsize
  have hone : (1 : UInt64).toNat = 1 := rfl
  exact Subtraction.twice?_checked_of_lt (by omega)

/-! ## Words -/

theorem wordAt?_of_le {place : UInt64} (h : stack.size ≤ place.toNat) : stack.wordAt? place = none :=
  List.getElem?_eq_none (by rwa [length_toList])

/-- The word at a depth is met there on the way down. -/
theorem get?_eq_getElem?_reverse (stack : Stack) (depth : UInt64) :
    stack.get? depth = stack.toList.reverse[depth.toNat]? := by
  rw [toList, List.reverse_reverse]
  rfl

theorem get?_of_lt (h : depth.toNat < stack.size) :
    stack.get? depth = stack.toList[stack.size - 1 - depth.toNat]? := by
  rw [get?_eq_getElem?_reverse, List.getElem?_reverse (by rwa [length_toList]), length_toList]

theorem get?_of_le (h : stack.size ≤ depth.toNat) : stack.get? depth = none :=
  List.getElem?_eq_none h

theorem wordAt?_slot (hsize : stack.size < 2 ^ 64) (depth : UInt64) :
    stack.wordAt? (stack.slot depth) = stack.get? depth := by
  by_cases h : depth.toNat < stack.size
  · rw [wordAt?, toNat_slot_of_lt hsize h, get?_of_lt h]
  · have hle : stack.size ≤ depth.toNat := Nat.le_of_not_lt h
    rw [wordAt?_of_le (size_le_toNat_slot hsize hle), get?_of_le hle]

/-- Reading by depth is looking at the place for which the depth is taken first. -/
theorem get?_eq_bind_place? (hsize : stack.size < 2 ^ 64) (depth : UInt64) :
    stack.get? depth = (stack.place? depth).bind stack.wordAt? := by
  by_cases h : depth.toNat < stack.size
  · rw [place?_of_lt hsize h, Option.bind_some, wordAt?_slot hsize]
  · have hle : stack.size ≤ depth.toNat := Nat.le_of_not_lt h
    rw [place?_of_le hsize hle, get?_of_le hle, Option.bind_none]

/-- **All ways to a word by its depth agree**, in either arithmetic. -/
theorem index?_eq_get? (hsize : stack.size < 2 ^ 64) (subtraction : Subtraction) (depth : UInt64) :
    stack.index? subtraction depth = stack.get? depth := by
  cases subtraction with
  | wrapping =>
      rw [index?_wrapping]
      exact wordAt?_slot hsize depth
  | checked =>
      by_cases h : depth.toNat < stack.size
      · rw [index?, slot?_of_lt hsize h, Option.bind_some, wordAt?_slot hsize]
      · have hle : stack.size ≤ depth.toNat := Nat.le_of_not_lt h
        rw [index?, slot?_checked_of_le hsize hle, get?_of_le hle, Option.bind_none]

/-- A walk from the top meets the word at a depth when it has taken as many words as the depth says. -/
theorem getElem?_walk_top (stack : Stack) {count : Nat} (h : depth.toNat < count) :
    (stack.cursor.walk (List.replicate count .top))[depth.toNat]?.map Prod.fst =
      some (stack.get? depth) := by
  rw [← List.getElem?_map, Cursor.map_fst_walk_replicate, List.getElem?_map, List.getElem?_range h]
  rfl

/-! ## Changes -/

/-- A word is pushed, or the word on top is popped. -/
inductive Change
  | push (word : Word)
  | pop
  deriving DecidableEq, Repr

/-- The stack after a change. An empty stack stays empty when it is popped. -/
def change (stack : Stack) : Change → Stack
  | .push word => stack.push word
  | .pop => (stack.pop?.map Prod.snd).getD stack

/-- The stack after a sequence of changes. -/
def changed (stack : Stack) (changes : List Change) : Stack :=
  changes.foldl change stack

/-- What a change does to the words listed from the bottom to the top. -/
def Change.onList (words : List Word) : Change → List Word
  | .push word => words ++ [word]
  | .pop => words.dropLast

theorem toList_change (stack : Stack) (change : Change) :
    (stack.change change).toList = change.onList stack.toList := by
  cases change with
  | push word => exact toList_push stack word
  | pop =>
      obtain ⟨cells⟩ := stack
      cases cells with
      | nil => rfl
      | cons word below =>
          show below.reverse = (word :: below).reverse.dropLast
          rw [List.reverse_cons, List.dropLast_concat]

/-- After any changes, the words are those of the list that has been changed in the same way. -/
theorem toList_changed (stack : Stack) (changes : List Change) :
    (stack.changed changes).toList = changes.foldl Change.onList stack.toList := by
  unfold changed
  induction changes generalizing stack with
  | nil => rfl
  | cons change changes ih => rw [List.foldl_cons, List.foldl_cons, ih, toList_change]

/-- The word on top is at depth zero. -/
theorem top?_eq_get? (stack : Stack) : stack.top? = stack.get? 0 :=
  List.head?_eq_getElem?

/-- It is the word that is popped. -/
theorem map_fst_pop? (stack : Stack) : stack.pop?.map Prod.fst = stack.top? := by
  obtain ⟨cells⟩ := stack
  cases cells <;> rfl

theorem get?_push_zero (stack : Stack) (word : Word) : (stack.push word).get? 0 = some word := rfl

/-- Under a word that is pushed all words are one deeper. -/
theorem get?_push_of_succ {next : UInt64} (h : next.toNat = depth.toNat + 1) (stack : Stack)
    (word : Word) : (stack.push word).get? next = stack.get? depth := by
  unfold get? push
  rw [h, List.getElem?_cons_succ]

/-- When the word on top is popped, the words below it are one less deep. -/
theorem get?_pop_of_succ {next : UInt64} (h : next.toNat = depth.toNat + 1) (stack : Stack) :
    (stack.change .pop).get? depth = stack.get? next := by
  unfold change
  cases hpop : stack.pop? with
  | none =>
      obtain ⟨cells⟩ := stack
      cases cells with
      | nil => rfl
      | cons word below => cases hpop
  | some popped =>
      obtain ⟨word, below⟩ := popped
      obtain rfl : stack = below.push word := pop?_eq_some_iff.1 hpop
      exact (get?_push_of_succ h below word).symm

/-! ## Reading by depth -/

/-- What is read from a stack by depth. -/
structure ReadsByDepth (stack : Stack) : Prop where
  /-- At a depth in the stack there is a word, and every way of reading comes to it. -/
  inside : ∀ depth : UInt64, depth.toNat < stack.size → ∃ word,
    stack.toList[stack.size - 1 - depth.toNat]? = some word ∧ stack.get? depth = some word ∧
      stack.at? depth = some word ∧ ∀ subtraction, stack.index? subtraction depth = some word
  /-- Below the bottom there is none, and no way of reading comes to any. -/
  below : ∀ depth : UInt64, stack.size ≤ depth.toNat →
    stack.get? depth = none ∧ stack.at? depth = none ∧
      ∀ subtraction, stack.index? subtraction depth = none
  /-- The word at a depth is looked up at its place. -/
  placed : ∀ depth : UInt64, stack.get? depth = (stack.place? depth).bind stack.wordAt?
  /-- A walk from the top meets it after as many words as the depth says. -/
  walked : ∀ (depth : UInt64) (count : Nat), depth.toNat < count →
    (stack.cursor.walk (List.replicate count .top))[depth.toNat]?.map Prod.fst =
      some (stack.get? depth)
  /-- The word on top, which is the one that is popped, is at depth zero. -/
  top : stack.top? = stack.get? 0 ∧ stack.pop?.map Prod.fst = stack.top?
  /-- A word that is pushed is at depth zero, and all others are one deeper. -/
  push : ∀ word, (stack.change (.push word)).get? 0 = some word ∧
    ∀ depth next : UInt64, next.toNat = depth.toNat + 1 →
      (stack.change (.push word)).get? next = stack.get? depth
  /-- When a word is popped, all others are one less deep. -/
  pop : ∀ depth next : UInt64, next.toNat = depth.toNat + 1 →
    (stack.change .pop).get? depth = stack.get? next

/-- **Reading by depth agrees everywhere**, after any words have been pushed on any stack and popped from it.
The words of the stack are those of a list to whose end they were added and from whose end they were taken.
For a depth in the stack every way of reading gives the word that stands there, for any other depth none gives
any, and the depths follow what is pushed and popped. -/
theorem readsByDepth_changed (words : List Word) (changes : List Change)
    (h : ((ofList words).changed changes).size < 2 ^ 63) :
    ((ofList words).changed changes).toList = changes.foldl Change.onList words ∧
      ((ofList words).changed changes).ReadsByDepth := by
  refine ⟨by rw [toList_changed, toList_ofList], ?_⟩
  generalize (ofList words).changed changes = stack at h ⊢
  have hsize : stack.size < 2 ^ 64 := Nat.lt_trans h (by decide)
  have hindex := index?_eq_get? hsize
  constructor
  · intro depth hdepth
    have hplace : stack.size - 1 - depth.toNat < stack.toList.length := by
      rw [length_toList]
      omega
    have hword := List.getElem?_eq_getElem hplace
    have hget := (get?_of_lt hdepth).trans hword
    exact ⟨_, hword, hget, (hindex .wrapping depth).trans hget, fun subtraction =>
      (hindex subtraction depth).trans hget⟩
  · intro depth hdepth
    have hget := get?_of_le hdepth
    exact ⟨hget, (hindex .wrapping depth).trans hget, fun subtraction =>
      (hindex subtraction depth).trans hget⟩
  · exact get?_eq_bind_place? hsize
  · intro depth count hcount
    exact getElem?_walk_top stack hcount
  · exact ⟨top?_eq_get? stack, map_fst_pop? stack⟩
  · intro word
    exact ⟨get?_push_zero stack word, fun depth next hnext => get?_push_of_succ hnext stack word⟩
  · intro depth next hnext
    exact get?_pop_of_succ hnext stack

/-- On a stack of two words the greatest depth wraps around to the place just above the top, and the depth
below the bottom to the greatest place. There is no word at either. -/
theorem at?_of_two :
    let stack := (ofList [1, 2]).changed [.pop, .pop, .pop, .push 5, .push 6]
    stack.size < 2 ^ 63 ∧ stack.slot 18446744073709551615 = 2 ∧
      stack.at? 18446744073709551615 = none ∧ stack.slot 2 = 18446744073709551615 ∧
      stack.at? 2 = none ∧ stack.index? .checked 2 = none ∧
      (stack.change (.push 7)).get? 1 = stack.get? 0 ∧ (stack.change .pop).get? 0 = stack.get? 1 := by
  intro stack
  have hsize : stack.size < 2 ^ 63 := by decide
  have hreads : stack.ReadsByDepth :=
    (readsByDepth_changed [1, 2] [.pop, .pop, .pop, .push 5, .push 6] hsize).2
  have hgreatest := hreads.below 18446744073709551615 (by decide)
  have hbelow := hreads.below 2 (by decide)
  exact ⟨hsize, by decide, hgreatest.2.1, by decide, hbelow.2.1, hbelow.2.2 .checked,
    (hreads.push 7).2 0 1 rfl, hreads.pop 0 1 rfl⟩

end Stack

end RegisterMachine
