/-
# Walks over a stack

A walk takes the words of a stack one by one, each of them at the end that it likes. What it took from the
top, what is left, and what it took from the bottom read backwards, make up the stack.

* `Cursor.after`, `Cursor.taken` : what is left after some moves, and what those at one end took;
* `Cursor.taken_append_items_append_taken` : nothing is lost and nothing repeated;
* `Cursor.size_after_add` : each word that is returned is one less that is left;
* `Cursor.getElem?_walk` : a walk, move by move;
* `Cursor.map_fst_walk_replicate` : a walk that stays at one end;
* `Stack.foldl_push_toList` : the words of a stack are listed in the order in which they were pushed;
* `Stack.walk_cursor` : the walks over a stack.

A walk goes on when nothing is left: its moves then return nothing.
-/
import Mathlib.Data.List.Basic
import RegisterMachine.Machine.Stack

namespace RegisterMachine

namespace Cursor

/-! ## What is left, and what was taken -/

/-- What is left after moves at the given ends. -/
def after (cursor : Cursor) : List Side → Cursor
  | [] => cursor
  | side :: sides => (cursor.take side).2.after sides

/-- The words that the moves at one end returned, in the order of the moves. -/
def taken (cursor : Cursor) (side : Side) (sides : List Side) : List Word :=
  (sides.zip (cursor.walk sides)).filterMap fun move =>
    if move.1 = side then move.2.1 else none

/-- The words that a walk returned at either end, in the order of its moves. -/
def returned (moves : List (Option Word × Nat)) : List Word :=
  moves.filterMap Prod.fst

variable {cursor : Cursor} {side : Side} {sides : List Side}

@[simp] theorem after_nil (cursor : Cursor) : cursor.after [] = cursor := rfl

@[simp] theorem after_cons (cursor : Cursor) (side : Side) (sides : List Side) :
    cursor.after (side :: sides) = (cursor.take side).2.after sides := rfl

@[simp] theorem walk_nil (cursor : Cursor) : cursor.walk [] = [] := rfl

@[simp] theorem walk_cons (cursor : Cursor) (side : Side) (sides : List Side) :
    cursor.walk (side :: sides) =
      ((cursor.take side).1, (cursor.take side).2.size) :: (cursor.take side).2.walk sides := rfl

/-- A move counts for the end at which it is made. -/
theorem taken_cons (cursor : Cursor) (side place : Side) (sides : List Side) :
    cursor.taken side (place :: sides) =
      (if place = side then (cursor.take place).1 else none).toList ++
        (cursor.take place).2.taken side sides := by
  unfold taken
  rw [walk_cons, List.zip_cons_cons, List.filterMap_cons]
  dsimp only
  cases (if place = side then (cursor.take place).1 else none) <;> rfl

theorem returned_cons (move : Option Word × Nat) (moves : List (Option Word × Nat)) :
    returned (move :: moves) = move.1.toList ++ returned moves := by
  unfold returned
  rw [List.filterMap_cons]
  cases move.1 <;> rfl

theorem after_append (cursor : Cursor) (sides more : List Side) :
    cursor.after (sides ++ more) = (cursor.after sides).after more := by
  induction sides generalizing cursor with
  | nil => rfl
  | cons side sides ih => exact ih (cursor.take side).2

/-- A walk can be interrupted. -/
theorem walk_append (cursor : Cursor) (sides more : List Side) :
    cursor.walk (sides ++ more) = cursor.walk sides ++ (cursor.after sides).walk more := by
  induction sides generalizing cursor with
  | nil => rfl
  | cons side sides ih => rw [List.cons_append, walk_cons, walk_cons, ih, List.cons_append, after_cons]

/-! ## Single moves -/

/-- What a move at the top returns stood at the start. -/
theorem toList_take_top (cursor : Cursor) :
    (cursor.take .top).1.toList ++ (cursor.take .top).2.items = cursor.items := by
  obtain ⟨items⟩ := cursor
  cases items <;> rfl

/-- What a move at the bottom returns stood at the end. -/
theorem toList_take_bottom (cursor : Cursor) :
    (cursor.take .bottom).2.items ++ (cursor.take .bottom).1.toList = cursor.items := by
  obtain ⟨items⟩ := cursor
  show items.dropLast ++ items.getLast?.toList = items
  cases h : items.getLast? with
  | none =>
      rw [List.getLast?_eq_none_iff] at h
      subst h
      rfl
  | some word => exact List.dropLast_append_getLast? word h

/-- A move returns a word or leaves the number of words as it is. -/
theorem size_take_add (cursor : Cursor) (side : Side) :
    (cursor.take side).2.size + (cursor.take side).1.toList.length = cursor.size := by
  cases side with
  | top =>
      unfold size
      rw [Nat.add_comm, ← List.length_append, toList_take_top]
  | bottom =>
      unfold size
      rw [← List.length_append, toList_take_bottom]

/-- A move returns nothing exactly when nothing is left. -/
theorem take_eq_none_iff : (cursor.take side).1 = none ↔ cursor.items = [] := by
  cases side with
  | top => exact List.head?_eq_none_iff
  | bottom => exact List.getLast?_eq_none_iff

/-- Nothing is left after that either. -/
theorem take_of_items_eq_nil (h : cursor.items = []) (side : Side) :
    cursor.take side = (none, cursor) := by
  obtain ⟨items⟩ := cursor
  obtain rfl : items = [] := h
  cases side <;> rfl

/-! ## Moves at both ends -/

/-- **Nothing is lost and nothing repeated**: what was taken from the top, what is left and what was taken
from the bottom, the last of it first, are the words that were there before. -/
theorem taken_append_items_append_taken (cursor : Cursor) (sides : List Side) :
    cursor.taken .top sides ++ (cursor.after sides).items ++ (cursor.taken .bottom sides).reverse =
      cursor.items := by
  induction sides generalizing cursor with
  | nil => exact List.append_nil cursor.items
  | cons side sides ih =>
      -- the move adds its word at the end of the list at which it was made
      have hrest := ih (cursor.take side).2
      rw [taken_cons, taken_cons, after_cons]
      cases side with
      | top =>
          rw [if_pos rfl, if_neg (by decide), Option.toList_none, List.nil_append, List.append_assoc,
            List.append_assoc, ← List.append_assoc (taken _ _ _), hrest, toList_take_top]
      | bottom =>
          have hword : (cursor.take .bottom).1.toList.reverse = (cursor.take .bottom).1.toList := by
            cases (cursor.take .bottom).1 <;> rfl
          rw [if_neg (by decide), if_pos rfl, Option.toList_none, List.nil_append, List.reverse_append,
            ← List.append_assoc, hrest, hword, toList_take_bottom]

/-- Each word that is returned is one less that is left. -/
theorem size_after_add (cursor : Cursor) (sides : List Side) :
    (cursor.after sides).size + (returned (cursor.walk sides)).length = cursor.size := by
  induction sides generalizing cursor with
  | nil => rfl
  | cons side sides ih =>
      have hmove := size_take_add cursor side
      have hrest := ih (cursor.take side).2
      rw [after_cons, walk_cons, returned_cons, List.length_append]
      show _ + ((cursor.take side).1.toList.length + _) = _
      omega

/-- Nothing is left when as many words were returned as there were. -/
theorem items_after_eq_nil_iff :
    (cursor.after sides).items = [] ↔ (returned (cursor.walk sides)).length = cursor.size := by
  have hsize := size_after_add cursor sides
  rw [← List.length_eq_zero_iff]
  unfold size at hsize ⊢
  omega

/-- Where nothing is left, all moves return nothing. -/
theorem walk_of_items_eq_nil (h : cursor.items = []) (sides : List Side) :
    cursor.walk sides = List.replicate sides.length (none, 0) := by
  have hsize : cursor.size = 0 := by rw [size, h, List.length_nil]
  induction sides with
  | nil => rfl
  | cons side sides ih =>
      rw [walk_cons, take_of_items_eq_nil h, hsize, ih, List.length_cons, List.replicate_succ]

/-! ## Move by move -/

/-- Each move is made on what the moves before it left. -/
theorem getElem?_walk (cursor : Cursor) (sides : List Side) (i : Nat) :
    (cursor.walk sides)[i]? = sides[i]?.map fun side =>
      (((cursor.after (sides.take i)).take side).1, ((cursor.after (sides.take i)).take side).2.size) := by
  induction sides generalizing cursor i with
  | nil => rfl
  | cons side sides ih =>
      cases i with
      | zero => rfl
      | succ i => exact ih (cursor.take side).2 i

theorem take_walk (cursor : Cursor) (sides : List Side) (i : Nat) :
    (cursor.walk sides).take i = cursor.walk (sides.take i) := by
  induction sides generalizing cursor i with
  | nil => rw [List.take_nil, walk_nil, List.take_nil]
  | cons side sides ih =>
      cases i with
      | zero => rfl
      | succ i => rw [walk_cons, List.take_succ_cons, ih, List.take_succ_cons, walk_cons]

/-- The number that a move reports and the words that were returned up to it make up the whole. -/
theorem add_length_returned_of_getElem? {i left : Nat} {word : Option Word}
    (h : (cursor.walk sides)[i]? = some (word, left)) :
    left + (returned ((cursor.walk sides).take (i + 1))).length = cursor.size := by
  rw [getElem?_walk] at h
  obtain ⟨side, hside, hmove⟩ := Option.map_eq_some_iff.1 h
  obtain ⟨-, rfl⟩ := Prod.mk.inj hmove
  have hsides : sides.take (i + 1) = sides.take i ++ [side] := by
    rw [List.take_add_one, hside, Option.toList_some]
  have hsize := size_after_add cursor (sides.take (i + 1))
  rw [take_walk]
  rw [hsides, after_append, after_cons, after_nil, ← hsides] at hsize
  exact hsize

/-! ## Walks that stay at one end -/

/-- The words that are left, in the order in which they are met from one end. -/
def listed (cursor : Cursor) : Side → List Word
  | .top => cursor.items
  | .bottom => cursor.items.reverse

theorem take_eq_head?_listed (cursor : Cursor) (side : Side) :
    (cursor.take side).1 = (cursor.listed side).head? := by
  cases side with
  | top => rfl
  | bottom => exact List.head?_reverse.symm

theorem listed_take (cursor : Cursor) (side : Side) :
    (cursor.take side).2.listed side = (cursor.listed side).tail := by
  cases side with
  | top => rfl
  | bottom => exact List.tail_reverse.symm

theorem listed_after_replicate (cursor : Cursor) (side : Side) (count : Nat) :
    (cursor.after (List.replicate count side)).listed side = (cursor.listed side).drop count := by
  induction count generalizing cursor with
  | zero => rfl
  | succ count ih => rw [List.replicate_succ, after_cons, ih, listed_take, List.drop_tail]

/-- A walk that stays at one end returns the words as they are met from there, and nothing after the
last of them. -/
theorem map_fst_walk_replicate (cursor : Cursor) (side : Side) (count : Nat) :
    (cursor.walk (List.replicate count side)).map Prod.fst =
      (List.range count).map ((cursor.listed side)[·]?) := by
  apply List.ext_getElem?
  intro i
  rw [List.getElem?_map, List.getElem?_map, getElem?_walk]
  by_cases hi : i < count
  · rw [List.getElem?_replicate_of_lt hi, List.getElem?_range hi, List.take_replicate,
      Nat.min_eq_left (Nat.le_of_lt hi)]
    show some ((cursor.after (List.replicate i side)).take side).1 = some (cursor.listed side)[i]?
    rw [take_eq_head?_listed, listed_after_replicate, List.head?_drop]
  · have hle : count ≤ i := Nat.le_of_not_lt hi
    rw [List.getElem?_eq_none (by rwa [List.length_replicate]),
      List.getElem?_eq_none (by rwa [List.length_range])]
    rfl

end Cursor

/-! ## Stacks -/

namespace Stack

/-- A walk over a stack meets its words from the top down. -/
theorem items_cursor (stack : Stack) : stack.cursor.items = stack.toList.reverse :=
  (List.reverse_reverse stack.cells).symm

theorem listed_cursor_bottom (stack : Stack) : stack.cursor.listed .bottom = stack.toList := rfl

/-- Words that are pushed one after the other stand above each other. -/
theorem toList_foldl_push (stack : Stack) (words : List Word) :
    (words.foldl push stack).toList = stack.toList ++ words := by
  induction words generalizing stack with
  | nil => exact (List.append_nil _).symm
  | cons word words ih =>
      rw [List.foldl_cons, ih, toList_push, List.append_assoc, List.singleton_append]

/-- The words of a stack, from the bottom to the top, are those that were pushed for it, in this order. -/
theorem foldl_push_toList (stack : Stack) : stack.toList.foldl push empty = stack := by
  rw [← toList_inj, toList_foldl_push]
  rfl

/-- **A walk over a stack loses nothing and repeats nothing**, whatever its moves are: what it took from the
top, what is left and what it took from the bottom, the last of it first, are the words from the top to the
bottom. What it reports as left and what it has returned make up the height of the stack. A move returns
nothing exactly when all words have been returned, and so do all the moves after it. So a walk that stays
at the top returns the words in the reverse of the order in which they were pushed, and one that stays at
the bottom in this order. -/
theorem walk_cursor (stack : Stack) :
    (∀ sides : List Side,
      stack.cursor.taken .top sides ++ (stack.cursor.after sides).items ++
        (stack.cursor.taken .bottom sides).reverse = stack.toList.reverse ∧
      (∀ i word left, (stack.cursor.walk sides)[i]? = some (word, left) →
        left + (Cursor.returned ((stack.cursor.walk sides).take (i + 1))).length = stack.size) ∧
      (∀ side, ((stack.cursor.after sides).take side).1 = none ↔
        (Cursor.returned (stack.cursor.walk sides)).length = stack.size) ∧
      ((Cursor.returned (stack.cursor.walk sides)).length = stack.size → ∀ more : List Side,
        stack.cursor.walk (sides ++ more) =
          stack.cursor.walk sides ++ List.replicate more.length (none, 0))) ∧
    stack.cursor.size = stack.size ∧
    (∀ count, (stack.cursor.walk (List.replicate count .top)).map Prod.fst =
      (List.range count).map (stack.toList.reverse[·]?)) ∧
    (∀ count, (stack.cursor.walk (List.replicate count .bottom)).map Prod.fst =
      (List.range count).map (stack.toList[·]?)) ∧
    stack.toList.foldl push empty = stack := by
  refine ⟨fun sides => ⟨?_, ?_, ?_, ?_⟩, rfl, ?_, ?_, foldl_push_toList stack⟩
  · rw [← items_cursor]
    exact stack.cursor.taken_append_items_append_taken sides
  · intro i word left hmove
    exact Cursor.add_length_returned_of_getElem? hmove
  · intro side
    rw [Cursor.take_eq_none_iff, Cursor.items_after_eq_nil_iff]
    rfl
  · intro hall more
    rw [Cursor.walk_append, Cursor.walk_of_items_eq_nil (Cursor.items_after_eq_nil_iff.2 hall)]
  · intro count
    rw [Cursor.map_fst_walk_replicate, ← items_cursor]
    rfl
  · intro count
    rw [Cursor.map_fst_walk_replicate, listed_cursor_bottom]

/-- Three moves from both ends meet in the middle of three words. After the second of them one word is left,
and whatever is asked after the third, nothing is returned. -/
theorem walk_cursor_of_three :
    let cursor := (ofList [1, 2, 3]).cursor
    cursor.walk [.top, .bottom, .top] = [(some 3, 2), (some 1, 1), (some 2, 0)] ∧
      1 + (Cursor.returned ((cursor.walk [.top, .bottom, .top]).take 2)).length = 3 ∧
      (Cursor.returned (cursor.walk [.top, .bottom, .top])).length = 3 ∧
      cursor.walk [.top, .bottom, .top, .bottom, .top] =
        cursor.walk [.top, .bottom, .top] ++ [(none, 0), (none, 0)] := by
  intro cursor
  obtain ⟨hsides, -⟩ := walk_cursor (ofList [1, 2, 3])
  obtain ⟨-, hleft, -, hmore⟩ := hsides [.top, .bottom, .top]
  have hall : (Cursor.returned (cursor.walk [.top, .bottom, .top])).length = 3 := by decide
  exact ⟨by decide, hleft 1 (some 1) 1 (by decide), hall, hmore hall [.bottom, .top]⟩

end Stack

end RegisterMachine
