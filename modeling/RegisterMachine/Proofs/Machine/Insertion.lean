/-
# Inserting a bare label

A bare label takes no cycles and changes nothing, so that one that no jump looks for can stand anywhere in
a program: whatever the program does, it does as before, at program counters that are shifted.

* `Instruction.target?` : the label that an instruction looks for;
* `Program.InsertsBare` : a program with one bare label more, which no jump looks for;
* `shift` : where an instruction stands after an insertion;
* `Beside` : the places that correspond to a place after an insertion;
* `Machine.after_insert` : the two programs end together, and equally but for the program counter.

Most steps are matched by one step of the longer program. The exception is a machine that falls through to
the place of the insertion: it is on the instruction that stood there, while the longer program still has
the bare label before it. A jump to this instruction skips the bare label, and so both places correspond to
the one before the insertion.
-/
import Mathlib.Order.Bounds.Image
import RegisterMachine.Proofs.Machine.Lockstep
import RegisterMachine.Proofs.Machine.Orbit

namespace RegisterMachine

/-! ## Insertions -/

/-- The label that an instruction looks for when it jumps. -/
def Instruction.target? (instruction : Instruction) : Option String :=
  match instruction.opcode with
  | some (.known .jmp) => instruction.operands[0]?
  | some (.known .je) => instruction.operands[0]?
  | some (.known .jne) => instruction.operands[0]?
  | _ => none

/-- The second program is the first one with a bare label inserted at an index. No jump of the first one
looks for this label, which may stand elsewhere in the program as well. Source lines do not matter. -/
structure Program.InsertsBare (p q : Program) (index : Nat) (bare : Instruction) : Prop where
  le_size : index ≤ p.size
  opcode : bare.opcode = none
  unused : ∀ instruction ∈ p.instructions, ∀ label ∈ instruction.target?, bare.label ≠ some label
  instructions : q.instructions = p.instructions.insertIdx index bare

/-- Where the instruction at a place stands after an insertion. -/
def shift (index place : Nat) : Nat :=
  if place < index then place else place + 1

/-- The places that correspond to a place after an insertion: that of the same instruction, and that of
the inserted one, if it stands in front of this instruction. -/
inductive Beside (index : Nat) (place : Nat) : Nat → Prop
  | level : Beside index place (shift index place)
  | before (h : place = index) : Beside index place index

/-- An insertion keeps the order of the instructions. -/
theorem strictMono_shift (index : Nat) : StrictMono (shift index) := by
  intro first second hlt
  unfold shift
  split_ifs <;> omega

/-- After an insertion, each place is that of the inserted instruction or of another one. -/
theorem eq_or_exists_shift (index other : Nat) :
    other = index ∨ ∃ place, shift index place = other := by
  rcases Nat.lt_trichotomy other index with hlt | rfl | hgt
  · exact Or.inr ⟨other, if_pos hlt⟩
  · exact Or.inl rfl
  · refine Or.inr ⟨other - 1, ?_⟩
    rw [shift, if_neg (by omega)]
    omega

/-- The instruction before an insertion is followed by the inserted one. -/
theorem beside_succ (index place : Nat) : Beside index (place + 1) (shift index place + 1) := by
  rcases Nat.lt_trichotomy (place + 1) index with hlt | heq | hgt
  · have hshift : shift index place + 1 = shift index (place + 1) := by
      rw [shift, shift, if_pos (by omega), if_pos hlt]
    rw [hshift]
    exact .level
  · have hshift : shift index place + 1 = index := by
      rw [shift, if_pos (by omega), heq]
    rw [hshift]
    exact .before heq
  · have hshift : shift index place + 1 = shift index (place + 1) := by
      rw [shift, shift, if_neg (by omega), if_neg (by omega)]
    rw [hshift]
    exact .level

/-- The first instruction is at the start, or has the inserted one in front of it. -/
theorem beside_zero (index : Nat) : Beside index 0 0 := by
  rcases Nat.eq_zero_or_pos index with rfl | hpos
  · exact .before rfl
  · have hlevel : Beside index 0 (shift index 0) := .level
    rwa [shift, if_pos hpos] at hlevel

/-! ## Instructions and labels after an insertion -/

namespace Program

namespace InsertsBare

variable {p q : Program} {index : Nat} {bare : Instruction}

/-- The inserted instruction stands where it was inserted. -/
theorem get?_index (h : p.InsertsBare q index bare) : q.get? index = some bare := by
  have hlength : p.instructions.length = p.size := List.length_map _
  rw [get?_eq_getElem?, h.instructions, List.getElem?_insertIdx_self, hlength, if_pos h.le_size]

/-- The others are shifted. -/
theorem get?_shift (h : p.InsertsBare q index bare) (place : Nat) :
    q.get? (shift index place) = p.get? place := by
  rw [get?_eq_getElem?, get?_eq_getElem?, h.instructions, shift]
  split
  · next hlt => rw [List.getElem?_insertIdx_of_lt hlt]
  · next hge => rw [List.getElem?_insertIdx_of_gt (by omega), Nat.add_sub_cancel]

/-- So are the places of any label that the inserted instruction does not carry. -/
theorem carriers_eq (h : p.InsertsBare q index bare) {label : String}
    (hlabel : bare.label ≠ some label) :
    Machine.carriers q label = shift index '' Machine.carriers p label := by
  ext other
  constructor
  · rintro ⟨instruction, hget, hcarries⟩
    rcases eq_or_exists_shift index other with rfl | ⟨place, rfl⟩
    · rw [h.get?_index, Option.some_inj] at hget
      rw [hget] at hlabel
      exact absurd hcarries hlabel
    · rw [h.get?_shift] at hget
      exact ⟨place, ⟨instruction, hget, hcarries⟩, rfl⟩
  · rintro ⟨place, ⟨instruction, hget, hcarries⟩, rfl⟩
    refine ⟨instruction, ?_, hcarries⟩
    rw [h.get?_shift, hget]

/-- Such a label leads to the same instruction as before. -/
theorem leadsAlike (h : p.InsertsBare q index bare) {label : String}
    (hlabel : bare.label ≠ some label) : LeadsAlike (Beside index) p q label := by
  rcases Machine.isLeast_carriers_or_forall_notMem p label with ⟨place, hleast⟩ | hnone
  · refine .found hleast ?_ .level
    rw [h.carriers_eq hlabel]
    exact (strictMono_shift index).monotone.map_isLeast hleast
  · refine .nowhere hnone fun other hmem => ?_
    rw [h.carriers_eq hlabel] at hmem
    obtain ⟨place, hplace, -⟩ := hmem
    exact hnone place hplace

end InsertsBare

end Program

/-! ## Steps and runs after an insertion -/

namespace Machine

variable {p q : Program} {index : Nat} {bare : Instruction} {m other : Machine}

/-- The label that a machine goes to is one that an instruction of the program looks for. -/
theorem Seeks.exists_target? {label : String} (h : m.Seeks p label) :
    ∃ instruction ∈ p.instructions, label ∈ instruction.target? := by
  obtain @⟨instruction, operation, hget, hopcode, hop, hlabel⟩ := h
  rw [Program.get?_eq_getElem?] at hget
  refine ⟨instruction, List.mem_of_getElem? hget, ?_⟩
  rw [Instruction.target?, hopcode]
  generalize m.zero = zero at hop
  rcases hop with _ | _ | _ <;> exact hlabel

/-- On the same instruction, both programs do the same. -/
theorem follows_step_shift (h : p.InsertsBare q index bare) (m : Machine) :
    Follows (Beside index) (m.step p) ((m.moveTo (shift index m.pc)).step q) := by
  apply follows_step .level (h.get?_shift m.pc) (beside_succ index m.pc)
  intro label hseeks
  obtain ⟨instruction, hmem, htarget⟩ := hseeks.exists_target?
  exact h.leadsAlike (h.unused instruction hmem label htarget)

/-- On the inserted instruction, the longer program goes on to the same instruction. -/
theorem step_before (h : p.InsertsBare q index bare) (hm : m.isTerminal = false)
    (hpc : m.pc = index) : (m.moveTo index).step q = m.moveTo (shift index m.pc) := by
  have hshift : shift index m.pc = index + 1 := by
    rw [shift, if_neg (by omega), hpc]
  have hmoved : (m.moveTo index).isTerminal = false := hm
  have hget : q.get? (m.moveTo index).pc = some bare := h.get?_index
  rw [hshift, step_of_execute_ok hmoved (executes_iff.1 (.bare hget h.opcode))]
  rfl

/-- Each step is matched by some steps of the longer program. -/
theorem Follows.exists_step (hinsert : p.InsertsBare q index bare)
    (h : Follows (Beside index) m other) :
    ∃ count, Follows (Beside index) (m.step p) (other.after q count) := by
  obtain ⟨_ | hpc⟩ := h
  · exact ⟨1, follows_step_shift hinsert m⟩
  · cases hterminal : m.isTerminal with
    | true =>
        refine ⟨0, ?_⟩
        rw [step_of_isTerminal p hterminal]
        exact .moved (.before hpc)
    | false =>
        refine ⟨2, ?_⟩
        rw [after_succ', step_before hinsert hterminal hpc]
        exact follows_step_shift hinsert m

/-- Each step of the longer program is matched by some steps. -/
theorem Follows.exists_step_before (hinsert : p.InsertsBare q index bare)
    (h : Follows (Beside index) m other) :
    ∃ count, Follows (Beside index) (m.after p count) (other.step q) := by
  obtain ⟨_ | hpc⟩ := h
  · exact ⟨1, follows_step_shift hinsert m⟩
  · refine ⟨0, ?_⟩
    cases hterminal : m.isTerminal with
    | true =>
        have hmoved : (m.moveTo index).isTerminal = true := hterminal
        rw [step_of_isTerminal q hmoved]
        exact .moved (.before hpc)
    | false =>
        rw [step_before hinsert hterminal hpc]
        exact .moved .level

/-- **Inserting a bare label that no jump looks for changes nothing but program counters.** From the start
of the program, any machine comes to an end with the one program exactly when it does with the other, and
then the two machines are equal but for their program counters. -/
theorem after_insert (h : p.InsertsBare q index bare) (hm : m.pc = 0) :
    ((∃ n, (m.after p n).isTerminal = true) ↔ ∃ n, (m.after q n).isTerminal = true) ∧
    ∀ n k, (m.after p n).isTerminal = true → (m.after q k).isTerminal = true →
      m.after q k = { m.after p n with pc := (m.after q k).pc } := by
  have hstart : Follows (Beside index) m m := by
    apply Follows.refl
    rw [hm]
    exact beside_zero index
  have hmatched : ∀ n, ∃ k, Follows (Beside index) (m.after p n) (m.after q k) :=
    exists_after_of_step (Follows.exists_step h) hstart
  have hmatches : ∀ k, ∃ n, Follows (Beside index) (m.after p n) (m.after q k) :=
    exists_after_of_step (R := fun other m => Follows (Beside index) m other)
      (Follows.exists_step_before h) hstart
  refine ⟨⟨?_, ?_⟩, ?_⟩
  · rintro ⟨n, hn⟩
    obtain ⟨k, hk⟩ := hmatched n
    exact ⟨k, hk.isTerminal_eq.trans hn⟩
  · rintro ⟨k, hk⟩
    obtain ⟨n, hn⟩ := hmatches k
    exact ⟨n, hn.isTerminal_eq.symm.trans hk⟩
  · intro n k hn hk
    obtain ⟨matching, hmatching⟩ := hmatched n
    rw [after_unique_of_isTerminal hk (hmatching.isTerminal_eq.trans hn)]
    exact hmatching.eq_with_pc

/-- A bare label before a loop, with a label that stands elsewhere too, is passed once: the jump back goes
to the instruction after it. -/
theorem after_insert_before_loop :
    let instructions : List Instruction :=
      [⟨some (.known .sub), ["AX", "1"], some "loop"⟩, ⟨some (.known .cmp), ["AX", "0"], none⟩,
        ⟨some (.known .jne), ["loop"], none⟩, ⟨some (.known .hlt), ["AX"], some "end"⟩]
    let bare : Instruction := ⟨none, [], some "end"⟩
    let p := Program.ofInstructions instructions
    let q := Program.ofInstructions (bare :: instructions)
    let m := fresh.withRegister .ax 2
    p.InsertsBare q 0 bare ∧ m.pc = 0 ∧
      (m.after p 7).isTerminal = true ∧ (m.after q 8).isTerminal = true ∧
      m.after q 8 = { m.after p 7 with pc := (m.after q 8).pc } := by
  intro instructions bare p q m
  have hinsert : p.InsertsBare q 0 bare :=
    ⟨Nat.zero_le _, rfl, by decide +kernel, by decide +kernel⟩
  have hp : (m.after p 7).isTerminal = true := by decide +kernel
  have hq : (m.after q 8).isTerminal = true := by decide +kernel
  exact ⟨hinsert, rfl, hp, hq, (after_insert hinsert rfl).2 7 8 hp hq⟩

end Machine

end RegisterMachine
