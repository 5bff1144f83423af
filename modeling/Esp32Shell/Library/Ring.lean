import Mathlib.Data.List.Basic
import Mathlib.Data.List.DropRight
import Mathlib.Data.List.Induction

/-!
# Rings of cells

A ring is written one cell after the other and starts over at its end. The
invariant ties its cells to all that was ever pushed: the last `capacity` items
are read from their cells, whatever the cells held before.
-/
namespace Esp32Shell.Library.Ring

variable {γ β : Type}

/-- `reads` is what a cell is read as; the items older than a whole turn are gone. -/
structure Holds (capacity : Nat) (reads : γ → β) (cells : List γ) (next count : Nat)
    (pushed : List β) : Prop where
  size : cells.length = capacity
  next_eq : next = pushed.length % capacity
  count_eq : count = min pushed.length capacity
  recent : ∀ i item, pushed[i]? = some item → pushed.length ≤ i + capacity →
    ∃ cell, cells[i % capacity]? = some cell ∧ reads cell = item

variable {capacity next count : Nat} {reads : γ → β} {cells : List γ} {pushed : List β}

theorem holds_nil (hsize : cells.length = capacity) : Holds capacity reads cells 0 0 [] :=
  ⟨hsize, by simp, by simp, fun i item hitem => by simp at hitem⟩

/-- Two positions less than a turn apart are different cells. -/
theorem mod_ne_mod {i n capacity : Nat} (hlt : i < n) (hle : n < i + capacity) :
    i % capacity ≠ n % capacity := by
  intro h
  have hzero : (n - i) % capacity = 0 := Nat.sub_mod_eq_zero_of_mod_eq h.symm
  rw [Nat.mod_eq_of_lt (by omega)] at hzero
  omega

/-- The cell that is written next holds the new item; the cells of the last turn keep theirs. -/
theorem Holds.push (h : Holds capacity reads cells next count pushed) (hpos : 0 < capacity)
    {write : γ → γ} {item : β} (hwrite : ∀ cell ∈ cells, reads (write cell) = item) :
    Holds capacity reads (cells.modify next write) ((next + 1) % capacity)
      (if count < capacity then count + 1 else count) (pushed ++ [item]) := by
  have hlength : (pushed ++ [item]).length = pushed.length + 1 := by simp
  refine ⟨by rw [List.length_modify, h.size], ?_, ?_, fun i x hx hrecent => ?_⟩
  · rw [hlength, h.next_eq, Nat.mod_add_mod]
  · have hcount := h.count_eq
    split_ifs <;> omega
  · rw [hlength] at hrecent
    by_cases hlast : i = pushed.length
    · rw [hlast, List.getElem?_append_right le_rfl, Nat.sub_self] at hx
      obtain rfl : item = x := by simpa using hx
      have hlt : pushed.length % capacity < cells.length := by
        rw [h.size]
        exact Nat.mod_lt _ hpos
      refine ⟨write cells[pushed.length % capacity], ?_, hwrite _ (List.getElem_mem hlt)⟩
      rw [hlast, h.next_eq, List.getElem?_modify_eq, List.getElem?_eq_getElem hlt]
      rfl
    · have hlt : i < pushed.length := by
        have hi := (List.getElem?_eq_some_iff.mp hx).1
        omega
      rw [List.getElem?_append_left hlt] at hx
      obtain ⟨cell, hcell, hread⟩ := h.recent i x hx (by omega)
      refine ⟨cell, ?_, hread⟩
      rw [h.next_eq, List.getElem?_modify_ne _ _ (mod_ne_mod hlt (by omega)).symm]
      exact hcell

/-! The cell of the oldest item, in the two ways to compute it. -/

theorem Holds.first_of_full (h : Holds capacity reads cells next count pushed) :
    (if count = capacity then next else 0) % capacity = (pushed.length - count) % capacity := by
  have hcount := h.count_eq
  split_ifs with hfull
  · rw [h.next_eq, Nat.mod_mod, hfull]
    exact Nat.mod_eq_sub_mod (by omega)
  · rw [show pushed.length - count = 0 by omega]

theorem Holds.first_of_behind (h : Holds capacity reads cells next count pushed) :
    (next + capacity - count) % capacity % capacity = (pushed.length - count) % capacity := by
  have hcount := h.count_eq
  rw [Nat.mod_mod]
  by_cases hfull : capacity ≤ pushed.length
  · rw [show count = capacity by omega, Nat.add_sub_cancel, h.next_eq, Nat.mod_mod]
    exact Nat.mod_eq_sub_mod hfull
  · have hnext : next = pushed.length := by rw [h.next_eq, Nat.mod_eq_of_lt (by omega)]
    rw [show pushed.length - count = 0 by omega, show next + capacity - count = capacity by omega,
      Nat.mod_self, Nat.zero_mod]

/-- Read from the cell of the oldest item on, the ring lists the last items in order. -/
theorem Holds.listed (h : Holds capacity reads cells next count pushed) {first : Nat}
    (hfirst : first % capacity = (pushed.length - count) % capacity) (d : γ) :
    (List.range count).map (fun index => reads (cells.getD ((first + index) % capacity) d)) =
      pushed.rtake capacity := by
  have hcount := h.count_eq
  apply List.ext_getElem
  · rw [List.length_map, List.length_range, List.rtake, List.length_drop]
    omega
  · intro index hindex hlast
    rw [List.length_map, List.length_range] at hindex
    have hlt : pushed.length - count + index < pushed.length := by omega
    obtain ⟨cell, hcell, hread⟩ := h.recent (pushed.length - count + index) _
      (List.getElem?_eq_getElem hlt) (by omega)
    have hsame : (first + index) % capacity = (pushed.length - count + index) % capacity := by
      rw [Nat.add_mod, hfirst, ← Nat.add_mod]
    rw [List.getElem_map, List.getElem_range, hsame, List.getD_eq_getElem?_getD, hcell,
      Option.getD_some, hread]
    simp only [List.rtake, List.getElem_drop]
    congr 1
    omega

end Esp32Shell.Library.Ring
