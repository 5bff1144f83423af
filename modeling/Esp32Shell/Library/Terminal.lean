import Mathlib.Data.List.Basic

/-!
# A glass terminal

Rows of glyphs with a cursor in the last of them: a glyph replaces what stands
under the cursor, and the cursor goes one column back, to the start of its row,
or down into a new row. No row is too long.
-/
namespace Esp32Shell.Library.Terminal

variable {α : Type}

inductive Key (α : Type) where
  | glyph (a : α)
  | left
  | home
  | down

/-- The rows above, the row of the cursor, and its column. -/
structure Screen (α : Type) where
  above : List (List α)
  row : List α
  column : Nat
  column_le : column ≤ row.length

namespace Screen

def cleared : Screen α := ⟨[], [], 0, Nat.zero_le _⟩

def press (blank : α) (s : Screen α) : Key α → Screen α
  | .glyph a =>
    ⟨s.above, s.row.take s.column ++ a :: s.row.drop (s.column + 1), s.column + 1, by
      have h := s.column_le
      simp only [List.length_append, List.length_take, List.length_cons, List.length_drop]
      omega⟩
  | .left => ⟨s.above, s.row, s.column - 1, Nat.le_trans (Nat.sub_le _ _) s.column_le⟩
  | .home => ⟨s.above, s.row, 0, Nat.zero_le _⟩
  | .down => ⟨s.above ++ [s.row], List.replicate s.column blank, s.column, by simp⟩

def presses (blank : α) (s : Screen α) (keys : List (Key α)) : Screen α := keys.foldl (press blank) s

/-- The row shows a text up to the cursor and nothing behind it. -/
def Shows (blank : α) (s : Screen α) (shown : List α) : Prop :=
  s.column = shown.length ∧ ∃ n, s.row = shown ++ List.replicate n blank

variable {blank : α} {s : Screen α} {shown : List α}

theorem Shows.row_eq (h : Shows blank s shown) : ∃ n, s.row = shown ++ List.replicate n blank := h.2

theorem Shows.glyph (h : Shows blank s shown) (a : α) :
    Shows blank (s.press blank (.glyph a)) (shown ++ [a]) := by
  obtain ⟨hcolumn, n, hrow⟩ := h
  refine ⟨by simp [press, hcolumn], n - 1, ?_⟩
  simp only [press, hcolumn, hrow, List.take_left']
  rw [List.append_assoc, List.singleton_append, ← List.drop_drop, List.drop_left, List.drop_replicate]

/-- A text is shown behind what is shown. -/
theorem Shows.glyphs (h : Shows blank s shown) (text : List α) :
    Shows blank (s.presses blank (text.map .glyph)) (shown ++ text) := by
  induction text generalizing s shown with
  | nil => simpa [presses] using h
  | cons a text ih =>
    have hnext := ih (h.glyph a)
    rwa [List.append_assoc] at hnext

/-- One column back, a blank, one column back. -/
theorem Shows.rubOut {a : α} (h : Shows blank s (shown ++ [a])) :
    Shows blank (s.presses blank [.left, .glyph blank, .left]) shown := by
  obtain ⟨hcolumn, n, hrow⟩ := h
  rw [List.length_append, List.length_singleton] at hcolumn
  refine ⟨by simp [presses, press, hcolumn], n + 1, ?_⟩
  have htail : (a :: List.replicate n blank).drop 1 = List.replicate n blank := rfl
  simp only [presses, List.foldl_cons, List.foldl_nil, press, hcolumn, hrow, Nat.add_sub_cancel,
    List.append_assoc, List.singleton_append, List.take_left']
  rw [← List.drop_drop, List.drop_left, htail, ← List.replicate_succ]

/-- A new line completes the row, whatever it shows. -/
theorem newLine (blank : α) (s : Screen α) :
    Shows blank (s.presses blank [.home, .down]) [] ∧
      (s.presses blank [.home, .down]).above = s.above ++ [s.row] := ⟨⟨rfl, 0, rfl⟩, rfl⟩

end Screen

end Esp32Shell.Library.Terminal
