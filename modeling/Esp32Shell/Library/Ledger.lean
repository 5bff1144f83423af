import Mathlib.Data.List.Basic

/-!
# Ledgers of resources

A ledger is what was taken, given back and lost, in order. It is nested when
whatever is given back is the resource taken last among those still held, so
that nothing is given back twice and what is still held can be read off.
-/
namespace Esp32Shell.Library.Ledger

variable {ρ : Type} [DecidableEq ρ]

inductive Move (ρ : Type) where
  | take (r : ρ)
  | release (r : ρ)
  /-- All that is held is gone at once. -/
  | lose
  deriving DecidableEq

/-- What is held after a move, the last taken first; a release of anything else is none. -/
def Move.apply (held : List ρ) : Move ρ → Option (List ρ)
  | .take r => some (r :: held)
  | .release r =>
    match held with
    | [] => none
    | r' :: held => if r = r' then some held else none
  | .lose => some []

/-- What is held after the moves of a ledger, if they are nested. -/
def holding (held : List ρ) (moves : List (Move ρ)) : Option (List ρ) := moves.foldlM Move.apply held

@[simp] theorem holding_nil (held : List ρ) : holding held [] = some held := rfl

theorem holding_cons (held : List ρ) (m : Move ρ) (moves : List (Move ρ)) :
    holding held (m :: moves) = (m.apply held).bind fun held' => holding held' moves := rfl

theorem holding_append (held : List ρ) (moves more : List (Move ρ)) :
    holding held (moves ++ more) = (holding held moves).bind fun held' => holding held' more :=
  List.foldlM_append

theorem holding_append_of {held held' : List ρ} {moves : List (Move ρ)} (h : holding held moves = some held')
    (more : List (Move ρ)) : holding held (moves ++ more) = holding held' more := by
  rw [holding_append, h]
  rfl

@[simp] theorem holding_take (held : List ρ) (r : ρ) : holding held [.take r] = some (r :: held) := rfl

@[simp] theorem holding_release (held : List ρ) (r : ρ) : holding (r :: held) [.release r] = some held := by
  simp [holding, Move.apply]

@[simp] theorem holding_lose (held : List ρ) : holding held [.lose] = some [] := rfl

/-- What is held is given back in the opposite order. -/
theorem holding_releases (given held : List ρ) :
    holding (given ++ held) (given.map .release) = some held := by
  induction given with
  | nil => rfl
  | cons r given ih =>
    rw [List.map_cons, List.cons_append, holding_cons]
    simp only [Move.apply, if_true, Option.bind_some]
    exact ih

end Esp32Shell.Library.Ledger
