import Mathlib.Data.List.Perm.Basic
import Mathlib.Data.List.Pairwise

/-!
# Ordered guarded choice

A chain of tests, each with its own result, where the first test that succeeds
decides. When no input passes two tests the order carries no information: every
permutation of the chain computes the same function.
-/
namespace Esp32Shell.Library.GuardedChoice

variable {ι ρ : Type*}

structure Branch (ι ρ : Type*) where
  guard : ι → Bool
  result : ι → ρ

/-- The result of the first branch whose guard accepts the input. -/
def choose (branches : List (Branch ι ρ)) (otherwise : ι → ρ) (i : ι) : ρ :=
  branches.foldr (fun b rest => if b.guard i then b.result i else rest) (otherwise i)

@[simp] theorem choose_nil (otherwise : ι → ρ) (i : ι) : choose [] otherwise i = otherwise i := rfl

@[simp] theorem choose_cons (b : Branch ι ρ) (branches : List (Branch ι ρ)) (otherwise : ι → ρ)
    (i : ι) : choose (b :: branches) otherwise i =
      if b.guard i then b.result i else choose branches otherwise i := rfl

/-- No input passes the guards of two branches at different positions. -/
def Exclusive (branches : List (Branch ι ρ)) : Prop :=
  branches.Pairwise fun a b => ∀ i, ¬ (a.guard i = true ∧ b.guard i = true)

theorem choose_of_none {branches : List (Branch ι ρ)} {i : ι}
    (h : ∀ b ∈ branches, b.guard i = false) (otherwise : ι → ρ) :
    choose branches otherwise i = otherwise i := by
  induction branches with
  | nil => rfl
  | cons b branches ih =>
    rw [choose_cons, if_neg (by simp [h b (by simp)])]
    exact ih fun c hc => h c (List.mem_cons_of_mem _ hc)

/-- In an exclusive chain the only accepting branch decides, wherever it stands. -/
theorem choose_of_mem {branches : List (Branch ι ρ)} (he : Exclusive branches) {b : Branch ι ρ}
    (hb : b ∈ branches) {i : ι} (hg : b.guard i = true) (otherwise : ι → ρ) :
    choose branches otherwise i = b.result i := by
  induction branches with
  | nil => simp at hb
  | cons c branches ih =>
    obtain ⟨hc, hrest⟩ := List.pairwise_cons.mp he
    rcases List.mem_cons.mp hb with rfl | hb
    · simp [hg]
    · have hn : ¬ c.guard i = true := fun h => hc b hb i ⟨h, hg⟩
      rw [choose_cons, if_neg hn]
      exact ih hrest hb

/-- The result is that of some branch that accepts, or of none accepting. -/
theorem choose_cases (branches : List (Branch ι ρ)) (otherwise : ι → ρ) (i : ι) :
    (∃ b ∈ branches, b.guard i = true ∧ choose branches otherwise i = b.result i) ∨
    ((∀ b ∈ branches, b.guard i = false) ∧ choose branches otherwise i = otherwise i) := by
  induction branches with
  | nil => simp
  | cons b branches ih =>
    cases hg : b.guard i with
    | true => exact .inl ⟨b, by simp, hg, by simp [hg]⟩
    | false =>
      rw [choose_cons, if_neg (by simp [hg])]
      rcases ih with ⟨c, hc, hcg, hr⟩ | ⟨hn, hr⟩
      · exact .inl ⟨c, List.mem_cons_of_mem _ hc, hcg, hr⟩
      · exact .inr ⟨by simpa [hg] using hn, hr⟩

/-- The order of an exclusive chain is irrelevant. -/
theorem choose_perm {branches order : List (Branch ι ρ)} (he : Exclusive branches)
    (hp : order.Perm branches) (otherwise : ι → ρ) (i : ι) :
    choose order otherwise i = choose branches otherwise i := by
  rcases choose_cases order otherwise i with ⟨b, hb, hg, hr⟩ | ⟨hn, hr⟩
  · rw [hr, choose_of_mem he (hp.mem_iff.mp hb) hg]
  · rw [hr, choose_of_none fun b hb => hn b (hp.mem_iff.mpr hb)]

end Esp32Shell.Library.GuardedChoice
