import Mathlib.Data.List.Pairwise
import Mathlib.Order.CompletePartialOrder
import Mathlib.Order.Interval.Set.Disjoint

/-!
# Intervals in the order of their lower ends

Half-open intervals are apart when no point is in two of them. In a list of
nonempty intervals that is sorted by the lower ends, it is enough to look at
neighbours.
-/
namespace Esp32Shell.Library.Intervals

variable {α ι : Type} [LinearOrder α] (lower upper : ι → α)

/-- The interval of `x`, with its lower and without its upper end. -/
def points (x : ι) : Set α := Set.Ico (lower x) (upper x)

def Apart (x y : ι) : Prop := Disjoint (points lower upper x) (points lower upper y)

/-- One interval ends where the other starts, or before. -/
def Precedes (x y : ι) : Prop := upper x ≤ lower y

variable {lower upper}

theorem Apart.symm {x y : ι} (h : Apart lower upper x y) : Apart lower upper y x := Disjoint.symm h

theorem apart_iff_precedes {x y : ι} (hy : lower y < upper y) (hle : lower x ≤ lower y) :
    Apart lower upper x y ↔ Precedes lower upper x y := by
  rw [Apart, points, points, Set.Ico_disjoint_Ico, max_eq_right hle, min_le_iff]
  exact or_iff_left (not_le.mpr hy)

variable {l : List ι}

/-- What holds of neighbours holds of any two, since the intervals between them are not empty. -/
theorem pairwise_precedes_iff (hl : ∀ x ∈ l, lower x < upper x) :
    l.Pairwise (Precedes lower upper) ↔ l.IsChain (Precedes lower upper) := by
  refine ⟨List.Pairwise.isChain, fun h => ?_⟩
  induction l with
  | nil => exact List.Pairwise.nil
  | cons x l ih =>
    have htail := ih (fun y hy => hl y (List.mem_cons_of_mem x hy)) h.of_cons
    refine List.pairwise_cons.mpr ⟨fun y hy => ?_, htail⟩
    cases l with
    | nil => cases hy
    | cons z l =>
      have hxz : upper x ≤ lower z := (List.isChain_cons_cons.mp h).1
      apply (List.mem_cons.mp hy).elim
      · intro he
        rw [he]
        exact hxz
      · intro hm
        have hz : lower z < upper z := hl z (by simp)
        have hzy : upper z ≤ lower y := (List.pairwise_cons.mp htail).1 y hm
        exact hxz.trans (hz.le.trans hzy)

/-- In a sorted list, all intervals are apart exactly when each ends before the next one starts. -/
theorem pairwise_apart_iff (hl : ∀ x ∈ l, lower x < upper x)
    (hsorted : l.Pairwise fun x y => lower x ≤ lower y) :
    l.Pairwise (Apart lower upper) ↔ l.IsChain (Precedes lower upper) := by
  rw [← pairwise_precedes_iff hl]
  constructor
  · intro h
    refine (hsorted.and h).imp_of_mem fun hx hy hxy => ?_
    exact (apart_iff_precedes (hl _ hy) hxy.1).mp hxy.2
  · intro h
    refine (hsorted.and h).imp_of_mem fun hx hy hxy => ?_
    exact (apart_iff_precedes (hl _ hy) hxy.1).mpr hxy.2

/-- A relation of neighbours, looked up by pairing the list with its tail. -/
theorem isChain_iff_zip {R : ι → ι → Prop} : l.IsChain R ↔ ∀ p ∈ l.zip l.tail, R p.1 p.2 := by
  induction l with
  | nil => simp
  | cons x l ih =>
    cases l with
    | nil => simp
    | cons y l =>
      rw [List.isChain_cons_cons, ih]
      simp

end Esp32Shell.Library.Intervals
