import Esp32Shell.Library.CText
import Esp32Shell.Library.Intervals
import Mathlib.Data.List.Sort
import Mathlib.Logic.Function.Basic

/-!
# The validator of the partition table

`validate` of `validate_partitions.py` over the rows that `parse` returns. Only
neighbours in the order of the sorted ranges are compared. A name is its UTF-8
text: bytes and code points have the same order.
-/
namespace Esp32Shell.Tools.ValidatePartitions

open Esp32Shell.Library.CText Esp32Shell.Library.Intervals

/-- `(name, offset, size)`. -/
structure Row where
  name : Text
  offset : Int
  size : Int
  deriving DecidableEq

/-- 32 MiB. -/
def flashSize : Int := 0x2000000

/-- `REQUIRED`. -/
def required : List (Text × Int × Int) :=
  [(lit "nvs", 0x9000, 0x5000),
   (lit "otadata", 0xE000, 0x2000),
   (lit "app0", 0x10000, 0x800000),
   (lit "app1", 0x810000, 0x800000),
   (lit "coredump", 0x1010000, 0x10000),
   (lit "littlefs", 0x1020000, 0xFE0000)]

/-! ### The code -/

/-- `{name: (offset, size) for ...}`: a later row takes the place of an earlier one of its name. -/
def actual (rows : List Row) : Text → Option (Int × Int) :=
  rows.foldl (fun table row => Function.update table row.name (some (row.offset, row.size)))
    fun _ => none

/-- A tuple, or what `get` answers without one, in a format string. -/
def shown : Option (Int × Int) → Text
  | none => lit "None"
  | some (offset, size) => lit "(" ++ lit (toString offset) ++ lit ", " ++ lit (toString size) ++ lit ")"

/-- `{n:x}` of a number that is not negative. -/
def hexadecimal (n : Nat) : Text := lit (String.ofList (Nat.toDigits 16 n))

/-- `(offset, offset + size, name)`. -/
structure Range where
  start : Int
  stop : Int
  name : Text
  deriving DecidableEq

/-- Tuples are compared at the first place where they differ. -/
def Range.le (a b : Range) : Prop :=
  a.start < b.start ∨ a.start = b.start ∧ (a.stop < b.stop ∨ a.stop = b.stop ∧ a.name ≤ b.name)

instance : DecidableRel Range.le := fun _ _ => inferInstanceAs (Decidable (_ ∨ _))

def Row.range (row : Row) : Range := ⟨row.offset, row.offset + row.size, row.name⟩

/-- `sorted(...)`: the order is total, so every sort gives the same list. -/
def ranges (rows : List Row) : List Range := (rows.map Row.range).insertionSort Range.le

def requiredErrors (rows : List Row) : List Text :=
  required.filterMap fun (name, expected) =>
    if actual rows name ≠ some expected then
      some (name ++ lit ": expected " ++ shown (some expected) ++ lit ", got " ++ shown (actual rows name))
    else none

def overlapErrors (rows : List Row) : List Text :=
  ((ranges rows).zip (ranges rows).tail).filterMap fun (range, next) =>
    if range.stop > next.start then some (lit "overlap: " ++ range.name ++ lit " and " ++ next.name)
    else none

def flashErrors (rows : List Row) : List Text :=
  rows.filterMap fun row =>
    if row.offset + row.size > flashSize then
      some (row.name ++ lit ": ends at 0x" ++ hexadecimal (row.offset + row.size).toNat ++
        lit ", beyond 32MiB flash")
    else none

def validate (rows : List Row) : List Text :=
  requiredErrors rows ++ overlapErrors rows ++ flashErrors rows

/-! ### The order of the ranges -/

instance : Std.Total Range.le where
  total a b := by
    have hname := List.le_total a.name b.name
    grind [Range.le]

instance : IsTrans Range Range.le where
  trans a b c hab hbc := by
    have hname : a.name ≤ b.name → b.name ≤ c.name → a.name ≤ c.name := List.le_trans
    grind [Range.le]

theorem start_le {a b : Range} (h : a.le b) : a.start ≤ b.start := by
  simp only [Range.le] at h
  omega

theorem ranges_perm (rows : List Row) : (ranges rows).Perm (rows.map Row.range) :=
  List.perm_insertionSort _ _

theorem ranges_sorted (rows : List Row) : (ranges rows).Pairwise fun a b => a.start ≤ b.start :=
  (List.pairwise_insertionSort Range.le _).imp start_le

/-! ### What each check finds -/

def Row.stop (row : Row) : Int := row.offset + row.size

/-- The addresses of a partition. -/
def Row.addresses (row : Row) : Set Int := points Row.offset Row.stop row

/-- What the table has to be. -/
structure Meets (rows : List Row) : Prop where
  required : ∀ name expected, (name, expected) ∈ required →
    ∃ row ∈ rows, row.name = name ∧ (row.offset, row.size) = expected
  disjoint : rows.Pairwise fun a b => Disjoint a.addresses b.addresses
  fits : ∀ row ∈ rows, row.stop ≤ flashSize

variable {rows : List Row}

theorem actual_snoc (rows : List Row) (row : Row) : actual (rows ++ [row]) =
    Function.update (actual rows) row.name (some (row.offset, row.size)) := by
  simp [actual]

/-- Where no name is used twice, the table has the rows. -/
theorem actual_eq_some_iff (hnames : (rows.map Row.name).Nodup) {name : Text} {found : Int × Int} :
    actual rows name = some found ↔ ∃ row ∈ rows, row.name = name ∧ (row.offset, row.size) = found := by
  induction rows using List.reverseRecOn with
  | nil => simp [actual]
  | append_singleton rows row ih =>
    rw [List.map_append, List.nodup_append] at hnames
    obtain ⟨hrows, -, hother⟩ := hnames
    rw [actual_snoc]
    by_cases hname : name = row.name
    · rw [hname, Function.update_self]
      constructor
      · intro h
        exact ⟨row, by simp, rfl, Option.some_inj.mp h⟩
      · intro h
        obtain ⟨row', hm, hname', hfound⟩ := h
        have hrow : row' = row := by
          apply (List.mem_append.mp hm).elim
          · intro hin
            exact absurd hname' (hother _ (List.mem_map_of_mem hin) _ (by simp))
          · exact List.mem_singleton.mp
        rw [← hfound, hrow]
    · rw [Function.update_of_ne hname, ih hrows]
      constructor
      · intro h
        obtain ⟨row', hm, hrow'⟩ := h
        exact ⟨row', List.mem_append_left _ hm, hrow'⟩
      · intro h
        obtain ⟨row', hm, hname', hfound⟩ := h
        apply (List.mem_append.mp hm).elim
        · intro hin
          exact ⟨row', hin, hname', hfound⟩
        · intro hin
          rw [List.mem_singleton.mp hin] at hname'
          exact absurd hname'.symm hname

theorem requiredErrors_eq_nil_iff (hnames : (rows.map Row.name).Nodup) :
    requiredErrors rows = [] ↔ ∀ name expected, (name, expected) ∈ required →
      ∃ row ∈ rows, row.name = name ∧ (row.offset, row.size) = expected := by
  rw [requiredErrors, List.filterMap_eq_nil_iff, Prod.forall]
  refine forall_congr' fun name => forall_congr' fun expected => imp_congr_right fun _ => ?_
  rw [← actual_eq_some_iff hnames]
  simp

/-- Neighbours in the order of the sorted ranges stand for all pairs of rows. -/
theorem overlapErrors_eq_nil_iff (hsizes : ∀ row ∈ rows, 0 < row.size) :
    overlapErrors rows = [] ↔ rows.Pairwise fun a b => Disjoint a.addresses b.addresses := by
  have hnonempty : ∀ range ∈ ranges rows, range.start < range.stop := by
    intro range hm
    obtain ⟨row, hrow, rfl⟩ := List.mem_map.mp ((ranges_perm rows).mem_iff.mp hm)
    have hsize := hsizes row hrow
    show row.offset < row.offset + row.size
    omega
  have hneighbours : overlapErrors rows = [] ↔ (ranges rows).IsChain (Precedes Range.start Range.stop) := by
    rw [overlapErrors, List.filterMap_eq_nil_iff, isChain_iff_zip]
    simp [Precedes]
  rw [hneighbours, ← pairwise_apart_iff hnonempty (ranges_sorted rows),
    (ranges_perm rows).pairwise_iff Apart.symm, List.pairwise_map]
  rfl

theorem flashErrors_eq_nil_iff : flashErrors rows = [] ↔ ∀ row ∈ rows, row.stop ≤ flashSize := by
  rw [flashErrors, List.filterMap_eq_nil_iff]
  simp [Row.stop]

/-- The table of distinct names and nonempty partitions passes exactly when it is what it has to be. -/
theorem validate_eq_nil_iff (rows : List Row) (hnames : (rows.map Row.name).Nodup)
    (hsizes : ∀ row ∈ rows, 0 < row.size) : validate rows = [] ↔ Meets rows := by
  rw [validate, List.append_eq_nil_iff, List.append_eq_nil_iff, requiredErrors_eq_nil_iff hnames,
    overlapErrors_eq_nil_iff hsizes, flashErrors_eq_nil_iff]
  constructor
  · intro h
    exact ⟨h.1.1, h.1.2, h.2⟩
  · intro h
    exact ⟨⟨h.required, h.disjoint⟩, h.fits⟩

/-- The rows of `partitions.csv`, the same for both images. -/
def partitions : List Row :=
  [⟨lit "nvs", 0x9000, 0x5000⟩,
   ⟨lit "otadata", 0xE000, 0x2000⟩,
   ⟨lit "app0", 0x10000, 0x800000⟩,
   ⟨lit "app1", 0x810000, 0x800000⟩,
   ⟨lit "coredump", 0x1010000, 0x10000⟩,
   ⟨lit "littlefs", 0x1020000, 0xFE0000⟩]

theorem partitions_meet : validate partitions = [] ∧ Meets partitions := by
  have hvalid : validate partitions = [] := by decide +kernel
  exact ⟨hvalid, (validate_eq_nil_iff partitions (by decide) (by decide)).mp hvalid⟩

end Esp32Shell.Tools.ValidatePartitions
