import Esp32Shell.Library.CText

/-!
# Scanning of decimal numbers

The numbers that `strtol` in base 10 and the `%d` of `sscanf` read: white space,
a sign, and the longest run of digits, within the bounds of a `long` of 32 bits.
-/
namespace Esp32Shell.Library.Scan

open Esp32Shell.Library.CText

/-- `isspace` in the locale of C. -/
def isSpace (c : UInt8) : Bool := c == 32 || (9 ≤ c && c ≤ 13)

def isDigit (c : UInt8) : Bool := 48 ≤ c && c ≤ 57

def minus : UInt8 := 45
def plus : UInt8 := 43

/-- The value of some digits. -/
def digitsValue (digits : Text) : Nat := digits.foldl (fun n c => n * 10 + (c.toNat - 48)) 0

/-- A number at the beginning of a text, and what is behind it. -/
def number (t : Text) : Option (Int × Text) :=
  let body := t.dropWhile isSpace
  let signed := body.head? = some minus ∨ body.head? = some plus
  let unsigned := if signed then body.tail else body
  let digits := unsigned.takeWhile isDigit
  if digits = [] then none
  else some (if body.head? = some minus then - (digitsValue digits : Int) else digitsValue digits,
    unsigned.dropWhile isDigit)

/-- `LONG_MAX`. -/
def longMax : Int := 2147483647

def saturated (z : Int) : Int := max (- longMax - 1) (min z longMax)

/-- `strtol(t, &end, 10)` with the text at `end`. -/
def strtol (t : Text) : Int × Text :=
  match number t with
  | none => (0, t)
  | some (z, rest) => (saturated z, rest)

/-- One `%d` of `sscanf`. -/
def scanInt (t : Text) : Option (Int × Text) := (number t).map fun read => (saturated read.1, read.2)

/-! ### What follows a number -/

theorem dropWhile_append_of_ne {p : UInt8 → Bool} {t : Text} (h : t.dropWhile p ≠ []) (more : Text) :
    (t ++ more).dropWhile p = t.dropWhile p ++ more := by
  rw [List.dropWhile_append, if_neg (by simpa using h)]

/-- A number is read up to a character that is no digit, whatever follows. -/
theorem number_append {t : Text} {z : Int} (h : number t = some (z, [])) {c : UInt8}
    (hc : isDigit c = false) (more : Text) : number (t ++ c :: more) = some (z, c :: more) := by
  simp only [number, Option.ite_none_left_eq_some, Option.some_inj, Prod.mk.injEq] at h
  obtain ⟨hdigits, hz, hrest⟩ := h
  have hbody : t.dropWhile isSpace ≠ [] := by
    rintro hnil
    simp [hnil] at hdigits
  have hhead : (t.dropWhile isSpace ++ c :: more).head? = (t.dropWhile isSpace).head? :=
    List.head?_append_of_ne_nil _ hbody
  have htail : (t.dropWhile isSpace ++ c :: more).tail = (t.dropWhile isSpace).tail ++ c :: more :=
    List.tail_append_of_ne_nil hbody
  simp only [number, dropWhile_append_of_ne hbody, hhead, htail]
  generalize t.dropWhile isSpace = body at hdigits hz hrest hbody
  have hunsigned : (if body.head? = some minus ∨ body.head? = some plus then body.tail ++ c :: more
      else body ++ c :: more) = (if body.head? = some minus ∨ body.head? = some plus then body.tail
      else body) ++ c :: more := by
    split_ifs <;> rfl
  rw [hunsigned]
  generalize (if body.head? = some minus ∨ body.head? = some plus then body.tail else body) =
    unsigned at hdigits hz hrest
  have hall : ∀ d ∈ unsigned, isDigit d = true := List.dropWhile_eq_nil_iff.mp hrest
  have htake : (unsigned ++ c :: more).takeWhile isDigit = unsigned.takeWhile isDigit := by
    rw [List.takeWhile_append_of_pos hall, List.takeWhile_cons_of_neg (by simp [hc]), List.append_nil,
      List.takeWhile_eq_self_iff.mpr hall]
  have hdrop : (unsigned ++ c :: more).dropWhile isDigit = c :: more := by
    rw [List.dropWhile_append_of_pos hall, List.dropWhile_cons_of_neg (by simp [hc])]
  rw [htake, hdrop, if_neg hdigits, hz]

end Esp32Shell.Library.Scan
