import Esp32Shell.Library.CText

/-!
# Hexadecimal text

A text spells bytes with two digits for each, of either case; decoding finds the
bytes of exactly the texts that spell some.
-/
namespace Esp32Shell.Library.Hex

open Esp32Shell.Library.CText

def nibble (c : UInt8) : Option UInt8 :=
  if 48 ≤ c ∧ c ≤ 57 then some (c - 48)
  else if 97 ≤ c ∧ c ≤ 102 then some (c - 97 + 10)
  else if 65 ≤ c ∧ c ≤ 70 then some (c - 65 + 10)
  else none

/-- The bytes of a text of hexadecimal digit pairs. -/
def decodePairs : Text → Option (List UInt8)
  | [] => some []
  | [_] => none
  | high :: low :: rest => do
    let h ← nibble high
    let l ← nibble low
    let bytes ← decodePairs rest
    return ((h <<< 4) ||| l) :: bytes

theorem decodePairs_length {t : Text} {bytes : List UInt8} (h : decodePairs t = some bytes) :
    t.length = 2 * bytes.length := by
  induction t using decodePairs.induct generalizing bytes with
  | case1 =>
    cases h
    rfl
  | case2 => cases h
  | case3 high low rest ih =>
    simp only [decodePairs, bind, pure, Option.bind_eq_some_iff] at h
    obtain ⟨hi, -, lo, -, more, hmore, hbytes⟩ := h
    have hrest := ih hmore
    rw [← Option.some_inj.mp hbytes, List.length_cons, List.length_cons, List.length_cons]
    omega

/-- A digit of this value, of either case. -/
def IsDigit (c : UInt8) (value : Nat) : Prop :=
  (lit "0123456789abcdef")[value]? = some c ∨ (lit "0123456789ABCDEF")[value]? = some c

instance (c : UInt8) (value : Nat) : Decidable (IsDigit c value) := inferInstanceAs (Decidable (_ ∨ _))

/-- The text has two digits for each of the bytes, the high one first. -/
inductive Spells : Text → List UInt8 → Prop where
  | nil : Spells [] []
  | cons {high low b : UInt8} {text : Text} {bytes : List UInt8} (hhigh : IsDigit high (b.toNat / 16))
      (hlow : IsDigit low (b.toNat % 16)) (hrest : Spells text bytes) :
      Spells (high :: low :: text) (b :: bytes)

/-! ### One byte -/

theorem digit_lt {c : UInt8} {value : Nat} (h : IsDigit c value) : value < 16 := by
  rcases h with h | h
  · exact (List.getElem?_eq_some_iff.mp h).1
  · exact (List.getElem?_eq_some_iff.mp h).1

theorem digit_of_nibble {c n : UInt8} (h : nibble c = some n) : IsDigit c n.toNat := by
  have hall : ∀ i : Fin 256, ∀ n ∈ nibble (UInt8.ofFin i), IsDigit (UInt8.ofFin i) n.toNat := by
    decide +kernel
  exact hall c.toFin n h

theorem nibble_of_digit {c : UInt8} {value : Nat} (h : IsDigit c value) :
    nibble c = some (UInt8.ofNat value) := by
  have hall : ∀ i < 16, ∀ c, IsDigit c i → nibble c = some (UInt8.ofNat i) := by
    have hsome : ∀ i < 16, ∀ c ∈ (lit "0123456789abcdef")[i]?.toList ++ (lit "0123456789ABCDEF")[i]?.toList,
        nibble c = some (UInt8.ofNat i) := by decide +kernel
    intro i hi c hc
    refine hsome i hi c ?_
    rw [List.mem_append, Option.mem_toList, Option.mem_toList]
    exact hc
  exact hall value (digit_lt h) c h

/-- A byte is put together from its halves. -/
theorem join_halves (b : UInt8) : (UInt8.ofNat (b.toNat / 16) <<< 4) ||| UInt8.ofNat (b.toNat % 16) = b := by
  have hall : ∀ i : Fin 256, (UInt8.ofNat ((UInt8.ofFin i).toNat / 16) <<< 4) |||
      UInt8.ofNat ((UInt8.ofFin i).toNat % 16) = UInt8.ofFin i := by decide +kernel
  exact hall b.toFin

theorem halves_join {h l : UInt8} (hh : h.toNat < 16) (hl : l.toNat < 16) :
    ((h <<< 4) ||| l).toNat / 16 = h.toNat ∧ ((h <<< 4) ||| l).toNat % 16 = l.toNat := by
  have hall : ∀ i < 16, ∀ j < 16, ((UInt8.ofNat i <<< 4) ||| UInt8.ofNat j).toNat / 16 = i ∧
      ((UInt8.ofNat i <<< 4) ||| UInt8.ofNat j).toNat % 16 = j := by decide +kernel
  have hjoin := hall h.toNat hh l.toNat hl
  rwa [UInt8.ofNat_toNat, UInt8.ofNat_toNat] at hjoin

/-! ### Texts -/

theorem spells_iff {text : Text} {bytes : List UInt8} : Spells text bytes ↔ decodePairs text = some bytes := by
  constructor
  · intro h
    induction h with
    | nil => rfl
    | cons hhigh hlow hrest ih =>
      rw [decodePairs, nibble_of_digit hhigh, nibble_of_digit hlow, ih]
      exact congrArg some (congrArg (· :: _) (join_halves _))
  · intro h
    induction text using decodePairs.induct generalizing bytes with
    | case1 =>
      cases h
      exact .nil
    | case2 => cases h
    | case3 high low rest ih =>
      simp only [decodePairs, bind, pure, Option.bind_eq_some_iff] at h
      obtain ⟨hi, hhi, lo, hlo, more, hmore, hbytes⟩ := h
      obtain rfl := Option.some_inj.mp hbytes
      obtain ⟨hhigh, hlow⟩ := halves_join (digit_lt (digit_of_nibble hhi)) (digit_lt (digit_of_nibble hlo))
      refine .cons ?_ ?_ (ih hmore)
      · rw [hhigh]
        exact digit_of_nibble hhi
      · rw [hlow]
        exact digit_of_nibble hlo

theorem Spells.length {text : Text} {bytes : List UInt8} (h : Spells text bytes) :
    text.length = 2 * bytes.length := decodePairs_length (spells_iff.mp h)

theorem mem_of_digit {c : UInt8} {value : Nat} (h : IsDigit c value) :
    c ∈ lit "0123456789abcdef" ∨ c ∈ lit "0123456789ABCDEF" :=
  h.imp List.mem_of_getElem? List.mem_of_getElem?

/-- What spells bytes has digits only. -/
theorem Spells.digits {text : Text} {bytes : List UInt8} (h : Spells text bytes) :
    ∀ c ∈ text, c ∈ lit "0123456789abcdef" ∨ c ∈ lit "0123456789ABCDEF" := by
  induction h with
  | nil => exact fun c hc => by cases hc
  | cons hhigh hlow hrest ih =>
    intro c hc
    obtain rfl | rfl | hc := by simpa only [List.mem_cons] using hc
    · exact mem_of_digit hhigh
    · exact mem_of_digit hlow
    · exact ih c hc

end Esp32Shell.Library.Hex
