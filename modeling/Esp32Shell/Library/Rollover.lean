import Mathlib.Data.Nat.ModEq

/-!
# Counters that roll over

A 32-bit counter shows unbounded time modulo its period. A stored reading is an
absolute deadline; comparing readings compares residues, which agrees with
comparing the times only inside one period.
-/
namespace Esp32Shell.Library.Rollover

def period : Nat := 2 ^ 32

/-- What the counter shows at a time. -/
def reading (time : Nat) : UInt32 := UInt32.ofNat time

theorem reading_toNat (time : Nat) : (reading time).toNat = time % period := UInt32.toNat_ofNat

theorem reading_add (time delay : Nat) : reading time + reading delay = reading (time + delay) :=
  (UInt32.ofNat_add time delay).symm

/-- `pdMS_TO_TICKS` of FreeRTOS, whose product has 64 bits. -/
def pdMsToTicks (tickRateHz : Nat) (ms : UInt32) : UInt32 := reading (ms.toNat * tickRateHz / 1000)

/-- A tick that is no shorter than a millisecond. -/
theorem pdMsToTicks_toNat {tickRateHz : Nat} (hrate : tickRateHz ≤ 1000) (ms : UInt32) :
    (pdMsToTicks tickRateHz ms).toNat = ms.toNat * tickRateHz / 1000 := by
  have hle : ms.toNat * tickRateHz / 1000 ≤ ms.toNat := by
    refine Nat.div_le_of_le_mul ?_
    rw [Nat.mul_comm 1000]
    exact Nat.mul_le_mul_left _ hrate
  rw [pdMsToTicks, reading_toNat]
  exact Nat.mod_eq_of_lt (hle.trans_lt ms.toNat_lt)

/-- Readings are compared by residue. -/
theorem reading_lt_iff (a b : Nat) : reading a < reading b ↔ a % period < b % period := by
  rw [UInt32.lt_iff_toNat_lt, reading_toNat, reading_toNat]

/-- Inside one period residues are ordered as the times are. -/
theorem residue_lt_iff {a b : Nat} (h : a / period = b / period) : a % period < b % period ↔ a < b := by
  have ha := Nat.div_add_mod a period
  have hb := Nat.div_add_mod b period
  rw [h] at ha
  omega

/-- A difference of readings is the difference of the times, modulo the period. -/
theorem reading_sub_toNat (a b : Nat) : (reading a - reading b).toNat = (period - b % period + a) % period := by
  rw [UInt32.toNat_sub, reading_toNat, reading_toNat]
  exact Nat.add_mod_mod _ _ _

theorem age_of_le {a b : Nat} (h : b ≤ a) : (reading a - reading b).toNat = (a - b) % period := by
  have hb := Nat.div_add_mod b period
  have hlt := Nat.mod_lt b (show 0 < period by decide)
  rw [reading_sub_toNat, ← Nat.add_mul_mod_self_left (a - b) period (b / period + 1)]
  congr 1
  rw [Nat.mul_add, Nat.mul_one]
  omega

/-- What is younger than the reading that it is compared with seems to be old. -/
theorem age_of_lt {a b : Nat} (h : a < b) :
    (reading a - reading b).toNat = (period - (b - a) % period) % period := by
  have hb := Nat.div_add_mod b period
  have hd := Nat.div_add_mod (b - a) period
  have hlt := Nat.mod_lt b (show 0 < period by decide)
  have hlt' := Nat.mod_lt (b - a) (show 0 < period by decide)
  have hleft : period - b % period + a + (b - a) = period * (b / period + 1) := by
    rw [Nat.mul_add, Nat.mul_one]
    omega
  have hright : period - (b - a) % period + (b - a) = period * ((b - a) / period + 1) := by
    rw [Nat.mul_add, Nat.mul_one]
    omega
  rw [reading_sub_toNat]
  refine Nat.ModEq.add_right_cancel' (b - a) ?_
  rw [hleft, hright]
  exact (Nat.modEq_zero_iff_dvd.mpr ⟨_, rfl⟩).trans (Nat.modEq_zero_iff_dvd.mpr ⟨_, rfl⟩).symm

/-- An age that is computed from an old sample exceeds a limit without need only where the time was
stored behind the sample. -/
theorem limit_lt_age_iff {sample stored time limit : Nat} (hsample : sample ≤ time)
    (hlimit : limit < period) :
    (limit < (reading sample - reading stored).toNat → stored + limit < time) ↔
      ¬ (sample < stored ∧ time ≤ stored + limit ∧ 0 < (stored - sample) % period ∧
        (stored - sample) % period + limit < period) := by
  have hlt := Nat.mod_lt (stored - sample) (show 0 < period by decide)
  by_cases hlater : sample < stored
  · rw [age_of_lt hlater]
    by_cases hzero : (stored - sample) % period = 0
    · rw [hzero, Nat.sub_zero, Nat.mod_self]
      exact iff_of_true (fun h => absurd h (Nat.not_lt_zero _)) fun h => absurd h.2.2.1 (Nat.lt_irrefl 0)
    · rw [Nat.mod_eq_of_lt (by omega)]
      constructor
      · intro h hcase
        have hold := h (by omega)
        omega
      · intro h hage
        by_contra hyoung
        exact h ⟨hlater, by omega, by omega, by omega⟩
  · refine iff_of_true (fun hage => ?_) fun h => hlater h.1
    rw [age_of_le (by omega)] at hage
    have hmod := Nat.mod_le (sample - stored) period
    omega

end Esp32Shell.Library.Rollover
