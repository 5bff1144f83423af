import Esp32Shell.Library.Feed

/-!
# Registers written and cleared by events

A register holds the value of its last write unless a later event clears it. A
latch sees the writes alone; it agrees with the register exactly when every
clear of something written is followed by another write.
-/
namespace Esp32Shell.Library.Register

open Feed

variable {ι β : Type} (written : ι → Option β) (cleared : ι → Bool)

def registerStep (held : Option β) (e : ι) : Option β :=
  match written e with
  | some value => some value
  | none => if cleared e then none else held

/-- The last write, unless it is cleared since. -/
def register (events : List ι) : Option β := events.foldl (registerStep written cleared) none

/-- The last write. -/
def latch (events : List ι) : Option β := events.foldl (fun held e => (written e).or held) none

theorem register_snoc (events : List ι) (e : ι) : register written cleared (events ++ [e]) =
    registerStep written cleared (register written cleared events) e := by
  simp [register]

theorem latch_snoc (events : List ι) (e : ι) :
    latch written (events ++ [e]) = (written e).or (latch written events) := by
  simp [latch]

theorem foldl_or (events : List ι) (held : Option β) :
    events.foldl (fun held e => (written e).or held) held = (latch written events).or held := by
  induction events using List.reverseRecOn with
  | nil => rfl
  | append_singleton events e ih =>
    rw [latch_snoc, List.foldl_append, List.foldl_cons, List.foldl_nil, ih, Option.or_assoc]

theorem latch_cons (e : ι) (events : List ι) :
    latch written (e :: events) = (latch written events).or (written e) := by
  rw [latch, List.foldl_cons, Option.or_none, foldl_or]

theorem latch_eq_none_iff (events : List ι) :
    latch written events = none ↔ ∀ e ∈ events, written e = none := by
  induction events using List.reverseRecOn with
  | nil => simp [latch]
  | append_singleton events e ih =>
    rw [latch_snoc, Option.or_eq_none_iff, ih]
    constructor
    · rintro ⟨he, hall⟩ x hx
      rcases List.mem_append.mp hx with hx | hx
      · exact hall x hx
      · rw [List.mem_singleton.mp hx, he]
    · intro hall
      exact ⟨hall e (by simp), fun x hx => hall x (by simp [hx])⟩

theorem latch_append (events more : List ι) :
    latch written (events ++ more) = (latch written more).or (latch written events) := by
  rw [latch, List.foldl_append, ← latch, foldl_or]

/-- The last write cuts the history, with no write behind it. -/
theorem latch_eq_some_iff (events : List ι) (value : β) : latch written events = some value ↔
    ∃ before e after, events = before ++ e :: after ∧ written e = some value ∧
      ∀ x ∈ after, written x = none := by
  constructor
  · intro h
    induction events using List.reverseRecOn with
    | nil => cases h
    | append_singleton events e ih =>
      rw [latch_snoc] at h
      cases he : written e with
      | some v =>
        rw [he, Option.some_or] at h
        exact ⟨events, e, [], rfl, he.trans h, by simp⟩
      | none =>
        rw [he, Option.none_or] at h
        obtain ⟨before, x, after, rfl, hx, hafter⟩ := ih h
        refine ⟨before, x, after ++ [e], by simp, hx, fun y hy => ?_⟩
        rcases List.mem_append.mp hy with hy | hy
        · exact hafter y hy
        · rw [List.mem_singleton.mp hy, he]
  · intro h
    obtain ⟨before, e, after, rfl, he, hafter⟩ := h
    rw [latch_append, latch_cons, (latch_eq_none_iff written after).mpr hafter, he]
    rfl

/-- Every clear of something written is followed by another write. -/
def Rewritten (events : List ι) : Prop :=
  ∀ before e after, events = before ++ e :: after → cleared e = true →
    (∃ x ∈ before, written x ≠ none) → ∃ x ∈ after, written x ≠ none

variable {written cleared}

/-- What is latched was written. -/
theorem exists_of_latch_eq_some {events : List ι} {value : β} (h : latch written events = some value) :
    ∃ e ∈ events, written e = some value := by
  induction events using List.reverseRecOn with
  | nil => cases h
  | append_singleton events e ih =>
    rw [latch_snoc] at h
    cases he : written e with
    | some v =>
      rw [he, Option.some_or] at h
      exact ⟨e, by simp, by rw [he, h]⟩
    | none =>
      rw [he, Option.none_or] at h
      obtain ⟨x, hx, hv⟩ := ih h
      exact ⟨x, List.mem_append_left _ hx, hv⟩

/-- What is held was written. -/
theorem exists_of_register_eq_some {events : List ι} {value : β}
    (h : register written cleared events = some value) : ∃ e ∈ events, written e = some value := by
  induction events using List.reverseRecOn with
  | nil => cases h
  | append_singleton events e ih =>
    rw [register_snoc, registerStep] at h
    cases he : written e with
    | some v =>
      simp only [he] at h
      exact ⟨e, by simp, he.trans h⟩
    | none =>
      simp only [he] at h
      cases hc : cleared e with
      | true =>
        rw [hc, if_pos rfl] at h
        cases h
      | false =>
        rw [hc, if_neg Bool.false_ne_true] at h
        obtain ⟨x, hx, hv⟩ := ih h
        exact ⟨x, List.mem_append_left _ hx, hv⟩

theorem rewritten_snoc_of_written {events : List ι} {e : ι} (he : written e ≠ none)
    (hx : ∀ x, cleared x = true → written x = none) : Rewritten written cleared (events ++ [e]) := by
  intro before c after hsplit hc _
  rcases snoc_cut hsplit with ⟨-, -, rfl⟩ | ⟨rest, rfl, -⟩
  · exact absurd (hx e hc) he
  · exact ⟨e, by simp, he⟩

theorem rewritten_snoc_of_silent {events : List ι} {e : ι} (he : written e = none)
    (hc : cleared e = false) :
    Rewritten written cleared (events ++ [e]) ↔ Rewritten written cleared events := by
  constructor
  · intro h before c after hsplit hcc hwrite
    obtain ⟨x, hx, hxw⟩ := h before c (after ++ [e]) (by rw [hsplit]; simp) hcc hwrite
    rcases List.mem_append.mp hx with hx | hx
    · exact ⟨x, hx, hxw⟩
    · rw [List.mem_singleton.mp hx] at hxw
      exact absurd he hxw
  · intro h before c after hsplit hcc hwrite
    rcases snoc_cut hsplit with ⟨-, -, rfl⟩ | ⟨rest, rfl, hevents⟩
    · rw [hc] at hcc
      cases hcc
    · obtain ⟨x, hx, hxw⟩ := h before c rest hevents hcc hwrite
      exact ⟨x, by simp [hx], hxw⟩

theorem rewritten_snoc_of_cleared {events : List ι} {e : ι} (hc : cleared e = true) :
    Rewritten written cleared (events ++ [e]) ↔ ∀ x ∈ events, written x = none := by
  constructor
  · intro h x hx
    by_contra hw
    obtain ⟨y, hy, -⟩ := h events e [] rfl hc ⟨x, hx, hw⟩
    cases hy
  · intro h before c after hsplit _ hwrite
    obtain ⟨x, hx, hxw⟩ := hwrite
    have hmem : x ∈ events := by
      rcases snoc_cut hsplit with ⟨-, rfl, -⟩ | ⟨rest, -, rfl⟩
      · exact hx
      · exact List.mem_append_left _ hx
    exact absurd (h x hmem) hxw

/-- A latch that ignores the clears agrees with the register exactly on rewritten histories. -/
theorem latch_eq_register_iff (hx : ∀ x, cleared x = true → written x = none) (events : List ι) :
    latch written events = register written cleared events ↔ Rewritten written cleared events := by
  induction events using List.reverseRecOn with
  | nil => exact iff_of_true rfl fun before e after h => by simp at h
  | append_singleton events e ih =>
    rw [latch_snoc, register_snoc, registerStep]
    cases he : written e with
    | some value => exact iff_of_true rfl (rewritten_snoc_of_written (by simp [he]) hx)
    | none =>
      rw [Option.none_or]
      cases hc : cleared e with
      | true => rw [rewritten_snoc_of_cleared hc, ← latch_eq_none_iff]; rfl
      | false => rw [rewritten_snoc_of_silent he hc, ← ih]; rfl

end Esp32Shell.Library.Register
