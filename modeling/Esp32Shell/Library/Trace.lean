import Esp32Shell.Library.Feed
import Mathlib.Data.List.Induction

/-!
# Logged machines

A machine logs when every step appends to its log the mark of its input and
then entries that mark no input. The log of a run can be cut at any mark, and
the run with it: every other entry is the answer to the last mark before it.
-/
namespace Esp32Shell.Library.Trace

open Feed

variable {σ ι ε ω : Type}

structure Logs (step : σ → ι → Except ε σ) (log : Except ε σ → List ω) (read : ω → Option ι) :
    Prop where
  step_log : ∀ s x, ∃ m out, log (step s x) = log (.ok s) ++ m :: out ∧ read m = some x ∧
    ∀ o ∈ out, read o = none

variable {step : σ → ι → Except ε σ} {log : Except ε σ → List ω} {read : ω → Option ι}

theorem Logs.step_grows (h : Logs step log read) (s : σ) (x : ι) : log (.ok s) <+: log (step s x) := by
  obtain ⟨m, out, hl, -, -⟩ := h.step_log s x
  exact ⟨m :: out, hl.symm⟩

theorem Logs.step_grows_feed (h : Logs step log read) (s : σ) (x : ι) (xs : List ι) :
    log (step s x) <+: log (feed step s (x :: xs)) := by
  induction xs generalizing s x with
  | nil => simp only [feed_singleton, List.prefix_refl]
  | cons y xs ih =>
    cases hx : step s x with
    | error e => simp only [feed_cons_error _ hx, List.prefix_refl]
    | ok s' =>
      rw [feed_cons_ok _ hx]
      exact (h.step_grows s' y).trans (ih s' y)

theorem Logs.feed_grows (h : Logs step log read) (s : σ) (xs : List ι) :
    log (.ok s) <+: log (feed step s xs) := by
  cases xs with
  | nil => exact List.prefix_refl _
  | cons x xs => exact (h.step_grows s x).trans (h.step_grows_feed s x xs)

/-- The marks of a log are the inputs. -/
theorem Logs.inputs (h : Logs step log read) {s s' : σ} {xs : List ι}
    (hfeed : feed step s xs = .ok s') :
    (log (.ok s')).filterMap read = (log (.ok s)).filterMap read ++ xs := by
  induction xs generalizing s with
  | nil =>
    cases hfeed
    rw [List.append_nil]
  | cons x xs ih =>
    obtain ⟨m, out, hl, hm, hout⟩ := h.step_log s x
    cases hx : step s x with
    | error e =>
      rw [feed_cons_error _ hx] at hfeed
      cases hfeed
    | ok s₁ =>
      rw [feed_cons_ok _ hx] at hfeed
      rw [hx] at hl
      have hsilent : out.filterMap read = [] := List.filterMap_eq_nil_iff.mpr hout
      rw [ih hfeed, hl, List.filterMap_append, List.filterMap_cons_some hm, hsilent]
      simp

/-- What is logged next starts with a mark. -/
theorem Logs.next (h : Logs step log read) {s : σ} {xs : List ι} {tail : List ω}
    (hlog : log (feed step s xs) = log (.ok s) ++ tail) : ∀ t ∈ tail.head?, read t ≠ none := by
  cases xs with
  | nil =>
    have htail : tail = [] := List.append_right_eq_self.mp hlog.symm
    simp [htail]
  | cons x xs =>
    obtain ⟨m, out, hl, hm, -⟩ := h.step_log s x
    obtain ⟨more, hmore⟩ := h.step_grows_feed s x xs
    rw [hl, hlog, List.append_assoc, List.append_cancel_left_eq] at hmore
    rw [← hmore]
    simp [hm]

/-- An element that is not among the first outputs stands behind them. -/
theorem length_le_of_notMem {out tail mid rest : List ω} {m : ω}
    (hcut : out ++ tail = mid ++ m :: rest) (hm : m ∉ out) : out.length ≤ mid.length := by
  by_contra hlt
  have hget : (out ++ tail)[mid.length]? = some m := by
    rw [hcut]
    simp
  rw [List.getElem?_append_left (by omega)] at hget
  exact hm (List.mem_of_getElem? hget)

/-- A log cut at a mark: the run up to the input, and the answer to the input. -/
theorem Logs.cut (h : Logs step log read) {xs : List ι} {s : σ} {before rest : List ω} {m : ω} {x : ι}
    (hlog : log (feed step s xs) = before ++ m :: rest) (hm : read m = some x)
    (hlen : (log (.ok s)).length ≤ before.length) :
    ∃ pre post s' out tail, xs = pre ++ x :: post ∧ feed step s pre = .ok s' ∧
      log (.ok s') = before ∧ log (step s' x) = before ++ m :: out ∧ rest = out ++ tail ∧
      ∀ t ∈ tail.head?, read t ≠ none := by
  induction xs generalizing s with
  | nil =>
    have := congrArg List.length hlog
    rw [feed_nil, List.length_append, List.length_cons] at this
    omega
  | cons y xs ih =>
    obtain ⟨m', out, hl, hm', hout⟩ := h.step_log s y
    obtain ⟨tail, htail⟩ := h.step_grows_feed s y xs
    have hall : log (.ok s) ++ m' :: (out ++ tail) = before ++ m :: rest := by
      rw [← hlog, ← htail, hl]
      simp
    obtain ⟨mid, hbefore⟩ : ∃ mid, before = log (.ok s) ++ mid :=
      (List.prefix_of_prefix_length_le ⟨_, hall⟩ (List.prefix_append _ _) hlen).imp fun _ => Eq.symm
    rw [hbefore, List.append_assoc, List.append_cancel_left_eq] at hall
    cases mid with
    | nil =>
      -- the first mark of this run is the one the log is cut at
      obtain ⟨rfl, hrest⟩ := List.cons_eq_cons.mp hall
      obtain rfl : y = x := Option.some_inj.mp (hm'.symm.trans hm)
      rw [List.append_nil] at hbefore
      refine ⟨[], xs, s, out, tail, rfl, rfl, hbefore.symm, hbefore ▸ hl, hrest.symm, ?_⟩
      cases hy : step s y with
      | ok s₁ =>
        rw [feed_cons_ok _ hy, hy] at htail
        exact h.next htail.symm
      | error e =>
        rw [feed_cons_error _ hy, hy] at htail
        have hnil : tail = [] := List.append_right_eq_self.mp htail
        simp [hnil]
    | cons m₁ mid =>
      obtain ⟨rfl, hcut⟩ : m' = m₁ ∧ out ++ tail = mid ++ m :: rest := List.cons_eq_cons.mp hall
      have hlate : out.length ≤ mid.length := by
        apply length_le_of_notMem hcut
        intro hin
        rw [hout m hin] at hm
        cases hm
      cases hy : step s y with
      | ok s₁ =>
        rw [hy] at hl
        rw [feed_cons_ok _ hy] at hlog
        have hlen' : (log (.ok s₁)).length ≤ before.length := by
          rw [hl, hbefore]
          simp only [List.length_append, List.length_cons]
          omega
        obtain ⟨pre, post, s', out', tail', hxs, hpre, hs', hstep, hrest, hhead⟩ := ih hlog hlen'
        refine ⟨y :: pre, post, s', out', tail', by rw [hxs]; rfl, ?_, hs', hstep, hrest, hhead⟩
        rw [feed_cons_ok _ hy, hpre]
      | error e =>
        rw [feed_cons_error _ hy, hy] at htail
        have hnil : tail = [] := List.append_right_eq_self.mp htail
        have := congrArg List.length hcut
        rw [hnil, List.append_nil, List.length_append, List.length_cons] at this
        omega

/-- The last mark before the end of a list that has one. -/
theorem exists_last_mark {u : List ω} (h : ∃ m ∈ u, read m ≠ none) :
    ∃ front m silent, u = front ++ m :: silent ∧ read m ≠ none ∧ ∀ o ∈ silent, read o = none := by
  induction u using List.reverseRecOn with
  | nil =>
    obtain ⟨m, hm, -⟩ := h
    cases hm
  | append_singleton u z ih =>
    by_cases hz : read z = none
    · obtain ⟨m, hm, hr⟩ := h
      have hu : m ∈ u := by
        rcases List.mem_append.mp hm with hu | hu
        · exact hu
        · obtain rfl := List.mem_singleton.mp hu
          exact absurd hz hr
      obtain ⟨front, m', silent, rfl, hm', hs⟩ := ih ⟨m, hu, hr⟩
      refine ⟨front, m', silent ++ [z], by simp, hm', fun o ho => ?_⟩
      rcases List.mem_append.mp ho with ho | ho
      · exact hs o ho
      · rw [List.mem_singleton.mp ho]
        exact hz
    · exact ⟨u, z, [], rfl, hz, by simp⟩

/-- A mark stands behind an initial log that has none. -/
theorem Logs.length_le (h : Logs step log read) {xs : List ι} {s : σ} {before rest : List ω} {m : ω}
    (hlog : log (feed step s xs) = before ++ m :: rest) (hm : read m ≠ none)
    (hs : ∀ o ∈ log (.ok s), read o = none) : (log (.ok s)).length ≤ before.length := by
  by_contra hlt
  obtain ⟨tail, htail⟩ := h.feed_grows s xs
  have hget : (log (.ok s) ++ tail)[before.length]? = some m := by
    rw [htail, hlog]
    simp
  rw [List.getElem?_append_left (by omega)] at hget
  exact hm (hs m (List.mem_of_getElem? hget))

/-- An entry that is no mark, and has one before it, is in the answer to the last of them. -/
theorem Logs.answer (h : Logs step log read) {xs : List ι} {s : σ} {before silent after : List ω}
    {m c : ω} {x : ι} (hlog : log (feed step s xs) = before ++ m :: (silent ++ c :: after))
    (hm : read m = some x) (hsilent : ∀ o ∈ silent, read o = none) (hc : read c = none)
    (hlen : (log (.ok s)).length ≤ before.length) :
    ∃ pre post s' out, xs = pre ++ x :: post ∧ feed step s pre = .ok s' ∧
      log (.ok s') = before ∧ log (step s' x) = before ++ m :: out ∧ c ∈ out := by
  obtain ⟨pre, post, s', out, tail, hxs, hpre, hs', hstep, hrest, hhead⟩ := h.cut hlog hm hlen
  refine ⟨pre, post, s', out, hxs, hpre, hs', hstep, ?_⟩
  have hquiet : ∀ o ∈ silent ++ [c], read o = none := fun o ho => by
    rcases List.mem_append.mp ho with ho | ho
    · exact hsilent o ho
    · rw [List.mem_singleton.mp ho]
      exact hc
  have hsplit : (silent ++ [c]) ++ after = out ++ tail := by rw [← hrest]; simp
  rcases List.append_eq_append_iff.mp hsplit with ⟨more, hout, -⟩ | ⟨more, hfront, htail⟩
  · simp [hout]
  · cases more with
    | nil =>
      rw [List.append_nil] at hfront
      simp [← hfront]
    | cons t more =>
      have ht : read t = none := hquiet t (by rw [hfront]; simp)
      exact absurd ht (hhead t (by rw [htail]; rfl))

end Esp32Shell.Library.Trace
