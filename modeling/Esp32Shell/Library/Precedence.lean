import Mathlib.Data.List.Induction

/-!
# Precedence in logs

A log is guarded when every entry is justified by the entries before it.
-/
namespace Esp32Shell.Library.Precedence

variable {ω : Type} {ok : List ω → ω → Prop}

def Guarded (ok : List ω → ω → Prop) (log : List ω) : Prop :=
  ∀ before e after, log = before ++ e :: after → ok before e

theorem guarded_nil : Guarded ok [] := by
  intro before e after h
  simp at h

/-- More entries are justified one by one, each by the log and what is added before it. -/
theorem Guarded.append {log more : List ω} (h : Guarded ok log)
    (hmore : ∀ before e after, more = before ++ e :: after → ok (log ++ before) e) :
    Guarded ok (log ++ more) := by
  intro before e after hcut
  rcases List.append_eq_append_iff.mp hcut with ⟨rest, hbefore, hrest⟩ | ⟨rest, hlog, hrest⟩
  · rw [hbefore]
    exact hmore rest e after hrest
  · cases rest with
    | nil =>
      rw [List.append_nil] at hlog
      rw [← hlog, ← List.append_nil log]
      exact hmore [] e after hrest.symm
    | cons e' rest =>
      obtain ⟨rfl, -⟩ := List.cons_eq_cons.mp hrest
      exact h before e rest hlog

theorem Guarded.snoc {log : List ω} (h : Guarded ok log) {e : ω} (he : ok log e) :
    Guarded ok (log ++ [e]) := by
  refine h.append fun before e' after hmore => ?_
  cases before with
  | nil =>
    obtain ⟨rfl, -⟩ := List.cons_eq_cons.mp hmore
    rwa [List.append_nil]
  | cons e'' before => simp at hmore

/-- Entries that need no justification. -/
theorem Guarded.free {log more : List ω} (h : Guarded ok log)
    (hfree : ∀ e ∈ more, ∀ before, ok before e) : Guarded ok (log ++ more) :=
  h.append fun before e after hmore => hfree e (by simp [hmore]) _

/-- A justification that survives what is added covers all of it. -/
theorem Guarded.covered {log more : List ω} (h : Guarded ok log)
    (hcover : ∀ before, before <+: more → ∀ e ∈ more, ok (log ++ before) e) : Guarded ok (log ++ more) :=
  h.append fun before e after hmore => hcover before ⟨_, hmore.symm⟩ e (by simp [hmore])

end Esp32Shell.Library.Precedence
