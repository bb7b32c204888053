import Mathlib

/-!
# Runs of steps that can fail

Lines are taken in one after the other by a step that can fail, and then the whole run fails.  What
such a run establishes is proved for one step at a time.
-/

namespace Offside

variable {ε α β σ : Type}

lemma bind_eq_ok_iff {x : Except ε α} {f : α → Except ε β} {b : β} :
    x >>= f = .ok b ↔ ∃ a, x = .ok a ∧ f a = .ok b := by
  cases x with
  | error e => simp [bind, Except.bind]
  | ok a => simp [bind, Except.bind]

variable {step : σ → α → Except ε σ} {s s' : σ}

lemma foldlM_append_eq_ok_iff {first second : List α} :
    (first ++ second).foldlM step s = .ok s'
      ↔ ∃ t, first.foldlM step s = .ok t ∧ second.foldlM step t = .ok s' := by
  rw [List.foldlM_append]
  exact bind_eq_ok_iff

lemma foldlM_cons_eq_ok_iff {a : α} {as : List α} :
    (a :: as).foldlM step s = .ok s' ↔ ∃ t, step s a = .ok t ∧ as.foldlM step t = .ok s' := by
  rw [List.foldlM_cons]
  exact bind_eq_ok_iff

/-- What holds before the first line, and is carried on by every line, holds after the last. -/
lemma foldlM_induction {P : List α → σ → Prop} (hstart : P [] s)
    (hstep : ∀ as a t t', P as t → step t a = .ok t' → P (as ++ [a]) t') {as : List α}
    (h : as.foldlM step s = .ok s') : P as s' := by
  induction as using List.reverseRecOn generalizing s' with
  | nil =>
      cases h
      exact hstart
  | append_singleton as a ih =>
      obtain ⟨t, hfirst, hlast⟩ := foldlM_append_eq_ok_iff.1 h
      obtain ⟨t', ha, hnil⟩ := foldlM_cons_eq_ok_iff.1 hlast
      cases hnil
      exact hstep as a t _ (ih hfirst) ha

end Offside
