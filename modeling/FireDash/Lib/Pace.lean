import Mathlib.Data.List.Basic
import Mathlib.Data.Nat.Notation

/-! Rate limits that count the events of the last window when one is admitted: no window, wherever
it lies, holds more events than the limit. -/
namespace FireDash

/-- Each event was admitted with fewer than `limit` events in the window before it. -/
inductive Paced (window limit : ℕ) : List ℕ → Prop
  | nil : Paced window limit []
  | admitted {times : List ℕ} {now : ℕ} (h : Paced window limit times)
    (hcount : times.countP (fun t => now < t + window) < limit) : Paced window limit (times ++ [now])

namespace Paced

variable {window limit : ℕ} {times : List ℕ}

/-- A range of moments closer than the window to each of its later ones holds no more than `limit`. -/
theorem countP_le (h : Paced window limit times) {p : ℕ → Bool}
    (hp : ∀ t now, p t = true → p now = true → now < t + window) : times.countP p ≤ limit := by
  induction h with
  | nil => exact Nat.zero_le _
  | @admitted times now _ hcount ih =>
    rw [List.countP_append, List.countP_singleton]
    by_cases hnow : p now = true
    · have hle : times.countP p ≤ times.countP fun t => now < t + window := by
        refine List.countP_mono_left fun t _ ht => ?_
        exact decide_eq_true (hp t now ht hnow)
      rw [if_pos hnow]
      omega
    · rw [if_neg hnow]
      exact ih

theorem countP_from (h : Paced window limit times) (start : ℕ) :
    times.countP (fun t => start ≤ t ∧ t < start + window) ≤ limit := by
  refine h.countP_le fun t now ht hnow => ?_
  simp only [decide_eq_true_eq] at ht hnow
  omega

theorem countP_after (h : Paced window limit times) (start : ℕ) :
    times.countP (fun t => start < t ∧ t ≤ start + window) ≤ limit := by
  refine h.countP_le fun t now ht hnow => ?_
  simp only [decide_eq_true_eq] at ht hnow
  omega

end Paced
end FireDash
