import Mathlib.Data.List.Basic

/-!
# Waiting for a notification

A notifier without memory wakes those who wait for it, and stores nothing for later ones. Who
waits registers first and looks afterwards at what would let it go on; who changes this notifies
afterwards. What a waiter has found since it registered is then still so, as long as no
notification has come and none is owed.

The order matters on both sides, and nothing else does: not how many wait or change something,
and not what else they do.

## Main definitions

* `Notifier.Quiet` — nothing is pending for a registration
* `Notifier.Announces` — no step takes a condition away without a notification
* `Notifier.Established` — a condition that holds as long as nothing is pending

## Main results

* `Notifier.Announces.established` — what has been established lasts
-/

/-- How often the waiters have been notified, and whether somebody is about to notify them. -/
structure Notifier (σ : Type*) where
  /-- How often the waiters have been notified. -/
  calls : σ → ℕ
  /-- Somebody has changed something and has not notified anybody yet. -/
  Owed : σ → Prop

namespace Notifier

variable {σ : Type*} (N : Notifier σ)

/-- Nothing is pending for a registration after `seen` calls. -/
def Quiet (s : σ) (seen : ℕ) : Prop := N.calls s = seen ∧ ¬ N.Owed s

/-- A step that is no notification and owes none finds none owed, and does not take `φ` away. -/
structure Announces (step : σ → σ → Prop) (φ : σ → Prop) : Prop where
  /-- Notifications are not taken back. -/
  calls_le : ∀ {s s'}, step s s' → N.calls s ≤ N.calls s'
  /-- What is owed is paid by a notification. -/
  not_owed : ∀ {s s'}, step s s' → N.calls s' = N.calls s → ¬ N.Owed s' → ¬ N.Owed s
  /-- Without a notification, owed or made, the condition stays. -/
  keeps : ∀ {s s'}, step s s' → N.calls s' = N.calls s → ¬ N.Owed s' → φ s → φ s'

/-- For a registration after `seen` calls, `φ` holds as long as nothing is pending. -/
structure Established (φ : σ → Prop) (s : σ) (seen : ℕ) : Prop where
  /-- The registration is not from the future. -/
  seen_le : seen ≤ N.calls s
  /-- With nothing pending, the condition holds. -/
  of_quiet : N.Quiet s seen → φ s

variable {N} {step : σ → σ → Prop} {φ : σ → Prop} {s s' : σ} {seen : ℕ}

/-- What has been established lasts. -/
theorem Announces.established (h : N.Announces step φ) (hstep : step s s')
    (he : N.Established φ s seen) : N.Established φ s' seen := by
  have hle := h.calls_le hstep
  refine ⟨Nat.le_trans he.seen_le hle, fun hquiet => ?_⟩
  obtain ⟨hcalls, howed⟩ := hquiet
  have hsame : N.calls s' = N.calls s := by
    have hseen := he.seen_le
    omega
  refine h.keeps hstep hsame howed (he.of_quiet ⟨?_, h.not_owed hstep hsame howed⟩)
  rw [← hsame, hcalls]

end Notifier
