import DoubleEntry.Transfer.Protocol
set_option autoImplicit false

/-! # Stores that answer at once

On a store that never lets a call wait, a transfer ends when it is run (`Store.run_prompt`), so that
running it gives an outcome (`Store.complete`).
-/

namespace DoubleEntry.Store

variable {σ : Type}

/-- A store on which no call ever has to wait. -/
def Prompt (store : Store σ) : Prop := ∀ c s, (store.perform c s).1.isSome

theorem Prompt.answer {store : Store σ} (h : store.Prompt) (r : Run) (s : σ) :
    (store.answer r s).1.isSome := by
  unfold Store.answer
  split
  · rfl
  · exact h _ _

theorem remaining_pos (stage : Stage) : 0 < stage.remaining := by
  cases stage <;> simp [Stage.remaining]

theorem runFor_prompt {store : Store σ} (h : store.Prompt) (fuel : Nat) (r : Run) (s : σ)
    (enough : r.stage.remaining ≤ fuel) :
    ∃ outcome made, (store.runFor fuel r s).1 = .ended outcome made := by
  induction fuel generalizing r s with
  | zero => exact absurd enough (Nat.not_le.2 (remaining_pos _))
  | succ fuel ih =>
      have answered := h.answer r s
      unfold runFor
      split
      · rename_i heq
        simp [heq] at answered
      · rename_i a s' _
        split
        · rename_i stage hs
          have less := Stage.remaining_resume hs
          exact ih _ _ (Nat.le_of_lt_succ (Nat.lt_of_lt_of_le less enough))
        · exact ⟨_, _, rfl⟩

/-- **A transfer ends when it is run on a store that answers at once.** -/
theorem run_prompt {store : Store σ} (h : store.Prompt) (r : Run) (s : σ) :
    ∃ outcome made, (store.run r s).1 = .ended outcome made :=
  runFor_prompt h _ r s (Nat.le_refl _)

/-- Runs a transfer to its end: its outcome, and the calls that it made. -/
def complete (store : Store σ) (h : store.Prompt) (r : Run) (s : σ) : (Outcome × List Call) × σ :=
  match hr : store.run r s with
  | (.ended outcome made, s) => ((outcome, made), s)
  | (.waiting _, _) => False.elim (by
      obtain ⟨outcome, made, he⟩ := run_prompt h r s
      simp [hr] at he)

theorem run_eq_complete {store : Store σ} (h : store.Prompt) (r : Run) (s : σ) :
    store.run r s =
      (.ended (store.complete h r s).1.1 (store.complete h r s).1.2, (store.complete h r s).2) := by
  unfold complete
  split
  · assumption
  · rename_i hr
    obtain ⟨outcome, made, he⟩ := run_prompt h r s
    simp [hr] at he

end DoubleEntry.Store
