import DoubleEntry.Proofs.Journal
import DoubleEntry.Proofs.Replay
set_option autoImplicit false

/-! # Serializability

However units of work, transfers and statements about single accounts are interleaved, what is
committed is what they would have left behind one after another, in the order in which they took
effect. The journal of a run says what this order is and what was done; replaying it on a bank at
which nothing else goes on succeeds, gives every answer again, and leads to the same ledger.
-/

namespace DoubleEntry

/-- **Every run is serializable.** The effects that took place can be replayed one after another
from a bank without accounts, each operation under the number and with the answer that it had, and
what is then committed is what the run has committed. -/
theorem History.replay_run (nonNegative : Bool) (es : List Event) (o : Owner) :
    ∃ b, (Bank.empty nonNegative).replay o (run nonNegative es).journal.effects = some b ∧
      b.ledger = ((Desk.opening nonNegative).afterAll es).bank.ledger := by
  have hsound := sound_run nonNegative es
  obtain ⟨b, hreplay, hledger⟩ := (Bank.quiet_empty nonNegative).replay o hsound.allowed
  refine ⟨b, hreplay, ?_⟩
  rw [← desk_run, hsound.ledger]
  exact hledger

end DoubleEntry
