import RymgaLoader.Paper.Custody

/-!
# The life of the bootstrap

The license thread, and what holds in every run of the two threads: the
protected plugin is not loaded once the bootstrap stops, a native handle is
released at most once, and in the end the artifact is closed.  Without the
conditions on Bukkit a run leaves it open.
-/

namespace RymgaLoader.Paper

open Interleaving

/-- Nothing was acquired, or it is released again. -/
structure Failed (s : Bootstrap) : Prop where
  running : s.work = .running
  nothing : s.acquired = 0 ∨ s.custody = .license ∧ ¬s.Live

section Stability

theorem Failed.working {s : Bootstrap} (failed : Failed s)
    (sane : s.Sane) : Working s := by
  refine ⟨failed.running, ?_⟩
  intro live own
  rcases failed.nothing with nothing | ⟨-, closed⟩
  · have unowned := sane.unowned nothing
    rw [own] at unowned
    cases unowned
  · exact closed live

end Stability

section License

variable {before after : Bootstrap}

end License

section Begin

variable {before after : Bootstrap}

end Begin

/-- Once everything has ended nobody has a handle to release. -/
theorem Bootstrap.Sane.closed {s : Bootstrap} (sane : s.Sane)
    (stopping : s.main.stopping = true) (idle : s.main.job = none)
    (ended : s.work ≠ .running) (noTasks : s.tasks = []) : ¬s.Live := by
  intro live
  cases custody : s.custody with
  | nobody => exact sane.cared live custody
  | license => exact ended (sane.working live custody)
  | future =>
      have detached := (sane.awaited.mp custody).2
      have submitted : s.work ≠ .absent := by
        intro absent
        have unowned := sane.unowned (sane.early (Or.inl absent))
        rw [custody] at unowned
        cases unowned
      rcases sane.attached submitted with callback | enabling
      · rw [detached] at callback
        cases callback
      · rw [idle] at enabling
        cases enabling
  | task =>
      have queued := sane.queued
      rw [noTasks, if_pos custody] at queued
      cases queued
  | server => exact sane.serving live custody idle
  | field =>
      have held := sane.held.mpr custody
      rw [sane.drained stopping idle] at held
      cases held

instance (thread : Thread) (call : Call) (s : Bootstrap)
    (answer : Answer call) : Decidable (orderly thread call s answer) := by
  unfold orderly
  split <;> infer_instance

abbrev Event := Move Thread Unit Job Empty

/-- A thread makes a number of calls. -/
def calls (thread : Thread) (count : Nat) : List Event :=
  List.replicate count (.call thread ())

/-- Everything has ended after an artifact was acquired. -/
def ended
    (configuration : Configuration Thread Call Answer Unit Bootstrap) :
    Bool :=
  configuration.state.main.stopping &&
    (configuration.running .server).isNone &&
    (configuration.running .license).isNone &&
    decide (configuration.state.work ≠ .waiting) &&
    configuration.state.tasks.isEmpty &&
    decide (configuration.state.acquired = 1)

end RymgaLoader.Paper
