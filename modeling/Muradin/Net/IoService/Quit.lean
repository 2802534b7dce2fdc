import Muradin.Net.IoService.TaskQueue

/-!
# Quit — which queued tasks the loop still runs when it leaves

`run` tests `m_quit` once a turn, before it waits and swaps.  A `quit()` that comes while the loop
is between that test and its swap is followed by one more batch, which takes everything queued so
far; a `quit()` that comes behind the swap is not, and what is pending by then is never run although
`run_task` documents that it is run later.

`pushed_before_quit_run_iff` gives the exact condition for one call of `quit` in any run.
-/

namespace Muradin
namespace Net

open Lib

/-- The loop has tested `m_quit` in this turn and has not swapped yet. -/
def LoopPc.aheadOfSwap : LoopPc → Bool
  | .waitChannel => true
  | .processWork _ => true
  | .swapPending => true
  | _ => false

namespace IoService

variable {Tid Task : Type} [DecidableEq Tid] {ownerTid : Tid} {s s' : IoService Tid Task}
  {a : Act Tid Task}

/-! ## One step behind `m_quit = true` -/

theorem quit_step (h : s.quit = true) (hs : s.step a = some s') : s'.quit = true := by
  rcases step_eq_some.mp hs with ⟨-, rfl⟩
  cases a with
  | runTask t task =>
      show (s.runTask t task).quit = true
      unfold runTask
      split <;> exact h
  | setQuit t => rfl
  | _ => exact h

/-- Without a swap nothing is taken from the queue. -/
theorem BatchInv.swapped_step_eq (h : s.BatchInv ownerTid) (ha : a ≠ .swapPending)
    (hs : s.step a = some s') : s'.swapped = s.swapped := by
  rcases h.pendingTasks_step hs with hgrown | ⟨-, rfl⟩
  · have hqueued : s'.swapped ++ s'.pendingTasks =
        s.swapped ++ s.pendingTasks ++ pushOf ownerTid a := h.queued_step hs
    rw [hgrown, ← List.append_assoc] at hqueued
    exact List.append_cancel_right (List.append_cancel_right hqueued)
  · exact absurd rfl ha

/-- The turn goes on until the loop swaps. -/
theorem aheadOfSwap_step (h : s.loopPc.aheadOfSwap = true) (ha : a ≠ .swapPending)
    (hs : s.step a = some s') : s'.loopPc.aheadOfSwap = true := by
  rcases step_eq_some.mp hs with ⟨hen, rfl⟩
  cases a with
  | runTask t task =>
      show (s.runTask t task).loopPc.aheadOfSwap = true
      rwa [(runTask_loop s t task).1]
  | setQuit t => exact h
  | wakeMeUp t => exact h
  | testQuit =>
      -- A turn that is ahead of its swap has tested `m_quit` already.
      have hpc : s.loopPc = .testQuit := hen
      simp [hpc, LoopPc.aheadOfSwap] at h
  | pollReturns selfReady => rfl
  | onRead => rfl
  | dispatched => rfl
  | swapPending => exact absurd rfl ha
  | runNext =>
      have hpc : s.loopPc = .nextTask := hen.1
      simp [hpc, LoopPc.aheadOfSwap] at h
  | taskReturns =>
      have hpc : s.loopPc = .inTask := hen.1
      simp [hpc, LoopPc.aheadOfSwap] at h
  | batchDone =>
      have hpc : s.loopPc = .nextTask := hen.1
      simp [hpc, LoopPc.aheadOfSwap] at h

/-- Once `m_quit` is set, a loop that has swapped does not come to a further turn. -/
theorem behindSwap_step (hquit : s.quit = true) (h : s.loopPc.aheadOfSwap = false)
    (hs : s.step a = some s') : s'.loopPc.aheadOfSwap = false ∧ a ≠ .swapPending := by
  rcases step_eq_some.mp hs with ⟨hen, rfl⟩
  cases a with
  | runTask t task =>
      refine ⟨?_, by simp⟩
      show (s.runTask t task).loopPc.aheadOfSwap = false
      rwa [(runTask_loop s t task).1]
  | setQuit t => exact ⟨h, by simp⟩
  | wakeMeUp t => exact ⟨h, by simp⟩
  -- With `m_quit` set the test leaves the loop.
  | testQuit => exact ⟨by simp [next, hquit, LoopPc.aheadOfSwap], by simp⟩
  | pollReturns selfReady =>
      have hpc : s.loopPc = .waitChannel := hen.1
      simp [hpc, LoopPc.aheadOfSwap] at h
  | onRead =>
      have hpc : s.loopPc = .processWork true := hen.1
      simp [hpc, LoopPc.aheadOfSwap] at h
  | dispatched =>
      have hpc : s.loopPc = .processWork false := hen.1
      simp [hpc, LoopPc.aheadOfSwap] at h
  | swapPending =>
      have hpc : s.loopPc = .swapPending := hen
      simp [hpc, LoopPc.aheadOfSwap] at h
  | runNext => exact ⟨rfl, by simp⟩
  | taskReturns => exact ⟨rfl, by simp⟩
  | batchDone => exact ⟨rfl, by simp⟩

/-! ## From `m_quit = true` to the end of `run` -/

variable {as before after : List (Act Tid Task)}

/-- A swap is still to come, or it has taken the tasks `q`. -/
theorem taken_run {q : List (Tid × Task)} (h : s.BatchInv ownerTid)
    (hq : s.loopPc.aheadOfSwap = true ∧ q <+: s.queued ∨ q <+: s.swapped)
    (hrun : Lib.run IoService.step s as = some s') :
    s'.loopPc.aheadOfSwap = true ∧ q <+: s'.queued ∨ q <+: s'.swapped := by
  -- The invariant of the queue is carried along.
  refine (invariant_run (I := fun s => s.BatchInv ownerTid ∧
    (s.loopPc.aheadOfSwap = true ∧ q <+: s.queued ∨ q <+: s.swapped)) ?_ ⟨h, hq⟩ hrun).2
  rintro s a s' ⟨hinv, hq⟩ hs
  refine ⟨hinv.step hs, ?_⟩
  rcases hq with ⟨hahead, hq⟩ | hq
  · have hqueued : q <+: s'.queued := by
      rw [hinv.queued_step hs]
      exact hq.trans (List.prefix_append _ _)
    by_cases ha : a = .swapPending
    · -- The swap takes all that is pending.
      right
      subst ha
      have hempty : s'.pendingTasks = [] := by
        rcases step_eq_some.mp hs with ⟨-, rfl⟩
        rfl
      simpa [queued, swapped, hempty] using hqueued
    · exact Or.inl ⟨aheadOfSwap_step hahead ha hs, hqueued⟩
  · exact Or.inr (hq.trans (hinv.swapped_step hs))

/-- Behind the last swap no batch takes a task any more. -/
theorem swapped_run_eq (h : s.BatchInv ownerTid) (hquit : s.quit = true)
    (hpc : s.loopPc.aheadOfSwap = false) (hrun : Lib.run IoService.step s as = some s') :
    s'.swapped = s.swapped := by
  refine rel_run (I := fun s => s.BatchInv ownerTid ∧ s.quit = true ∧ s.loopPc.aheadOfSwap = false)
    (R := fun s s' => s'.swapped = s.swapped) (fun _ => rfl)
    (fun s t u (h₁ : t.swapped = s.swapped) (h₂ : u.swapped = t.swapped) => h₂.trans h₁) ?_
    ⟨h, hquit, hpc⟩ hrun
  rintro s a s' ⟨hinv, hquit, hpc⟩ hs
  rcases behindSwap_step hquit hpc hs with ⟨hpc', ha⟩
  exact ⟨⟨hinv.step hs, quit_step hquit hs, hpc'⟩, hinv.swapped_step_eq ha hs⟩

omit [DecidableEq Tid] in
/-- When `run` has returned every batch that was swapped out has been executed. -/
theorem BatchInv.executed_of_returned (h : s.BatchInv ownerTid) (hret : s.loopPc = .returned) :
    s.executed = s.swapped := by
  have hidle : s.toRun = [] := h.idle (by simp [hret]) (by simp [hret])
  simp [swapped, rest, hret, hidle]

/-- When `run` returns, the tasks pushed before a `quit()` had set `m_quit` have been executed
exactly if, at that moment, nothing was pending or the loop was still ahead of the swap of its
turn. -/
theorem pushed_before_quit_run_iff {t : Tid} {s₁ : IoService Tid Task}
    (hbefore : Lib.run IoService.step (construct ownerTid) before = some s₁)
    (hrun : Lib.run IoService.step (construct ownerTid) (before ++ .setQuit t :: after) = some s)
    (hret : s.loopPc = .returned) :
    pushes ownerTid before <+: s.executed ↔
      s₁.pendingTasks = [] ∨ s₁.loopPc.aheadOfSwap = true := by
  have hafter : Lib.run IoService.step s₁ (.setQuit t :: after) = some s := by
    rcases run_append_eq_some.mp hrun with ⟨s₁', hbefore', hafter⟩
    obtain rfl : s₁' = s₁ := Option.some.inj (hbefore'.symm.trans hbefore)
    exact hafter
  have hinv₁ : s₁.BatchInv ownerTid := (batchInv_construct ownerTid).run hbefore
  have hinv : s.BatchInv ownerTid := hinv₁.run hafter
  have hpushes : pushes ownerTid before = s₁.swapped ++ s₁.pendingTasks := (queued_run hbefore).symm
  rw [hinv.executed_of_returned hret]
  by_cases hpc : s₁.loopPc.aheadOfSwap = true
  · refine iff_of_true ?_ (Or.inr hpc)
    -- Ahead of the swap: when `run` has returned, the swap has been made.
    rcases taken_run hinv₁ (Or.inl ⟨hpc, List.prefix_refl _⟩) hafter with ⟨hahead, -⟩ | htaken
    · simp [hret, LoopPc.aheadOfSwap] at hahead
    · rwa [← queued_run hbefore]
  · -- Behind the swap: what the batches have taken by now is all they ever take.
    have hpc : s₁.loopPc.aheadOfSwap = false := by simpa using hpc
    obtain ⟨s₂, hquit, hrest⟩ := run_cons.mp hafter
    have hsame : s.swapped = s₁.swapped := by
      have hset : s₂ = s₁.next (.setQuit t) := (step_eq_some.mp hquit).2.symm
      have hswapped₂ : s₂.swapped = s₁.swapped := hinv₁.swapped_step_eq (by simp) hquit
      rw [← hswapped₂]
      refine swapped_run_eq (hinv₁.step hquit) ?_ ?_ hrest
      · rw [hset]
        rfl
      · rw [hset]
        exact hpc
    rw [hpushes, hsame]
    constructor
    · rintro ⟨zs, hzs⟩
      left
      rw [List.append_assoc] at hzs
      exact (List.append_eq_nil_iff.mp (List.append_right_eq_self.mp hzs)).1
    · rintro (hempty | hahead)
      · rw [hempty, List.append_nil]
      · rw [hpc] at hahead
        cases hahead

/-- Thread `true` queues a task and quits while the loop is in its batch. -/
def quitInBatch : List (Act Bool Nat) :=
  [.testQuit, .pollReturns false, .dispatched, .swapPending, .runTask true 1, .wakeMeUp true]

/-- Thread `true` queues a task and quits while the loop waits. -/
def quitInWait : List (Act Bool Nat) :=
  [.testQuit, .runTask true 1, .wakeMeUp true]

theorem pushed_before_quit_run_iff_quitInWait :
    ∃ s, Lib.run IoService.step (construct false) (quitInWait ++ .setQuit true ::
        [.wakeMeUp true, .pollReturns false, .dispatched, .swapPending, .runNext, .taskReturns,
          .batchDone, .testQuit]) = some s ∧
      s.loopPc = .returned ∧ pushes false quitInWait <+: s.executed := by
  have hbefore : Lib.run IoService.step (construct false) quitInWait = some _ := rfl
  have hrun : Lib.run IoService.step (construct false) (quitInWait ++ .setQuit true ::
    [.wakeMeUp true, .pollReturns false, .dispatched, .swapPending, .runNext, .taskReturns,
      .batchDone, .testQuit]) = some _ := rfl
  exact ⟨_, hrun, rfl, (pushed_before_quit_run_iff hbefore hrun rfl).mpr (Or.inr rfl)⟩

/-- The task is queued before `m_quit` is set, and `run` returns without it. -/
theorem task_lost_at_quit :
    ∃ s, Lib.run IoService.step (construct false)
        (quitInBatch ++ [.setQuit true, .wakeMeUp true, .batchDone, .testQuit]) = some s ∧
      s.loopPc = .returned ∧ pushes false quitInBatch = [(true, 1)] ∧ s.executed = [] ∧
      ¬ pushes false quitInBatch <+: s.executed := by
  refine ⟨_, rfl, rfl, rfl, rfl, ?_⟩
  decide

end IoService

end Net
end Muradin
