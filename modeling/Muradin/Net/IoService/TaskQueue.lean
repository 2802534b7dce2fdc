import Muradin.Net.IoService.Defs

/-!
# TaskQueue — every queued task runs once, in the order of the pushes

The invariant behind `run_pending_task`: what was executed, what is left of the batch and what is
still pending are together the pushes, in push order.  A batch that was swapped out and finished
leaves nothing of what had been pushed before its swap.
-/

namespace Muradin
namespace Net

open Lib

namespace IoService

variable {Tid Task : Type}

/-! ## The pushes of a run -/

/-- The tasks that have entered `m_pending_tasks`, as the queue still knows them. -/
def queued (s : IoService Tid Task) : List (Tid × Task) :=
  s.executed ++ s.rest ++ s.pendingTasks

/-- The tasks of the batches that were swapped out so far. -/
def swapped (s : IoService Tid Task) : List (Tid × Task) :=
  s.executed ++ s.rest

/-! ## The invariant -/

/-- `to_run` is alive only in the `for` loop of `run_pending_task`. -/
structure BatchInv (ownerTid : Tid) (s : IoService Tid Task) : Prop where
  owner : s.ownerTid = ownerTid
  idle : s.loopPc ≠ .nextTask → s.loopPc ≠ .inTask → s.toRun = []

theorem batchInv_construct (ownerTid : Tid) :
    (construct ownerTid : IoService Tid Task).BatchInv ownerTid :=
  { owner := rfl
    idle := fun _ _ => rfl }

variable [DecidableEq Tid] {ownerTid : Tid} {s s' : IoService Tid Task} {a : Act Tid Task}

/-- The push of one step: another thread's `run_task` pushes, the loop thread's does not. -/
def pushOf (ownerTid : Tid) : Act Tid Task → List (Tid × Task)
  | .runTask t task => if ownerTid = t then [] else [(t, task)]
  | _ => []

/-- The pushes of a run, in push order. -/
def pushes (ownerTid : Tid) (as : List (Act Tid Task)) : List (Tid × Task) :=
  as.flatMap (pushOf ownerTid)

/-! ## One step -/

theorem BatchInv.step (h : s.BatchInv ownerTid) (hs : s.step a = some s') :
    s'.BatchInv ownerTid := by
  obtain ⟨hen, rfl⟩ := step_eq_some.mp hs
  refine { owner := (ownerTid_next s a).trans h.owner, idle := ?_ }
  cases a with
  | runTask t task =>
      obtain ⟨hpc, htoRun, -, -⟩ := runTask_loop s t task
      intro hnext hin
      exact htoRun.trans (h.idle (fun heq => hnext (hpc.trans heq)) (fun heq => hin (hpc.trans heq)))
  | setQuit t => exact h.idle
  | wakeMeUp t => exact h.idle
  | testQuit =>
      have hpc : s.loopPc = .testQuit := hen
      exact fun _ _ => h.idle (by simp [hpc]) (by simp [hpc])
  | pollReturns selfReady =>
      have hpc : s.loopPc = .waitChannel := hen.1
      exact fun _ _ => h.idle (by simp [hpc]) (by simp [hpc])
  | onRead =>
      have hpc : s.loopPc = .processWork true := hen.1
      exact fun _ _ => h.idle (by simp [hpc]) (by simp [hpc])
  | dispatched =>
      have hpc : s.loopPc = .processWork false := hen.1
      exact fun _ _ => h.idle (by simp [hpc]) (by simp [hpc])
  -- From the swap to the end of the batch the invariant promises nothing of `to_run`.
  | swapPending => exact fun hnext _ => absurd rfl hnext
  | runNext => exact fun _ hin => absurd rfl hin
  | taskReturns => exact fun hnext _ => absurd rfl hnext
  | batchDone => exact fun _ _ => rfl

/-- `run_task` appends its push to `m_pending_tasks`; the loop thread runs the task at once. -/
theorem BatchInv.pendingTasks_runTask (h : s.BatchInv ownerTid) (t : Tid) (task : Task) :
    (s.runTask t task).pendingTasks = s.pendingTasks ++ pushOf ownerTid (.runTask t task) := by
  by_cases ht : t = s.ownerTid
  · subst ht
    rw [runTask_of_owner]
    simp [pushOf, h.owner]
  · rw [runTask_of_other ht]
    have hne : ownerTid ≠ t := by
      rintro rfl
      exact ht h.owner.symm
    simp [pushOf, hne]

/-- Every step extends the queue by its push; the loop only moves tasks along. -/
theorem BatchInv.queued_step (h : s.BatchInv ownerTid) (hs : s.step a = some s') :
    s'.queued = s.queued ++ pushOf ownerTid a := by
  rcases step_eq_some.mp hs with ⟨hen, rfl⟩
  cases a with
  | runTask t task =>
      rcases runTask_loop s t task with ⟨hpc, htoRun, hi, hexecuted⟩
      show (s.runTask t task).queued = _
      simp [queued, rest, hpc, htoRun, hi, hexecuted, h.pendingTasks_runTask t task]
  | setQuit t => simp [next, queued, rest, pushOf]
  | wakeMeUp t => simp [next, IoService.wakeMeUp, queued, rest, pushOf]
  | testQuit =>
      have hpc : s.loopPc = .testQuit := hen
      by_cases hquit : s.quit = true <;> simp [next, queued, rest, pushOf, hpc, hquit]
  | pollReturns selfReady =>
      have hpc : s.loopPc = .waitChannel := hen.1
      simp [next, queued, rest, pushOf, hpc]
  | onRead =>
      have hpc : s.loopPc = .processWork true := hen.1
      simp [next, IoService.onRead, queued, rest, pushOf, hpc]
  | dispatched =>
      have hpc : s.loopPc = .processWork false := hen.1
      simp [next, queued, rest, pushOf, hpc]
  | swapPending =>
      -- The vector that is swapped in is empty, so nothing of an older batch is left.
      have hpc : s.loopPc = .swapPending := hen
      have hidle : s.toRun = [] := h.idle (by simp [hpc]) (by simp [hpc])
      simp [next, queued, rest, pushOf, hpc, hidle]
  | runNext =>
      have hpc : s.loopPc = .nextTask := hen.1
      simp [next, queued, rest, pushOf, hpc, List.drop_eq_getElem?_toList_append (i := s.i)]
  | taskReturns =>
      have hpc : s.loopPc = .inTask := hen.1
      simp [next, queued, rest, pushOf, hpc]
  | batchDone =>
      have hpc : s.loopPc = .nextTask := hen.1
      have hend : s.toRun.drop s.i = [] := List.drop_eq_nil_of_le hen.2
      simp [next, queued, rest, pushOf, hpc, hend]

/-- `m_pending_tasks` grows by the push of the step, or it was swapped out. -/
theorem BatchInv.pendingTasks_step (h : s.BatchInv ownerTid) (hs : s.step a = some s') :
    s'.pendingTasks = s.pendingTasks ++ pushOf ownerTid a ∨
      s'.pendingTasks = [] ∧ a = .swapPending := by
  rcases step_eq_some.mp hs with ⟨-, rfl⟩
  cases a with
  | runTask t task =>
      exact Or.inl (h.pendingTasks_runTask t task)
  | swapPending => exact Or.inr ⟨rfl, rfl⟩
  | _ =>
      left
      simp [next, IoService.wakeMeUp, IoService.onRead, pushOf]

/-- The batches taken together only grow at their end. -/
theorem BatchInv.swapped_step (h : s.BatchInv ownerTid) (hs : s.step a = some s') :
    s.swapped <+: s'.swapped := by
  have hqueued : s'.swapped ++ s'.pendingTasks =
      s.swapped ++ s.pendingTasks ++ pushOf ownerTid a := h.queued_step hs
  rcases h.pendingTasks_step hs with hgrown | ⟨hempty, rfl⟩
  · -- What was pushed is still pending, so the batches are the same.
    rw [hgrown, ← List.append_assoc] at hqueued
    have hsame := List.append_cancel_right (List.append_cancel_right hqueued)
    rw [hsame]
  · rw [hempty, List.append_nil] at hqueued
    rw [hqueued]
    exact ⟨s.pendingTasks, by simp [pushOf]⟩

/-- No step takes an execution back. -/
theorem executed_step (hs : s.step a = some s') : s.executed <+: s'.executed := by
  rcases step_eq_some.mp hs with ⟨-, rfl⟩
  cases a with
  | runTask t task =>
      have hsame : (s.runTask t task).executed = s.executed := (runTask_loop s t task).2.2.2
      show s.executed <+: (s.runTask t task).executed
      rw [hsame]
  | runNext => exact List.prefix_append _ _
  | _ => exact List.prefix_refl _

/-! ## Runs -/

variable {as before batch after : List (Act Tid Task)}

theorem BatchInv.run (h : s.BatchInv ownerTid) (hrun : Lib.run IoService.step s as = some s') :
    s'.BatchInv ownerTid :=
  invariant_run (fun _ _ _ hI hs => BatchInv.step hI hs) h hrun

/-- At every point of a run the queue is exactly the pushes made so far, in push order. -/
theorem queued_run (hrun : Lib.run IoService.step (construct ownerTid) as = some s) :
    s.queued = pushes ownerTid as := by
  have hview := view_run queued (pushOf ownerTid)
    (fun _ _ _ hI hs => ⟨BatchInv.step hI hs, hI.queued_step hs⟩)
    (batchInv_construct ownerTid) hrun
  simpa [pushes, queued, construct, rest] using hview

theorem BatchInv.swapped_run (h : s.BatchInv ownerTid)
    (hrun : Lib.run IoService.step s as = some s') : s.swapped <+: s'.swapped :=
  rel_run (R := fun s s' => s.swapped <+: s'.swapped) (fun _ => List.prefix_refl _)
    (fun _ _ _ => List.IsPrefix.trans)
    (fun _ _ _ hI hs => ⟨BatchInv.step hI hs, hI.swapped_step hs⟩) h hrun

theorem executed_run (hrun : Lib.run IoService.step s as = some s') :
    s.executed <+: s'.executed :=
  rel_run (I := fun _ => True) (R := fun s s' => s.executed <+: s'.executed)
    (fun _ => List.prefix_refl _) (fun _ _ _ => List.IsPrefix.trans)
    (fun _ _ _ _ hs => ⟨trivial, executed_step hs⟩) trivial hrun

/-- A batch that was swapped out and finished leaves nothing of what had been pushed before. -/
theorem pushes_prefix_executed
    (hrun : Lib.run IoService.step (construct ownerTid)
      (before ++ [.swapPending] ++ batch ++ [.batchDone] ++ after) = some s) :
    pushes ownerTid before <+: s.executed := by
  rcases run_append_eq_some.mp hrun with ⟨s₄, hrun₄, hafter⟩
  rcases run_concat.mp hrun₄ with ⟨s₃, hrun₃, hdone⟩
  rcases run_append_eq_some.mp hrun₃ with ⟨s₂, hrun₂, hbatch⟩
  rcases run_concat.mp hrun₂ with ⟨s₁, -, hswap⟩
  have hinv₂ : s₂.BatchInv ownerTid := (batchInv_construct ownerTid).run hrun₂
  -- Behind the swap nothing is pending: the batches are all the pushes.
  have hswapped : s₂.swapped = pushes ownerTid before := by
    have hqueued := queued_run hrun₂
    have hempty : s₂.pendingTasks = [] := by
      rcases step_eq_some.mp hswap with ⟨-, rfl⟩
      rfl
    simpa [queued, swapped, hempty, pushes, pushOf] using hqueued
  -- At the end of the loop nothing of the batches is left: they are what was executed.
  have hexecuted : s₄.executed = s₄.swapped := by
    rcases step_eq_some.mp hdone with ⟨-, rfl⟩
    simp [swapped, rest, next]
  calc pushes ownerTid before
      = s₂.swapped := hswapped.symm
    _ <+: s₄.swapped := hinv₂.swapped_run (run_concat.mpr ⟨s₃, hbatch, hdone⟩)
    _ = s₄.executed := hexecuted.symm
    _ <+: s.executed := executed_run hafter

/-- Every queued task is executed once, in push order: what was executed, what is left of the batch
and what is pending are together the pushes; the executed tasks of one thread are the first ones
that it submitted; and a finished batch has executed everything pushed before it was swapped out. -/
theorem tasks_run_once_in_order (hrun : Lib.run IoService.step (construct ownerTid) as = some s) :
    s.executed ++ s.rest ++ s.pendingTasks = pushes ownerTid as ∧
      (∀ t, s.executed.filter (·.1 = t) <+: (pushes ownerTid as).filter (·.1 = t)) ∧
      ∀ before batch after, as = before ++ [.swapPending] ++ batch ++ [.batchDone] ++ after →
        pushes ownerTid before <+: s.executed := by
  have hqueued : s.executed ++ s.rest ++ s.pendingTasks = pushes ownerTid as := queued_run hrun
  refine ⟨hqueued, ?_, ?_⟩
  · intro t
    rw [← hqueued, List.append_assoc]
    exact (List.prefix_append _ _).filter _
  · intro before batch after heq
    subst heq
    exact pushes_prefix_executed hrun

/-- A task queued while a batch is running stays pending; one run by a task is not queued. -/
def twoPushes : List (Act Bool Nat) :=
  [.testQuit, .runTask true 1, .wakeMeUp true, .pollReturns false, .dispatched, .swapPending,
    .runNext, .runTask true 2, .runTask false 7, .wakeMeUp true, .taskReturns, .batchDone]

theorem tasks_run_once_in_order_twoPushes :
    ∃ s, Lib.run IoService.step (construct false) twoPushes = some s ∧
      s.executed = [(true, 1)] ∧ s.ranDirectly = [7] ∧ s.pendingTasks = [(true, 2)] ∧
      s.executed ++ s.rest ++ s.pendingTasks = pushes false twoPushes := by
  have hrun : Lib.run IoService.step (construct false) twoPushes = some _ := rfl
  exact ⟨_, hrun, rfl, rfl, rfl, (tasks_run_once_in_order hrun).1⟩

end IoService

end Net
end Muradin
