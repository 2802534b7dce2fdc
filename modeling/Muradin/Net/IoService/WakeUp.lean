import Mathlib.Data.Fintype.Basic
import Muradin.Net.IoService.Defs

/-!
# WakeUp — when the loop is woken for queued work

`wait_channel` is documented to block until an event, the timeout or a call of `wake_me_up`.  The
value that `wake_me_up` writes to the eventfd is 0, which leaves the counter at 0: the descriptor
never becomes readable and the call wakes nobody.

`noLostWakeUp_iff` says exactly in which runs this does no harm: the loop is never in `wait_channel`
with work to do and every thread already behind its `wake_me_up`.
-/

namespace Muradin
namespace Net

open Lib

namespace IoService

variable {Tid Task : Type}

/-- The loop has something to do that no descriptor reports. -/
def HasWork (s : IoService Tid Task) : Prop :=
  s.pendingTasks ≠ [] ∨ s.quit = true

/-- Some thread is between its `push_back` or `m_quit = true` and its `wake_me_up`. -/
def WakeUpDue (s : IoService Tid Task) : Prop :=
  ∃ t, s.caller t = .beforeWakeMeUp

/-- Work never waits for the timeout of `epoll_wait`. -/
def NoLostWakeUp (s : IoService Tid Task) : Prop :=
  s.loopPc = .waitChannel → s.HasWork → 0 < s.wakeupCounter ∨ s.WakeUpDue

/-- The steps that need the wake-up to work, and what makes them harmless without it. -/
def WakeSafe (s : IoService Tid Task) : Act Tid Task → Prop
  | .wakeMeUp t =>
      s.loopPc = .waitChannel → s.HasWork → ∃ t', t' ≠ t ∧ s.caller t' = .beforeWakeMeUp
  | .testQuit => s.quit = false → s.pendingTasks ≠ [] → s.WakeUpDue
  | _ => True

section Decidable

variable [Fintype Tid] [DecidableEq Tid] [DecidableEq Task]

instance (s : IoService Tid Task) : Decidable s.HasWork :=
  inferInstanceAs (Decidable (_ ∨ _))

instance (s : IoService Tid Task) : Decidable s.WakeUpDue :=
  inferInstanceAs (Decidable (∃ _, _))

instance (s : IoService Tid Task) : (a : Act Tid Task) → Decidable (s.WakeSafe a)
  | .wakeMeUp _ => inferInstanceAs (Decidable (_ → _ → _))
  | .testQuit => inferInstanceAs (Decidable (_ → _ → _))
  | .runTask _ _ | .setQuit _ | .pollReturns _ | .onRead | .dispatched | .swapPending | .runNext
  | .taskReturns | .batchDone => inferInstanceAs (Decidable True)

end Decidable

variable [DecidableEq Tid] {s s' : IoService Tid Task} {a : Act Tid Task}

/-! ## The eventfd never becomes readable -/

theorem wakeupCounter_step (h : s.wakeupCounter = 0) (hs : s.step a = some s') :
    s'.wakeupCounter = 0 := by
  rcases step_eq_some.mp hs with ⟨-, rfl⟩
  cases a with
  | runTask t task =>
      show (s.runTask t task).wakeupCounter = 0
      unfold runTask
      split <;> exact h
  | wakeMeUp t =>
      -- `wake_me_up` adds the 0 of its `static` to the counter.
      show s.wakeupCounter + wakeMeUpN64 = 0
      rw [h]
      rfl
  | onRead => rfl
  | _ => exact h

/-! ## One step -/

/-- A thread that stays behind when `t` is done with its `wake_me_up`. -/
theorem exists_update_outside (caller : Tid → CallerPc) (t : Tid) :
    (∃ t', Function.update caller t .outside t' = .beforeWakeMeUp) ↔
      ∃ t', t' ≠ t ∧ caller t' = .beforeWakeMeUp := by
  constructor
  · rintro ⟨t', ht'⟩
    by_cases heq : t' = t
    · subst heq
      simp at ht'
    · exact ⟨t', heq, by simpa [heq] using ht'⟩
  · rintro ⟨t', hne, ht'⟩
    exact ⟨t', by simpa [hne] using ht'⟩

theorem wakeUpDue_update (s : IoService Tid Task) (t : Tid) :
    ∃ t', Function.update s.caller t .beforeWakeMeUp t' = .beforeWakeMeUp :=
  ⟨t, Function.update_self t _ _⟩

/-- A step keeps the wake-up exactly when it does not need the eventfd for it. -/
theorem noLostWakeUp_step (hcounter : s.wakeupCounter = 0) (h : s.NoLostWakeUp)
    (hs : s.step a = some s') : s'.NoLostWakeUp ↔ s.WakeSafe a := by
  have hcounter' : s'.wakeupCounter = 0 := wakeupCounter_step hcounter hs
  rcases step_eq_some.mp hs with ⟨hen, rfl⟩
  cases a with
  | runTask t task =>
      refine iff_of_true ?_ trivial
      by_cases ht : t = s.ownerTid
      · subst ht
        rw [next, runTask_of_owner]
        exact h
      · rw [next, runTask_of_other ht]
        intro _ _
        exact Or.inr (wakeUpDue_update s t)
  | setQuit t =>
      refine iff_of_true ?_ trivial
      intro _ _
      exact Or.inr (wakeUpDue_update s t)
  | wakeMeUp t =>
      have hdue : (s.next (.wakeMeUp t)).WakeUpDue ↔
          ∃ t', t' ≠ t ∧ s.caller t' = .beforeWakeMeUp :=
        exists_update_outside s.caller t
      constructor
      · intro h' hpc hwork
        rcases h' hpc hwork with hpos | hother
        · exact absurd hcounter' (Nat.ne_of_gt hpos)
        · exact hdue.mp hother
      · intro hsafe hpc hwork
        exact Or.inr (hdue.mpr (hsafe hpc hwork))
  | testQuit =>
      constructor
      · intro h' hquit hpending
        have hpc : (s.next .testQuit).loopPc = .waitChannel := by simp [next, hquit]
        rcases h' hpc (Or.inl hpending) with hpos | hdue
        · exact absurd hcounter' (Nat.ne_of_gt hpos)
        · exact hdue
      · intro hsafe hpc hwork
        -- The loop enters `wait_channel` only when `m_quit` is not set.
        have hquit : s.quit = false := by
          cases hq : s.quit with
          | false => rfl
          | true => simp [next, hq] at hpc
        rcases hwork with hpending | hset
        · exact Or.inr (hsafe hquit hpending)
        · have hset' : s.quit = true := hset
          simp [hquit] at hset'
  | pollReturns selfReady => exact iff_of_true (fun hpc => by cases hpc) trivial
  | onRead => exact iff_of_true (fun hpc => by cases hpc) trivial
  | dispatched => exact iff_of_true (fun hpc => by cases hpc) trivial
  | swapPending => exact iff_of_true (fun hpc => by cases hpc) trivial
  | runNext => exact iff_of_true (fun hpc => by cases hpc) trivial
  | taskReturns => exact iff_of_true (fun hpc => by cases hpc) trivial
  | batchDone => exact iff_of_true (fun hpc => by cases hpc) trivial

/-! ## Runs -/

variable {ownerTid : Tid} {as : List (Act Tid Task)}

/-- No wake-up is lost in a run exactly when every step of it is safe. -/
theorem noLostWakeUp_iff (hrun : run step (construct ownerTid) as = some s) :
    (∀ bs t, bs <+: as → run step (construct ownerTid) bs = some t → t.NoLostWakeUp) ↔
      Along step WakeSafe (construct ownerTid) as := by
  refine prefixes_iff_along (I := fun s => s.wakeupCounter = 0) ?_ ?_ rfl ?_ hrun
  · intro s a s' hcounter hs
    exact wakeupCounter_step hcounter hs
  · intro s a s' hcounter h hs
    exact noLostWakeUp_step hcounter h hs
  · intro hpc
    cases hpc

/-- A task queued and woken for while a batch is being run, and swapped out in the next turn. -/
def wokenInTime : List (Act Bool Unit) :=
  [.testQuit, .runTask true (), .pollReturns false, .wakeMeUp true, .dispatched, .swapPending]

theorem noLostWakeUp_iff_wokenInTime :
    ∃ s, run step (construct false) wokenInTime = some s ∧ s.toRun = [(true, ())] ∧
      ∀ bs t, bs <+: wokenInTime → run step (construct false) bs = some t → t.NoLostWakeUp := by
  have hrun : run step (construct false) wokenInTime = some _ := rfl
  exact ⟨_, hrun, rfl, (noLostWakeUp_iff hrun).mpr (by decide)⟩

/-- The loop waits, a task is queued and its `wake_me_up` is done: the counter is still 0. -/
theorem queued_task_waits_for_timeout :
    ¬ ∀ (as : List (Act Bool Unit)) (s : IoService Bool Unit),
      run step (construct false) as = some s → s.NoLostWakeUp := by
  intro h
  have hrun : run step (construct false) [.testQuit, .runTask true (), .wakeMeUp true] =
      some _ := rfl
  rcases h _ _ hrun rfl (Or.inl (List.cons_ne_nil _ _)) with hpos | ⟨t, ht⟩
  · exact absurd hpos (Nat.lt_irrefl 0)
  · -- Neither the loop thread nor the other one is inside a call.
    cases t with
    | false =>
        have hpc : CallerPc.outside = .beforeWakeMeUp := ht
        cases hpc
    | true =>
        have hpc : CallerPc.outside = .beforeWakeMeUp := ht
        cases hpc

end IoService

end Net
end Muradin
