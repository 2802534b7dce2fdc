import Mathlib.Algebra.BigOperators.Ring.List
import Mathlib.Algebra.Ring.Nat
import Muradin.Net.IoService.TaskQueue

/-!
# Leave — the loop behind a `quit()`

`quit()` sets `m_quit` and wakes the loop with a write that leaves the counter of the eventfd as it
is, so that a waiting loop comes back when `epoll_wait` times out.  From there on the loop finishes
the turn it is in and returns.

* `toReturn` — how many steps the loop thread still has to take;
* `toReturn_step` — every step of the loop takes one away, and every task that is queued meanwhile
  brings two;
* `returns_behind_quit` — the bound for a whole run, and that nothing stops the loop before.
-/

namespace Muradin
namespace Net

open Lib

namespace IoService

variable {Tid Task : Type}

/-- A step of the loop thread in `run` itself. -/
def Act.isLoop : Act Tid Task → Bool
  | .runTask _ _ => false
  | .setQuit _ => false
  | .wakeMeUp _ => false
  | _ => true

/-- The steps of the loop thread in a run. -/
def loopSteps (as : List (Act Tid Task)) : Nat :=
  as.countP Act.isLoop

/-- How many steps the loop takes until `run` returns, if `m_quit` is set and no task is queued
meanwhile. -/
def toReturn (s : IoService Tid Task) : Nat :=
  match s.loopPc with
  | .returned => 0
  | .testQuit => 1
  -- A task is called and returns, then the batch ends.
  | .nextTask => 2 * s.rest.length + 2
  | .inTask => 2 * s.rest.length + 3
  | .swapPending => 2 * s.pendingTasks.length + 3
  | .processWork false => 2 * s.pendingTasks.length + 4
  | .processWork true => 2 * s.pendingTasks.length + 5
  | .waitChannel => 2 * s.pendingTasks.length + 6

theorem toReturn_le (s : IoService Tid Task) : s.toReturn ≤ 2 * s.waiting.length + 6 := by
  have hlength : s.waiting.length = s.pendingTasks.length + s.rest.length := List.length_append
  unfold toReturn
  split <;> omega

variable [DecidableEq Tid] {ownerTid : Tid} {s s' : IoService Tid Task} {a : Act Tid Task}

theorem length_pushes (as : List (Act Tid Task)) :
    (pushes ownerTid as).length = (as.map fun a => (pushOf ownerTid a).length).sum :=
  List.length_flatMap

/-! ## One step behind `m_quit = true` -/

/-- `m_quit` is not reset. -/
theorem quit_next (h : s.quit = true) (a : Act Tid Task) : (s.next a).quit = true := by
  cases a with
  | runTask t task =>
      show (s.runTask t task).quit = true
      unfold runTask
      split <;> exact h
  | setQuit t => rfl
  | _ => exact h

/-- What a call of `run_task` brings: two steps for a task that this turn still takes. -/
theorem toReturn_runTask (howner : s.ownerTid = ownerTid) (t : Tid) (task : Task) :
    (s.runTask t task).toReturn ≤ s.toReturn + 2 * (pushOf ownerTid (.runTask t task)).length := by
  by_cases ht : t = s.ownerTid
  · subst ht
    rw [runTask_of_owner]
    exact Nat.le_add_right s.toReturn _
  · have hpush : pushOf ownerTid (.runTask t task) = [(t, task)] := by
      rw [pushOf, if_neg]
      rintro rfl
      exact ht howner.symm
    rw [runTask_of_other ht, hpush]
    simp only [toReturn, rest, List.length_append, List.length_singleton]
    cases s.loopPc with
    | processWork selfActive => cases selfActive <;> dsimp only <;> omega
    | _ => dsimp only; omega

/-- A step of the loop takes one of its steps away. -/
theorem toReturn_step (hquit : s.quit = true) (howner : s.ownerTid = ownerTid)
    (hs : s.step a = some s') :
    s'.toReturn + a.isLoop.toNat ≤ s.toReturn + 2 * (pushOf ownerTid a).length := by
  rcases step_eq_some.mp hs with ⟨hen, rfl⟩
  cases a with
  | runTask t task => exact toReturn_runTask howner t task
  | setQuit t => exact Nat.le_refl _
  | wakeMeUp t => exact Nat.le_refl _
  | testQuit =>
      have hpc : s.loopPc = .testQuit := hen
      simp [next, toReturn, hpc, hquit, Act.isLoop]
  | pollReturns selfReady =>
      have hpc : s.loopPc = .waitChannel := hen.1
      cases selfReady <;> simp [next, toReturn, hpc, Act.isLoop, pushOf]
  | onRead =>
      have hpc : s.loopPc = .processWork true := hen.1
      simp [next, IoService.onRead, toReturn, hpc, Act.isLoop, pushOf]
  | dispatched =>
      have hpc : s.loopPc = .processWork false := hen.1
      simp [next, toReturn, hpc, Act.isLoop, pushOf]
  | swapPending =>
      have hpc : s.loopPc = .swapPending := hen
      simp [next, toReturn, rest, hpc, Act.isLoop, pushOf]
  | runNext =>
      have hpc : s.loopPc = .nextTask := hen.1
      have hleft : s.i < s.toRun.length := hen.2
      simp only [next, toReturn, rest, hpc, Act.isLoop, pushOf, List.length_drop, List.length_nil,
        Bool.toNat_true]
      omega
  | taskReturns =>
      have hpc : s.loopPc = .inTask := hen.1
      simp [next, toReturn, rest, hpc, Act.isLoop, pushOf]
  | batchDone =>
      have hpc : s.loopPc = .nextTask := hen.1
      simp [next, toReturn, hpc, Act.isLoop, pushOf]

/-- A loop that has not returned can take a step, or it is about to leave a `quit()` of its own. -/
theorem exists_loop_step (hpc : s.loopPc ≠ .returned) :
    (∃ a t, a.isLoop = true ∧ s.step a = some t) ∨ s.caller s.ownerTid = .beforeWakeMeUp := by
  have hstep : ∀ a : Act Tid Task, a.isLoop = true → s.Enabled a →
      ∃ a t, a.isLoop = true ∧ s.step a = some t :=
    fun a hloop hen => ⟨a, s.next a, hloop, step_eq_some.mpr ⟨hen, rfl⟩⟩
  cases hcall : s.caller s.ownerTid with
  | beforeWakeMeUp => exact Or.inr rfl
  | outside =>
      left
      cases hloop : s.loopPc with
      | testQuit => exact hstep .testQuit rfl hloop
      | waitChannel => exact hstep (.pollReturns false) rfl ⟨hloop, by simp⟩
      | processWork selfActive =>
          cases selfActive with
          | true => exact hstep .onRead rfl ⟨hloop, hcall⟩
          | false => exact hstep .dispatched rfl ⟨hloop, hcall⟩
      | swapPending => exact hstep .swapPending rfl hloop
      | nextTask =>
          by_cases hleft : s.i < s.toRun.length
          · exact hstep .runNext rfl ⟨hloop, hleft⟩
          · exact hstep .batchDone rfl ⟨hloop, Nat.le_of_not_lt hleft⟩
      | inTask => exact hstep .taskReturns rfl ⟨hloop, hcall⟩
      | returned => exact absurd hloop hpc

/-! ## Runs -/

variable {before after : List (Act Tid Task)}

/-- Behind `m_quit = true` the loop pays for its steps out of `toReturn`. -/
theorem toReturn_run {as : List (Act Tid Task)} (hquit : s.quit = true)
    (howner : s.ownerTid = ownerTid) (hrun : Lib.run IoService.step s as = some s') :
    s'.toReturn + loopSteps as ≤ s.toReturn + 2 * (pushes ownerTid as).length := by
  have hstep : ∀ (s : IoService Tid Task) a s', s.quit = true ∧ s.ownerTid = ownerTid →
      s.step a = some s' → (s'.quit = true ∧ s'.ownerTid = ownerTid) ∧
        s'.toReturn + a.isLoop.toNat ≤ s.toReturn + 2 * (pushOf ownerTid a).length := by
    rintro s a s' ⟨hquit, howner⟩ hs
    refine ⟨?_, toReturn_step hquit howner hs⟩
    rcases step_eq_some.mp hs with ⟨-, rfl⟩
    exact ⟨quit_next hquit a, (ownerTid_next s a).trans howner⟩
  have hpaid := potential_run toReturn (fun a => a.isLoop.toNat)
    (fun a => 2 * (pushOf ownerTid a).length) hstep ⟨hquit, howner⟩ hrun
  rwa [sum_map_toNat, List.sum_map_mul_left, ← length_pushes] at hpaid

/-- Behind a `quit()` the loop thread takes at most two steps for every task that waited then or was
queued later, and six more; and as long as it has not returned, it can go on. -/
theorem returns_behind_quit {t : Tid} {s₁ : IoService Tid Task}
    (hbefore : Lib.run IoService.step (construct ownerTid) before = some s₁)
    (hrun : Lib.run IoService.step (construct ownerTid) (before ++ .setQuit t :: after) = some s) :
    loopSteps after ≤ 2 * (s₁.waiting.length + (pushes ownerTid after).length) + 6 ∧
      (s.loopPc ≠ .returned → (∃ a s', a.isLoop = true ∧ s.step a = some s') ∨
        ∃ s', s.step (.wakeMeUp ownerTid) = some s') := by
  have hafter : Lib.run IoService.step s₁ (.setQuit t :: after) = some s := by
    rcases run_append_eq_some.mp hrun with ⟨s₁', hbefore', hafter⟩
    obtain rfl : s₁' = s₁ := Option.some.inj (hbefore'.symm.trans hbefore)
    exact hafter
  have howner₁ : s₁.ownerTid = ownerTid := ((batchInv_construct ownerTid).run hbefore).owner
  have howner : s.ownerTid = ownerTid := ((batchInv_construct ownerTid).run hrun).owner
  constructor
  · obtain ⟨s₂, hset, hrest⟩ := run_cons.mp hafter
    rcases step_eq_some.mp hset with ⟨-, rfl⟩
    -- Setting the flag moves neither the loop nor a task.
    have hsame : (s₁.next (.setQuit t)).toReturn = s₁.toReturn := rfl
    have hownerNext : (s₁.next (.setQuit t)).ownerTid = ownerTid := howner₁
    have hpaid := toReturn_run rfl hownerNext hrest
    have hbound := toReturn_le s₁
    omega
  · intro hpc
    rcases exists_loop_step hpc with hloop | hcaller
    · exact Or.inl hloop
    · right
      rw [howner] at hcaller
      exact ⟨_, step_eq_some.mpr ⟨hcaller, rfl⟩⟩

/-- Thread `true` queues a task while the loop waits. -/
def queueInWait : List (Act Bool Nat) :=
  [.testQuit, .runTask true 1, .wakeMeUp true]

/-- The rest of the turn behind a `quit()` of thread `true`, with one task. -/
def lastTurn : List (Act Bool Nat) :=
  [.wakeMeUp true, .pollReturns false, .dispatched, .swapPending, .runNext, .taskReturns,
    .batchDone, .testQuit]

theorem returns_behind_quit_lastTurn :
    ∃ s₁ s, Lib.run IoService.step (construct false) queueInWait = some s₁ ∧
      Lib.run IoService.step (construct false) (queueInWait ++ .setQuit true :: lastTurn) = some s ∧
      s.loopPc = .returned ∧ loopSteps lastTurn = 7 ∧
      loopSteps lastTurn ≤ 2 * (s₁.waiting.length + (pushes false lastTurn).length) + 6 := by
  have hbefore : Lib.run IoService.step (construct false) queueInWait = some _ := rfl
  have hrun : Lib.run IoService.step (construct false)
    (queueInWait ++ .setQuit true :: lastTurn) = some _ := rfl
  exact ⟨_, _, hbefore, hrun, rfl, rfl, (returns_behind_quit hbefore hrun).1⟩

end IoService

end Net
end Muradin
