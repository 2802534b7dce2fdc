import Mathlib.Logic.Function.Basic
import Muradin.Lib.Machine

/-!
# IoService — `net/io_service.h` and `net/io_service.cpp`

One `io_service` as a machine: the loop thread executing `io_service::run`, and any number of
threads calling `run_task` (through it `add_channel`, `del_channel`, `update_channel`) and `quit`.

* `Enabled s a` says when a step can be taken, `next s a` what it does;
* a critical section of `m_mutex` is one step;
* the wake-up descriptor is a Linux eventfd: a write adds to its counter, a read takes the counter
  and leaves 0, and the descriptor is readable while the counter is positive;
* a queued task carries the thread that queued it, and `executed`, `ranDirectly` are histories.
-/

namespace Muradin
namespace Net

open Lib

/-- Where the loop thread is in `io_service::run`. -/
inductive LoopPc
  /-- at the test of `m_quit` -/
  | testQuit
  /-- in `wait_channel` -/
  | waitChannel
  /-- in the `process_work` calls; `selfActive`: the one of `m_self_channel` is still to come -/
  | processWork (selfActive : Bool)
  /-- in `run_pending_task`, before the swap -/
  | swapPending
  /-- at the test of the `for` loop -/
  | nextTask
  /-- in `to_run[i]()` -/
  | inTask
  /-- `run` has returned -/
  | returned
  deriving DecidableEq, Repr

/-- The loop thread is executing callbacks or tasks. -/
def LoopPc.inCode : LoopPc → Bool
  | .processWork _ => true
  | .inTask => true
  | _ => false

/-- Where a thread is in `queue_task` or `quit`. -/
inductive CallerPc
  | outside
  /-- behind the `push_back` or `m_quit = true`, before its `wake_me_up` -/
  | beforeWakeMeUp
  deriving DecidableEq, Repr

structure IoService (Tid Task : Type) where
  ownerTid : Tid
  /-- the counter of the eventfd `m_wakeup_fd` -/
  wakeupCounter : Nat
  runningPendingTasks : Bool
  quit : Bool
  pendingTasks : List (Tid × Task)
  loopPc : LoopPc
  /-- `to_run` and `i` of `run_pending_task` -/
  toRun : List (Tid × Task)
  i : Nat
  caller : Tid → CallerPc
  executed : List (Tid × Task)
  ranDirectly : List Task

namespace IoService

variable {Tid Task : Type}

/-- The constructor, on thread `ownerTid`, which then enters `run`. -/
def construct (ownerTid : Tid) : IoService Tid Task :=
  { ownerTid
    wakeupCounter := 0
    runningPendingTasks := false
    quit := false
    pendingTasks := []
    loopPc := .testQuit
    toRun := []
    i := 0
    caller := fun _ => .outside
    executed := []
    ranDirectly := [] }

/-! ## The tasks that exist -/

/-- The tasks that exist: a batch is destroyed as a whole, when `run_pending_task` returns. -/
def held (s : IoService Tid Task) : List (Tid × Task) :=
  s.pendingTasks ++ s.toRun

/-- The tasks that have not returned yet. -/
def outstanding (s : IoService Tid Task) : List (Tid × Task) :=
  s.pendingTasks ++ s.toRun.drop s.i

/-- What is left of the batch; the task that is being executed is no longer part of it. -/
def rest (s : IoService Tid Task) : List (Tid × Task) :=
  match s.loopPc with
  | .inTask => s.toRun.drop (s.i + 1)
  | _ => s.toRun.drop s.i

/-- The tasks that have not been started. -/
def waiting (s : IoService Tid Task) : List (Tid × Task) :=
  s.pendingTasks ++ s.rest

theorem waiting_eq {s : IoService Tid Task} (hpc : s.loopPc ≠ .inTask) :
    s.waiting = s.outstanding := by
  unfold waiting rest
  split
  · contradiction
  · rfl

theorem mem_held_of_waiting {s : IoService Tid Task} {x : Tid × Task} (hx : x ∈ s.waiting) :
    x ∈ s.held := by
  refine List.mem_append.mpr ((List.mem_append.mp hx).imp_right ?_)
  unfold rest
  split <;> exact List.mem_of_mem_drop

inductive Act (Tid Task : Type)
  /-- `run_task(task)`, for another thread up to the end of the critical section -/
  | runTask (t : Tid) (task : Task)
  /-- `quit()` up to `m_quit = true` -/
  | setQuit (t : Tid)
  | wakeMeUp (t : Tid)
  | testQuit
  /-- `epoll_wait` returns; `selfReady`: the wake-up descriptor is among the active ones -/
  | pollReturns (selfReady : Bool)
  | onRead
  /-- every active channel has been processed -/
  | dispatched
  | swapPending
  | runNext
  | taskReturns
  | batchDone
  deriving DecidableEq

variable [DecidableEq Tid]

/-! ## Member functions -/

def checkThisLoop (s : IoService Tid Task) (t : Tid) : Bool :=
  s.ownerTid == t

/-- The value of the `static` in `wake_me_up`; the one in `on_read` is another variable. -/
def wakeMeUpN64 : Nat := 0

/-- `wake_me_up()`: the `::write` on the eventfd. -/
def wakeMeUp (s : IoService Tid Task) : IoService Tid Task :=
  { s with wakeupCounter := s.wakeupCounter + wakeMeUpN64 }

/-- `on_read()`: the `::read` on the eventfd. -/
def onRead (s : IoService Tid Task) : IoService Tid Task :=
  { s with wakeupCounter := 0 }

/-- `queue_task(func)` up to its `wake_me_up`. -/
def queueTask (s : IoService Tid Task) (t : Tid) (func : Task) : IoService Tid Task :=
  { s with
    pendingTasks := s.pendingTasks ++ [(t, func)]
    caller :=
      if ¬ s.checkThisLoop t ∨ s.runningPendingTasks then
        Function.update s.caller t .beforeWakeMeUp
      else
        s.caller }

/-- `run_task(func)`; `add_channel`, `del_channel` and `update_channel` have the same body. -/
def runTask (s : IoService Tid Task) (t : Tid) (func : Task) : IoService Tid Task :=
  if s.checkThisLoop t then
    { s with ranDirectly := s.ranDirectly ++ [func] }
  else
    s.queueTask t func

/-! ## Steps -/

/-- Thread `t` can call a public member function now. -/
def MayCall (s : IoService Tid Task) (t : Tid) : Prop :=
  s.caller t = .outside ∧ (s.checkThisLoop t → s.loopPc.inCode)

/-- The loop thread is not inside a call of `quit` made by a task. -/
def LoopOutside (s : IoService Tid Task) : Prop :=
  s.caller s.ownerTid = .outside

def Enabled (s : IoService Tid Task) : Act Tid Task → Prop
  | .runTask t _ => s.MayCall t
  | .setQuit t => s.MayCall t
  | .wakeMeUp t => s.caller t = .beforeWakeMeUp
  | .testQuit => s.loopPc = .testQuit
  | .pollReturns selfReady => s.loopPc = .waitChannel ∧ (selfReady → 0 < s.wakeupCounter)
  | .onRead => s.loopPc = .processWork true ∧ s.LoopOutside
  | .dispatched => s.loopPc = .processWork false ∧ s.LoopOutside
  | .swapPending => s.loopPc = .swapPending
  | .runNext => s.loopPc = .nextTask ∧ s.i < s.toRun.length
  | .taskReturns => s.loopPc = .inTask ∧ s.LoopOutside
  | .batchDone => s.loopPc = .nextTask ∧ s.toRun.length ≤ s.i

def next (s : IoService Tid Task) : Act Tid Task → IoService Tid Task
  | .runTask t task => s.runTask t task
  | .setQuit t => { s with quit := true, caller := Function.update s.caller t .beforeWakeMeUp }
  | .wakeMeUp t => { s with caller := Function.update s.caller t .outside }.wakeMeUp
  | .testQuit => { s with loopPc := if s.quit then .returned else .waitChannel }
  | .pollReturns selfReady => { s with loopPc := .processWork selfReady }
  | .onRead => { s with loopPc := .processWork false }.onRead
  | .dispatched => { s with loopPc := .swapPending, runningPendingTasks := true }
  | .swapPending =>
      { s with pendingTasks := [], toRun := s.pendingTasks, i := 0, loopPc := .nextTask }
  | .runNext => { s with executed := s.executed ++ s.toRun[s.i]?.toList, loopPc := .inTask }
  | .taskReturns => { s with i := s.i + 1, loopPc := .nextTask }
  | .batchDone => { s with toRun := [], i := 0, runningPendingTasks := false, loopPc := .testQuit }

instance (s : IoService Tid Task) (t : Tid) : Decidable (s.MayCall t) :=
  inferInstanceAs (Decidable (_ ∧ _))

instance (s : IoService Tid Task) : Decidable s.LoopOutside :=
  inferInstanceAs (Decidable (_ = _))

instance (s : IoService Tid Task) : (a : Act Tid Task) → Decidable (s.Enabled a)
  | .runTask t _ => inferInstanceAs (Decidable (s.MayCall t))
  | .setQuit t => inferInstanceAs (Decidable (s.MayCall t))
  | .wakeMeUp _ => inferInstanceAs (Decidable (_ = _))
  | .testQuit => inferInstanceAs (Decidable (_ = _))
  | .pollReturns _ => inferInstanceAs (Decidable (_ ∧ _))
  | .onRead => inferInstanceAs (Decidable (_ ∧ _))
  | .dispatched => inferInstanceAs (Decidable (_ ∧ _))
  | .swapPending => inferInstanceAs (Decidable (_ = _))
  | .runNext => inferInstanceAs (Decidable (_ ∧ _))
  | .taskReturns => inferInstanceAs (Decidable (_ ∧ _))
  | .batchDone => inferInstanceAs (Decidable (_ ∧ _))

def step (s : IoService Tid Task) (a : Act Tid Task) : Option (IoService Tid Task) :=
  if s.Enabled a then some (s.next a) else none

variable {s s' : IoService Tid Task} {a : Act Tid Task}

theorem step_eq_some : s.step a = some s' ↔ s.Enabled a ∧ s.next a = s' := by
  simp [step]

/-! ## What no step changes -/

theorem ownerTid_next (s : IoService Tid Task) (a : Act Tid Task) :
    (s.next a).ownerTid = s.ownerTid := by
  cases a with
  | runTask t task =>
      show (s.runTask t task).ownerTid = s.ownerTid
      unfold runTask
      split <;> rfl
  | _ => rfl

theorem runTask_of_other {t : Tid} (ht : t ≠ s.ownerTid) (task : Task) :
    s.runTask t task =
      { s with
        pendingTasks := s.pendingTasks ++ [(t, task)]
        caller := Function.update s.caller t .beforeWakeMeUp } := by
  have hloop : s.checkThisLoop t = false := by
    simpa [checkThisLoop] using Ne.symm ht
  simp [runTask, queueTask, hloop]

theorem runTask_of_owner (task : Task) :
    s.runTask s.ownerTid task = { s with ranDirectly := s.ranDirectly ++ [task] } := by
  simp [runTask, checkThisLoop]

/-- A call of `run_task` does not move the loop. -/
theorem runTask_loop (s : IoService Tid Task) (t : Tid) (task : Task) :
    (s.runTask t task).loopPc = s.loopPc ∧ (s.runTask t task).toRun = s.toRun ∧
      (s.runTask t task).i = s.i ∧ (s.runTask t task).executed = s.executed := by
  unfold runTask
  split <;> exact ⟨rfl, rfl, rfl, rfl⟩

/-! ## The queue behind a step -/

theorem mem_pendingTasks_runTask {x : Tid × Task} {t : Tid} {task : Task} {batch : List (Tid × Task)}
    (hx : x ∈ (s.runTask t task).pendingTasks ++ batch) :
    x ∈ s.pendingTasks ++ batch ∨ x = (t, task) := by
  by_cases ht : t = s.ownerTid
  · left
    subst ht
    rwa [runTask_of_owner] at hx
  · rw [runTask_of_other ht] at hx
    simp only [List.mem_append, List.mem_singleton] at hx ⊢
    rcases hx with (hold | hnew) | hold
    · exact Or.inl (Or.inl hold)
    · exact Or.inr hnew
    · exact Or.inl (Or.inr hold)

/-- A task comes into the queue by `run_task` only. -/
theorem mem_held_next {x : Tid × Task} (hx : x ∈ (s.next a).held) :
    x ∈ s.held ∨ a = .runTask x.1 x.2 := by
  cases a with
  | runTask t task =>
      rcases runTask_loop s t task with ⟨-, htoRun, -, -⟩
      rw [held, next, htoRun] at hx
      rcases mem_pendingTasks_runTask hx with hold | rfl
      · exact Or.inl hold
      · exact Or.inr rfl
  | swapPending =>
      left
      -- The swap moves the queue as a whole into the batch.
      have hx : x ∈ [] ++ s.pendingTasks := hx
      exact List.mem_append_left _ hx
  | batchDone =>
      left
      have hx : x ∈ s.pendingTasks ++ [] := hx
      exact List.mem_append_left _ (by simpa using hx)
  | _ => exact Or.inl hx

theorem mem_outstanding_next {x : Tid × Task} (hx : x ∈ (s.next a).outstanding) :
    x ∈ s.outstanding ∨ a = .runTask x.1 x.2 := by
  cases a with
  | runTask t task =>
      rcases runTask_loop s t task with ⟨-, htoRun, hi, -⟩
      rw [outstanding, next, htoRun, hi] at hx
      rcases mem_pendingTasks_runTask hx with hold | rfl
      · exact Or.inl hold
      · exact Or.inr rfl
  | swapPending =>
      left
      have hx : x ∈ [] ++ s.pendingTasks := hx
      exact List.mem_append_left _ hx
  | taskReturns =>
      left
      -- The task that returned is no longer outstanding.
      have hx : x ∈ s.pendingTasks ++ s.toRun.drop (s.i + 1) := hx
      refine List.mem_append.mpr ((List.mem_append.mp hx).imp_right ?_)
      rw [← List.drop_drop]
      exact List.mem_of_mem_drop
  | batchDone =>
      left
      have hx : x ∈ s.pendingTasks ++ [] := hx
      exact List.mem_append_left _ (by simpa using hx)
  | _ => exact Or.inl hx

/-- Another thread's `run_task` leaves one more task waiting. -/
theorem waiting_runTask_of_other {t : Tid} (ht : t ≠ s.ownerTid) (task : Task) :
    (s.runTask t task).waiting.Perm ((t, task) :: s.waiting) := by
  rw [runTask_of_other ht]
  show (s.pendingTasks ++ [(t, task)] ++ s.rest).Perm _
  rw [List.append_assoc]
  exact List.perm_middle

theorem waiting_runTask_of_owner (task : Task) :
    (s.runTask s.ownerTid task).waiting = s.waiting := by
  rw [runTask_of_owner]
  rfl

/-- The first task of the rest is started. -/
theorem waiting_runNext (hen : s.Enabled .runNext) :
    ∃ x, s.toRun[s.i]? = some x ∧ s.waiting.Perm (x :: (s.next .runNext).waiting) := by
  have hpc : s.loopPc = .nextTask := hen.1
  refine ⟨s.toRun.get ⟨s.i, hen.2⟩, List.getElem?_eq_getElem hen.2, ?_⟩
  show s.waiting.Perm (_ :: (s.pendingTasks ++ s.toRun.drop (s.i + 1)))
  rw [waiting_eq (by simp [hpc]), outstanding, List.drop_eq_getElem_cons hen.2]
  exact List.perm_middle

/-- The other steps leave no more tasks waiting. -/
theorem waiting_next_sublist (hen : s.Enabled a) (ha : ∀ t task, a ≠ .runTask t task) :
    (s.next a).waiting.Sublist s.waiting := by
  cases a with
  | runTask t task => exact absurd rfl (ha t task)
  | setQuit t => exact List.Sublist.refl _
  | wakeMeUp t => exact List.Sublist.refl _
  | testQuit =>
      have hpc : s.loopPc = .testQuit := hen
      -- The loop stays outside a batch, whichever way it goes.
      have hpc' : (s.next .testQuit).loopPc ≠ .inTask := by
        cases hquit : s.quit <;> simp [next, hquit]
      have hold : s.waiting = s.outstanding := waiting_eq (by simp [hpc])
      rw [hold, waiting_eq hpc']
      exact List.Sublist.refl _
  | pollReturns selfReady =>
      have hpc : s.loopPc = .waitChannel := hen.1
      have hold : s.waiting = s.outstanding := waiting_eq (by simp [hpc])
      rw [hold]
      exact List.Sublist.refl _
  | onRead =>
      have hpc : s.loopPc = .processWork true := hen.1
      have hold : s.waiting = s.outstanding := waiting_eq (by simp [hpc])
      rw [hold]
      exact List.Sublist.refl _
  | dispatched =>
      have hpc : s.loopPc = .processWork false := hen.1
      have hold : s.waiting = s.outstanding := waiting_eq (by simp [hpc])
      rw [hold]
      exact List.Sublist.refl _
  | swapPending => exact List.sublist_append_left s.pendingTasks s.rest
  | runNext =>
      have hpc : s.loopPc = .nextTask := hen.1
      have hold : s.waiting = s.outstanding := waiting_eq (by simp [hpc])
      rw [hold]
      refine List.Sublist.append (List.Sublist.refl _) ?_
      show (s.toRun.drop (s.i + 1)).Sublist _
      rw [← List.drop_drop]
      exact List.drop_sublist 1 _
  | taskReturns =>
      have hpc : s.loopPc = .inTask := hen.1
      -- The task that returns was not waiting any more.
      have hsame : (s.next .taskReturns).waiting = s.waiting := by
        simp [waiting, rest, next, hpc]
      rw [hsame]
  | batchDone =>
      show (s.pendingTasks ++ []).Sublist _
      rw [List.append_nil]
      exact List.sublist_append_left s.pendingTasks s.rest

theorem mem_waiting_next {x : Tid × Task} (hen : s.Enabled a) (hx : x ∈ (s.next a).waiting) :
    x ∈ s.waiting ∨ a = .runTask x.1 x.2 := by
  by_cases ha : ∃ t task, a = .runTask t task
  · rcases ha with ⟨t, task, rfl⟩
    have hx : x ∈ (s.runTask t task).waiting := hx
    by_cases ht : t = s.ownerTid
    · subst ht
      rw [waiting_runTask_of_owner] at hx
      exact Or.inl hx
    · rcases List.mem_cons.mp ((waiting_runTask_of_other ht task).mem_iff.mp hx) with rfl | hold
      · exact Or.inr rfl
      · exact Or.inl hold
  · left
    refine (waiting_next_sublist hen ?_).mem hx
    intro t task heq
    exact ha ⟨t, task, heq⟩

end IoService

end Net
end Muradin
