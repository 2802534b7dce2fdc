import Muradin.Lib.RoundRobin
import Muradin.Net.IoService.TaskQueue
import Muradin.Net.IoServicePool.ServiceThread

/-!
# IoServicePool — `net/io_service_pool.h` and `net/io_service_pool.cpp`

A pool with its owner, which is the thread that calls `run()` and `quit()`, the `service_thread`s, the
`io_service`s that these build on their stacks, and the threads that use the services.

* the address of an `io_service` is the number of its thread;
* `run()` and `quit()` are taken apart where another thread may come between; a turn of one of their
  `for` loops is one step;
* the services of a pool are private to it: no other thread calls their `quit()`.
-/

namespace Muradin
namespace Net

open Lib

/-- The threads of a program with a pool. -/
inductive ThreadId
  | owner
  /-- the `i`-th thread of the pool -/
  | service (i : Nat)
  | other (t : Nat)
  deriving DecidableEq, Repr

/-- Where the owner is in `run()` or `quit()`. -/
inductive PoolPc
  /-- in the first loop of `run()` -/
  | spawn
  /-- in the second loop, before `m_threads[i].run()` -/
  | collect
  /-- blocked in `m_threads[i].run()` -/
  | waiting
  /-- `run()` has returned -/
  | ready
  /-- in the first loop of `quit()` -/
  | quitAt (i : Nat)
  /-- in `m_services[i]->quit()`, behind `m_quit=true` -/
  | wakeAt (i : Nat)
  /-- in the second loop, before `m_threads[i].join()` -/
  | joinAt (i : Nat)
  /-- `quit()` has returned -/
  | done
  deriving DecidableEq, Repr

/-- `run()` has returned. -/
def PoolPc.started : PoolPc → Bool
  | .spawn | .collect | .waiting => false
  | _ => true

/-- A `service_thread` and the `io_service` in its `thread_func`. -/
structure Worker (Task : Type) where
  thread : ServiceThread ThreadId Nat
  ios : IoService ThreadId Task

structure IoServicePool (Task : Type) where
  /-- `m_size` -/
  size : Nat
  /-- `m_threads.size()` -/
  threads : Nat
  /-- `m_threads[i]` -/
  worker : Nat → Worker Task
  services : List Nat
  serviceIndex : Nat
  pc : PoolPc
  /-- what `next_service` has returned, call by call -/
  served : List Nat
  /-- `next_service` has read behind the end of `m_services` -/
  outOfRange : Bool

variable {Task : Type}

def Worker.construct (i : Nat) : Worker Task :=
  { thread := ServiceThread.construct (.service i) i
    ios := IoService.construct (.service i) }

namespace IoServicePool

/-- `io_service_pool(size)`, and then `run()` is called. -/
def construct (size : Nat) : IoServicePool Task :=
  { size
    threads := 0
    worker := Worker.construct
    services := []
    serviceIndex := 0
    pc := .spawn
    served := []
    outOfRange := false }

inductive Act (Task : Type)
  /-- the next step of `run()` or `quit()` -/
  | owner
  /-- `quit()` is called -/
  | quit
  /-- `next_service()` is called -/
  | nextService
  /-- a step of `thread_func` in the `i`-th thread -/
  | thread (i : Nat) (a : ServiceThread.Act ThreadId)
  /-- a step of its `io_service` -/
  | io (i : Nat) (a : IoService.Act ThreadId Task)

/-! ## Member functions -/

/-- `next_service()` -/
def nextService (s : IoServicePool Task) : IoServicePool Task :=
  let index := if s.size ≤ s.serviceIndex then 0 else s.serviceIndex
  match s.services[index]? with
  | some p => { s with serviceIndex := index + 1, served := s.served ++ [p] }
  | none => { s with outOfRange := true }

/-- `m_services[i]` in `quit()`. -/
def serviceAt (s : IoServicePool Task) (i : Nat) : Nat :=
  s.services.getD i 0

def setWorker (s : IoServicePool Task) (i : Nat) (w : Worker Task) : IoServicePool Task :=
  { s with worker := Function.update s.worker i w }

def setThread (s : IoServicePool Task) (i : Nat) (thread : ServiceThread ThreadId Nat) :
    IoServicePool Task :=
  s.setWorker i { s.worker i with thread }

def setIos (s : IoServicePool Task) (i : Nat) (ios : IoService ThreadId Task) :
    IoServicePool Task :=
  s.setWorker i { s.worker i with ios }

/-- `m_threads[i].run()` up to its end or the next wait, and the `push_back` of what it returns. -/
def collected (s : IoServicePool Task) (a : ServiceThread.Act ThreadId) : IoServicePool Task :=
  let i := s.services.length
  let thread := (s.worker i).thread.next a
  match thread.service with
  | some p => { s.setThread i thread with services := s.services ++ [p], pc := .collect }
  | none => { s.setThread i thread with pc := .waiting }

/-! ## Steps -/

def OwnerEnabled (s : IoServicePool Task) : Prop :=
  match s.pc with
  | .spawn => True
  | .collect =>
      s.services.length < s.size → (s.worker s.services.length).thread.Enabled (.run .owner)
  | .waiting => (s.worker s.services.length).thread.Enabled (.recheck .owner)
  | .ready => False
  | .quitAt i => i < s.size → (s.worker (s.serviceAt i)).ios.MayCall .owner
  | .wakeAt i => (s.worker (s.serviceAt i)).ios.caller .owner = .beforeWakeMeUp
  | .joinAt i => i < s.size → (s.worker i).thread.pc = .ended
  | .done => False

def ownerNext (s : IoServicePool Task) : IoServicePool Task :=
  match s.pc with
  | .spawn =>
      if s.threads < s.size then { s with threads := s.threads + 1 } else { s with pc := .collect }
  | .collect =>
      if s.services.length < s.size then s.collected (.run .owner) else { s with pc := .ready }
  | .waiting => s.collected (.recheck .owner)
  | .ready => s
  | .quitAt i =>
      if i < s.size then
        let p := s.serviceAt i
        { s.setIos p ((s.worker p).ios.next (.setQuit .owner)) with pc := .wakeAt i }
      else
        { s with pc := .joinAt 0 }
  | .wakeAt i =>
      let p := s.serviceAt i
      { s.setIos p ((s.worker p).ios.next (.wakeMeUp .owner)) with pc := .quitAt (i + 1) }
  | .joinAt i => if i < s.size then { s with pc := .joinAt (i + 1) } else { s with pc := .done }
  | .done => s

/-- The owner uses the services between `run()` and `quit()`, and everybody else from the moment
their addresses are known until they are destroyed. -/
def MayUse (s : IoServicePool Task) (i : Nat) (t : ThreadId) : Prop :=
  (s.worker i).thread.pc ≠ .setService ∧ (s.worker i).thread.pc ≠ .ended ∧
    (t = .owner → s.pc = .ready)

def MayStep (s : IoServicePool Task) (i : Nat) : IoService.Act ThreadId Task → Prop
  | .runTask t _ => s.MayUse i t
  | .setQuit _ => False
  | .wakeMeUp t => s.MayUse i t
  | _ => (s.worker i).thread.pc = .inRun

def Enabled (s : IoServicePool Task) : Act Task → Prop
  | .owner => s.OwnerEnabled
  | .quit => s.pc = .ready ∧ ∀ i < s.threads, (s.worker i).ios.caller .owner = .outside
  | .nextService => s.pc.started = true
  | .thread i a =>
      i < s.threads ∧ a.isOwn = true ∧ (s.worker i).thread.Enabled a ∧
        (a = .loopReturns → (s.worker i).ios.loopPc = .returned)
  | .io i a => i < s.threads ∧ s.MayStep i a ∧ (s.worker i).ios.Enabled a

def next (s : IoServicePool Task) : Act Task → IoServicePool Task
  | .owner => s.ownerNext
  | .quit => { s with pc := .quitAt 0 }
  | .nextService => s.nextService
  | .thread i a => s.setThread i ((s.worker i).thread.next a)
  | .io i a => s.setIos i ((s.worker i).ios.next a)

instance (s : IoServicePool Task) : Decidable s.OwnerEnabled :=
  match h : s.pc with
  | .spawn => .isTrue (by simp [OwnerEnabled, h])
  | .collect =>
      decidable_of_iff (s.services.length < s.size →
        (s.worker s.services.length).thread.Enabled (.run .owner)) (by simp [OwnerEnabled, h])
  | .waiting =>
      decidable_of_iff ((s.worker s.services.length).thread.Enabled (.recheck .owner))
        (by simp [OwnerEnabled, h])
  | .ready => .isFalse (by simp [OwnerEnabled, h])
  | .quitAt i =>
      decidable_of_iff (i < s.size → (s.worker (s.serviceAt i)).ios.MayCall .owner)
        (by simp [OwnerEnabled, h])
  | .wakeAt i =>
      decidable_of_iff ((s.worker (s.serviceAt i)).ios.caller .owner = .beforeWakeMeUp)
        (by simp [OwnerEnabled, h])
  | .joinAt i =>
      decidable_of_iff (i < s.size → (s.worker i).thread.pc = .ended) (by simp [OwnerEnabled, h])
  | .done => .isFalse (by simp [OwnerEnabled, h])

instance (s : IoServicePool Task) (i : Nat) (t : ThreadId) : Decidable (s.MayUse i t) :=
  inferInstanceAs (Decidable (_ ∧ _ ∧ (_ → _)))

instance (s : IoServicePool Task) (i : Nat) :
    (a : IoService.Act ThreadId Task) → Decidable (s.MayStep i a)
  | .runTask t _ => inferInstanceAs (Decidable (s.MayUse i t))
  | .setQuit _ => inferInstanceAs (Decidable False)
  | .wakeMeUp t => inferInstanceAs (Decidable (s.MayUse i t))
  | .testQuit | .pollReturns _ | .onRead | .dispatched | .swapPending | .runNext | .taskReturns
  | .batchDone => inferInstanceAs (Decidable (_ = _))

instance (s : IoServicePool Task) : (a : Act Task) → Decidable (s.Enabled a)
  | .owner => inferInstanceAs (Decidable s.OwnerEnabled)
  | .quit => inferInstanceAs (Decidable (_ ∧ ∀ i < s.threads, _))
  | .nextService => inferInstanceAs (Decidable (_ = _))
  | .thread _ _ => inferInstanceAs (Decidable (_ ∧ _ ∧ _ ∧ (_ → _)))
  | .io _ _ => inferInstanceAs (Decidable (_ ∧ _ ∧ _))

def step (s : IoServicePool Task) (a : Act Task) : Option (IoServicePool Task) :=
  if s.Enabled a then some (s.next a) else none

variable {s s' : IoServicePool Task} {a : Act Task}

theorem step_eq_some : s.step a = some s' ↔ s.Enabled a ∧ s.next a = s' := by
  simp [step]

/-! ## The workers behind a step -/

@[simp] theorem worker_setWorker_self (s : IoServicePool Task) (i : Nat) (w : Worker Task) :
    (s.setWorker i w).worker i = w :=
  Function.update_self ..

theorem worker_setWorker_of_ne {i j : Nat} (hne : j ≠ i) (s : IoServicePool Task)
    (w : Worker Task) : (s.setWorker i w).worker j = s.worker j :=
  Function.update_of_ne hne ..

/-- What holds of the new worker and of the others holds of all. -/
theorem forall_setWorker {Q : Nat → Worker Task → Prop} {i : Nat} {w : Worker Task} (hself : Q i w)
    (hother : ∀ j, j ≠ i → Q j (s.worker j)) (j : Nat) : Q j ((s.setWorker i w).worker j) := by
  by_cases hji : j = i
  · subst hji
    rwa [worker_setWorker_self]
  · rw [worker_setWorker_of_ne hji]
    exact hother j hji

/-- A step of a thread leaves the services alone. -/
theorem ios_setThread (s : IoServicePool Task) (i : Nat) (thread : ServiceThread ThreadId Nat)
    (j : Nat) : ((s.setThread i thread).worker j).ios = (s.worker j).ios := by
  by_cases hji : j = i
  · rw [hji, setThread, worker_setWorker_self]
  · rw [setThread, worker_setWorker_of_ne hji]

/-! ## The owner, phase by phase -/

theorem ownerNext_spawn (hpc : s.pc = .spawn) :
    s.ownerNext =
      if s.threads < s.size then { s with threads := s.threads + 1 }
      else { s with pc := .collect } := by
  unfold ownerNext
  rw [hpc]

theorem ownerNext_collect (hpc : s.pc = .collect) :
    s.ownerNext =
      if s.services.length < s.size then s.collected (.run .owner) else { s with pc := .ready } := by
  unfold ownerNext
  rw [hpc]

theorem ownerNext_waiting (hpc : s.pc = .waiting) :
    s.ownerNext = s.collected (.recheck .owner) := by
  unfold ownerNext
  rw [hpc]

theorem ownerNext_quitAt {i : Nat} (hpc : s.pc = .quitAt i) :
    s.ownerNext =
      if i < s.size then
        { s.setIos (s.serviceAt i) ((s.worker (s.serviceAt i)).ios.next (.setQuit .owner)) with
          pc := .wakeAt i }
      else
        { s with pc := .joinAt 0 } := by
  unfold ownerNext
  rw [hpc]

theorem ownerNext_wakeAt {i : Nat} (hpc : s.pc = .wakeAt i) :
    s.ownerNext =
      { s.setIos (s.serviceAt i) ((s.worker (s.serviceAt i)).ios.next (.wakeMeUp .owner)) with
        pc := .quitAt (i + 1) } := by
  unfold ownerNext
  rw [hpc]

theorem ownerNext_joinAt {i : Nat} (hpc : s.pc = .joinAt i) :
    s.ownerNext = if i < s.size then { s with pc := .joinAt (i + 1) } else { s with pc := .done } := by
  unfold ownerNext
  rw [hpc]

/-- `m_threads[i].run()` has returned an address, .. -/
theorem collected_some {a : ServiceThread.Act ThreadId} {p : Nat}
    (hp : ((s.worker s.services.length).thread.next a).service = some p) :
    s.collected a =
      { s.setThread s.services.length ((s.worker s.services.length).thread.next a) with
        services := s.services ++ [p], pc := .collect } := by
  rw [collected, hp]

/-- .. or the owner waits in it. -/
theorem collected_none {a : ServiceThread.Act ThreadId}
    (hp : ((s.worker s.services.length).thread.next a).service = none) :
    s.collected a =
      { s.setThread s.services.length ((s.worker s.services.length).thread.next a) with
        pc := .waiting } := by
  rw [collected, hp]

end IoServicePool

end Net
end Muradin
