import Muradin.Net.IoService.Leave
import Muradin.Net.IoServicePool.Defs

/-!
# Start — the pool from `run()` on

The owner starts the threads one after the other and then collects the address that each of them
publishes, in any interleaving with the threads.

* `Inv` — what holds at every point, from `run()` to the end of `quit()`;
* `Inv.next` — the step lemma, from one for the steps of a worker and one for each loop of the owner;
* `services_of_run` — `m_services[i]` is the `io_service` of `m_threads[i]`.
-/

namespace Muradin
namespace Net

open Lib

/-! ## One worker -/

namespace IoService

variable {Tid Task : Type} [DecidableEq Tid] {s : IoService Tid Task} {a : Act Tid Task}

/-- `run` does not go on behind its return. -/
theorem returned_next (h : s.loopPc = .returned) (hen : s.Enabled a) :
    (s.next a).loopPc = .returned := by
  cases a with
  | runTask t task => exact (runTask_loop s t task).1.trans h
  | setQuit t => exact h
  | wakeMeUp t => exact h
  | testQuit =>
      have hpc : s.loopPc = .testQuit := hen
      simp [h] at hpc
  | swapPending =>
      have hpc : s.loopPc = .swapPending := hen
      simp [h] at hpc
  | pollReturns _ | onRead | dispatched | runNext | taskReturns | batchDone =>
      have hpc := hen.1
      simp [h] at hpc

/-- `run` returns by its test of `m_quit`. -/
theorem quit_of_returned_next (h : s.loopPc = .returned → s.quit = true)
    (hret : (s.next a).loopPc = .returned) : (s.next a).quit = true := by
  cases a with
  | runTask t task =>
      have hret : (s.runTask t task).loopPc = .returned := hret
      rw [(runTask_loop s t task).1] at hret
      exact quit_next (h hret) (.runTask t task)
  | setQuit t => rfl
  | wakeMeUp t => exact h hret
  | testQuit =>
      by_cases hquit : s.quit = true
      · exact hquit
      · simp [next, hquit] at hret
  | _ => cases hret

theorem quit_next_eq (ha : ∀ t, a ≠ .setQuit t) : (s.next a).quit = s.quit := by
  cases a with
  | runTask t task =>
      show (s.runTask t task).quit = s.quit
      unfold runTask
      split <;> rfl
  | setQuit t => exact absurd rfl (ha t)
  | _ => rfl

/-- Only the calls of a thread move it. -/
theorem caller_next_of_other {t : Tid} (hrun : ∀ u task, a = .runTask u task → u ≠ t)
    (hset : ∀ u, a = .setQuit u → u ≠ t) (hwake : ∀ u, a = .wakeMeUp u → u ≠ t) :
    (s.next a).caller t = s.caller t := by
  cases a with
  | runTask u task =>
      have hne : t ≠ u := (hrun u task rfl).symm
      show (s.runTask u task).caller t = s.caller t
      unfold runTask queueTask
      split
      · rfl
      · dsimp only
        split
        · exact Function.update_of_ne hne ..
        · rfl
  | setQuit u => exact Function.update_of_ne (hset u rfl).symm ..
  | wakeMeUp u => exact Function.update_of_ne (hwake u rfl).symm ..
  | _ => rfl

end IoService

variable {Task : Type}

/-- What holds of the `i`-th worker on its own. -/
structure Worker.Inv (i : Nat) (w : Worker Task) : Prop where
  thread : w.thread.Inv (.service i) i
  batch : w.ios.BatchInv (.service i)
  leaves : w.ios.loopPc = .returned → w.ios.quit = true
  ended : w.thread.pc = .ended → w.ios.loopPc = .returned

namespace Worker

variable {i : Nat} {w : Worker Task}

theorem inv_construct (i : Nat) : (construct i : Worker Task).Inv i :=
  { thread := ServiceThread.inv_construct (ThreadId.service i) i
    batch := IoService.batchInv_construct (ThreadId.service i)
    leaves := nofun
    ended := nofun }

/-- A thread that has ended takes no step of its own. -/
theorem not_ended_of_own {a : ServiceThread.Act ThreadId} (hen : w.thread.Enabled a)
    (ha : a.isOwn = true) : w.thread.pc ≠ .ended := by
  intro hpc
  cases a with
  | setService =>
      have hpc' : w.thread.pc = .setService := hen.1
      simp [hpc] at hpc'
  | notifyOne woken =>
      have hpc' : w.thread.pc = .notifyOne := hen.1
      simp [hpc] at hpc'
  | loopReturns =>
      have hpc' : w.thread.pc = .inRun := hen
      simp [hpc] at hpc'
  | run t => cases ha
  | recheck t => cases ha

/-- `m_service` is not reset. -/
theorem published_next (hpc : w.thread.pc ≠ .setService) (a : ServiceThread.Act ThreadId) :
    (w.thread.next a).pc ≠ .setService := by
  cases a with
  | run t => exact hpc
  | recheck t => exact hpc
  | setService => exact nofun
  | notifyOne woken => exact nofun
  | loopReturns => exact nofun

theorem Inv.thread_next (h : w.Inv i) {a : ServiceThread.Act ThreadId}
    (hen : w.thread.Enabled a) (hret : a = .loopReturns → w.ios.loopPc = .returned) :
    ({ w with thread := w.thread.next a } : Worker Task).Inv i := by
  refine { h with thread := h.thread.next hen, ended := ?_ }
  cases a with
  | setService => nofun
  | notifyOne woken => nofun
  | loopReturns => exact fun _ => hret rfl
  | run t => exact h.ended
  | recheck t => exact h.ended

theorem Inv.ios_next (h : w.Inv i) {a : IoService.Act ThreadId Task} (hen : w.ios.Enabled a) :
    ({ w with ios := w.ios.next a } : Worker Task).Inv i :=
  { thread := h.thread
    batch := h.batch.step (IoService.step_eq_some.mpr ⟨hen, rfl⟩)
    leaves := IoService.quit_of_returned_next h.leaves
    ended := fun hpc => IoService.returned_next (h.ended hpc) hen }

end Worker

/-! ## The whole pool -/

/-- How many of the services `quit()` has told to quit. -/
def PoolPc.told (size : Nat) : PoolPc → Nat
  | .quitAt i => i
  | .wakeAt i => i + 1
  | .joinAt _ | .done => size
  | _ => 0

namespace IoServicePool

/-- Every thread is started and its address collected. -/
def Full (s : IoServicePool Task) : Prop :=
  s.threads = s.size ∧ s.services.length = s.size

/-- What the owner has done so far. -/
def Phase (s : IoServicePool Task) : PoolPc → Prop
  | .spawn => s.services = []
  | .collect => s.threads = s.size
  | .waiting =>
      s.threads = s.size ∧ s.services.length < s.size ∧
        (s.worker s.services.length).thread.Waits .owner
  | .ready => s.Full
  | .quitAt i => s.Full ∧ i ≤ s.size
  | .wakeAt i => s.Full ∧ i < s.size
  | .joinAt i => s.Full ∧ i ≤ s.size ∧ ∀ j < i, (s.worker j).thread.pc = .ended
  | .done => s.Full ∧ ∀ j < s.size, (s.worker j).thread.pc = .ended

structure Inv (s : IoServicePool Task) : Prop where
  worker : ∀ i, (s.worker i).Inv i
  fresh : ∀ i, s.threads ≤ i → s.worker i = Worker.construct i
  services : s.services = List.range s.services.length
  services_le : s.services.length ≤ s.threads
  threads_le : s.threads ≤ s.size
  published : ∀ i < s.services.length, (s.worker i).thread.pc ≠ .setService
  idle : ∀ i, (s.pc = .waiting → i ≠ s.services.length) → (s.worker i).thread.Idle
  told : ∀ i, (s.worker i).ios.quit = true ↔ i < s.pc.told s.size
  caller : s.pc ≠ .ready → ∀ i,
    (s.worker i).ios.caller .owner = if s.pc = .wakeAt i then .beforeWakeMeUp else .outside
  phase : s.Phase s.pc

theorem inv_construct (size : Nat) : (construct size : IoServicePool Task).Inv :=
  { worker := Worker.inv_construct
    fresh := fun _ _ => rfl
    services := rfl
    services_le := Nat.le_refl 0
    threads_le := Nat.zero_le size
    published := fun i hi => absurd hi (Nat.not_lt_zero i)
    idle := fun _ _ => ⟨rfl, rfl⟩
    told := fun i => iff_of_false Bool.false_ne_true (Nat.not_lt_zero i)
    caller := fun _ _ => rfl
    phase := rfl }

variable {s s' : IoServicePool Task} {a : Act Task}

/-- In `quit()` the `i`-th service is the one of the `i`-th thread. -/
theorem Inv.serviceAt_eq (h : s.Inv) {i : Nat} (hi : i < s.services.length) :
    s.serviceAt i = i := by
  rw [serviceAt, h.services]
  simp [hi]

/-! ## The steps of a worker -/

/-- A step that changes one worker, and nothing that the owner has recorded of it. -/
theorem Inv.setWorker (h : s.Inv) {i : Nat} (hi : i < s.threads) {w : Worker Task} (hw : w.Inv i)
    (hidle : (s.worker i).thread.Idle → w.thread.Idle)
    (hwaits : (s.worker i).thread.Waits .owner → w.thread.Waits .owner)
    (hpublished : (s.worker i).thread.pc ≠ .setService → w.thread.pc ≠ .setService)
    (hended : (s.worker i).thread.pc = .ended → w.thread.pc = .ended)
    (hquit : w.ios.quit = (s.worker i).ios.quit)
    (hcaller : s.pc ≠ .ready → w.ios.caller .owner = (s.worker i).ios.caller .owner) :
    (s.setWorker i w).Inv := by
  have hended' : ∀ j, (s.worker j).thread.pc = .ended →
      ((s.setWorker i w).worker j).thread.pc = .ended :=
    forall_setWorker
      (Q := fun j w => (s.worker j).thread.pc = .ended → w.thread.pc = .ended) hended fun _ _ => id
  refine
    { worker := forall_setWorker hw fun j _ => h.worker j
      fresh := ?_
      services := h.services
      services_le := h.services_le
      threads_le := h.threads_le
      published :=
        forall_setWorker (Q := fun j w => j < s.services.length → w.thread.pc ≠ .setService)
          (fun hi => hpublished (h.published i hi)) fun j _ => h.published j
      idle :=
        forall_setWorker
          (Q := fun j w => (s.pc = .waiting → j ≠ s.services.length) → w.thread.Idle)
          (fun hi => hidle (h.idle i hi)) fun j _ => h.idle j
      told :=
        forall_setWorker (Q := fun j w => w.ios.quit = true ↔ j < s.pc.told s.size)
          (hquit ▸ h.told i) fun j _ => h.told j
      caller := fun hpc =>
        forall_setWorker
          (Q := fun j w => w.ios.caller .owner =
            if s.pc = .wakeAt j then .beforeWakeMeUp else .outside)
          ((hcaller hpc).trans (h.caller hpc i)) fun j _ => h.caller hpc j
      phase := ?_ }
  · intro j hj
    have hji : j ≠ i := by
      rintro rfl
      exact Nat.not_lt.mpr hj hi
    rw [worker_setWorker_of_ne hji]
    exact h.fresh j hj
  · have hphase := h.phase
    show (s.setWorker i w).Phase s.pc
    cases hpc : s.pc with
    | waiting =>
        rw [hpc] at hphase
        refine ⟨hphase.1, hphase.2.1, ?_⟩
        show ((s.setWorker i w).worker s.services.length).thread.Waits .owner
        by_cases hji : s.services.length = i
        · rw [hji, worker_setWorker_self]
          exact hwaits (hji ▸ hphase.2.2)
        · rw [worker_setWorker_of_ne hji]
          exact hphase.2.2
    | joinAt k =>
        rw [hpc] at hphase
        exact ⟨hphase.1, hphase.2.1, fun j hj => hended' j (hphase.2.2 j hj)⟩
    | done =>
        rw [hpc] at hphase
        exact ⟨hphase.1, fun j hj => hended' j (hphase.2 j hj)⟩
    | _ =>
        rw [hpc] at hphase
        exact hphase

theorem Inv.thread_next (h : s.Inv) {i : Nat} {a : ServiceThread.Act ThreadId}
    (hen : s.Enabled (.thread i a)) : (s.next (.thread i a)).Inv := by
  rcases hen with ⟨hi, hown, hen, hret⟩
  refine h.setWorker hi ((h.worker i).thread_next hen hret) (fun hidle => hidle.own hen hown)
    (fun hwaits => hwaits.own hen hown) (fun hpc => Worker.published_next hpc a) ?_ rfl
    (fun _ => rfl)
  intro hended
  exact absurd hended (Worker.not_ended_of_own hen hown)

theorem Inv.io_next (h : s.Inv) {i : Nat} {a : IoService.Act ThreadId Task}
    (hen : s.Enabled (.io i a)) : (s.next (.io i a)).Inv := by
  rcases hen with ⟨hi, hmay, hen⟩
  refine h.setWorker hi ((h.worker i).ios_next hen) id id id id ?_ ?_
  · refine IoService.quit_next_eq ?_
    rintro t rfl
    exact hmay
  · intro hpc
    refine IoService.caller_next_of_other ?_ ?_ ?_
    · rintro u task rfl rfl
      exact hpc (hmay.2.2 rfl)
    · rintro u rfl
      exact hmay.elim
    · rintro u rfl rfl
      exact hpc (hmay.2.2 rfl)

/-! ## The first loops of the owner -/

/-- A step of the owner that moves on without a worker. -/
theorem Inv.move (h : s.Inv) {pc : PoolPc} (hidle : s.pc ≠ .waiting)
    (htold : pc.told s.size = s.pc.told s.size)
    (hcaller : ∀ i, (s.worker i).ios.caller .owner = if pc = .wakeAt i then .beforeWakeMeUp
      else .outside) (hphase : s.Phase pc) : ({ s with pc } : IoServicePool Task).Inv :=
  { worker := h.worker
    fresh := h.fresh
    services := h.services
    services_le := h.services_le
    threads_le := h.threads_le
    published := h.published
    idle := fun i _ => h.idle i fun heq => absurd heq hidle
    told := fun i => by
      show (s.worker i).ios.quit = true ↔ i < pc.told s.size
      rw [htold]
      exact h.told i
    caller := fun _ => hcaller
    phase := hphase }

theorem Inv.spawn_next (h : s.Inv) (hpc : s.pc = .spawn) : s.ownerNext.Inv := by
  have hcaller := h.caller (by simp [hpc])
  have hphase := h.phase
  rw [ownerNext_spawn hpc]
  split
  · next hlt =>
      refine { h with fresh := ?_, services_le := ?_, threads_le := hlt, phase := ?_ }
      · exact fun i hi => h.fresh i (Nat.le_of_succ_le hi)
      · exact Nat.le_succ_of_le h.services_le
      · show Phase _ s.pc
        rw [hpc] at hphase ⊢
        exact hphase
  · next hnot =>
      refine h.move (by simp [hpc]) (by simp [hpc, PoolPc.told]) ?_ ?_
      · simpa [hpc] using hcaller
      · exact Nat.le_antisymm h.threads_le (Nat.le_of_not_lt hnot)

/-- The address that `m_threads[i].run()` has returned is pushed. -/
theorem Inv.push (h : s.Inv) (hpc : s.pc = .collect ∨ s.pc = .waiting)
    (hthreads : s.threads = s.size) (hlt : s.services.length < s.size)
    {thread : ServiceThread ThreadId Nat}
    (hw : ({ s.worker s.services.length with thread } : Worker Task).Inv s.services.length)
    (hservice : thread.service = some s.services.length) (hidle : thread.Idle) :
    ({ s.setThread s.services.length thread with
        services := s.services ++ [s.services.length], pc := .collect } :
      IoServicePool Task).Inv := by
  have hlength : (s.services ++ [s.services.length]).length = s.services.length + 1 :=
    List.length_append
  refine
    { worker := forall_setWorker hw fun j _ => h.worker j
      fresh := ?_
      services := ?_
      services_le := ?_
      threads_le := h.threads_le
      published := ?_
      idle := fun j _ => forall_setWorker (Q := fun _ w => w.thread.Idle) hidle
        (fun k hk => h.idle k fun _ => hk) j
      told := ?_
      caller := ?_
      phase := hthreads }
  · -- All the threads are started.
    intro j (hj : s.threads ≤ j)
    have hji : j ≠ s.services.length := by omega
    exact (worker_setWorker_of_ne hji ..).trans (h.fresh j hj)
  · show s.services ++ [s.services.length] = List.range (s.services ++ [s.services.length]).length
    rw [hlength, List.range_succ, ← h.services]
  · show (s.services ++ [s.services.length]).length ≤ s.threads
    rw [hlength, hthreads]
    exact hlt
  · intro j (hj : j < (s.services ++ [s.services.length]).length)
    refine forall_setWorker (s := s)
      (Q := fun j w => j < s.services.length + 1 → w.thread.pc ≠ .setService) ?_ ?_ j
      (hlength ▸ hj)
    · -- The address that was returned is not `NULL`.
      intro _ hpc
      have hnone := hw.thread.service
      rw [if_pos hpc, hservice] at hnone
      cases hnone
    · intro k hk hlt
      exact h.published k (by omega)
  · intro j
    show ((s.setThread s.services.length thread).worker j).ios.quit = true ↔ j < 0
    have htold : s.pc.told s.size = 0 := by rcases hpc with hpc | hpc <;> simp [hpc, PoolPc.told]
    rw [ios_setThread, ← htold]
    exact h.told j
  · intro _ j
    show ((s.setThread s.services.length thread).worker j).ios.caller .owner = .outside
    rw [ios_setThread, h.caller (by rcases hpc with hpc | hpc <;> simp [hpc]) j, if_neg]
    rcases hpc with hpc | hpc <;> simp [hpc]

/-- The owner blocks in `m_threads[i].run()`. -/
theorem Inv.block (h : s.Inv) (hpc : s.pc = .collect) (hlt : s.services.length < s.size)
    {thread : ServiceThread ThreadId Nat}
    (hw : ({ s.worker s.services.length with thread } : Worker Task).Inv s.services.length)
    (hwaits : thread.Waits .owner) :
    ({ s.setThread s.services.length thread with pc := .waiting } : IoServicePool Task).Inv := by
  have hthreads : s.threads = s.size := by
    have hphase := h.phase
    rw [hpc] at hphase
    exact hphase
  refine
    { worker := forall_setWorker hw fun j _ => h.worker j
      fresh := ?_
      services := h.services
      services_le := h.services_le
      threads_le := h.threads_le
      published := ?_
      idle := ?_
      told := ?_
      caller := ?_
      phase := ⟨hthreads, hlt, ?_⟩ }
  · intro j (hj : s.threads ≤ j)
    have hji : j ≠ s.services.length := by omega
    exact (worker_setWorker_of_ne hji ..).trans (h.fresh j hj)
  · intro j (hj : j < s.services.length)
    show ((s.setThread s.services.length thread).worker j).thread.pc ≠ .setService
    rw [setThread, worker_setWorker_of_ne (Nat.ne_of_lt hj)]
    exact h.published j hj
  · intro j hj
    show ((s.setThread s.services.length thread).worker j).thread.Idle
    have hji : j ≠ s.services.length := hj rfl
    rw [setThread, worker_setWorker_of_ne hji]
    exact h.idle j fun _ => hji
  · intro j
    show ((s.setThread s.services.length thread).worker j).ios.quit = true ↔ j < 0
    have htold := h.told j
    rw [hpc] at htold
    rw [ios_setThread]
    exact htold
  · intro _ j
    show ((s.setThread s.services.length thread).worker j).ios.caller .owner = .outside
    rw [ios_setThread, h.caller (by simp [hpc]) j, hpc]
    rfl
  · show ((s.setThread s.services.length thread).worker s.services.length).thread.Waits .owner
    rwa [setThread, worker_setWorker_self]

/-- What `m_threads[i].run()` finds when the owner calls it. -/
theorem Inv.collect_idle (h : s.Inv) (hpc : s.pc = .collect) :
    (s.worker s.services.length).thread.Idle :=
  h.idle _ fun heq => by simp [hpc] at heq

theorem Inv.collect_next (h : s.Inv) (hpc : s.pc = .collect) : s.ownerNext.Inv := by
  have hphase := h.phase
  rw [hpc] at hphase
  have hthreads : s.threads = s.size := hphase
  have hthread := (h.worker s.services.length).thread
  have hidle := h.collect_idle hpc
  rw [ownerNext_collect hpc]
  split
  · next hlt =>
      have hen : (s.worker s.services.length).thread.Enabled (.run .owner) :=
        hidle.enabled_run hthread (by simp)
      have hw := (h.worker s.services.length).thread_next hen (by simp)
      rcases hidle.run hthread .owner with ⟨hservice, hidle'⟩ | ⟨hservice, hwaits⟩
      · rw [collected_some ((ServiceThread.service_run ..).trans hservice)]
        exact h.push (Or.inl hpc) hthreads hlt hw ((ServiceThread.service_run ..).trans hservice)
          hidle'
      · rw [collected_none ((ServiceThread.service_run ..).trans hservice)]
        exact h.block hpc hlt hw hwaits
  · next hnot =>
      refine h.move (by simp [hpc]) (by simp [hpc, PoolPc.told]) ?_ ⟨hthreads, ?_⟩
      · simpa [hpc] using h.caller (by simp [hpc])
      · have hle := h.services_le
        omega

theorem Inv.waiting_next (h : s.Inv) (hpc : s.pc = .waiting) (hen : s.OwnerEnabled) :
    s.ownerNext.Inv := by
  have hphase := h.phase
  rw [hpc] at hphase
  obtain ⟨hthreads, hlt, hwaits⟩ := hphase
  have hen : (s.worker s.services.length).thread.Enabled (.recheck .owner) := by
    simpa [OwnerEnabled, hpc] using hen
  have hthread := (h.worker s.services.length).thread
  rcases hwaits.recheck hthread hen with ⟨hservice, hidle⟩
  rw [ownerNext_waiting hpc, collected_some ((ServiceThread.service_recheck ..).trans hservice)]
  exact h.push (Or.inr hpc) hthreads hlt ((h.worker _).thread_next hen (by simp))
    ((ServiceThread.service_recheck ..).trans hservice) hidle

/-! ## The loops of `quit()` -/

/-- A step of the owner in `quit()` of one service. -/
theorem Inv.setIos (h : s.Inv) (hidle : s.pc ≠ .waiting) {i : Nat} (hi : i < s.threads)
    {ios : IoService ThreadId Task} {pc : PoolPc}
    (hw : ({ s.worker i with ios } : Worker Task).Inv i)
    (htold : ∀ j, ((s.setIos i ios).worker j).ios.quit = true ↔ j < pc.told s.size)
    (hcaller : ∀ j, ((s.setIos i ios).worker j).ios.caller .owner =
      if pc = .wakeAt j then .beforeWakeMeUp else .outside)
    (hphase : s.Phase pc) (hended : pc ≠ .waiting ∧ pc ≠ .done ∧ ∀ j, pc ≠ .joinAt j) :
    ({ s.setIos i ios with pc } : IoServicePool Task).Inv := by
  refine
    { worker := forall_setWorker hw fun j _ => h.worker j
      fresh := ?_
      services := h.services
      services_le := h.services_le
      threads_le := h.threads_le
      published := forall_setWorker
        (Q := fun j w => j < s.services.length → w.thread.pc ≠ .setService) (h.published i)
        fun j _ => h.published j
      idle := ?_
      told := htold
      caller := fun _ => hcaller
      phase := ?_ }
  · intro j (hj : s.threads ≤ j)
    have hji : j ≠ i := by omega
    exact (worker_setWorker_of_ne hji ..).trans (h.fresh j hj)
  · intro j _
    refine forall_setWorker (Q := fun _ w => w.thread.Idle) ?_ ?_ j
    · exact h.idle i fun heq => absurd heq hidle
    · exact fun k _ => h.idle k fun heq => absurd heq hidle
  · show ({ s.setIos i ios with pc } : IoServicePool Task).Phase pc
    cases pc with
    | waiting => exact absurd rfl hended.1
    | done => exact absurd rfl hended.2.1
    | joinAt j => exact absurd rfl (hended.2.2 j)
    | _ => exact hphase

theorem Inv.quitAt_next (h : s.Inv) {i : Nat} (hpc : s.pc = .quitAt i) (hen : s.OwnerEnabled) :
    s.ownerNext.Inv := by
  have hphase := h.phase
  rw [hpc] at hphase
  obtain ⟨hfull, hi⟩ := hphase
  have hcaller := h.caller (by simp [hpc])
  simp only [hpc, reduceCtorEq, if_false] at hcaller
  have htold := h.told
  rw [hpc] at htold
  rw [ownerNext_quitAt hpc]
  split
  · next hlt =>
      have hthreads : i < s.threads := by rw [hfull.1]; exact hlt
      rw [h.serviceAt_eq (by rw [hfull.2]; exact hlt)]
      have hmay : (s.worker i).ios.MayCall .owner := by
        have hen : i < s.size → (s.worker (s.serviceAt i)).ios.MayCall .owner := by
          simpa [OwnerEnabled, hpc] using hen
        rw [h.serviceAt_eq (by rw [hfull.2]; exact hlt)] at hen
        exact hen hlt
      refine h.setIos (by simp [hpc]) hthreads ((h.worker i).ios_next (a := .setQuit .owner) hmay)
        ?_ ?_ ⟨hfull, hlt⟩ (by simp)
      · -- The `i`-th service is told now.
        refine forall_setWorker (Q := fun j w => w.ios.quit = true ↔ j < i + 1) ?_ ?_
        · exact iff_of_true rfl (Nat.lt_succ_self i)
        · intro j hji
          rw [htold j]
          show j < i ↔ j < i + 1
          omega
      · refine forall_setWorker (Q := fun j w => w.ios.caller .owner =
          if PoolPc.wakeAt i = .wakeAt j then .beforeWakeMeUp else .outside) ?_ ?_
        · rw [if_pos rfl]
          show Function.update (s.worker i).ios.caller .owner .beforeWakeMeUp .owner = _
          exact Function.update_self ..
        · intro j hji
          rw [hcaller j, if_neg]
          simpa using hji.symm
  · next hnot =>
      obtain rfl : i = s.size := Nat.le_antisymm hi (Nat.le_of_not_lt hnot)
      refine h.move (by simp [hpc]) (by simp [hpc, PoolPc.told]) ?_ ?_
      · simpa using hcaller
      · exact ⟨hfull, Nat.zero_le _, fun j hj => absurd hj (Nat.not_lt_zero j)⟩

theorem Inv.wakeAt_next (h : s.Inv) {i : Nat} (hpc : s.pc = .wakeAt i) : s.ownerNext.Inv := by
  have hphase := h.phase
  rw [hpc] at hphase
  obtain ⟨hfull, hlt⟩ := hphase
  have hcaller := h.caller (by simp [hpc])
  simp only [hpc, PoolPc.wakeAt.injEq] at hcaller
  have htold := h.told
  rw [hpc] at htold
  have hthreads : i < s.threads := by rw [hfull.1]; exact hlt
  rw [ownerNext_wakeAt hpc, h.serviceAt_eq (by rw [hfull.2]; exact hlt)]
  have hwake : (s.worker i).ios.Enabled (.wakeMeUp .owner) := by
    have hi := hcaller i
    rwa [if_pos rfl] at hi
  refine h.setIos (by simp [hpc]) hthreads ((h.worker i).ios_next hwake) ?_ ?_ ⟨hfull, hlt⟩
    (by simp)
  · exact forall_setWorker (Q := fun j w => w.ios.quit = true ↔ j < i + 1) (htold i)
      fun j _ => htold j
  · refine forall_setWorker (Q := fun j w => w.ios.caller .owner =
      if PoolPc.quitAt (i + 1) = .wakeAt j then .beforeWakeMeUp else .outside) ?_ ?_
    · show Function.update (s.worker i).ios.caller .owner .outside .owner = _
      exact Function.update_self ..
    · intro j hji
      rw [hcaller j, if_neg hji.symm]
      rfl

theorem Inv.joinAt_next (h : s.Inv) {i : Nat} (hpc : s.pc = .joinAt i) (hen : s.OwnerEnabled) :
    s.ownerNext.Inv := by
  have hphase := h.phase
  rw [hpc] at hphase
  obtain ⟨hfull, hi, hended⟩ := hphase
  have hcaller := h.caller (by simp [hpc])
  simp only [hpc, reduceCtorEq, if_false] at hcaller
  rw [ownerNext_joinAt hpc]
  split
  · next hlt =>
      have hjoin : (s.worker i).thread.pc = .ended := by
        have hen : i < s.size → (s.worker i).thread.pc = .ended := by
          simpa [OwnerEnabled, hpc] using hen
        exact hen hlt
      refine h.move (by simp [hpc]) (by simp [hpc, PoolPc.told]) (by simpa using hcaller)
        ⟨hfull, hlt, ?_⟩
      intro j hj
      rcases Nat.lt_succ_iff_lt_or_eq.mp hj with hlt | rfl
      · exact hended j hlt
      · exact hjoin
  · next hnot =>
      refine h.move (by simp [hpc]) (by simp [hpc, PoolPc.told]) (by simpa using hcaller)
        ⟨hfull, ?_⟩
      intro j hj
      exact hended j (Nat.lt_of_lt_of_le hj (Nat.le_of_not_lt hnot))

theorem Inv.owner_next (h : s.Inv) (hen : s.OwnerEnabled) : s.ownerNext.Inv := by
  cases hpc : s.pc with
  | spawn => exact h.spawn_next hpc
  | collect => exact h.collect_next hpc
  | waiting => exact h.waiting_next hpc hen
  | ready => simp [OwnerEnabled, hpc] at hen
  | quitAt i => exact h.quitAt_next hpc hen
  | wakeAt i => exact h.wakeAt_next hpc
  | joinAt i => exact h.joinAt_next hpc hen
  | done => simp [OwnerEnabled, hpc] at hen

/-- `quit()` is called outside every other call of the owner. -/
theorem Inv.quit_next (h : s.Inv) (hen : s.Enabled .quit) : (s.next .quit).Inv := by
  rcases hen with ⟨hpc, houtside⟩
  have hphase := h.phase
  rw [hpc] at hphase
  refine h.move (by simp [hpc]) (by simp [hpc, PoolPc.told]) ?_ ⟨hphase, Nat.zero_le _⟩
  intro i
  show (s.worker i).ios.caller .owner = .outside
  by_cases hi : i < s.threads
  · exact houtside i hi
  · rw [h.fresh i (Nat.le_of_not_lt hi)]
    rfl

theorem Inv.nextService_next (h : s.Inv) : s.nextService.Inv := by
  have hphase := h.phase
  unfold nextService
  dsimp only
  split
  · exact { h with phase := by cases hpc : s.pc <;> rw [hpc] at hphase <;> exact hphase }
  · exact { h with phase := by cases hpc : s.pc <;> rw [hpc] at hphase <;> exact hphase }

theorem Inv.next (h : s.Inv) (hen : s.Enabled a) : (s.next a).Inv := by
  cases a with
  | owner => exact h.owner_next hen
  | quit => exact h.quit_next hen
  | nextService => exact h.nextService_next
  | thread i a => exact h.thread_next hen
  | io i a => exact h.io_next hen

theorem Inv.step (h : s.Inv) (hs : s.step a = some s') : s'.Inv := by
  rcases step_eq_some.mp hs with ⟨hen, rfl⟩
  exact h.next hen

theorem inv_run {size : Nat} {as : List (Act Task)}
    (hrun : run IoServicePool.step (construct size) as = some s) : s.Inv :=
  invariant_run (fun _ _ _ h hs => Inv.step h hs) (inv_construct size) hrun

/-! ## What `run()` has collected -/

/-- The services of a pool that has started are all there. -/
theorem Inv.full (h : s.Inv) (hpc : s.pc.started = true) : s.Full := by
  have hphase := h.phase
  cases hs : s.pc with
  | spawn => simp [hs, PoolPc.started] at hpc
  | collect => simp [hs, PoolPc.started] at hpc
  | waiting => simp [hs, PoolPc.started] at hpc
  | ready =>
      rw [hs] at hphase
      exact hphase
  | _ =>
      rw [hs] at hphase
      exact hphase.1

/-- What `next_service` reads and writes. -/
def turnState (s : IoServicePool Task) : Nat × List Nat × Nat × Bool :=
  (s.size, s.served, s.serviceIndex, s.outOfRange)

theorem turnState_collected (s : IoServicePool Task) (a : ServiceThread.Act ThreadId) :
    (s.collected a).turnState = s.turnState := by
  unfold collected
  dsimp only
  split <;> rfl

/-- The owner does not take part in `next_service`. -/
theorem turnState_ownerNext (s : IoServicePool Task) : s.ownerNext.turnState = s.turnState := by
  cases hpc : s.pc with
  | spawn =>
      rw [ownerNext_spawn hpc]
      split <;> rfl
  | collect =>
      rw [ownerNext_collect hpc]
      split
      · exact turnState_collected s _
      · rfl
  | waiting =>
      rw [ownerNext_waiting hpc]
      exact turnState_collected s _
  | quitAt i =>
      rw [ownerNext_quitAt hpc]
      split <;> rfl
  | wakeAt i =>
      rw [ownerNext_wakeAt hpc]
      rfl
  | joinAt i =>
      rw [ownerNext_joinAt hpc]
      split <;> rfl
  | ready | done => simp only [ownerNext, hpc]

theorem size_step (hs : s.step a = some s') : s'.size = s.size := by
  rcases step_eq_some.mp hs with ⟨-, rfl⟩
  cases a with
  | owner => exact congrArg Prod.fst (turnState_ownerNext s)
  | nextService =>
      show s.nextService.size = s.size
      unfold nextService
      dsimp only
      split <;> rfl
  | _ => rfl

theorem size_run {size : Nat} {as : List (Act Task)}
    (hrun : run IoServicePool.step (construct size) as = some s) : s.size = size := by
  refine invariant_run (I := fun s => s.size = size) ?_ rfl hrun
  intro s a s' h hs
  exact (size_step hs).trans h

/-- In any interleaving of `run()` with its threads, what is collected so far are the `io_service`s of
the first threads, in their order and each of them published; and when `run()` has returned, the
ones of all of them. -/
theorem services_of_run {size : Nat} {as : List (Act Task)}
    (hrun : run IoServicePool.step (construct size) as = some s) :
    s.services <+: List.range size ∧
      (∀ i ∈ s.services, i < s.threads ∧ (s.worker i).thread.service = some i) ∧
      (s.pc.started = true → s.services = List.range size) := by
  have h := inv_run hrun
  have hsize := size_run hrun
  have hle : s.services.length ≤ size := hsize ▸ Nat.le_trans h.services_le h.threads_le
  refine ⟨?_, ?_, ?_⟩
  · rw [h.services, ← Nat.min_eq_left hle, ← List.take_range]
    exact List.take_prefix _ _
  · intro i hi
    rw [h.services, List.mem_range] at hi
    refine ⟨Nat.lt_of_lt_of_le hi h.services_le, ?_⟩
    rw [(h.worker i).thread.service, if_neg (h.published i hi)]
  · intro hpc
    rw [h.services, (h.full hpc).2, hsize]

/-- A pool of two: the owner waits for the second thread, which is notified. -/
def startTwo : List (Act Nat) :=
  [.owner, .owner, .owner, .thread 0 .setService, .owner, .owner, .thread 1 .setService,
    .thread 0 (.notifyOne none), .thread 1 (.notifyOne (some (.owner, ()))), .owner, .owner]

theorem services_of_run_startTwo :
    ∃ s, run IoServicePool.step (construct 2) startTwo = some s ∧ s.pc = .ready ∧
      s.services = List.range 2 := by
  have hrun : run IoServicePool.step (construct 2) startTwo = some _ := rfl
  exact ⟨_, hrun, rfl, (services_of_run hrun).2.2 rfl⟩

end IoServicePool

end Net
end Muradin
