import Muradin.Net.IoServicePool.Start

/-!
# Quit — the pool comes up, and down again

`quit()` tells every service to quit and then joins the threads one after the other.  A service lives
on the stack of its thread: when its loop leaves, it is destroyed.

* `owner_steps` — `run()` and `quit()` take a bounded number of steps, and as long as they have not
  returned the owner can take one, or the thread that it waits for;
* `joined_of_done` — what is left when `quit()` has returned, and of what was queued;
* `wakes_existing_iff` — `quit()` of a service writes to its wake-up descriptor behind `m_quit=true`,
  when the service may be gone already.
-/

namespace Muradin
namespace Net

open Lib

/-! ## Progress of one thread -/

namespace ServiceThread

variable {Tid Ptr : Type} {s : ServiceThread Tid Ptr}

/-- A thread that has not come to its loop can take its next step. -/
theorem Idle.exists_own {tid : Tid} {ios : Ptr} (hinv : s.Inv tid ios) (h : s.Idle)
    (hpc : s.pc.notified = false) : ∃ a : Act Tid, a.isOwn = true ∧ a ≠ .loopReturns ∧ s.Enabled a := by
  have hupdating := hinv.updating
  cases hs : s.pc with
  | setService =>
      rw [hs] at hupdating
      refine ⟨.setService, rfl, by simp, hs, ?_, ?_, ?_⟩
      · rw [hupdating]
        exact List.not_mem_nil
      · simp [h.1]
      · simp [h.2]
  | notifyOne =>
      rw [hs, if_pos rfl] at hupdating
      refine ⟨.notifyOne none, rfl, by simp, hs, ?_, h.1⟩
      rw [hupdating, hinv.sameTid]
      exact List.mem_singleton_self tid
  | inRun =>
      rw [hs] at hpc
      cases hpc
  | ended =>
      rw [hs] at hpc
      cases hpc

end ServiceThread

namespace IoServicePool

variable {Task : Type} {s s' : IoServicePool Task} {a : Act Task}

/-- The thread of the pool that the owner waits for, in `m_threads[i].run()` or in
`m_threads[i].join()`. -/
def awaited (s : IoServicePool Task) : Option Nat :=
  match s.pc with
  | .waiting => some s.services.length
  | .joinAt i => some i
  | _ => none

/-- A step of the `i`-th thread of the pool, or of the loop that it runs. -/
def Act.OfThread (i : Nat) : Act Task → Prop
  | .thread j _ => j = i
  | .io j a => j = i ∧ (a.isLoop = true ∨ a = .wakeMeUp (.service i))
  | _ => False

/-- A step of the owner, or of the thread that it waits for. -/
def GoesOn (s : IoServicePool Task) (a : Act Task) : Prop :=
  a = .owner ∨ ∃ i, s.awaited = some i ∧ a.OfThread i

def Act.isOwner : Act Task → Bool
  | .owner => true
  | _ => false

/-! ## Nothing stops the owner -/

theorem Inv.exists_step_waiting (h : s.Inv) (hpc : s.pc = .waiting) :
    ∃ a : Act Task, s.GoesOn a ∧ s.Enabled a := by
  have hphase := h.phase
  rw [hpc] at hphase
  obtain ⟨hthreads, hlt, hwaits⟩ := hphase
  have hthread := (h.worker s.services.length).thread
  have hawaited : s.awaited = some s.services.length := by simp only [awaited, hpc]
  rcases hwaits.exists_step hthread (by simp) with ⟨a, hown, hret, hen⟩ | hen
  · refine ⟨.thread s.services.length a, Or.inr ⟨_, hawaited, rfl⟩, ?_, hown, hen,
      fun heq => absurd heq hret⟩
    omega
  · exact ⟨.owner, Or.inl rfl, by simpa [Enabled, OwnerEnabled, hpc] using hen⟩

theorem mayStep_of_isLoop {i : Nat} {a : IoService.Act ThreadId Task} (ha : a.isLoop = true)
    (hpc : (s.worker i).thread.pc = .inRun) : s.MayStep i a := by
  cases a with
  | runTask t task => cases ha
  | setQuit t => cases ha
  | wakeMeUp t => cases ha
  | _ => exact hpc

/-- A thread that is to be joined has ended, or it goes on. -/
theorem Inv.exists_step_joinAt (h : s.Inv) {i : Nat} (hpc : s.pc = .joinAt i) (hi : i < s.size) :
    ∃ a : Act Task, s.GoesOn a ∧ s.Enabled a := by
  have hphase := h.phase
  rw [hpc] at hphase
  obtain ⟨hfull, -, -⟩ := hphase
  have hthreads : i < s.threads := by rw [hfull.1]; exact hi
  have hthread := (h.worker i).thread
  have hidle : (s.worker i).thread.Idle := h.idle i fun heq => by simp [hpc] at heq
  have hawaited : s.awaited = some i := by simp only [awaited, hpc]
  cases hrun : (s.worker i).thread.pc with
  | setService =>
      rcases hidle.exists_own hthread (by rw [hrun]; rfl) with ⟨a, hown, hret, hen⟩
      exact ⟨.thread i a, Or.inr ⟨i, hawaited, rfl⟩, hthreads, hown, hen, fun heq => absurd heq hret⟩
  | notifyOne =>
      rcases hidle.exists_own hthread (by rw [hrun]; rfl) with ⟨a, hown, hret, hen⟩
      exact ⟨.thread i a, Or.inr ⟨i, hawaited, rfl⟩, hthreads, hown, hen, fun heq => absurd heq hret⟩
  | inRun =>
      by_cases hret : (s.worker i).ios.loopPc = .returned
      · exact ⟨.thread i .loopReturns, Or.inr ⟨i, hawaited, rfl⟩, hthreads, rfl, hrun, fun _ => hret⟩
      · rcases IoService.exists_loop_step hret with ⟨a, t, hloop, hstep⟩ | hcaller
        · have hen := (IoService.step_eq_some.mp hstep).1
          exact ⟨.io i a, Or.inr ⟨i, hawaited, rfl, Or.inl hloop⟩, hthreads,
            mayStep_of_isLoop hloop hrun, hen⟩
        · -- The loop is at the end of a call of its own.
          rw [(h.worker i).batch.owner] at hcaller
          refine ⟨.io i (.wakeMeUp (.service i)), Or.inr ⟨i, hawaited, rfl, Or.inr rfl⟩, hthreads,
            ⟨?_, ?_, ?_⟩, hcaller⟩
          · rw [hrun]
            simp
          · rw [hrun]
            simp
          · simp
  | ended => exact ⟨.owner, Or.inl rfl, by simp [Enabled, OwnerEnabled, hpc, hrun]⟩

/-- As long as `run()` or `quit()` has not returned, the owner can take a step, or the thread of the
pool that it waits for. -/
theorem Inv.exists_step (h : s.Inv) (hready : s.pc ≠ .ready) (hdone : s.pc ≠ .done) :
    ∃ a : Act Task, s.GoesOn a ∧ s.Enabled a := by
  have hphase := h.phase
  cases hpc : s.pc with
  | spawn => exact ⟨.owner, Or.inl rfl, by simp [Enabled, OwnerEnabled, hpc]⟩
  | collect =>
      refine ⟨.owner, Or.inl rfl, ?_⟩
      have hen : (s.worker s.services.length).thread.Enabled (.run .owner) :=
        (h.collect_idle hpc).enabled_run (h.worker _).thread (by simp)
      simp [Enabled, OwnerEnabled, hpc, hen]
  | waiting => exact h.exists_step_waiting hpc
  | ready => exact absurd hpc hready
  | quitAt i =>
      refine ⟨.owner, Or.inl rfl, ?_⟩
      rw [hpc] at hphase
      have hmay : i < s.size → (s.worker (s.serviceAt i)).ios.MayCall .owner := by
        intro hi
        rw [h.serviceAt_eq (by rw [hphase.1.2]; exact hi)]
        refine ⟨?_, ?_⟩
        · rw [h.caller (by simp [hpc]) i, hpc]
          rfl
        · intro hloop
          -- The owner is not the thread of a service.
          rw [IoService.checkThisLoop, (h.worker i).batch.owner] at hloop
          cases hloop
      simpa [Enabled, OwnerEnabled, hpc] using hmay
  | wakeAt i =>
      refine ⟨.owner, Or.inl rfl, ?_⟩
      rw [hpc] at hphase
      have hcaller := h.caller (by simp [hpc]) i
      rw [hpc, if_pos rfl] at hcaller
      have hwake : (s.worker (s.serviceAt i)).ios.caller .owner = .beforeWakeMeUp := by
        rwa [h.serviceAt_eq (by rw [hphase.1.2]; exact hphase.2)]
      simpa [Enabled, OwnerEnabled, hpc] using hwake
  | joinAt i =>
      by_cases hi : i < s.size
      · exact h.exists_step_joinAt hpc hi
      · exact ⟨.owner, Or.inl rfl, by simp [Enabled, OwnerEnabled, hpc, hi]⟩
  | done => exact absurd hpc hdone

/-! ## How many steps the owner takes -/

/-- The steps that `quit()` has still to take, and before it those of `run()`. -/
def ownerLeft (s : IoServicePool Task) : Nat :=
  match s.pc with
  | .spawn => (s.size - s.threads) + 5 * s.size + 4
  | .collect => 2 * (s.size - s.services.length) + 3 * s.size + 3
  | .waiting => 2 * (s.size - s.services.length) + 3 * s.size + 2
  | .ready => 3 * s.size + 2
  | .quitAt i => 2 * (s.size - i) + s.size + 2
  | .wakeAt i => 2 * (s.size - i) + s.size + 1
  | .joinAt i => s.size - i + 1
  | .done => 0

/-- An address that was collected makes one less to collect. -/
theorem ownerLeft_push {thread : ServiceThread ThreadId Nat} {p : Nat}
    (hlt : s.services.length < s.size) :
    ({ s.setThread s.services.length thread with services := s.services ++ [p], pc := .collect } :
      IoServicePool Task).ownerLeft + 1 = 2 * (s.size - s.services.length) + 3 * s.size + 2 := by
  show 2 * (s.size - (s.services ++ [p]).length) + 3 * s.size + 3 + 1 = _
  rw [List.length_append, List.length_singleton]
  omega

theorem Inv.ownerLeft_owner (h : s.Inv) (hen : s.OwnerEnabled) :
    s.ownerNext.ownerLeft + 1 ≤ s.ownerLeft := by
  have hphase := h.phase
  cases hpc : s.pc with
  | spawn =>
      rw [hpc] at hphase
      have hnone : s.services = [] := hphase
      rw [ownerNext_spawn hpc]
      split
      · simp only [ownerLeft, hpc]
        omega
      · simp only [ownerLeft, hpc, hnone, List.length_nil]
        omega
  | collect =>
      have hleft : s.ownerLeft = 2 * (s.size - s.services.length) + 3 * s.size + 3 := by
        simp only [ownerLeft, hpc]
      rw [ownerNext_collect hpc]
      split
      · next hlt =>
          have hrun := (h.collect_idle hpc).run (h.worker _).thread .owner
          rcases hrun with ⟨hservice, -⟩ | ⟨hservice, -⟩
          · rw [collected_some ((ServiceThread.service_run ..).trans hservice),
              ownerLeft_push hlt, hleft]
            omega
          · rw [collected_none ((ServiceThread.service_run ..).trans hservice), hleft]
            exact Nat.le_refl _
      · simp only [ownerLeft, hpc]
        omega
  | waiting =>
      rw [hpc] at hphase
      obtain ⟨-, hlt, hwaits⟩ := hphase
      have hen : (s.worker s.services.length).thread.Enabled (.recheck .owner) := by
        simpa [OwnerEnabled, hpc] using hen
      have hservice := (hwaits.recheck (h.worker _).thread hen).1
      rw [ownerNext_waiting hpc,
        collected_some ((ServiceThread.service_recheck ..).trans hservice), ownerLeft_push hlt]
      simp only [ownerLeft, hpc]
      exact Nat.le_refl _
  | ready => simp [OwnerEnabled, hpc] at hen
  | quitAt i =>
      rw [ownerNext_quitAt hpc]
      split
      · show 2 * (s.size - i) + s.size + 1 + 1 ≤ s.ownerLeft
        simp only [ownerLeft, hpc]
        exact Nat.le_refl _
      · simp only [ownerLeft, hpc]
        omega
  | wakeAt i =>
      rw [hpc] at hphase
      have hlt : i < s.size := hphase.2
      rw [ownerNext_wakeAt hpc]
      show 2 * (s.size - (i + 1)) + s.size + 2 + 1 ≤ s.ownerLeft
      simp only [ownerLeft, hpc]
      omega
  | joinAt i =>
      rw [ownerNext_joinAt hpc]
      split
      · simp only [ownerLeft, hpc]
        omega
      · simp only [ownerLeft, hpc]
        omega
  | done => simp [OwnerEnabled, hpc] at hen

theorem Inv.ownerLeft_step (h : s.Inv) (hs : s.step a = some s') :
    s'.ownerLeft + a.isOwner.toNat ≤ s.ownerLeft := by
  rcases step_eq_some.mp hs with ⟨hen, rfl⟩
  cases a with
  | owner => exact h.ownerLeft_owner hen
  | quit =>
      show 2 * (s.size - 0) + s.size + 2 ≤ s.ownerLeft
      simp only [ownerLeft, hen.1]
      omega
  | nextService =>
      show s.nextService.ownerLeft ≤ s.ownerLeft
      unfold nextService
      dsimp only
      split <;> exact Nat.le_refl _
  | thread i a => exact Nat.le_refl _
  | io i a => exact Nat.le_refl _

/-- In every run, whatever the threads do: `run()` takes at most `3 * m_size + 2` steps of its owner,
and together with `quit()` at most twice as many; and as long as one of them has not returned, its
owner can take a step, or the thread of the pool that it waits for. -/
theorem owner_steps {size : Nat} {as : List (Act Task)}
    (hrun : run IoServicePool.step (construct size) as = some s) :
    as.countP Act.isOwner ≤ 6 * size + 4 ∧
      (s.pc.started = false ∨ s.pc = .ready → as.countP Act.isOwner ≤ 3 * size + 2) ∧
      (s.pc ≠ .ready → s.pc ≠ .done → ∃ a s', s.GoesOn a ∧ s.step a = some s') := by
  have h := inv_run hrun
  have hsize := size_run hrun
  have hstep : ∀ (s : IoServicePool Task) a s', s.Inv → s.step a = some s' →
      s'.Inv ∧ s'.ownerLeft + a.isOwner.toNat ≤ s.ownerLeft + 0 :=
    fun _ _ _ h hs => ⟨h.step hs, h.ownerLeft_step hs⟩
  have hpaid := potential_run ownerLeft (fun a => a.isOwner.toNat) (fun _ => 0) hstep
    (inv_construct size) hrun
  have hstart : (construct size : IoServicePool Task).ownerLeft = 6 * size + 4 := by
    show size - 0 + 5 * size + 4 = 6 * size + 4
    omega
  rw [sum_map_toNat, hstart, List.map_const', List.sum_replicate_nat, Nat.mul_zero] at hpaid
  refine ⟨by omega, ?_, ?_⟩
  · intro hpc
    have hleft : 3 * size + 2 ≤ s.ownerLeft := by
      unfold ownerLeft
      rw [hsize]
      cases hs : s.pc with
      | spawn | collect | waiting | ready => dsimp only; omega
      | _ => simp [hs, PoolPc.started] at hpc
    omega
  · intro hready hdone
    rcases h.exists_step hready hdone with ⟨a, hof, hen⟩
    exact ⟨a, s.next a, hof, step_eq_some.mpr ⟨hen, rfl⟩⟩

/-! ## When `quit()` has returned -/

/-- What a step pushes on the `i`-th service. -/
def Act.pushOf (i : Nat) : Act Task → List (ThreadId × Task)
  | .io j a => if j = i then IoService.pushOf (.service i) a else []
  | _ => []

/-- The tasks that a run pushes on the `i`-th service, in the order of the pushes. -/
def pushes (i : Nat) (as : List (Act Task)) : List (ThreadId × Task) :=
  as.flatMap (Act.pushOf i)

theorem queued_setIos {i : Nat} {ios : IoService ThreadId Task} {pushed : List (ThreadId × Task)}
    (hself : ios.queued = (s.worker i).ios.queued ++ pushed) (j : Nat) :
    ((s.setIos i ios).worker j).ios.queued =
      (s.worker j).ios.queued ++ if i = j then pushed else [] := by
  by_cases hij : i = j
  · subst hij
    rw [setIos, worker_setWorker_self, if_pos rfl]
    exact hself
  · rw [setIos, worker_setWorker_of_ne (Ne.symm hij), if_neg hij, List.append_nil]

theorem ios_collected (s : IoServicePool Task) (a : ServiceThread.Act ThreadId) (i : Nat) :
    ((s.collected a).worker i).ios = (s.worker i).ios := by
  unfold collected
  dsimp only
  split <;> exact ios_setThread s _ _ i

/-- The owner pushes nothing in `run()` and `quit()`. -/
theorem queued_ownerNext (s : IoServicePool Task) (i : Nat) :
    (s.ownerNext.worker i).ios.queued = (s.worker i).ios.queued := by
  have hios : ∀ {p : Nat} {ios : IoService ThreadId Task},
      ios.queued = (s.worker p).ios.queued →
        ((s.setIos p ios).worker i).ios.queued = (s.worker i).ios.queued := by
    intro p ios hself
    have hnone : ios.queued = (s.worker p).ios.queued ++ [] := by rw [hself, List.append_nil]
    simpa using queued_setIos hnone i
  cases hpc : s.pc with
  | spawn =>
      rw [ownerNext_spawn hpc]
      split <;> rfl
  | collect =>
      rw [ownerNext_collect hpc]
      split
      · rw [ios_collected]
      · rfl
  | waiting => rw [ownerNext_waiting hpc, ios_collected]
  | quitAt j =>
      rw [ownerNext_quitAt hpc]
      split
      · exact hios rfl
      · rfl
  | wakeAt j =>
      rw [ownerNext_wakeAt hpc]
      exact hios rfl
  | joinAt j =>
      rw [ownerNext_joinAt hpc]
      split <;> rfl
  | ready | done =>
      unfold ownerNext
      rw [hpc]

/-- The step lemma: the queue of a service grows by what the step pushes on it. -/
theorem Inv.queued_step (h : s.Inv) (hs : s.step a = some s') (i : Nat) :
    (s'.worker i).ios.queued = (s.worker i).ios.queued ++ a.pushOf i := by
  rcases step_eq_some.mp hs with ⟨hen, rfl⟩
  cases a with
  | owner => exact (queued_ownerNext s i).trans (List.append_nil _).symm
  | quit => exact (List.append_nil _).symm
  | nextService =>
      show (s.nextService.worker i).ios.queued = _ ++ []
      rw [List.append_nil]
      unfold nextService
      dsimp only
      split <;> rfl
  | thread j a =>
      show ((s.setThread j _).worker i).ios.queued = _ ++ []
      rw [ios_setThread, List.append_nil]
  | io j a =>
      have hpush := (h.worker j).batch.queued_step (IoService.step_eq_some.mpr ⟨hen.2.2, rfl⟩)
      rw [Act.pushOf]
      refine (queued_setIos hpush i).trans ?_
      by_cases hji : j = i
      · subst hji
        rfl
      · rw [if_neg hji, if_neg hji]

/-- At every point of a run the queue of a service is exactly what was pushed on it so far. -/
theorem queued_run {size : Nat} {as : List (Act Task)}
    (hrun : run IoServicePool.step (construct size) as = some s) (i : Nat) :
    (s.worker i).ios.queued = pushes i as :=
  view_run (fun s : IoServicePool Task => (s.worker i).ios.queued) (Act.pushOf i)
    (fun _ _ _ h hs => ⟨Inv.step h hs, h.queued_step hs i⟩) (inv_construct size) hrun

/-- When `quit()` has returned, every thread of the pool has ended: its loop was told to quit and has
returned, and of the tasks that the run has pushed on its service, in the order of the pushes, the
first ones were executed and the others still wait. -/
theorem joined_of_done {size : Nat} {as : List (Act Task)}
    (hrun : run IoServicePool.step (construct size) as = some s) (hdone : s.pc = .done) :
    ∀ i < size, (s.worker i).thread.pc = .ended ∧ (s.worker i).ios.quit = true ∧
      (s.worker i).ios.loopPc = .returned ∧
      (s.worker i).ios.executed ++ (s.worker i).ios.pendingTasks = pushes i as := by
  intro i hi
  have h := inv_run hrun
  have hphase := h.phase
  rw [hdone] at hphase
  have hended : (s.worker i).thread.pc = .ended := hphase.2 i (size_run hrun ▸ hi)
  have hret : (s.worker i).ios.loopPc = .returned := (h.worker i).ended hended
  refine ⟨hended, (h.worker i).leaves hret, hret, ?_⟩
  -- No task is left half run.
  have hidle : (s.worker i).ios.toRun = [] :=
    (h.worker i).batch.idle (by simp [hret]) (by simp [hret])
  rw [← queued_run hrun i]
  simp [IoService.queued, IoService.rest, hret, hidle]

/-! ## The wake-up of a service that is gone -/

/-- The `io_service` that the owner is about to access in `quit()` still exists. -/
def Accesses (s : IoServicePool Task) : Prop :=
  ∀ i, (s.pc = .quitAt i ∧ i < s.size ∨ s.pc = .wakeAt i) →
    (s.worker (s.serviceAt i)).thread.pc ≠ .ended

/-- The loop of a service does not leave between `m_quit=true` and the wake-up of its `quit()`. -/
def StaysForWakeUp (s : IoServicePool Task) : Act Task → Prop
  | .thread i .loopReturns => s.pc ≠ .wakeAt i
  | _ => True

instance (s : IoServicePool Task) : (a : Act Task) → Decidable (s.StaysForWakeUp a)
  | .thread _ .loopReturns => inferInstanceAs (Decidable (_ ≠ _))
  | .thread _ .setService | .thread _ (.notifyOne _) | .thread _ (.run _) | .thread _ (.recheck _)
  | .owner | .quit | .nextService | .io _ _ => inferInstanceAs (Decidable True)

/-- A service that was not told to quit is there. -/
theorem Inv.not_ended_of_told_le (h : s.Inv) {i : Nat} (hi : s.pc.told s.size ≤ i) :
    (s.worker i).thread.pc ≠ .ended := by
  intro hended
  have hquit : (s.worker i).ios.quit = true := (h.worker i).leaves ((h.worker i).ended hended)
  exact Nat.not_lt.mpr hi ((h.told i).mp hquit)

/-- The service that the owner is about to wake up still exists. -/
def WakesExisting (s : IoServicePool Task) : Prop :=
  ∀ i, s.pc = .wakeAt i → (s.worker i).thread.pc ≠ .ended

/-- Only the wake-up can come too late. -/
theorem Inv.accesses_iff (h : s.Inv) : s.Accesses ↔ s.WakesExisting := by
  have hphase := h.phase
  constructor
  · intro haccess i hpc
    rw [hpc] at hphase
    have hi := haccess i (Or.inr hpc)
    rwa [h.serviceAt_eq (by rw [hphase.1.2]; exact hphase.2)] at hi
  · rintro hwake i (⟨hpc, hi⟩ | hpc)
    · rw [hpc] at hphase
      rw [h.serviceAt_eq (by rw [hphase.1.2]; exact hi)]
      refine h.not_ended_of_told_le ?_
      rw [hpc]
      exact Nat.le_refl i
    · have hi := hwake i hpc
      rw [hpc] at hphase
      rwa [h.serviceAt_eq (by rw [hphase.1.2]; exact hphase.2)]

theorem pc_collected (s : IoServicePool Task) (a : ServiceThread.Act ThreadId) :
    (s.collected a).pc = .collect ∨ (s.collected a).pc = .waiting := by
  unfold collected
  dsimp only
  split
  · exact Or.inl rfl
  · exact Or.inr rfl

/-- The owner comes to a wake-up from `m_quit=true` of the same service. -/
theorem quitAt_of_ownerNext {i : Nat} (hpc : s.ownerNext.pc = .wakeAt i) (hen : s.OwnerEnabled) :
    s.pc = .quitAt i ∧ i < s.size := by
  have hcollected : ∀ a, (s.collected a).pc ≠ .wakeAt i := by
    intro a heq
    rcases pc_collected s a with hs | hs <;> simp [hs] at heq
  cases hs : s.pc with
  | quitAt j =>
      rw [ownerNext_quitAt hs] at hpc
      split at hpc
      · next hlt =>
          obtain rfl : j = i := PoolPc.wakeAt.inj hpc
          exact ⟨rfl, hlt⟩
      · cases hpc
  | spawn =>
      rw [ownerNext_spawn hs] at hpc
      split at hpc
      · simp [hs] at hpc
      · cases hpc
  | collect =>
      rw [ownerNext_collect hs] at hpc
      split at hpc
      · exact absurd hpc (hcollected _)
      · cases hpc
  | waiting =>
      rw [ownerNext_waiting hs] at hpc
      exact absurd hpc (hcollected _)
  | wakeAt j =>
      rw [ownerNext_wakeAt hs] at hpc
      cases hpc
  | joinAt j =>
      rw [ownerNext_joinAt hs] at hpc
      split at hpc <;> cases hpc
  | ready | done => simp [OwnerEnabled, hs] at hen

/-- Of the steps of a thread only the last one destroys its service. -/
theorem ended_thread_iff {i : Nat} {a : ServiceThread.Act ThreadId} (ha : a ≠ .loopReturns)
    (hen : s.Enabled (.thread i a)) (j : Nat) :
    ((s.next (.thread i a)).worker j).thread.pc = .ended ↔ (s.worker j).thread.pc = .ended := by
  rcases hen with ⟨-, hown, hen, -⟩
  by_cases hji : j = i
  · subst hji
    show ((s.setThread j _).worker j).thread.pc = .ended ↔ _
    rw [setThread, worker_setWorker_self]
    refine iff_of_false ?_ (Worker.not_ended_of_own hen hown)
    cases a with
    | loopReturns => exact absurd rfl ha
    | run t => cases hown
    | recheck t => cases hown
    | setService =>
        intro hended
        cases hended
    | notifyOne woken =>
        intro hended
        cases hended
  · show ((s.setThread i _).worker j).thread.pc = .ended ↔ _
    rw [setThread, worker_setWorker_of_ne hji]

/-- A step leads to a wake-up that comes too late exactly if a loop leaves ahead of it. -/
theorem Inv.wakesExisting_next_iff (h : s.Inv) (hwake : s.WakesExisting) (hen : s.Enabled a) :
    (s.next a).WakesExisting ↔ s.StaysForWakeUp a := by
  cases a with
  | owner =>
      refine iff_of_true ?_ trivial
      intro i hpc
      rcases quitAt_of_ownerNext hpc hen with ⟨hs, hlt⟩
      have hphase := h.phase
      rw [hs] at hphase
      -- Setting the flag does not touch the thread, which is there.
      have hthere : (s.worker i).thread.pc ≠ .ended := by
        refine h.not_ended_of_told_le ?_
        rw [hs]
        exact Nat.le_refl i
      show (s.ownerNext.worker i).thread.pc ≠ .ended
      rw [ownerNext_quitAt hs, if_pos hlt, h.serviceAt_eq (by rw [hphase.1.2]; exact hlt)]
      show ((s.setWorker i _).worker i).thread.pc ≠ .ended
      rwa [worker_setWorker_self]
  | quit => exact iff_of_true nofun trivial
  | nextService =>
      refine iff_of_true ?_ trivial
      show s.nextService.WakesExisting
      unfold nextService
      dsimp only
      split <;> exact hwake
  | thread i a =>
      by_cases ha : a = .loopReturns
      · subst ha
        constructor
        · intro hnext hpc
          refine hnext i hpc ?_
          show ((s.setThread i _).worker i).thread.pc = .ended
          rw [setThread, worker_setWorker_self]
          rfl
        · intro hstays j hpc
          have hji : j ≠ i := by
            rintro rfl
            exact hstays hpc
          show ((s.setThread i _).worker j).thread.pc ≠ .ended
          rw [setThread, worker_setWorker_of_ne hji]
          exact hwake j hpc
      · have hstays : s.StaysForWakeUp (.thread i a) := by
          cases a with
          | loopReturns => exact absurd rfl ha
          | _ => trivial
        refine iff_of_true ?_ hstays
        intro j hpc hended
        exact hwake j hpc ((ended_thread_iff ha hen j).mp hended)
  | io i a =>
      refine iff_of_true ?_ trivial
      intro j hpc
      have hj : (s.worker j).thread.pc ≠ .ended := hwake j hpc
      show ((s.setIos i _).worker j).thread.pc ≠ .ended
      by_cases hji : j = i
      · subst hji
        rwa [IoServicePool.setIos, worker_setWorker_self]
      · rwa [IoServicePool.setIos, worker_setWorker_of_ne hji]

/-- In every run: `quit()` of the pool accesses only services that still exist, exactly if no loop
leaves between `m_quit=true` and the wake-up of its own `quit()`. -/
theorem wakes_existing_iff {size : Nat} {as : List (Act Task)}
    (hrun : run IoServicePool.step (construct size) as = some s) :
    (∀ bs t, bs <+: as → run IoServicePool.step (construct size) bs = some t → t.Accesses) ↔
      Along IoServicePool.step StaysForWakeUp (construct size) as := by
  have hstep : ∀ (s : IoServicePool Task) a s', s.Inv → s.WakesExisting → s.step a = some s' →
      (s'.WakesExisting ↔ s.StaysForWakeUp a) := by
    intro s a s' h hwake hs
    rcases step_eq_some.mp hs with ⟨hen, rfl⟩
    exact h.wakesExisting_next_iff hwake hen
  rw [← prefixes_iff_along (fun _ _ _ h hs => Inv.step h hs) hstep (inv_construct size) nofun hrun]
  refine forall_congr' fun bs => forall_congr' fun t => forall_congr' fun _ => ?_
  exact forall_congr' fun ht => (inv_run ht).accesses_iff

/-- A pool of one, up to its `quit()`. -/
def startOne : List (Act Nat) :=
  [.owner, .owner, .thread 0 .setService, .owner, .owner, .thread 0 (.notifyOne none)]

/-- The rest of the loop's turn when it was told to quit. -/
def leaveLoop : List (Act Nat) :=
  [.io 0 .testQuit, .thread 0 .loopReturns]

/-- The owner quits the pool, and the loop leaves behind the wake-up. -/
def quitOne : List (Act Nat) :=
  startOne ++ [.quit, .owner, .owner, .owner] ++ leaveLoop ++ [.owner, .owner]

theorem owner_steps_quitOne :
    ∃ s, run IoServicePool.step (construct 1) quitOne = some s ∧ s.pc = .done ∧
      quitOne.countP Act.isOwner = 9 ∧ quitOne.countP Act.isOwner ≤ 6 * 1 + 4 := by
  have hrun : run IoServicePool.step (construct 1) quitOne = some _ := rfl
  exact ⟨_, hrun, rfl, rfl, (owner_steps hrun).1⟩

/-- Before that another thread queues two tasks; the loop swaps one of them out and leaves the other
one behind. -/
def quitWithTasks : List (Act Nat) :=
  startOne ++ [.io 0 .testQuit, .io 0 (.runTask (.other 0) 5), .io 0 (.wakeMeUp (.other 0)),
    .io 0 (.pollReturns false), .io 0 .dispatched, .io 0 .swapPending,
    .io 0 (.runTask (.other 0) 6), .io 0 (.wakeMeUp (.other 0)), .io 0 .runNext, .io 0 .taskReturns,
    .io 0 .batchDone, .quit, .owner, .owner, .owner] ++ leaveLoop ++ [.owner, .owner]

theorem joined_of_done_quitWithTasks :
    ∃ s, run IoServicePool.step (construct 1) quitWithTasks = some s ∧
      (s.worker 0).thread.pc = .ended ∧ (s.worker 0).ios.executed = [(.other 0, 5)] ∧
      (s.worker 0).ios.pendingTasks = [(.other 0, 6)] ∧
      (s.worker 0).ios.executed ++ (s.worker 0).ios.pendingTasks = pushes 0 quitWithTasks := by
  have hany : (run IoServicePool.step (construct 1) quitWithTasks).any
      (fun s => decide (s.pc = .done ∧ (s.worker 0).ios.executed = [(.other 0, 5)] ∧
        (s.worker 0).ios.pendingTasks = [(.other 0, 6)])) = true := by
    decide +kernel
  rcases exists_run_of_any hany with ⟨s, hrun, hdone, hexecuted, hpending⟩
  have hjoined := joined_of_done hrun hdone 0 (by decide)
  exact ⟨s, hrun, hjoined.1, hexecuted, hpending, hjoined.2.2.2⟩

theorem wakes_existing_iff_quitOne :
    ∃ s, run IoServicePool.step (construct 1) quitOne = some s ∧ s.Accesses := by
  have hrun : run IoServicePool.step (construct 1) quitOne = some _ := rfl
  have hall : Along IoServicePool.step StaysForWakeUp (construct 1) quitOne := by decide
  exact ⟨_, hrun, (wakes_existing_iff hrun).mpr hall _ _ (List.prefix_refl _) hrun⟩

/-- The loop leaves ahead of the wake-up, which is then written for a service that is gone. -/
theorem wake_up_too_late :
    ∃ s, run IoServicePool.step (construct 1) (startOne ++ [.quit, .owner] ++ leaveLoop) = some s ∧
      ¬ s.Accesses := by
  refine ⟨_, rfl, ?_⟩
  intro haccess
  exact haccess 0 (Or.inr rfl) rfl

end IoServicePool

end Net
end Muradin
