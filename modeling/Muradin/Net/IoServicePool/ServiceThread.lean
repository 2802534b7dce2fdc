import Muradin.Lib.Monitor

/-!
# ServiceThread — `net/service_thread.h` and `net/service_thread.cpp`

`thread_func` builds an `io_service` on the stack of the new thread, stores its address in `m_service`
with the mutex locked, notifies one thread behind the block, and runs the loop.  `run()` waits until
there is an address and returns it.

`m_service` behind `m_mutex` is a `Monitor`, whose threads all wait for the same.

* `Inv` — what `m_service` is in each phase of `thread_func`;
* `asleep_next_iff` — the one notification is enough for one waiting thread;
* `run_returns` — what `run()` returns, and when no thread sleeps on in it.
-/

namespace Muradin
namespace Net

open Lib

/-- Where the thread is in `thread_func`. -/
inductive ThreadPc
  /-- before the block with `m_service=&ios` -/
  | setService
  /-- before `m_cond.notify_one()` -/
  | notifyOne
  /-- in `ios.run()` -/
  | inRun
  /-- `thread_func` has returned, and `ios` is destroyed -/
  | ended
  deriving DecidableEq, Repr

/-- `notify_one` was called. -/
def ThreadPc.notified : ThreadPc → Bool
  | .inRun | .ended => true
  | _ => false

/-- `class service_thread`, with its thread and the threads that are in `run()`. -/
structure ServiceThread (Tid Ptr : Type) where
  /-- the thread that `m_thread` has started -/
  tid : Tid
  /-- `&ios` -/
  ios : Ptr
  pc : ThreadPc
  /-- `m_service` behind `m_mutex`; `none` is `NULL` -/
  monitor : Monitor Tid Unit (Option Ptr)
  /-- what `run()` has returned, call by call -/
  returned : List Ptr
  deriving DecidableEq

namespace ServiceThread

variable {Tid Ptr : Type}

/-- The constructor, up to the start of the thread. -/
def construct (tid : Tid) (ios : Ptr) : ServiceThread Tid Ptr :=
  { tid
    ios
    pc := .setService
    monitor := Monitor.construct none
    returned := [] }

/-- `m_service` -/
def service (s : ServiceThread Tid Ptr) : Option Ptr :=
  s.monitor.data

/-- `while(m_service == NULL)` is left. -/
def HasService (_ : Unit) (service : Option Ptr) : Prop :=
  service.isSome = true

/-- `m_service=&ios` -/
def assign (ios : Ptr) (_ : Option Ptr) : Option Ptr :=
  some ios

instance (cond : Unit) (service : Option Ptr) : Decidable (HasService cond service) :=
  inferInstanceAs (Decidable (_ = true))

inductive Act (Tid : Type)
  /-- the block of `thread_func` -/
  | setService
  | notifyOne (woken : Option (Tid × Unit))
  /-- `ios.run()` returns, and `thread_func` with it -/
  | loopReturns
  /-- thread `t` calls `run()`: the first test -/
  | run (t : Tid)
  /-- thread `t` was notified in `run()` and tests again -/
  | recheck (t : Tid)
  deriving DecidableEq

/-- A step of the thread itself. -/
def Act.isOwn : Act Tid → Bool
  | .run _ => false
  | .recheck _ => false
  | _ => true

/-! ## Steps -/

def Enabled (s : ServiceThread Tid Ptr) : Act Tid → Prop
  | .setService =>
      s.pc = .setService ∧ s.monitor.Enabled (.update s.tid s.ios : Monitor.Act Tid Unit Ptr)
  | .notifyOne woken =>
      s.pc = .notifyOne ∧ s.monitor.Enabled (.notifyOne s.tid woken : Monitor.Act Tid Unit Ptr)
  | .loopReturns => s.pc = .inRun
  | .run t => t ≠ s.tid ∧ s.monitor.Enabled (.wait t () : Monitor.Act Tid Unit Ptr)
  | .recheck t => s.monitor.Enabled (.recheck (t, ()) : Monitor.Act Tid Unit Ptr)

variable [DecidableEq Tid]

/-- The mutex is locked for `a`. -/
def locked (s : ServiceThread Tid Ptr) (a : Monitor.Act Tid Unit Ptr) : ServiceThread Tid Ptr :=
  { s with monitor := s.monitor.next HasService assign a }

/-- A test in `run()`, which returns `m_service` unless it is `NULL`. -/
def testService (s : ServiceThread Tid Ptr) (a : Monitor.Act Tid Unit Ptr) : ServiceThread Tid Ptr :=
  { s.locked a with returned := s.returned ++ s.service.toList }

def next (s : ServiceThread Tid Ptr) : Act Tid → ServiceThread Tid Ptr
  | .setService => { s.locked (.update s.tid s.ios) with pc := .notifyOne }
  | .notifyOne woken => { s.locked (.notifyOne s.tid woken) with pc := .inRun }
  | .loopReturns => { s with pc := .ended }
  | .run t => s.testService (.wait t ())
  | .recheck t => s.testService (.recheck (t, ()))

instance (s : ServiceThread Tid Ptr) : (a : Act Tid) → Decidable (s.Enabled a)
  | .setService =>
      inferInstanceAs (Decidable (s.pc = .setService ∧
        s.monitor.Enabled (.update s.tid s.ios : Monitor.Act Tid Unit Ptr)))
  | .notifyOne woken =>
      inferInstanceAs (Decidable (s.pc = .notifyOne ∧
        s.monitor.Enabled (.notifyOne s.tid woken : Monitor.Act Tid Unit Ptr)))
  | .loopReturns => inferInstanceAs (Decidable (_ = _))
  | .run t =>
      inferInstanceAs (Decidable (t ≠ s.tid ∧
        s.monitor.Enabled (.wait t () : Monitor.Act Tid Unit Ptr)))
  | .recheck t =>
      inferInstanceAs (Decidable (s.monitor.Enabled (.recheck (t, ()) : Monitor.Act Tid Unit Ptr)))

def step (s : ServiceThread Tid Ptr) (a : Act Tid) : Option (ServiceThread Tid Ptr) :=
  if s.Enabled a then some (s.next a) else none

variable {s s' : ServiceThread Tid Ptr} {a : Act Tid}

theorem step_eq_some : s.step a = some s' ↔ s.Enabled a ∧ s.next a = s' := by
  simp [step]

/-! ## The service in each phase -/

/-- What `thread_func` has done so far. -/
structure Inv (tid : Tid) (ios : Ptr) (s : ServiceThread Tid Ptr) : Prop where
  sameTid : s.tid = tid
  sameIos : s.ios = ios
  service : s.service = if s.pc = .setService then none else some ios
  updating : s.monitor.updating = if s.pc = .notifyOne then [tid] else []
  returned : ∀ p ∈ s.returned, p = ios

omit [DecidableEq Tid] in
theorem inv_construct (tid : Tid) (ios : Ptr) : (construct tid ios).Inv tid ios :=
  { sameTid := rfl
    sameIos := rfl
    service := rfl
    updating := rfl
    returned := nofun }

omit [DecidableEq Tid] in
theorem Inv.eq_ios {tid : Tid} {ios : Ptr} (h : s.Inv tid ios) {p : Ptr} (hp : s.service = some p) :
    p = ios := by
  rw [h.service] at hp
  split at hp
  · cases hp
  · exact (Option.some.inj hp).symm

/-- Behind its `notify_one` the thread has nothing more to notify. -/
theorem Inv.updating_erase {tid : Tid} {ios : Ptr} (h : s.Inv tid ios) (hpc : s.pc = .notifyOne) :
    s.monitor.updating.erase s.tid = [] := by
  rw [h.updating, if_pos hpc, h.sameTid, List.erase_cons_head]

omit [DecidableEq Tid] in
/-- A test changes neither `m_service` nor what is still to notify. -/
theorem test_same (m : Monitor Tid Unit (Option Ptr)) (waiter : Tid × Unit) :
    (m.test HasService waiter).data = m.data ∧ (m.test HasService waiter).updating = m.updating := by
  unfold Monitor.test
  split <;> exact ⟨rfl, rfl⟩

theorem Inv.next {tid : Tid} {ios : Ptr} (h : s.Inv tid ios) (hen : s.Enabled a) :
    (s.next a).Inv tid ios := by
  have htest : ∀ p ∈ s.returned ++ s.service.toList, p = ios := by
    intro p hp
    rcases List.mem_append.mp hp with hold | hnew
    · exact h.returned p hold
    · exact h.eq_ios (Option.mem_toList.mp hnew)
  cases a with
  | setService =>
      have hpc : s.pc = .setService := hen.1
      refine { h with service := ?_, updating := ?_ }
      · show some s.ios = some ios
        rw [h.sameIos]
      · show s.tid :: s.monitor.updating = [tid]
        rw [h.updating, hpc, h.sameTid]
        rfl
  | notifyOne woken =>
      have hpc : s.pc = .notifyOne := hen.1
      refine { h with service := ?_, updating := ?_ }
      · have hservice := h.service
        rw [hpc] at hservice
        exact hservice
      · exact h.updating_erase hpc
  | loopReturns =>
      have hpc : s.pc = .inRun := hen
      have hservice := h.service
      have hupdating := h.updating
      rw [hpc] at hservice hupdating
      exact { h with service := hservice, updating := hupdating }
  | run t =>
      rcases test_same s.monitor (t, ()) with ⟨hdata, hupdating⟩
      exact
        { sameTid := h.sameTid
          sameIos := h.sameIos
          service := hdata.trans h.service
          updating := hupdating.trans h.updating
          returned := htest }
  | recheck t =>
      rcases test_same { s.monitor with notified := s.monitor.notified.erase (t, ()) } (t, ())
        with ⟨hdata, hupdating⟩
      exact
        { sameTid := h.sameTid
          sameIos := h.sameIos
          service := hdata.trans h.service
          updating := hupdating.trans h.updating
          returned := htest }

/-! ## The threads in `run()` -/

/-- Behind the notification no thread is blocked in `run()`. -/
def NobodyAsleep (s : ServiceThread Tid Ptr) : Prop :=
  s.pc.notified = true → s.monitor.blocked = []

/-- The notification meets at most one thread that is blocked. -/
def NotifiesAll (s : ServiceThread Tid Ptr) : Act Tid → Prop
  | .notifyOne _ => s.monitor.blocked.length ≤ 1
  | _ => True

instance (s : ServiceThread Tid Ptr) : (a : Act Tid) → Decidable (s.NotifiesAll a)
  | .notifyOne _ => inferInstanceAs (Decidable (_ ≤ 1))
  | .setService | .loopReturns | .run _ | .recheck _ => inferInstanceAs (Decidable True)

omit [DecidableEq Tid] in
/-- In the words of the monitor: nobody sleeps whose condition holds. -/
theorem Inv.nobodyAsleep_iff {tid : Tid} {ios : Ptr} (h : s.Inv tid ios) :
    s.NobodyAsleep ↔ s.monitor.Awake HasService := by
  have hservice : s.monitor.data = if s.pc = .setService then none else some ios := h.service
  have hupdating := h.updating
  unfold NobodyAsleep Monitor.Awake HasService
  rw [hservice, hupdating]
  cases hpc : s.pc with
  | setService => simp [ThreadPc.notified]
  | notifyOne => simp [ThreadPc.notified]
  | inRun => simp [ThreadPc.notified, List.eq_nil_iff_forall_not_mem]
  | ended => simp [ThreadPc.notified, List.eq_nil_iff_forall_not_mem]

/-- A thread stays blocked behind the notification exactly if there was another one. -/
theorem leftBlocked_eq_nil_iff {woken : Option (Tid × Unit)} {m : Monitor Tid Unit (Option Ptr)}
    {t : Tid} (hen : m.Enabled (.notifyOne t woken : Monitor.Act Tid Unit Ptr)) :
    m.leftBlocked woken = [] ↔ m.blocked.length ≤ 1 := by
  cases woken with
  | none =>
      have hnone : m.blocked = [] := hen.2
      simp [Monitor.leftBlocked, hnone]
  | some waiter =>
      have hin : waiter ∈ m.blocked := hen.2
      rw [Monitor.leftBlocked, ← List.length_eq_zero_iff, List.length_erase_of_mem hin]
      omega

theorem awake_locked_iff (h : s.monitor.Awake HasService) (a : Monitor.Act Tid Unit Ptr) :
    (s.locked a).monitor.Awake HasService ↔ s.monitor.KeepsAwake HasService a :=
  Monitor.awake_next_iff h a

/-- A step keeps the threads awake exactly if it is not a notification that is not enough. -/
theorem asleep_next_iff {tid : Tid} {ios : Ptr} (h : s.Inv tid ios) (hawake : s.NobodyAsleep)
    (hen : s.Enabled a) : (s.next a).NobodyAsleep ↔ s.NotifiesAll a := by
  have hM : s.monitor.Awake HasService := h.nobodyAsleep_iff.mp hawake
  rw [(h.next hen).nobodyAsleep_iff]
  cases a with
  | setService => exact awake_locked_iff hM (.update s.tid s.ios)
  | notifyOne woken =>
      refine (awake_locked_iff hM (.notifyOne s.tid woken)).trans ?_
      have hpc : s.pc = .notifyOne := hen.1
      have hlast : s.monitor.updating.erase s.tid = [] := h.updating_erase hpc
      have hservice : s.monitor.data = some ios := by
        have hservice := h.service
        rw [hpc] at hservice
        exact hservice
      -- The service is there: whoever stays blocked sleeps on.
      simp only [Monitor.KeepsAwake, hlast, hservice, HasService, NotifiesAll, forall_true_left,
        Option.isSome_some, not_true_eq_false, imp_false]
      rw [← List.eq_nil_iff_forall_not_mem]
      exact leftBlocked_eq_nil_iff hen.2
  | loopReturns => exact iff_of_true hM trivial
  | run t => exact awake_locked_iff hM (.wait t ())
  | recheck t => exact awake_locked_iff hM (.recheck (t, ()))

/-! ## One caller -/

/-- No thread is in `run()`. -/
def Idle (s : ServiceThread Tid Ptr) : Prop :=
  s.monitor.blocked = [] ∧ s.monitor.notified = []

/-- Thread `t` alone is in `run()`: it is blocked ahead of the notification, or it has it. -/
def Waits (t : Tid) (s : ServiceThread Tid Ptr) : Prop :=
  s.pc.notified = false ∧ s.monitor.blocked = [(t, ())] ∧ s.monitor.notified = [] ∨
    s.pc ≠ .setService ∧ s.monitor.blocked = [] ∧ s.monitor.notified = [(t, ())]

theorem Idle.own (h : s.Idle) (hen : s.Enabled a) (ha : a.isOwn = true) : (s.next a).Idle := by
  rcases h with ⟨hblocked, hnotified⟩
  cases a with
  | setService => exact ⟨hblocked, hnotified⟩
  | notifyOne woken =>
      -- There is nobody to be woken.
      cases woken with
      | none => exact ⟨hblocked, hnotified⟩
      | some waiter =>
          have hin : waiter ∈ s.monitor.blocked := hen.2.2
          rw [hblocked] at hin
          cases hin
  | loopReturns => exact ⟨hblocked, hnotified⟩
  | run t => cases ha
  | recheck t => cases ha

theorem Waits.own {t : Tid} (h : s.Waits t) (hen : s.Enabled a) (ha : a.isOwn = true) :
    (s.next a).Waits t := by
  rcases h with ⟨hpc, hblocked, hnotified⟩ | ⟨hpc, hblocked, hnotified⟩
  · cases a with
    | setService => exact Or.inl ⟨rfl, hblocked, hnotified⟩
    | notifyOne woken =>
        right
        cases woken with
        | none =>
            have hnone : s.monitor.blocked = [] := hen.2.2
            rw [hblocked] at hnone
            cases hnone
        | some waiter =>
            have hin : waiter ∈ s.monitor.blocked := hen.2.2
            rw [hblocked, List.mem_singleton] at hin
            subst hin
            refine ⟨by simp [next], ?_, ?_⟩
            · show s.monitor.blocked.erase (t, ()) = []
              rw [hblocked, List.erase_cons_head]
            · show (t, ()) :: s.monitor.notified = [(t, ())]
              rw [hnotified]
    | loopReturns =>
        have hin : s.pc = .inRun := hen
        rw [hin] at hpc
        cases hpc
    | run t => cases ha
    | recheck t => cases ha
  · right
    cases a with
    | setService => exact absurd hen.1 hpc
    | notifyOne woken =>
        cases woken with
        | none => exact ⟨by simp [next], hblocked, hnotified⟩
        | some waiter =>
            have hin : waiter ∈ s.monitor.blocked := hen.2.2
            rw [hblocked] at hin
            cases hin
    | loopReturns => exact ⟨by simp [next], hblocked, hnotified⟩
    | run t => cases ha
    | recheck t => cases ha

/-- A call of `run()` returns at once, or it waits. -/
theorem Idle.run {tid : Tid} {ios : Ptr} (hinv : s.Inv tid ios) (h : s.Idle) (t : Tid) :
    s.service = some ios ∧ (s.next (.run t)).Idle ∨
      s.service = none ∧ (s.next (.run t)).Waits t := by
  rcases h with ⟨hblocked, hnotified⟩
  have hservice := hinv.service
  by_cases hpc : s.pc = .setService
  · right
    rw [if_pos hpc] at hservice
    have hnot : ¬ HasService () s.monitor.data := by
      rw [HasService, show s.monitor.data = none from hservice]
      exact Bool.false_ne_true
    have htest : s.monitor.test HasService (t, ()) =
        { s.monitor with blocked := (t, ()) :: s.monitor.blocked } := if_neg hnot
    refine ⟨hservice, Or.inl ⟨?_, ?_, ?_⟩⟩
    · show s.pc.notified = false
      rw [hpc]
      rfl
    · show (s.monitor.test HasService (t, ())).blocked = [(t, ())]
      rw [htest, hblocked]
    · show (s.monitor.test HasService (t, ())).notified = []
      rw [htest, hnotified]
  · left
    rw [if_neg hpc] at hservice
    have htest : s.monitor.test HasService (t, ()) = s.monitor := by
      refine if_pos ?_
      rw [HasService, show s.monitor.data = some ios from hservice]
      rfl
    refine ⟨hservice, ?_, ?_⟩
    · show (s.monitor.test HasService (t, ())).blocked = []
      rw [htest, hblocked]
    · show (s.monitor.test HasService (t, ())).notified = []
      rw [htest, hnotified]

/-- The test itself stores nothing. -/
theorem service_run (s : ServiceThread Tid Ptr) (t : Tid) :
    (s.next (.run t)).service = s.service :=
  (test_same s.monitor (t, ())).1

theorem service_recheck (s : ServiceThread Tid Ptr) (t : Tid) :
    (s.next (.recheck t)).service = s.service :=
  (test_same { s.monitor with notified := s.monitor.notified.erase (t, ()) } (t, ())).1

/-- A thread that was notified finds the service. -/
theorem Waits.recheck {tid t : Tid} {ios : Ptr} (hinv : s.Inv tid ios) (h : s.Waits t)
    (hen : s.Enabled (.recheck t)) :
    s.service = some ios ∧ (s.next (.recheck t)).Idle := by
  have hin : (t, ()) ∈ s.monitor.notified := hen
  rcases h with ⟨-, -, hnotified⟩ | ⟨hpc, hblocked, hnotified⟩
  · rw [hnotified] at hin
    cases hin
  · have hservice : s.service = some ios := by rw [hinv.service, if_neg hpc]
    have htest : ({ s.monitor with notified := s.monitor.notified.erase (t, ()) } :
        Monitor Tid Unit (Option Ptr)).test HasService (t, ()) =
          { s.monitor with notified := s.monitor.notified.erase (t, ()) } := by
      refine if_pos ?_
      show s.monitor.data.isSome = true
      rw [show s.monitor.data = some ios from hservice]
      rfl
    refine ⟨hservice, ?_, ?_⟩
    · show (Monitor.test HasService _ (t, ())).blocked = []
      rw [htest]
      exact hblocked
    · show (Monitor.test HasService _ (t, ())).notified = []
      rw [htest]
      show s.monitor.notified.erase (t, ()) = []
      rw [hnotified, List.erase_cons_head]

omit [DecidableEq Tid] in
theorem Idle.enabled_run {tid t : Tid} {ios : Ptr} (hinv : s.Inv tid ios) (h : s.Idle)
    (ht : t ≠ tid) : s.Enabled (.run t) := by
  have hupdating : t ∉ s.monitor.updating := by
    rw [hinv.updating]
    split
    · simpa using ht
    · exact List.not_mem_nil
  exact ⟨hinv.sameTid ▸ ht, hupdating, by simp [h.1], by simp [h.2]⟩

omit [DecidableEq Tid] in
/-- Whoever waits, the thread has a step to take that brings the notification, or it has come. -/
theorem Waits.exists_step {tid t : Tid} {ios : Ptr} (hinv : s.Inv tid ios) (h : s.Waits t)
    (ht : t ≠ tid) :
    (∃ a : Act Tid, a.isOwn = true ∧ a ≠ .loopReturns ∧ s.Enabled a) ∨ s.Enabled (.recheck t) := by
  rcases h with ⟨hpc, hblocked, hnotified⟩ | ⟨-, -, hnotified⟩
  · left
    have hupdating := hinv.updating
    cases hs : s.pc with
    | setService =>
        rw [hs] at hupdating
        refine ⟨.setService, rfl, by simp, hs, ?_, ?_, ?_⟩
        · rw [hupdating]
          exact List.not_mem_nil
        · simpa [hblocked, hinv.sameTid] using ht.symm
        · simp [hnotified]
    | notifyOne =>
        rw [hs, if_pos rfl] at hupdating
        refine ⟨.notifyOne (some (t, ())), rfl, by simp, hs, ?_, ?_⟩
        · rw [hupdating, hinv.sameTid]
          exact List.mem_singleton_self tid
        · rw [hblocked]
          exact List.mem_singleton_self _
    | inRun =>
        rw [hs] at hpc
        cases hpc
    | ended =>
        rw [hs] at hpc
        cases hpc
  · right
    show (t, ()) ∈ s.monitor.notified
    rw [hnotified]
    exact List.mem_singleton_self _

/-! ## Runs -/

/-- Whoever calls `run()`, and whenever the thread comes to its steps: every call that returns has the
address of the thread's `io_service`; and no caller is left blocked behind the notification exactly in
the runs in which at most one was blocked when it came. -/
theorem run_returns {tid : Tid} {ios : Ptr} {as : List (Act Tid)}
    (hrun : Lib.run step (construct tid ios) as = some s) :
    (∀ p ∈ s.returned, p = ios) ∧
      ((∀ bs t, bs <+: as → Lib.run step (construct tid ios) bs = some t → t.NobodyAsleep) ↔
        Along step NotifiesAll (construct tid ios) as) := by
  have hinv : ∀ (t : ServiceThread Tid Ptr) (a : Act Tid) t', t.Inv tid ios →
      t.step a = some t' → t'.Inv tid ios := by
    intro t a t' h hs
    rcases step_eq_some.mp hs with ⟨hen, rfl⟩
    exact h.next hen
  refine ⟨(invariant_run hinv (inv_construct tid ios) hrun).returned, ?_⟩
  refine prefixes_iff_along hinv ?_ (inv_construct tid ios) nofun hrun
  intro t a t' h hawake hs
  rcases step_eq_some.mp hs with ⟨hen, rfl⟩
  exact asleep_next_iff h hawake hen

/-- Thread 1 calls `run()` before the address is stored, and thread 2 behind it. -/
def oneEarlyCaller : List (Act Nat) :=
  [.run 1, .setService, .notifyOne (some (1, ())), .run 2, .recheck 1]

theorem run_returns_oneEarlyCaller :
    ∃ s, Lib.run step (construct 0 7) oneEarlyCaller = some s ∧ s.returned = [7, 7] ∧
      (∀ p ∈ s.returned, p = 7) ∧ s.NobodyAsleep := by
  have hrun : Lib.run step (construct 0 7) oneEarlyCaller = some _ := rfl
  have hall : Along step NotifiesAll (construct 0 7) oneEarlyCaller := by decide
  refine ⟨_, hrun, rfl, (run_returns hrun).1, ?_⟩
  exact (run_returns hrun).2.mpr hall _ _ (List.prefix_refl _) hrun

end ServiceThread

end Net
end Muradin
