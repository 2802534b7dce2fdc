import Muradin.Lib.Monitor

/-!
# BlockingCounter — `base/blocking_counter.h` and `base/blocking_counter.cpp`

`blocking_counter` is a `Monitor` over `m_val`, whose threads wait for a value.  `increment` and
`decrement` change `m_val` in a block of their own and call `m_cond.notify_one()` behind it; they are
declared to return a value and return none.

The threads in `wait_for` wait for different values, and `notify_one` wakes any of them: one that has
to go on waiting takes the notification away from one that has not (`noneAsleep_iff_keepsAwake`).
-/

namespace Muradin
namespace Base

open Lib

/-! ## The object -/

/-- The blocks of `increment` and `decrement` with the mutex locked. -/
inductive Update
  | increment
  | decrement
  deriving DecidableEq, Repr

def Update.apply : Update → Int → Int
  | .increment, mVal => mVal + 1
  | .decrement, mVal => mVal - 1

/-- `class blocking_counter`, with the threads that are in its functions. -/
abbrev BlockingCounter (Tid : Type) := Monitor Tid Int Int

namespace BlockingCounter

variable {Tid : Type}

/-- `blocking_counter(init_count)`. -/
def construct (initCount : Int) : BlockingCounter Tid :=
  Monitor.construct initCount

def getVal (s : BlockingCounter Tid) : Int :=
  s.data

/-- `while(val != m_val)` is left. -/
def Reached (val mVal : Int) : Prop :=
  val = mVal

instance (val mVal : Int) : Decidable (Reached val mVal) :=
  inferInstanceAs (Decidable (_ = _))

/-! ## Steps -/

abbrev Act (Tid : Type) := Monitor.Act Tid Int Update

variable [DecidableEq Tid]

def step (s : BlockingCounter Tid) (a : Act Tid) : Option (BlockingCounter Tid) :=
  Monitor.step Reached Update.apply s a

/-- With no notification in progress, no thread is blocked in `m_cond.wait` that waits for the
current value. -/
def NoneAsleep (s : BlockingCounter Tid) : Prop :=
  s.Quiet → ∀ waiter ∈ s.blocked, waiter.2 ≠ s.getVal

/-- A `notify_one` with no other one to come leaves no thread blocked that waits for the current
value. -/
def KeepsAwake (s : BlockingCounter Tid) : Act Tid → Prop
  | .notifyOne t woken =>
      s.updating.erase t = [] → ∀ waiter ∈ s.leftBlocked woken, waiter.2 ≠ s.getVal
  | _ => True

instance (s : BlockingCounter Tid) : (a : Act Tid) → Decidable (s.KeepsAwake a)
  | .notifyOne _ _ => inferInstanceAs (Decidable (_ = [] → _))
  | .update _ _ | .wait _ _ | .recheck _ => inferInstanceAs (Decidable True)

variable {s : BlockingCounter Tid} {a : Act Tid}

theorem keepsAwake_iff : Monitor.KeepsAwake Reached s a ↔ s.KeepsAwake a := by
  cases a <;> exact Iff.rfl

/-! ## Runs -/

/-- In a run of any threads, none is found asleep that waits for the current value, now or when the
notified threads have looked again, exactly if no last `notify_one` leaves such a thread blocked. -/
theorem noneAsleep_iff_keepsAwake {initCount : Int} {as : List (Act Tid)}
    (hrun : run step (construct initCount) as = some s) :
    (∀ bs t, bs <+: as → run step (construct initCount) bs = some t →
      ∀ cs u, (∀ c ∈ cs, c.IsRecheck) → run step t cs = some u → u.NoneAsleep) ↔
      Along step KeepsAwake (construct initCount) as :=
  calc (∀ bs t, bs <+: as → run step (construct initCount) bs = some t →
        ∀ (cs : List (Act Tid)) u, (∀ c ∈ cs, c.IsRecheck) → run step t cs = some u → u.NoneAsleep)
      ↔ Along step (Monitor.KeepsAwake Reached) (construct initCount) as :=
        Monitor.noneAsleep_iff_along hrun
    _ ↔ Along step KeepsAwake (construct initCount) as := by
        refine along_congr (I := fun _ => True) (fun _ _ _ _ _ => trivial) ?_ trivial hrun
        exact fun _ _ _ _ _ => keepsAwake_iff

/-- Thread 1 waits for 2 and thread 2 for 1, and then thread 0 increments. -/
def twoWaiters : List (Act Nat) :=
  [.wait 1 2, .wait 2 1, .update 0 .increment]

/-- The right thread is woken. -/
theorem noneAsleep_iff_keepsAwake_twoWaiters :
    ∃ s, run step (construct 0) (twoWaiters ++ [.notifyOne 0 (some (2, 1)), .recheck (2, 1)]) =
        some s ∧ s.Quiet ∧ s.NoneAsleep := by
  have hany : (run step (construct 0) (twoWaiters ++ [.notifyOne 0 (some (2, 1)),
      .recheck (2, 1)])).any (fun s => decide (s.updating = [] ∧ s.notified = [])) = true := by
    decide
  have halong : Along step KeepsAwake (construct 0)
      (twoWaiters ++ [.notifyOne 0 (some (2, 1)), .recheck (2, 1)]) := by
    decide
  rcases exists_run_of_any hany with ⟨s, hrun, hquiet⟩
  refine ⟨s, hrun, hquiet, ?_⟩
  exact (noneAsleep_iff_keepsAwake hrun).mpr halong _ s (List.prefix_refl _) hrun [] s nofun rfl

/-- The notification goes to thread 1, which blocks again; thread 2 sleeps on although the value it
waits for is reached. -/
theorem notification_is_lost :
    ¬ ∀ (initCount : Int) (s : BlockingCounter Nat) (as : List (Act Nat)),
      run step (construct initCount) as = some s → s.NoneAsleep := by
  intro h
  have hany : (run step (construct 0) (twoWaiters ++ [.notifyOne 0 (some (1, 2)),
      .recheck (1, 2)])).any (fun s => decide ((s.updating = [] ∧ s.notified = []) ∧
        (2, s.getVal) ∈ s.blocked)) = true := by
    decide
  rcases exists_run_of_any hany with ⟨s, hrun, hquiet, hmem⟩
  exact h 0 s _ hrun hquiet (2, s.getVal) hmem rfl

end BlockingCounter

end Base
end Muradin
