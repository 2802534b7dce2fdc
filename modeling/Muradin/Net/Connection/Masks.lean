import Muradin.Net.Connection.Output

/-!
# Masks — what `enable_read` and `enable_write` register

A channel that has joined its service, as a machine of its own: `enable_read`, `enable_write`, the
reports of the poller and the dispatch of a write event, in any order.

To disable a direction the source intersects `m_last_evt_status` with the mask of that direction,
where removing the mask takes its complement: what is kept is the direction that was to go.
`disable_iff` gives the states in which the two come to the same.
-/

namespace Muradin
namespace Net

open Lib Cpp Events

namespace Events

variable {w : Nat}

/-- A mask and its complement cut the same out of nothing only. -/
theorem and_eq_and_not_iff (m k : BitVec w) : m &&& k = m &&& ~~~k ↔ m = 0 := by
  constructor
  · intro h
    ext i hi
    have hbit : (m &&& k)[i] = (m &&& ~~~k)[i] := by rw [h]
    -- A bit of `m` lies in one of the two cuts and not in the other.
    cases hm : m[i] <;> cases hk : k[i] <;> simp [hm, hk] at hbit ⊢
  · rintro rfl
    simp

/-- The two directions share no bit. -/
theorem readMask_and_epollOut : readMask &&& epollOut = 0 := by
  decide

theorem and_and_eq_zero {k l : BitVec w} (h : k &&& l = 0) (m : BitVec w) : m &&& k &&& l = 0 := by
  rw [BitVec.and_assoc, h]
  simp

end Events

/-! ## A channel in its service -/

/-- An `evt_channel` that has joined its service, and the poller at its descriptor. -/
structure JoinedChannel where
  channle : EvtChannel
  poller : EpPoller
  deriving DecidableEq

namespace JoinedChannel

/-- The constructor and `join_to_service`. -/
def join : JoinedChannel :=
  { channle := EvtChannel.construct
    poller := { inChannelMap := true, registered := some EvtChannel.construct.lastEvtStatus } }

def enableRead (j : JoinedChannel) (enable : Bool) : JoinedChannel :=
  { channle := { j.channle with lastEvtStatus := j.channle.readInterest enable }
    poller := j.poller.updateEvtCode (j.channle.readInterest enable) }

def enableWrite (j : JoinedChannel) (enable : Bool) : JoinedChannel :=
  if enable ∧ j.channle.progressInWrite then
    j
  else
    { channle :=
        { j.channle with
          lastEvtStatus := j.channle.writeInterest enable
          progressInWrite := enable }
      poller := j.poller.updateEvtCode (j.channle.writeInterest enable) }

inductive Act
  | enableRead (enable : Bool)
  | enableWrite (enable : Bool)
  /-- `save_evt_status(events)` -/
  | report (events : Events)
  /-- `do_process_work` comes to its write callback -/
  | dispatchOut

def next (j : JoinedChannel) : Act → JoinedChannel
  | .enableRead enable => j.enableRead enable
  | .enableWrite enable => j.enableWrite enable
  | .report events => { j with channle := j.channle.saveEvtStatus events }
  | .dispatchOut => { j with channle := { j.channle with progressInWrite := false } }

def step (j : JoinedChannel) (a : Act) : Option JoinedChannel :=
  some (j.next a)

/-- The descriptor of the channel is registered, with whatever mask. -/
def Registered (j : JoinedChannel) : Prop :=
  ∃ m, j.poller.registered = some m

/-- The interest that is registered is `m`. -/
def Registers (j : JoinedChannel) (m : Events) : Prop :=
  j.poller.registered = some m

variable {j j' : JoinedChannel}

theorem Registered.enableRead (h : j.Registered) (enable : Bool) :
    (j.enableRead enable).Registers (j.channle.readInterest enable) := by
  rcases h with ⟨m, hm⟩
  exact EpPoller.updateEvtCode_of_registered hm _

/-- An `enable_write` that is not the early return registers its mask. -/
theorem Registered.enableWrite (h : j.Registered) {enable : Bool}
    (henable : ¬ (enable = true ∧ j.channle.progressInWrite = true)) :
    (j.enableWrite enable).Registers (j.channle.writeInterest enable) := by
  rcases h with ⟨m, hm⟩
  rw [JoinedChannel.enableWrite, if_neg henable]
  exact EpPoller.updateEvtCode_of_registered hm _

theorem Registered.next (h : j.Registered) (a : Act) : (j.next a).Registered := by
  cases a with
  | enableRead enable => exact ⟨_, h.enableRead enable⟩
  | enableWrite enable =>
      by_cases henable : enable = true ∧ j.channle.progressInWrite = true
      · show (j.enableWrite enable).Registered
        rwa [JoinedChannel.enableWrite, if_pos henable]
      · exact ⟨_, h.enableWrite henable⟩
  | report events => exact h
  | dispatchOut => exact h

/-- Once it has joined, a channel stays registered. -/
theorem registered_of_run {as : List Act} (hrun : run step join as = some j) : j.Registered := by
  have hstep : ∀ j a j', j.Registered → step j a = some j' → j'.Registered := by
    intro j a j' h hs
    cases hs
    exact h.next a
  exact invariant_run hstep ⟨_, rfl⟩ hrun

/-! ## Disabling a direction -/

/-- `enable_read(true); enable_read(false)` ends with `readMask` alone. -/
theorem Registered.enableRead_twice (h : j.Registered) :
    ((j.enableRead true).enableRead false).Registers readMask := by
  have hregistered : (j.enableRead true).Registered := ⟨_, h.enableRead true⟩
  have hmask : (j.enableRead true).channle.readInterest false = readMask :=
    or_and_self j.channle.lastEvtStatus readMask
  rw [← hmask]
  exact hregistered.enableRead false

/-- `enable_write(true); enable_write(false)` ends with no bit besides `EPOLLOUT`. -/
theorem Registered.enableWrite_twice (h : j.Registered) :
    ∃ m, ((j.enableWrite true).enableWrite false).Registers m ∧ m &&& readMask = 0 := by
  have hregistered : (j.enableWrite true).Registered := h.next (.enableWrite true)
  refine ⟨_, hregistered.enableWrite (by simp), ?_⟩
  exact and_and_eq_zero (by rw [BitVec.and_comm]; exact readMask_and_epollOut) _

/-- In every state that a channel can come to: disabling a direction registers the other bits of
`m_last_evt_status` unchanged exactly when there are none at all, and enabling and disabling a
direction keeps the interest in the other one exactly when there was none. -/
theorem disable_iff {as : List Act} (hrun : run step join as = some j) :
    ((j.enableRead false).Registers (j.channle.lastEvtStatus &&& ~~~readMask) ↔
        j.channle.lastEvtStatus = 0) ∧
      ((j.enableWrite false).Registers (j.channle.lastEvtStatus &&& ~~~epollOut) ↔
        j.channle.lastEvtStatus = 0) ∧
      ((∃ m, ((j.enableRead true).enableRead false).Registers m ∧
          m &&& epollOut = j.channle.lastEvtStatus &&& epollOut) ↔
        meets j.channle.lastEvtStatus epollOut = false) ∧
      ((∃ m, ((j.enableWrite true).enableWrite false).Registers m ∧
          m &&& readMask = j.channle.lastEvtStatus &&& readMask) ↔
        meets j.channle.lastEvtStatus readMask = false) := by
  have h : j.Registered := registered_of_run hrun
  have hread : (j.enableRead false).Registers (j.channle.lastEvtStatus &&& readMask) :=
    h.enableRead false
  have hwrite : (j.enableWrite false).Registers (j.channle.lastEvtStatus &&& epollOut) :=
    h.enableWrite (by simp)
  -- Only one mask is registered at a time.
  have hunique : ∀ {j' : JoinedChannel} {m m' : Events}, j'.Registers m →
      (j'.Registers m' ↔ m = m') := by
    intro j' m m' hm
    rw [Registers, hm]
    exact Option.some.injEq m m' ▸ Iff.rfl
  refine ⟨?_, ?_, ?_, ?_⟩
  · rw [hunique hread, and_eq_and_not_iff]
  · rw [hunique hwrite, and_eq_and_not_iff]
  · rw [meets_eq_false_iff]
    constructor
    · rintro ⟨m, hm, hkept⟩
      obtain rfl := (hunique h.enableRead_twice).mp hm
      rw [← hkept, readMask_and_epollOut]
    · intro hnone
      exact ⟨readMask, h.enableRead_twice, by rw [hnone, readMask_and_epollOut]⟩
  · rw [meets_eq_false_iff]
    rcases h.enableWrite_twice with ⟨m₀, hm₀, hzero⟩
    constructor
    · rintro ⟨m, hm, hkept⟩
      obtain rfl := (hunique hm₀).mp hm
      rw [← hkept, hzero]
    · intro hnone
      exact ⟨m₀, hm₀, by rw [hzero, hnone]⟩

/-- Disabling both directions, one right behind the other, registers nothing, as it would with the
complements. -/
theorem disable_both {as : List Act} (hrun : run step join as = some j) :
    ((j.enableRead false).enableWrite false).Registers 0 := by
  have h : j.Registered := registered_of_run hrun
  have hregistered : (j.enableRead false).Registered := ⟨_, h.enableRead false⟩
  have hmask : (j.enableRead false).channle.writeInterest false = 0 :=
    and_and_eq_zero readMask_and_epollOut j.channle.lastEvtStatus
  rw [← hmask]
  exact hregistered.enableWrite (by simp)

theorem disable_iff_reported :
    ∃ j, run step join [.enableRead true, .report 0, .enableWrite true, .report 0] = some j ∧
      (j.enableRead false).Registers (j.channle.lastEvtStatus &&& ~~~readMask) := by
  have hrun : run step join [.enableRead true, .report 0, .enableWrite true, .report 0] = some _ :=
    rfl
  exact ⟨_, hrun, (disable_iff hrun).1.mpr rfl⟩

/-- Both directions are enabled; `enable_read(false)` registers the read interest and drops the
write interest. -/
theorem disable_read_keeps_read :
    ∃ j, run step join [.enableRead true, .enableWrite true] = some j ∧
      (j.enableRead false).Registers readMask ∧
      ¬ (j.enableRead false).Registers (j.channle.lastEvtStatus &&& ~~~readMask) := by
  refine ⟨_, rfl, rfl, ?_⟩
  intro h
  have heq : some readMask = some ((readMask ||| epollOut) &&& ~~~readMask) := h
  exact absurd heq (by decide)

end JoinedChannel

end Net
end Muradin
