import Mathlib.Tactic.Common

/-!
# EvtChannel — event masks, the poller and a channel

Event masks are the 32-bit masks of `epoll`.  `EpPoller` is `poller_epoll` as seen at the descriptor
of one channel: its entry of `m_channel_map` and what the kernel has registered.  `EvtChannel` is
`evt_channel`: its one field `m_last_evt_status` holds both the interest and the last reported
events, as in the source.

`epoll_ctl` follows Linux: `ADD` fails on a registered descriptor and may fail otherwise, `MOD` and
`DEL` succeed exactly on a registered one.
-/

namespace Muradin
namespace Net

/-! ## Event masks -/

abbrev Events := BitVec 32

namespace Events

def epollIn : Events := 0x001
def epollPri : Events := 0x002
def epollOut : Events := 0x004
def epollErr : Events := 0x008
def epollHup : Events := 0x010
def epollRdhup : Events := 0x2000

/-- The mask that `enable_read` adds. -/
def readMask : Events := epollIn ||| epollHup ||| epollPri

/-- `status & mask` as a condition. -/
def meets (status mask : Events) : Bool :=
  status &&& mask != 0

theorem meets_or_left {status other mask : Events} (h : meets status mask) :
    meets (status ||| other) mask := by
  have hne : status &&& mask ≠ 0 := by simpa [meets] using h
  have hor : (status ||| other) &&& mask ≠ 0 := by
    intro hzero
    apply hne
    calc status &&& mask
        = status &&& ((status ||| other) &&& mask) := by
          rw [← BitVec.and_assoc]
          congr 1
          ext i hi
          simpa using fun hbit => Or.inl hbit
      _ = 0 := by
          rw [hzero]
          simp
  simpa [meets] using hor

theorem or_and_self {w : Nat} (m k : BitVec w) : (m ||| k) &&& k = k := by
  ext i hi
  simpa using Or.inr

theorem meets_or_right (status mask : Events) (h : mask ≠ 0) :
    meets (status ||| mask) mask = true := by
  rw [meets, or_and_self]
  simpa using h

theorem meets_eq_false_iff (status mask : Events) :
    meets status mask = false ↔ status &&& mask = 0 := by
  simp [meets]

end Events

open Events

/-! ## The poller at one descriptor -/

/-- `poller_epoll` at the descriptor of a channel. -/
structure EpPoller where
  /-- `m_channel_map` has the channel -/
  inChannelMap : Bool
  /-- the mask registered in the kernel -/
  registered : Option Events
  deriving DecidableEq, Repr

namespace EpPoller

/-- `add_channel`; `ok` is false where the kernel has no memory for the entry. -/
def addChannel (p : EpPoller) (evtStatus : Events) (ok : Bool) : EpPoller :=
  if p.registered.isNone && ok then { inChannelMap := true, registered := some evtStatus } else p

def delChannel (p : EpPoller) : EpPoller :=
  if p.registered.isSome then { inChannelMap := false, registered := none } else p

def updateEvtCode (p : EpPoller) (evtStatus : Events) : EpPoller :=
  if p.registered.isSome then { p with registered := some evtStatus } else p

theorem updateEvtCode_of_registered {p : EpPoller} {m : Events} (h : p.registered = some m)
    (evtStatus : Events) : (p.updateEvtCode evtStatus).registered = some evtStatus := by
  simp [updateEvtCode, h]

end EpPoller

/-! ## The channel -/

structure EvtChannel where
  tied : Bool
  lastEvtStatus : Events
  progressInWrite : Bool
  deriving DecidableEq, Repr

namespace EvtChannel

def construct : EvtChannel :=
  { tied := false, lastEvtStatus := 0, progressInWrite := false }

/-- `save_evt_status(status)`. -/
def saveEvtStatus (ch : EvtChannel) (status : Events) : EvtChannel :=
  { ch with lastEvtStatus := status }

/-- The mask that `enable_read(enable)` leaves in `m_last_evt_status`. -/
def readInterest (ch : EvtChannel) (enable : Bool) : Events :=
  if enable then ch.lastEvtStatus ||| readMask else ch.lastEvtStatus &&& readMask

/-- The mask that `enable_write(enable)` leaves in `m_last_evt_status`. -/
def writeInterest (ch : EvtChannel) (enable : Bool) : Events :=
  if enable then ch.lastEvtStatus ||| epollOut else ch.lastEvtStatus &&& epollOut

end EvtChannel

end Net
end Muradin
