import Muradin.Example.PingPong.Flow
import Muradin.Lib.Machine

/-!
# Server — `class session` of `example/asio/pingpong/server.cpp`

`op_count_` counts the operations in progress; a handler that leaves none posts the task that deletes
the session.

* `destroyed_once` — this happens exactly once, and no handler is called behind it;
* `sent_back` — what the session sends is what it has received, in order; if no write fails, all of it
  is sent before the session is deleted.
-/

namespace Muradin
namespace Example
namespace PingPong

open Lib

structure ServerSession extends Blocks where
  /-- `start()` was called -/
  started : Bool
  opCount : Int
  /-- the `destroy` tasks that wait in the `io_service` -/
  posted : Nat
  /-- how often the session was deleted -/
  deleted : Nat
  /-- a handler was called behind that -/
  dangling : Bool

namespace ServerSession

/-- The session with its two arrays, which `new char[block_size]` leaves as they were. -/
def construct {blockSize : Nat} (memory : Block → Vector Byte blockSize) : ServerSession :=
  { blockSize
    memory := fun b => (memory b).toList
    readData := false
    readDataLength := 0
    writeData := true
    unsentCount := 0
    reads := []
    writes := []
    sent := []
    received := []
    started := false
    opCount := 0
    posted := 0
    deleted := 0
    dangling := false }

def withBlocks (s : ServerSession) (b : Blocks) : ServerSession :=
  { s with toBlocks := b }

/-- What a handler does at its end. -/
def postIfIdle (s : ServerSession) : ServerSession :=
  if s.opCount = 0 then { s with posted := s.posted + 1 } else s

/-- `start()`, with what `set_option` answers. -/
def start (s : ServerSession) (optionSet : Bool) : ServerSession :=
  if optionSet = true then
    { s.withBlocks s.asyncReadSome with
      started := true
      opCount := s.opCount + 1 }
  else
    { s with
      started := true
      posted := s.posted + 1 }

/-- The block that both handlers have. -/
def exchangeIfOne (s : ServerSession) : ServerSession :=
  if s.unsentCount = 1 then
    { s.withBlocks s.exchange with opCount := s.opCount + 2 }
  else
    s

def handleRead (s : ServerSession) (outcome : Option Nat) : ServerSession :=
  let s := { s with opCount := s.opCount - 1 }
  match outcome with
  | some length =>
      postIfIdle <| exchangeIfOne { s with
        readDataLength := length
        unsentCount := s.unsentCount + 1 }
  | none => postIfIdle s

def handleWrite (s : ServerSession) (outcome : Option Nat) : ServerSession :=
  let s := { s with opCount := s.opCount - 1 }
  match outcome with
  | some _ => postIfIdle <| exchangeIfOne { s with unsentCount := s.unsentCount - 1 }
  | none => postIfIdle s

/-- A handler of a session that may be gone. -/
def call (s : ServerSession) (handler : ServerSession → ServerSession) : ServerSession :=
  if 0 < s.deleted then { s with dangling := true } else handler s

inductive Act
  | start (optionSet : Bool)
  | transfer (t : Transfer)
  | handleRead (i : Nat)
  | handleWrite (i : Nat)
  /-- the `io_service` runs a `destroy` task -/
  | destroy
  deriving DecidableEq, Repr

def Act.isWriteFails : Act → Bool
  | .transfer t => t.isWriteFails
  | _ => false

/-- The bytes that come from the socket. -/
def Act.stores : Act → List Byte
  | .transfer t => t.stores
  | _ => []

def step (s : ServerSession) : Act → Option ServerSession
  | .start optionSet => if s.started = false then some (s.start optionSet) else none
  | .transfer t => (s.toBlocks.transfer t).map s.withBlocks
  | .handleRead i =>
      (s.takeRead i).map fun r => (s.withBlocks r.2).call (handleRead · r.1)
  | .handleWrite i =>
      (s.takeWrite i).map fun r => (s.withBlocks r.2).call (handleWrite · r.1)
  | .destroy =>
      if 0 < s.posted then
        some { s with
          posted := s.posted - 1
          deleted := s.deleted + 1 }
      else
        none

variable {s s' : ServerSession} {ok : Bool}

/-! ## The invariant -/

structure Inv (ok : Bool) (s : ServerSession) : Prop where
  blocks : Blocks.Inv [] ok s.toBlocks
  fresh : s.started = false →
    s.unsentCount = 0 ∧ s.reads = [] ∧ s.writes = [] ∧ ok = true
  opCount : s.opCount = s.operations
  lives : s.posted + s.deleted = if s.started = true ∧ s.operations = 0 then 1 else 0
  intact : s.dangling = false

theorem inv_construct {blockSize : Nat} (memory : Block → Vector Byte blockSize) :
    Inv true (construct memory) where
  blocks :=
    { apart := Bool.false_ne_true
      size := fun b => (memory b).length_toList
      fetches := nofun
      sends := nofun
      failed := nofun
      turn := .ended rfl rfl nofun
      balance := fun _ => rfl
      sent := nofun }
  fresh := fun _ => ⟨rfl, rfl, rfl, rfl⟩
  opCount := rfl
  lives := rfl
  intact := rfl

/-- What holds inside a handler, before its end. -/
structure Handling (s : ServerSession) : Prop where
  started : s.started = true
  opCount : s.opCount = s.operations
  posted : s.posted = 0
  deleted : s.deleted = 0
  intact : s.dangling = false

theorem Handling.postIfIdle (h : Handling s) (hblocks : Blocks.Inv [] ok s.toBlocks) :
    Inv ok s.postIfIdle := by
  have hcount := h.opCount
  rw [ServerSession.postIfIdle]
  split
  · next hidle =>
      have hnone : s.operations = 0 := by omega
      exact
        { blocks := hblocks
          fresh := fun hstarted => nomatch h.started.symm.trans hstarted
          opCount := h.opCount
          lives := by
            rw [if_pos ⟨h.started, hnone⟩]
            show s.posted + 1 + s.deleted = 1
            rw [h.posted, h.deleted]
          intact := h.intact }
  · next hbusy =>
      have hsome : ¬(s.started = true ∧ s.operations = 0) := by
        rintro ⟨-, hnone⟩
        omega
      exact
        { blocks := hblocks
          fresh := fun hstarted => nomatch h.started.symm.trans hstarted
          opCount := h.opCount
          lives := by rw [if_neg hsome, h.posted, h.deleted]
          intact := h.intact }

/-- While an operation is in progress the session has started and is not deleted. -/
theorem Inv.busy (h : Inv ok s) (hbusy : 0 < s.operations) :
    s.started = true ∧ s.posted = 0 ∧ s.deleted = 0 := by
  have hlives := h.lives
  rw [if_neg (by omega)] at hlives
  refine ⟨?_, by omega, by omega⟩
  by_contra hstarted
  obtain ⟨-, hreads, hwrites, -⟩ := h.fresh (Bool.eq_false_iff.mpr hstarted)
  simp [Blocks.operations, hreads, hwrites] at hbusy

/-- The first read is started, or there is nothing to wait for. -/
theorem Inv.start (h : Inv ok s) (hstarted : s.started = false) (optionSet : Bool) :
    Inv ok (s.start optionSet) := by
  obtain ⟨hcount, hreads, hwrites, rfl⟩ := h.fresh hstarted
  have hnone : s.operations = 0 := by simp [Blocks.operations, hreads, hwrites]
  have hlives := h.lives
  rw [if_neg (by simp [hstarted])] at hlives
  have hbalance := h.blocks.balance rfl
  rw [ServerSession.start]
  split
  · exact
      { blocks := h.blocks.firstRead hcount hreads hwrites
        fresh := fun hfresh => absurd hfresh.symm Bool.false_ne_true
        opCount := by
          show s.opCount + 1 = (s.asyncReadSome.operations : Int)
          rw [h.opCount, hnone, Blocks.operations_asyncReadSome, hnone]
          rfl
        lives := by
          show s.posted + s.deleted = if true = true ∧ s.asyncReadSome.operations = 0 then 1 else 0
          rw [Blocks.operations_asyncReadSome, if_neg (by simp), hlives]
        intact := h.intact }
  · exact
      { blocks := h.blocks
        fresh := fun hfresh => absurd hfresh.symm Bool.false_ne_true
        opCount := h.opCount
        lives := by
          show s.posted + 1 + s.deleted = if true = true ∧ s.operations = 0 then 1 else 0
          rw [if_pos ⟨rfl, hnone⟩]
          omega
        intact := h.intact }

theorem Inv.transfer (h : Inv ok s) {t : Transfer} {b : Blocks}
    (hs : s.toBlocks.transfer t = some b) :
    Inv (ok && !t.isWriteFails) (s.withBlocks b) := by
  obtain ⟨hsame, hbusy⟩ := Blocks.operations_transfer hs
  have hstarted := (h.busy hbusy).1
  exact
    { blocks := h.blocks.transfer hs
      fresh := fun hfresh => nomatch hstarted.symm.trans hfresh
      opCount := h.opCount.trans (congrArg Nat.cast hsame.symm)
      lives := by
        rw [show (s.withBlocks b).operations = s.operations from hsame]
        exact h.lives
      intact := h.intact }

theorem Handling.exchangeIfOne (h : Handling s) : Handling s.exchangeIfOne := by
  rw [ServerSession.exchangeIfOne]
  split
  · exact
      { started := h.started
        opCount := by
          show s.opCount + 2 = (s.exchange.operations : Int)
          rw [Blocks.operations_exchange, h.opCount]
          rfl
        posted := h.posted
        deleted := h.deleted
        intact := h.intact }
  · exact h

theorem toBlocks_exchangeIfOne (s : ServerSession) : s.exchangeIfOne.toBlocks =
    if s.unsentCount = 1 then s.exchange else s.toBlocks := by
  rw [ServerSession.exchangeIfOne]
  split <;> rfl

/-- A handler is called while its operation is still counted. -/
theorem Inv.handling (h : Inv ok s) {b : Blocks} (hb : b.operations + 1 = s.operations) :
    Handling { s.withBlocks b with opCount := s.opCount - 1 } := by
  obtain ⟨hstarted, hposted, hdeleted⟩ := h.busy (by omega)
  exact
    { started := hstarted
      opCount := by
        show s.opCount - 1 = (b.operations : Int)
        rw [h.opCount]
        omega
      posted := hposted
      deleted := hdeleted
      intact := h.intact }

theorem Inv.handleRead (h : Inv ok s) {i : Nat} {outcome : Option Nat} {b : Blocks}
    (hs : s.takeRead i = some (outcome, b)) :
    Inv ok ((s.withBlocks b).handleRead outcome) := by
  have hhandling := h.handling (Blocks.operations_takeRead hs)
  cases outcome with
  | none => exact hhandling.postIfIdle (h.blocks.readError hs)
  | some n =>
      refine Handling.postIfIdle (Handling.exchangeIfOne ?_) ?_
      · exact
          { started := hhandling.started
            opCount := hhandling.opCount
            posted := hhandling.posted
            deleted := hhandling.deleted
            intact := hhandling.intact }
      · rw [toBlocks_exchangeIfOne]
        exact h.blocks.readDone hs

theorem Inv.handleWrite (h : Inv ok s) {i : Nat} {outcome : Option Nat} {b : Blocks}
    (hs : s.takeWrite i = some (outcome, b)) :
    Inv ok ((s.withBlocks b).handleWrite outcome) := by
  have hhandling := h.handling (Blocks.operations_takeWrite hs)
  cases outcome with
  | none => exact hhandling.postIfIdle (h.blocks.writeIgnored hs nofun)
  | some n =>
      refine Handling.postIfIdle (Handling.exchangeIfOne ?_) ?_
      · exact
          { started := hhandling.started
            opCount := hhandling.opCount
            posted := hhandling.posted
            deleted := hhandling.deleted
            intact := hhandling.intact }
      · rw [toBlocks_exchangeIfOne]
        exact h.blocks.writeDone hs

/-- A handler is never called behind the end of the session. -/
theorem Inv.call (h : Inv ok s) (hbusy : 0 < s.operations) (b : Blocks)
    (handler : ServerSession → ServerSession) :
    (s.withBlocks b).call handler = handler (s.withBlocks b) := by
  have halive : (s.withBlocks b).deleted = 0 := (h.busy hbusy).2.2
  exact if_neg (by omega)

theorem Inv.destroy (h : Inv ok s) (hposted : 0 < s.posted) :
    Inv ok { s with
      posted := s.posted - 1
      deleted := s.deleted + 1 } where
  blocks := h.blocks
  fresh := h.fresh
  opCount := h.opCount
  lives := by
    show s.posted - 1 + (s.deleted + 1) = if s.started = true ∧ s.operations = 0 then 1 else 0
    rw [← h.lives]
    omega
  intact := h.intact

/-- The step lemma. -/
theorem Inv.step (h : Inv ok s) {a : Act} (hs : s.step a = some s') :
    Inv (ok && !a.isWriteFails) s' := by
  cases a with
  | start optionSet =>
      rw [ServerSession.step] at hs
      split at hs
      · next hstarted =>
          cases hs
          show Inv (ok && true) _
          rw [Bool.and_true]
          exact h.start hstarted optionSet
      · cases hs
  | transfer t =>
      rcases Option.map_eq_some_iff.mp hs with ⟨b, hb, rfl⟩
      exact h.transfer hb
  | handleRead i =>
      rcases Option.map_eq_some_iff.mp hs with ⟨⟨outcome, b⟩, hb, rfl⟩
      show Inv (ok && true) _
      rw [Bool.and_true, h.call (Blocks.busy_takeRead hb)]
      exact h.handleRead hb
  | handleWrite i =>
      rcases Option.map_eq_some_iff.mp hs with ⟨⟨outcome, b⟩, hb, rfl⟩
      show Inv (ok && true) _
      rw [Bool.and_true, h.call (Blocks.busy_takeWrite hb)]
      exact h.handleWrite hb
  | destroy =>
      rw [ServerSession.step] at hs
      split at hs
      · next hposted =>
          cases hs
          show Inv (ok && true) _
          rw [Bool.and_true]
          exact h.destroy hposted
      · cases hs

/-! ### The two streams -/

theorem toBlocks_postIfIdle (s : ServerSession) : s.postIfIdle.toBlocks = s.toBlocks := by
  rw [ServerSession.postIfIdle]
  split <;> rfl

/-- The handlers do to the blocks what both sessions do to them. -/
theorem toBlocks_handleRead (s : ServerSession) (outcome : Option Nat) :
    (s.handleRead outcome).toBlocks = match outcome with
      | some n => s.readDone n
      | none => s.toBlocks := by
  cases outcome with
  | none => exact toBlocks_postIfIdle _
  | some n => exact (toBlocks_postIfIdle _).trans (toBlocks_exchangeIfOne _)

theorem toBlocks_handleWrite (s : ServerSession) (outcome : Option Nat) :
    (s.handleWrite outcome).toBlocks = match outcome with
      | some _ => s.writeDone
      | none => s.toBlocks := by
  cases outcome with
  | none => exact toBlocks_postIfIdle _
  | some n => exact (toBlocks_postIfIdle _).trans (toBlocks_exchangeIfOne _)

/-- The blocks behind a step. -/
theorem toBlocks_step {a : Act} (h : Inv ok s) (hs : s.step a = some s') :
    match a with
    | .start optionSet => s'.toBlocks = if optionSet = true then s.asyncReadSome else s.toBlocks
    | .transfer t => s.toBlocks.transfer t = some s'.toBlocks
    | .handleRead i => ∃ outcome b, s.takeRead i = some (outcome, b) ∧
        s'.toBlocks = match outcome with
          | some n => b.readDone n
          | none => b
    | .handleWrite i => ∃ outcome b, s.takeWrite i = some (outcome, b) ∧
        s'.toBlocks = match outcome with
          | some _ => b.writeDone
          | none => b
    | .destroy => s'.toBlocks = s.toBlocks := by
  cases a with
  | start optionSet =>
      rw [ServerSession.step] at hs
      split at hs
      · cases hs
        show (s.start optionSet).toBlocks = if optionSet = true then _ else _
        rw [ServerSession.start]
        split <;> rfl
      · cases hs
  | transfer t =>
      rcases Option.map_eq_some_iff.mp hs with ⟨b, hb, rfl⟩
      exact hb
  | handleRead i =>
      rcases Option.map_eq_some_iff.mp hs with ⟨⟨outcome, b⟩, hb, rfl⟩
      refine ⟨outcome, b, hb, ?_⟩
      rw [h.call (Blocks.busy_takeRead hb)]
      exact toBlocks_handleRead _ _
  | handleWrite i =>
      rcases Option.map_eq_some_iff.mp hs with ⟨⟨outcome, b⟩, hb, rfl⟩
      refine ⟨outcome, b, hb, ?_⟩
      rw [h.call (Blocks.busy_takeWrite hb)]
      exact toBlocks_handleWrite _ _
  | destroy =>
      rw [ServerSession.step] at hs
      split at hs
      · cases hs
        rfl
      · cases hs

/-- What a step adds to them. -/
theorem stream_step {a : Act} (h : Inv ok s) (hs : s.step a = some s') :
    s'.received = s.received ++ a.stores ∧ s.sent <+: s'.sent ∧ s'.blockSize = s.blockSize := by
  have hblocks := toBlocks_step h hs
  cases a with
  | start optionSet =>
      rw [show s'.toBlocks = _ from hblocks]
      split <;> exact ⟨(List.append_nil _).symm, List.prefix_rfl, rfl⟩
  | transfer t =>
      obtain ⟨hreceived, hsent, -⟩ := Blocks.stream_transfer hblocks
      exact ⟨hreceived, hsent, Blocks.blockSize_transfer hblocks⟩
  | handleRead i =>
      rcases hblocks with ⟨outcome, b, hb, hs'⟩
      obtain ⟨hreceived, hsent, hsize⟩ := Blocks.takeRead_same hb
      rw [hs', show Act.stores (.handleRead i) = [] from rfl, List.append_nil, ← hreceived, ← hsent,
        ← hsize]
      cases outcome with
      | none => exact ⟨rfl, List.prefix_rfl, rfl⟩
      | some n =>
          obtain ⟨hreceived', hsent', hsize'⟩ := b.readDone_same n
          exact ⟨hreceived', ⟨[], (List.append_nil _).trans hsent'.symm⟩, hsize'⟩
  | handleWrite i =>
      rcases hblocks with ⟨outcome, b, hb, hs'⟩
      obtain ⟨hreceived, hsent, hsize⟩ := Blocks.takeWrite_same hb
      rw [hs', show Act.stores (.handleWrite i) = [] from rfl, List.append_nil, ← hreceived,
        ← hsent, ← hsize]
      cases outcome with
      | none => exact ⟨rfl, List.prefix_rfl, rfl⟩
      | some n =>
          obtain ⟨hreceived', hsent', hsize'⟩ := b.writeDone_same
          exact ⟨hreceived', ⟨[], (List.append_nil _).trans hsent'.symm⟩, hsize'⟩
  | destroy =>
      rw [show s'.toBlocks = _ from hblocks]
      exact ⟨(List.append_nil _).symm, List.prefix_rfl, rfl⟩

/-! ## Runs -/

variable {blockSize : Nat} {memory : Block → Vector Byte blockSize} {as : List Act}

theorem inv_run (hrun : run step (construct memory) as = some s) : ∃ ok, Inv ok s :=
  invariant_run (I := fun s => ∃ ok, Inv ok s) (fun _ _ _ ⟨_, h⟩ hs => ⟨_, h.step hs⟩)
    ⟨true, inv_construct memory⟩ hrun

/-- A run in which no write fails. -/
theorem inv_run_of_written (hok : ∀ a ∈ as, a.isWriteFails = false)
    (hrun : run step (construct memory) as = some s) : Inv true s := by
  refine invariant_along ?_ (inv_construct memory) (along_of_forall_mem hok _) hrun
  intro s a s' h hok hs
  have h' := h.step hs
  rwa [hok] at h'

/-- In every run of a session: the task that deletes it is posted once, behind the handler that leaves
no operation in progress, and from then on no handler is called; `op_count_` counts the operations. -/
theorem destroyed_once (hrun : run step (construct memory) as = some s) :
    s.dangling = false ∧ s.opCount = s.operations ∧
      s.posted + s.deleted = if s.started = true ∧ s.operations = 0 then 1 else 0 := by
  rcases inv_run hrun with ⟨ok, h⟩
  exact ⟨h.intact, h.opCount, h.lives⟩

/-- In every run of a session: what it sends is what it has received, in order.  If no write fails, all
that it has received and not sent is in its two blocks, and nothing when it is deleted. -/
theorem sent_back (hrun : run step (construct memory) as = some s) :
    s.sent <+: s.received ∧
      ((∀ a ∈ as, a.isWriteFails = false) →
        s.received = s.sent ++ s.waiting ∧ s.waiting.length ≤ 2 * s.blockSize ∧
          (0 < s.posted + s.deleted → s.sent = s.received)) := by
  rcases inv_run hrun with ⟨ok, h⟩
  refine ⟨h.blocks.sent_prefix, ?_⟩
  intro hok
  have h := inv_run_of_written hok hrun
  have hbalance : s.received = s.sent ++ s.waiting := h.blocks.balance rfl
  refine ⟨hbalance, h.blocks.length_waiting_le, ?_⟩
  intro hgone
  rw [h.lives] at hgone
  split at hgone
  · next hidle =>
      rw [hbalance, h.blocks.waiting_eq_nil hidle.2, List.append_nil]
  · cases hgone

/-- Two bytes are read and a third one while the first two are being written; then the peer closes. -/
def threeBytes : List Act :=
  [.start true, .transfer (.readSome 0 [1, 2]), .handleRead 0, .transfer (.writeSome 0 1),
    .transfer (.readSome 0 [3]), .handleRead 0, .transfer (.writeSome 0 1), .handleWrite 0,
    .transfer (.readFails 0), .handleRead 0, .transfer (.writeSome 0 1), .handleWrite 0, .destroy]

theorem destroyed_once_threeBytes :
    ∃ s, run step (construct fun _ => Vector.replicate 2 0) threeBytes = some s ∧ s.deleted = 1 ∧
      s.dangling = false := by
  have hany : (run step (construct fun _ => Vector.replicate 2 0) threeBytes).any
      (fun s => decide (s.deleted = 1)) = true := by
    decide
  rcases exists_run_of_any hany with ⟨s, hrun, hdeleted⟩
  exact ⟨s, hrun, hdeleted, (destroyed_once hrun).1⟩

theorem sent_back_threeBytes :
    ∃ s, run step (construct fun _ => Vector.replicate 2 0) threeBytes = some s ∧
      s.received = [1, 2, 3] ∧ s.sent = s.received := by
  have hany : (run step (construct fun _ => Vector.replicate 2 0) threeBytes).any
      (fun s => decide (s.deleted = 1 ∧ s.received = [1, 2, 3])) = true := by
    decide
  rcases exists_run_of_any hany with ⟨s, hrun, hdeleted, hreceived⟩
  exact ⟨s, hrun, hreceived, ((sent_back hrun).2 (by decide)).2.2 (by omega)⟩

end ServerSession
end PingPong
end Example
end Muradin
