import Mathlib.Logic.Function.Basic
import Muradin.Lib.ByteOrder
import Muradin.Lib.Window

/-!
# Blocks — what the sessions of `example/asio/pingpong` have in common

A session reads into one block while it writes the other one back; when both are done, it swaps them
and begins anew.  `server.cpp` and `client.cpp` have the same members for it.

* the two arrays that `read_data_` and `write_data_` point to are told apart by a `Bool`;
* an operation of `asio` is there from the call that starts it until its handler runs: a read stores
  into its block once, a write takes from its block bit by bit until all is taken, and either may fail
  instead;
* the handlers run on a strand, so that each of them is one step; the socket comes in between.
-/

namespace Muradin
namespace Example
namespace PingPong

open Lib

/-! ## Operations -/

/-- One of the two arrays. -/
abbrev Block := Bool

inductive ReadResult
  | pending
  | completed (length : Nat)
  | failed
  deriving DecidableEq, Repr

/-- An `async_read_some` whose handler has not run. -/
structure ReadOp where
  data : Block
  result : ReadResult
  deriving DecidableEq, Repr

/-- An `async_write` whose handler has not run. -/
structure WriteOp where
  data : Block
  length : Nat
  /-- how much of it the socket has taken -/
  taken : Nat
  failed : Bool
  deriving DecidableEq, Repr

/-- What the handler of a read is called with: a length or an error. -/
def ReadOp.outcome (op : ReadOp) : Option (Option Nat) :=
  match op.result with
  | .pending => none
  | .completed length => some (some length)
  | .failed => some none

/-- What the handler of a write is called with, when all is taken or the write has failed. -/
def WriteOp.outcome (op : WriteOp) : Option (Option Nat) :=
  if op.failed = true then some none
  else if op.taken = op.length then some (some op.length)
  else none

theorem ReadOp.outcome_some {op : ReadOp} {n : Nat} (h : op.outcome = some (some n)) :
    op.result = .completed n := by
  rw [outcome] at h
  split at h
  · cases h
  · next length hresult =>
      cases h
      exact hresult
  · cases h

theorem ReadOp.outcome_none {op : ReadOp} (h : op.outcome = some none) : op.result = .failed := by
  rw [outcome] at h
  split at h
  · cases h
  · cases h
  · assumption

theorem WriteOp.outcome_some {op : WriteOp} {n : Nat} (h : op.outcome = some (some n)) :
    op.failed = false ∧ op.taken = op.length ∧ op.length = n := by
  rw [outcome] at h
  split at h
  · cases h
  · next hfailed =>
      split at h
      · next htaken =>
          cases h
          exact ⟨Bool.eq_false_iff.mpr hfailed, htaken, rfl⟩
      · cases h

theorem WriteOp.outcome_none {op : WriteOp} (h : op.outcome = some none) : op.failed = true := by
  rw [outcome] at h
  split at h
  · assumption
  · split at h <;> cases h

structure Blocks where
  blockSize : Nat
  memory : Block → List Byte
  readData : Block
  readDataLength : Nat
  writeData : Block
  /-- `unsent_count_`, in the client `unwritten_count_` -/
  unsentCount : Int
  reads : List ReadOp
  writes : List WriteOp
  /-- what the socket has taken -/
  sent : List Byte
  /-- what it has stored -/
  received : List Byte

/-- What the socket does. -/
inductive Transfer
  | readSome (i : Nat) (bytes : List Byte)
  | readFails (i : Nat)
  | writeSome (i n : Nat)
  | writeFails (i : Nat)
  deriving DecidableEq, Repr

def Transfer.isWriteFails : Transfer → Bool
  | .writeFails _ => true
  | _ => false

def Transfer.isFailure : Transfer → Bool
  | .readFails _ | .writeFails _ => true
  | _ => false

/-- The bytes that come from the socket. -/
def Transfer.stores : Transfer → List Byte
  | .readSome _ bytes => bytes
  | _ => []

namespace Blocks

/-- `socket_.async_read_some(asio::buffer(read_data_, block_size_), ..)` -/
def asyncReadSome (s : Blocks) : Blocks :=
  { s with reads := s.reads ++ [{ data := s.readData, result := .pending }] }

/-- `async_write(socket_, asio::buffer(write_data_, length), ..)` -/
def asyncWrite (s : Blocks) (length : Nat) : Blocks :=
  { s with writes := s.writes ++ [{ data := s.writeData, length, taken := 0, failed := false }] }

/-- `std::swap(read_data_, write_data_)` -/
def swapData (s : Blocks) : Blocks :=
  { s with
    readData := s.writeData
    writeData := s.readData }

/-- What both handlers do when the count has come to 1. -/
def exchange (s : Blocks) : Blocks :=
  (s.swapData.asyncWrite s.readDataLength).asyncReadSome

/-- `async_read_some` completes with at least one byte, unless there is no room for one. -/
def Stores (s : Blocks) (bytes : List Byte) : Prop :=
  bytes.length ≤ s.blockSize ∧ (bytes.length = 0 → s.blockSize = 0)

instance (s : Blocks) (bytes : List Byte) : Decidable (s.Stores bytes) :=
  inferInstanceAs (Decidable (_ ∧ _))

/-- Behind a read that has stored `bytes`. -/
def stored (s : Blocks) (i : Nat) (op : ReadOp) (bytes : List Byte) : Blocks :=
  { s with
    memory := Function.update s.memory op.data (overlay (s.memory op.data) 0 bytes)
    reads := s.reads.set i { op with result := .completed bytes.length }
    received := s.received ++ bytes }

def readSome (s : Blocks) (i : Nat) (bytes : List Byte) : Option Blocks :=
  s.reads[i]?.bind fun op =>
    if op.result = .pending ∧ s.Stores bytes then some (s.stored i op bytes) else none

def readFailed (s : Blocks) (i : Nat) (op : ReadOp) : Blocks :=
  { s with reads := s.reads.set i { op with result := .failed } }

def readFails (s : Blocks) (i : Nat) : Option Blocks :=
  s.reads[i]?.bind fun op =>
    if op.result = .pending then some (s.readFailed i op) else none

/-- Behind a write of which `n` more bytes are taken. -/
def takenSome (s : Blocks) (i : Nat) (op : WriteOp) (n : Nat) : Blocks :=
  { s with
    writes := s.writes.set i { op with taken := op.taken + n }
    sent := s.sent ++ window (s.memory op.data) op.taken (op.taken + n) }

def writeSome (s : Blocks) (i n : Nat) : Option Blocks :=
  s.writes[i]?.bind fun op =>
    if op.failed = false ∧ 0 < n ∧ op.taken + n ≤ op.length then some (s.takenSome i op n) else none

def writeFailed (s : Blocks) (i : Nat) (op : WriteOp) : Blocks :=
  { s with writes := s.writes.set i { op with failed := true } }

def writeFails (s : Blocks) (i : Nat) : Option Blocks :=
  s.writes[i]?.bind fun op =>
    if op.failed = false ∧ op.taken < op.length then some (s.writeFailed i op) else none

def transfer (s : Blocks) : Transfer → Option Blocks
  | .readSome i bytes => s.readSome i bytes
  | .readFails i => s.readFails i
  | .writeSome i n => s.writeSome i n
  | .writeFails i => s.writeFails i

def takeRead (s : Blocks) (i : Nat) : Option (Option Nat × Blocks) :=
  s.reads[i]?.bind fun op =>
    op.outcome.map fun outcome => (outcome, { s with reads := s.reads.eraseIdx i })

def takeWrite (s : Blocks) (i : Nat) : Option (Option Nat × Blocks) :=
  s.writes[i]?.bind fun op =>
    op.outcome.map fun outcome => (outcome, { s with writes := s.writes.eraseIdx i })

/-- What `handle_read` does with a block. -/
def readDone (s : Blocks) (length : Nat) : Blocks :=
  let s := { s with
    readDataLength := length
    unsentCount := s.unsentCount + 1 }
  if s.unsentCount = 1 then s.exchange else s

/-- What `handle_write` does behind a block. -/
def writeDone (s : Blocks) : Blocks :=
  let s := { s with unsentCount := s.unsentCount - 1 }
  if s.unsentCount = 1 then s.exchange else s

/-! ## What waits in the two blocks -/

/-- What a read has stored. -/
def fetched (s : Blocks) (op : ReadOp) : List Byte :=
  match op.result with
  | .completed length => window (s.memory op.data) 0 length
  | _ => []

/-- What a write has still to send. -/
def rest (s : Blocks) (op : WriteOp) : List Byte :=
  window (s.memory op.data) op.taken op.length

/-- A block that is read while the other one is still being written. -/
def held (s : Blocks) : List Byte :=
  if s.unsentCount = 2 then window (s.memory s.readData) 0 s.readDataLength else []

/-- The bytes of a session that are not sent yet. -/
def waiting (s : Blocks) : List Byte :=
  s.writes.flatMap s.rest ++ (s.reads.flatMap s.fetched ++ s.held)

/-! ## The invariant -/

/-- A read stores into `read_data_`. -/
structure Fetches (blockSize : Nat) (readData : Block) (op : ReadOp) : Prop where
  data : op.data = readData
  length_le : ∀ n, op.result = .completed n → n ≤ blockSize
  length_pos : ∀ n, op.result = .completed n → n = 0 → blockSize = 0

/-- And a write takes from `write_data_`. -/
structure Sends (blockSize : Nat) (writeData : Block) (op : WriteOp) : Prop where
  data : op.data = writeData
  taken_le : op.taken ≤ op.length
  length_le : op.length ≤ blockSize
  length_pos : op.length = 0 → blockSize = 0

/-- How many operations are in progress, by the count.  `ok` says that no write has failed. -/
inductive Turn (blockSize : Nat) (ok : Bool) (count : Int) (reads writes readDataLength : Nat) : Prop
  | reading (hcount : count = 0) (hreads : reads = 1) (hwrites : writes = 0) (hok : ok = true)
  | exchanging (hcount : count = 1) (hreads : reads = 1) (hwrites : writes = 1)
  | holding (hcount : count = 2) (hreads : reads = 0) (hwrites : writes = 1)
      (hle : readDataLength ≤ blockSize) (hpos : readDataLength = 0 → blockSize = 0)
  | lastWrite (hcount : count = 1) (hreads : reads = 0) (hwrites : writes = 1)
  | lastRead (hcount : count = 1) (hreads : reads = 1) (hwrites : writes = 0)
      (hok : ok = true → blockSize = 0)
  | ended (hreads : reads = 0) (hwrites : writes = 0)
      (hok : ok = true → count = 2 → blockSize = 0)

/-- `base` is what the session has to send on its own account. -/
structure Inv (base : List Byte) (ok : Bool) (s : Blocks) : Prop where
  apart : s.readData ≠ s.writeData
  size : ∀ b, (s.memory b).length = s.blockSize
  fetches : ∀ op ∈ s.reads, Fetches s.blockSize s.readData op
  sends : ∀ op ∈ s.writes, Sends s.blockSize s.writeData op
  failed : ∀ op ∈ s.writes, op.failed = !ok
  turn : Turn s.blockSize ok s.unsentCount s.reads.length s.writes.length s.readDataLength
  balance : ok = true → base ++ s.received = s.sent ++ s.waiting
  sent : ok = false → s.sent <+: base ++ s.received

variable {s s' s₁ : Blocks} {base : List Byte} {ok : Bool} {i : Nat}

/-- The only element of a short list. -/
theorem eq_singleton_of_getElem? {α : Type} {xs : List α} {x : α} (hlen : xs.length ≤ 1)
    (hx : xs[i]? = some x) : i = 0 ∧ xs = [x] := by
  rcases xs with _ | ⟨y, _ | ⟨z, xs⟩⟩
  · simp at hx
  · cases i with
    | zero => simpa using hx
    | succ i => simp at hx
  · simp at hlen

theorem Inv.read (h : Inv base ok s) {op : ReadOp} (hop : s.reads[i]? = some op) :
    i = 0 ∧ s.reads = [op] := by
  refine eq_singleton_of_getElem? ?_ hop
  cases h.turn <;> omega

theorem Inv.write (h : Inv base ok s) {op : WriteOp} (hop : s.writes[i]? = some op) :
    i = 0 ∧ s.writes = [op] := by
  refine eq_singleton_of_getElem? ?_ hop
  cases h.turn <;> omega

theorem Inv.reads_cases (h : Inv base ok s) : s.reads = [] ∨ ∃ op, s.reads = [op] := by
  rcases hreads : s.reads with _ | ⟨op, ops⟩
  · exact Or.inl rfl
  · have hop : s.reads[0]? = some op := by rw [hreads, List.getElem?_cons_zero]
    exact Or.inr ⟨op, hreads ▸ (h.read hop).2⟩

theorem Inv.writes_cases (h : Inv base ok s) : s.writes = [] ∨ ∃ op, s.writes = [op] := by
  rcases hwrites : s.writes with _ | ⟨op, ops⟩
  · exact Or.inl rfl
  · have hop : s.writes[0]? = some op := by rw [hwrites, List.getElem?_cons_zero]
    exact Or.inr ⟨op, hwrites ▸ (h.write hop).2⟩

/-- While a read is in progress no block is held. -/
theorem Inv.count_ne (h : Inv base ok s) {op : ReadOp} (hreads : s.reads = [op]) :
    s.unsentCount ≠ 2 := by
  have hlength : s.reads.length = 1 := congrArg List.length hreads
  cases h.turn <;> omega

theorem waiting_of_read {op : ReadOp} (hreads : s.reads = [op]) (hcount : s.unsentCount ≠ 2) :
    s.waiting = s.writes.flatMap s.rest ++ s.fetched op := by
  rw [waiting, hreads, held, if_neg hcount, List.flatMap_singleton, List.append_nil]

theorem waiting_of_write {op : WriteOp} (hwrites : s.writes = [op]) :
    s.waiting = s.rest op ++ (s.reads.flatMap s.fetched ++ s.held) := by
  rw [waiting, hwrites, List.flatMap_singleton]

/-- A write that fails leaves the turn as it is. -/
theorem Turn.fail {blockSize reads writes readDataLength : Nat} {count : Int}
    (h : Turn blockSize ok count reads writes readDataLength) (hwrites : writes = 1) :
    Turn blockSize false count reads writes readDataLength := by
  cases h with
  | reading hcount hreads hwrites' hok => omega
  | exchanging hcount hreads hwrites' => exact .exchanging hcount hreads hwrites'
  | holding hcount hreads hwrites' hle hpos => exact .holding hcount hreads hwrites' hle hpos
  | lastWrite hcount hreads hwrites' => exact .lastWrite hcount hreads hwrites'
  | lastRead hcount hreads hwrites' hok => omega
  | ended hreads hwrites' hok => omega

/-! ### The socket -/

theorem bind_ite_eq_some {α β : Type} {o : Option α} {p : α → Prop} [DecidablePred p] {f : α → β}
    {y : β} (h : (o.bind fun x => if p x then some (f x) else none) = some y) :
    ∃ x, o = some x ∧ p x ∧ y = f x := by
  rcases Option.bind_eq_some_iff.mp h with ⟨x, hx, hy⟩
  split at hy
  · next hp => exact ⟨x, hx, hp, (Option.some.inj hy).symm⟩
  · cases hy

/-- What was stored is what the read has fetched. -/
theorem Inv.fetched_stored (h : Inv base ok s) {op : ReadOp} {bytes : List Byte}
    (hle : bytes.length ≤ s.blockSize) :
    (s.stored 0 op bytes).fetched { op with result := .completed bytes.length } = bytes := by
  have hroom : 0 + bytes.length ≤ (s.memory op.data).length := by
    rw [h.size, Nat.zero_add]
    exact hle
  show window (Function.update s.memory op.data _ op.data) 0 bytes.length = bytes
  rw [Function.update_self]
  simpa using window_overlay hroom

theorem reads_stored {op : ReadOp} (hreads : s.reads = [op]) (bytes : List Byte) :
    (s.stored 0 op bytes).reads = [{ op with result := .completed bytes.length }] := by
  simp [stored, hreads]

/-- It waits behind the rest. -/
theorem Inv.waiting_stored (h : Inv base ok s) {op : ReadOp} {bytes : List Byte}
    (hreads : s.reads = [op]) (hpending : op.result = .pending) (hle : bytes.length ≤ s.blockSize) :
    (s.stored 0 op bytes).waiting = s.waiting ++ bytes := by
  have hcount := h.count_ne hreads
  have hdata : op.data = s.readData := (h.fetches op (by simp [hreads])).data
  -- The block that is being written is the other one.
  have hrest : ∀ w ∈ s.writes, (s.stored 0 op bytes).rest w = s.rest w := by
    intro w hw
    have hne : w.data ≠ op.data := by
      rw [(h.sends w hw).data, hdata]
      exact h.apart.symm
    show window (Function.update s.memory op.data _ w.data) _ _ = window (s.memory w.data) _ _
    rw [Function.update_of_ne hne]
  have hempty : s.fetched op = [] := by simp [fetched, hpending]
  rw [waiting_of_read (reads_stored hreads bytes) hcount, waiting_of_read hreads hcount,
    h.fetched_stored hle, hempty, List.append_nil]
  exact congrArg (· ++ bytes) (List.flatMap_congr hrest)

theorem Inv.readSome (h : Inv base ok s) {bytes : List Byte}
    (hs : s.readSome i bytes = some s') : Inv base ok s' := by
  rcases bind_ite_eq_some hs with ⟨op, hop, ⟨hpending, hle, hpos⟩, rfl⟩
  obtain ⟨rfl, hreads⟩ := h.read hop
  have hdata : op.data = s.readData := (h.fetches op (by simp [hreads])).data
  exact
    { apart := h.apart
      -- The store stays inside its block, and the other block is as it was.
      size := by
        intro b
        by_cases hb : b = op.data
        · subst hb
          have hroom : 0 + bytes.length ≤ (s.memory op.data).length := by
            rw [h.size, Nat.zero_add]
            exact hle
          simpa [stored, length_overlay hroom] using h.size _
        · simpa [stored, Function.update_of_ne hb] using h.size b
      fetches := by
        intro r hr
        obtain rfl : r = { op with result := .completed bytes.length } := by
          simpa [stored, hreads] using hr
        exact ⟨hdata, fun n hn => by cases hn; exact hle, fun n hn => by cases hn; exact hpos⟩
      sends := h.sends
      failed := h.failed
      turn := by simpa [stored] using h.turn
      balance := by
        intro hok
        rw [h.waiting_stored hreads hpending hle]
        show base ++ (s.received ++ bytes) = s.sent ++ (s.waiting ++ bytes)
        rw [← List.append_assoc, h.balance hok, List.append_assoc]
      sent := fun hok => (h.sent hok).trans (by simp [stored]) }

theorem Inv.readFails (h : Inv base ok s) (hs : s.readFails i = some s') : Inv base ok s' := by
  rcases bind_ite_eq_some hs with ⟨op, hop, hpending, rfl⟩
  obtain ⟨rfl, hreads⟩ := h.read hop
  have hcount := h.count_ne hreads
  have hreads' : (s.readFailed 0 op).reads = [{ op with result := .failed }] := by
    simp [readFailed, hreads]
  exact
    { apart := h.apart
      size := h.size
      fetches := by
        intro r hr
        obtain rfl : r = { op with result := .failed } := by simpa [hreads'] using hr
        exact ⟨(h.fetches op (by simp [hreads])).data, nofun, nofun⟩
      sends := h.sends
      failed := h.failed
      turn := by simpa [readFailed] using h.turn
      balance := by
        intro hok
        have hbalance := h.balance hok
        have hempty : s.fetched op = [] := by simp [fetched, hpending]
        rw [waiting_of_read hreads hcount, hempty] at hbalance
        rw [waiting_of_read hreads' hcount]
        exact hbalance
      sent := h.sent }

/-- What is taken has waited at the front. -/
theorem waiting_takenSome {op : WriteOp} {n : Nat} (hwrites : s.writes = [op])
    (hle : op.taken + n ≤ op.length) :
    s.waiting = window (s.memory op.data) op.taken (op.taken + n) ++
      (s.takenSome 0 op n).waiting := by
  have hwrites' : (s.takenSome 0 op n).writes = [{ op with taken := op.taken + n }] := by
    simp [takenSome, hwrites]
  have hrest : s.rest op = window (s.memory op.data) op.taken (op.taken + n) ++
      (s.takenSome 0 op n).rest { op with taken := op.taken + n } :=
    (window_append_window (Nat.le_add_right _ _) hle).symm
  rw [waiting_of_write hwrites, waiting_of_write hwrites', hrest, List.append_assoc]
  rfl

theorem Inv.writeSome (h : Inv base ok s) {n : Nat} (hs : s.writeSome i n = some s') :
    Inv base ok s' := by
  rcases bind_ite_eq_some hs with ⟨op, hop, ⟨hfailed, -, hle⟩, rfl⟩
  obtain ⟨rfl, hwrites⟩ := h.write hop
  have hmem : op ∈ s.writes := by simp [hwrites]
  have hok : ok = true := by simpa [hfailed] using (h.failed op hmem).symm
  have hwrites' : (s.takenSome 0 op n).writes = [{ op with taken := op.taken + n }] := by
    simp [takenSome, hwrites]
  exact
    { apart := h.apart
      size := h.size
      fetches := h.fetches
      sends := by
        intro w hw
        obtain rfl : w = { op with taken := op.taken + n } := by simpa [hwrites'] using hw
        have hsends := h.sends op hmem
        exact ⟨hsends.data, hle, hsends.length_le, hsends.length_pos⟩
      failed := by
        intro w hw
        obtain rfl : w = { op with taken := op.taken + n } := by simpa [hwrites'] using hw
        exact h.failed op hmem
      turn := by simpa [takenSome] using h.turn
      balance := by
        intro hok
        rw [takenSome]
        show base ++ s.received = s.sent ++ window _ _ _ ++ _
        rw [h.balance hok, waiting_takenSome hwrites hle, List.append_assoc]
        rfl
      sent := by
        intro hlost
        exact absurd (hok.symm.trans hlost) (by decide) }

theorem Inv.writeFails (h : Inv base ok s) (hs : s.writeFails i = some s') : Inv base false s' := by
  rcases bind_ite_eq_some hs with ⟨op, hop, ⟨hfailed, -⟩, rfl⟩
  obtain ⟨rfl, hwrites⟩ := h.write hop
  have hmem : op ∈ s.writes := by simp [hwrites]
  have hok : ok = true := by simpa [hfailed] using (h.failed op hmem).symm
  have hwrites' : (s.writeFailed 0 op).writes = [{ op with failed := true }] := by
    simp [writeFailed, hwrites]
  exact
    { apart := h.apart
      size := h.size
      fetches := h.fetches
      sends := by
        intro w hw
        obtain rfl : w = { op with failed := true } := by simpa [hwrites'] using hw
        have hsends := h.sends op hmem
        exact ⟨hsends.data, hsends.taken_le, hsends.length_le, hsends.length_pos⟩
      failed := by
        intro w hw
        obtain rfl : w = { op with failed := true } := by simpa [hwrites'] using hw
        rfl
      turn := by
        have hturn := h.turn.fail (by simp [hwrites])
        simpa [writeFailed] using hturn
      -- From here on the rest of the block is missing: only the prefix is kept.
      balance := nofun
      sent := fun _ => ⟨s.waiting, (h.balance hok).symm⟩ }

theorem Inv.transfer (h : Inv base ok s) {t : Transfer} (hs : s.transfer t = some s') :
    Inv base (ok && !t.isWriteFails) s' := by
  cases t with
  | readSome i bytes =>
      show Inv base (ok && true) s'
      rw [Bool.and_true]
      exact h.readSome hs
  | readFails i =>
      show Inv base (ok && true) s'
      rw [Bool.and_true]
      exact h.readFails hs
  | writeSome i n =>
      show Inv base (ok && true) s'
      rw [Bool.and_true]
      exact h.writeSome hs
  | writeFails i =>
      show Inv base (ok && false) s'
      rw [Bool.and_false]
      exact h.writeFails hs

/-- The operations in progress. -/
def operations (s : Blocks) : Nat :=
  s.reads.length + s.writes.length

/-- The socket only goes on with operations in progress. -/
theorem operations_transfer {t : Transfer} (hs : s.transfer t = some s') :
    s'.operations = s.operations ∧ 0 < s.operations := by
  cases t with
  | readSome i bytes =>
      rcases bind_ite_eq_some hs with ⟨op, hop, -, rfl⟩
      have hlt := (List.getElem?_eq_some_iff.mp hop).1
      refine ⟨by simp [operations, stored], ?_⟩
      show 0 < s.reads.length + s.writes.length
      omega
  | readFails i =>
      rcases bind_ite_eq_some hs with ⟨op, hop, -, rfl⟩
      have hlt := (List.getElem?_eq_some_iff.mp hop).1
      refine ⟨by simp [operations, readFailed], ?_⟩
      show 0 < s.reads.length + s.writes.length
      omega
  | writeSome i n =>
      rcases bind_ite_eq_some hs with ⟨op, hop, -, rfl⟩
      have hlt := (List.getElem?_eq_some_iff.mp hop).1
      refine ⟨by simp [operations, takenSome], ?_⟩
      show 0 < s.reads.length + s.writes.length
      omega
  | writeFails i =>
      rcases bind_ite_eq_some hs with ⟨op, hop, -, rfl⟩
      have hlt := (List.getElem?_eq_some_iff.mp hop).1
      refine ⟨by simp [operations, writeFailed], ?_⟩
      show 0 < s.reads.length + s.writes.length
      omega

theorem blockSize_transfer {t : Transfer} (hs : s.transfer t = some s') :
    s'.blockSize = s.blockSize := by
  cases t <;>
  · rcases bind_ite_eq_some hs with ⟨op, -, -, rfl⟩
    rfl

/-! ### The handlers -/

theorem takeRead_eq_some {outcome : Option Nat} (hs : s.takeRead i = some (outcome, s₁)) :
    ∃ op, s.reads[i]? = some op ∧ op.outcome = some outcome ∧
      s₁ = { s with reads := s.reads.eraseIdx i } := by
  rcases Option.bind_eq_some_iff.mp hs with ⟨op, hop, hmap⟩
  rcases Option.map_eq_some_iff.mp hmap with ⟨o, ho, heq⟩
  cases heq
  exact ⟨op, hop, ho, rfl⟩

theorem takeWrite_eq_some {outcome : Option Nat} (hs : s.takeWrite i = some (outcome, s₁)) :
    ∃ op, s.writes[i]? = some op ∧ op.outcome = some outcome ∧
      s₁ = { s with writes := s.writes.eraseIdx i } := by
  rcases Option.bind_eq_some_iff.mp hs with ⟨op, hop, hmap⟩
  rcases Option.map_eq_some_iff.mp hmap with ⟨o, ho, heq⟩
  cases heq
  exact ⟨op, hop, ho, rfl⟩

theorem operations_takeRead {outcome : Option Nat} (hs : s.takeRead i = some (outcome, s₁)) :
    s₁.operations + 1 = s.operations := by
  rcases takeRead_eq_some hs with ⟨op, hop, -, rfl⟩
  have hlt := (List.getElem?_eq_some_iff.mp hop).1
  simp only [operations, List.length_eraseIdx, if_pos hlt]
  omega

theorem operations_takeWrite {outcome : Option Nat} (hs : s.takeWrite i = some (outcome, s₁)) :
    s₁.operations + 1 = s.operations := by
  rcases takeWrite_eq_some hs with ⟨op, hop, -, rfl⟩
  have hlt := (List.getElem?_eq_some_iff.mp hop).1
  simp only [operations, List.length_eraseIdx, if_pos hlt]
  omega

theorem busy_takeRead {outcome : Option Nat} (hs : s.takeRead i = some (outcome, s₁)) :
    0 < s.operations :=
  operations_takeRead hs ▸ Nat.succ_pos _

theorem busy_takeWrite {outcome : Option Nat} (hs : s.takeWrite i = some (outcome, s₁)) :
    0 < s.operations :=
  operations_takeWrite hs ▸ Nat.succ_pos _

theorem operations_exchange (s : Blocks) : s.exchange.operations = s.operations + 2 := by
  simp only [operations, exchange, swapData, asyncWrite, asyncReadSome, List.length_append,
    List.length_singleton]
  omega

theorem operations_asyncReadSome (s : Blocks) :
    s.asyncReadSome.operations = s.operations + 1 := by
  simp only [operations, asyncReadSome, List.length_append, List.length_singleton]
  omega

/-- The first read of a session. -/
theorem Inv.firstRead (h : Inv base true s) (hcount : s.unsentCount = 0) (hreads : s.reads = [])
    (hwrites : s.writes = []) : Inv base true s.asyncReadSome where
  apart := h.apart
  size := h.size
  fetches := by
    intro op hop
    obtain rfl : op = { data := s.readData, result := .pending } := by
      simpa [asyncReadSome, hreads] using hop
    exact ⟨rfl, nofun, nofun⟩
  sends := h.sends
  failed := h.failed
  turn := .reading hcount (by simp [asyncReadSome, hreads]) (by simp [asyncReadSome, hwrites]) rfl
  balance := by
    intro hok
    have hbalance := h.balance hok
    have hnone : s.waiting = [] := by simp [waiting, held, hreads, hwrites, hcount]
    have hwait : s.asyncReadSome.waiting = [] := by
      simp [waiting, held, asyncReadSome, fetched, hreads, hwrites, hcount]
    rw [hnone] at hbalance
    rw [hwait]
    exact hbalance
  sent := nofun

/-- The block behind `std::swap` is on its way back, and the other one is free. -/
theorem inv_exchange (hcount : s.unsentCount = 1) (hreads : s.reads = []) (hwrites : s.writes = [])
    (hapart : s.readData ≠ s.writeData) (hsize : ∀ b, (s.memory b).length = s.blockSize)
    (hle : s.readDataLength ≤ s.blockSize) (hpos : s.readDataLength = 0 → s.blockSize = 0)
    (hbalance : base ++ s.received =
      s.sent ++ window (s.memory s.readData) 0 s.readDataLength) :
    Inv base true s.exchange where
  apart := hapart.symm
  size := hsize
  fetches := by
    intro op hop
    obtain rfl : op = { data := s.writeData, result := .pending } := by
      simpa [exchange, swapData, asyncWrite, asyncReadSome, hreads] using hop
    exact ⟨rfl, nofun, nofun⟩
  sends := by
    intro op hop
    obtain rfl : op =
        { data := s.readData, length := s.readDataLength, taken := 0, failed := false } := by
      simpa [exchange, swapData, asyncWrite, asyncReadSome, hwrites] using hop
    exact ⟨rfl, Nat.zero_le _, hle, hpos⟩
  failed := by
    intro op hop
    obtain rfl : op =
        { data := s.readData, length := s.readDataLength, taken := 0, failed := false } := by
      simpa [exchange, swapData, asyncWrite, asyncReadSome, hwrites] using hop
    rfl
  turn := by
    refine .exchanging hcount ?_ ?_
    · simp [exchange, swapData, asyncWrite, asyncReadSome, hreads]
    · simp [exchange, swapData, asyncWrite, asyncReadSome, hwrites]
  balance := by
    intro _
    have hwait : s.exchange.waiting = window (s.memory s.readData) 0 s.readDataLength := by
      simp [exchange, swapData, asyncWrite, asyncReadSome, waiting, rest, fetched, held, hreads,
        hwrites, hcount]
    rw [hwait]
    exact hbalance
  sent := nofun

/-- `handle_read` behind a block. -/
theorem Inv.readDone (h : Inv base ok s) {n : Nat} (hs : s.takeRead i = some (some n, s₁)) :
    Inv base ok (s₁.readDone n) := by
  rcases takeRead_eq_some hs with ⟨op, hop, houtcome, rfl⟩
  obtain ⟨rfl, hreads⟩ := h.read hop
  have hlength : s.reads.length = 1 := congrArg List.length hreads
  have hnone : s.reads.eraseIdx 0 = [] := by simp [hreads]
  have hfetches := h.fetches op (by simp [hreads])
  have hresult := ReadOp.outcome_some houtcome
  have hle := hfetches.length_le n hresult
  have hpos := hfetches.length_pos n hresult
  -- What the read has stored is what it leaves behind in `read_data_`.
  have hfetched : s.fetched op = window (s.memory s.readData) 0 n := by
    rw [fetched, hresult, hfetches.data]
  have hwait := waiting_of_read hreads (h.count_ne hreads)
  rw [hfetched] at hwait
  by_cases hcount : s.unsentCount = 0
  · -- The block goes back at once.
    have hturn : s.writes.length = 0 ∧ ok = true := by
      cases h.turn with
      | reading _ _ hwrites hok => exact ⟨hwrites, hok⟩
      | exchanging => omega
      | holding => omega
      | lastWrite => omega
      | lastRead => omega
      | ended => omega
    obtain ⟨hwrites, rfl⟩ := hturn
    have hwrites : s.writes = [] := List.length_eq_zero_iff.mp hwrites
    have hbalance := h.balance rfl
    rw [hwait, hwrites] at hbalance
    rw [Blocks.readDone, if_pos (by simp [hcount])]
    exact inv_exchange (by simp [hcount]) (by simp [hreads]) hwrites h.apart h.size hle hpos hbalance
  · -- It is held until the other one is written.
    have hcount : s.unsentCount = 1 := by
      cases h.turn <;> omega
    rw [Blocks.readDone, if_neg (by simp [hcount])]
    exact
      { apart := h.apart
        size := h.size
        fetches := by simp [hreads]
        sends := h.sends
        failed := h.failed
        turn := by
          cases h.turn with
          | reading => omega
          | exchanging _ _ hwrites =>
              exact .holding (by simp [hcount]) (by simp [hreads]) hwrites hle hpos
          | holding => omega
          | lastWrite => omega
          | lastRead _ _ hwrites hok =>
              exact .ended (by simp [hreads]) hwrites fun hok' _ => hok hok'
          | ended => omega
        balance := by
          intro hok
          have hbalance := h.balance hok
          rw [hwait] at hbalance
          rw [waiting, held, if_pos (by simp [hcount])]
          show _ = s.sent ++ (_ ++ ((s.reads.eraseIdx 0).flatMap _ ++ _))
          rw [hnone]
          exact hbalance
        sent := h.sent }

/-- `handle_read` behind an error. -/
theorem Inv.readError (h : Inv base ok s) (hs : s.takeRead i = some (none, s₁)) :
    Inv base ok s₁ := by
  rcases takeRead_eq_some hs with ⟨op, hop, houtcome, rfl⟩
  obtain ⟨rfl, hreads⟩ := h.read hop
  have hlength : s.reads.length = 1 := congrArg List.length hreads
  have hnone : s.reads.eraseIdx 0 = [] := by simp [hreads]
  have hcount := h.count_ne hreads
  have hfetched : s.fetched op = [] := by
    rw [fetched, ReadOp.outcome_none houtcome]
  exact
    { apart := h.apart
      size := h.size
      fetches := by simp [hreads]
      sends := h.sends
      failed := h.failed
      -- The source starts no other read: a write that is in progress is the last operation.
      turn := by
        cases h.turn with
        | reading _ _ hwrites => exact .ended (by simp [hreads]) hwrites fun _ h2 => absurd h2 hcount
        | exchanging hcount _ hwrites => exact .lastWrite hcount (by simp [hreads]) hwrites
        | holding => omega
        | lastWrite => omega
        | lastRead _ _ hwrites =>
            exact .ended (by simp [hreads]) hwrites fun _ h2 => absurd h2 hcount
        | ended => omega
      balance := by
        intro hok
        have hbalance := h.balance hok
        rw [waiting_of_read hreads hcount, hfetched] at hbalance
        rw [waiting, held, if_neg hcount]
        show _ = s.sent ++ (_ ++ ((s.reads.eraseIdx 0).flatMap _ ++ []))
        rw [hnone, List.append_nil]
        exact hbalance
      sent := h.sent }

/-- `handle_write` behind a block. -/
theorem Inv.writeDone (h : Inv base ok s) {n : Nat} (hs : s.takeWrite i = some (some n, s₁)) :
    Inv base ok s₁.writeDone := by
  rcases takeWrite_eq_some hs with ⟨op, hop, houtcome, rfl⟩
  obtain ⟨rfl, hwrites⟩ := h.write hop
  have hlength : s.writes.length = 1 := congrArg List.length hwrites
  have hnone : s.writes.eraseIdx 0 = [] := by simp [hwrites]
  have hmem : op ∈ s.writes := by simp [hwrites]
  obtain ⟨hfailed, htaken, -⟩ := WriteOp.outcome_some houtcome
  -- A write that was completed has not failed, and no other one is there that could have.
  obtain rfl : ok = true := by simpa [hfailed] using (h.failed op hmem).symm
  have hrest : s.rest op = [] := by
    rw [rest, htaken, window_self]
  have hbalance := h.balance rfl
  rw [waiting_of_write hwrites, hrest, List.nil_append] at hbalance
  by_cases hcount : s.unsentCount = 2
  · -- The block that was held is the next one.
    have hturn : s.reads.length = 0 ∧ s.readDataLength ≤ s.blockSize ∧
        (s.readDataLength = 0 → s.blockSize = 0) := by
      cases h.turn with
      | reading => omega
      | exchanging => omega
      | holding _ hreads _ hle hpos => exact ⟨hreads, hle, hpos⟩
      | lastWrite => omega
      | lastRead => omega
      | ended => omega
    obtain ⟨hreads, hle, hpos⟩ := hturn
    have hreads : s.reads = [] := List.length_eq_zero_iff.mp hreads
    rw [hreads, held, if_pos hcount] at hbalance
    rw [Blocks.writeDone, if_pos (by simp [hcount])]
    exact inv_exchange (by simp [hcount]) hreads (by simp [hwrites]) h.apart h.size hle hpos hbalance
  · -- Nothing is held: the session waits for the read.
    have hcount : s.unsentCount = 1 := by
      cases h.turn <;> omega
    rw [Blocks.writeDone, if_neg (by simp [hcount])]
    exact
      { apart := h.apart
        size := h.size
        fetches := h.fetches
        sends := by simp [hwrites]
        failed := by simp [hwrites]
        turn := by
          cases h.turn with
          | reading => omega
          | exchanging _ hreads _ => exact .reading (by simp [hcount]) hreads (by simp [hwrites]) rfl
          | holding => omega
          | lastWrite _ hreads _ => exact .ended hreads (by simp [hwrites]) (by simp [hcount])
          | lastRead => omega
          | ended => omega
        balance := by
          intro _
          rw [held, if_neg (by omega)] at hbalance
          rw [waiting, held, if_neg (by simp [hcount])]
          show _ = s.sent ++ ((s.writes.eraseIdx 0).flatMap _ ++ _)
          rw [hnone]
          exact hbalance
        sent := nofun }

/-- `handle_write` behind an error, and in the client behind no bytes at all. -/
theorem Inv.writeIgnored (h : Inv base ok s) {outcome : Option Nat}
    (hs : s.takeWrite i = some (outcome, s₁)) (hzero : ∀ n, outcome = some n → n = 0) :
    Inv base ok s₁ := by
  rcases takeWrite_eq_some hs with ⟨op, hop, houtcome, rfl⟩
  obtain ⟨rfl, hwrites⟩ := h.write hop
  have hlength : s.writes.length = 1 := congrArg List.length hwrites
  have hnone : s.writes.eraseIdx 0 = [] := by simp [hwrites]
  have hmem : op ∈ s.writes := by simp [hwrites]
  -- Unless a write has failed, a handler without bytes means blocks without bytes.
  have hempty : ok = true → s.blockSize = 0 ∧ s.rest op = [] := by
    rintro rfl
    have hfailed : op.failed = false := h.failed op hmem
    cases outcome with
    | none => exact absurd (WriteOp.outcome_none houtcome) (by simp [hfailed])
    | some n =>
        obtain ⟨-, htaken, hn⟩ := WriteOp.outcome_some houtcome
        refine ⟨(h.sends op hmem).length_pos (hn.trans (hzero n rfl)), ?_⟩
        rw [rest, htaken, window_self]
  exact
    { apart := h.apart
      size := h.size
      fetches := h.fetches
      sends := by simp [hwrites]
      failed := by simp [hwrites]
      turn := by
        cases h.turn with
        | reading => omega
        | exchanging hcount hreads _ =>
            exact .lastRead hcount hreads (by simp [hwrites]) fun hok => (hempty hok).1
        | holding _ hreads _ _ _ =>
            exact .ended hreads (by simp [hwrites]) fun hok _ => (hempty hok).1
        | lastWrite _ hreads _ =>
            exact .ended hreads (by simp [hwrites]) fun hok _ => (hempty hok).1
        | lastRead => omega
        | ended => omega
      balance := by
        intro hok
        have hbalance := h.balance hok
        rw [waiting_of_write hwrites, (hempty hok).2] at hbalance
        show _ = s.sent ++ ((s.writes.eraseIdx 0).flatMap _ ++ _)
        rw [hnone]
        exact hbalance
      sent := h.sent }

/-! ### What follows -/

theorem Inv.sent_prefix (h : Inv base ok s) : s.sent <+: base ++ s.received := by
  cases ok with
  | true => exact ⟨s.waiting, (h.balance rfl).symm⟩
  | false => exact h.sent rfl

theorem Inv.length_rest_le (h : Inv base ok s) : (s.writes.flatMap s.rest).length ≤ s.blockSize := by
  rcases h.writes_cases with hnone | ⟨op, hone⟩
  · simp [hnone]
  · have hsends := h.sends op (by simp [hone])
    have hlength := hsends.length_le
    have hle : op.length ≤ (s.memory op.data).length := by
      rw [h.size]
      exact hlength
    rw [hone, List.flatMap_singleton, rest, length_window hle]
    omega

theorem Inv.length_held_le (h : Inv base ok s) : s.held.length ≤ s.blockSize := by
  rw [held]
  split
  · rw [window, List.drop_zero, List.length_take, h.size]
    exact Nat.min_le_right _ _
  · exact Nat.zero_le _

/-- Of the two blocks at most one is read, and at most one is written. -/
theorem Inv.length_waiting_le (h : Inv base ok s) : s.waiting.length ≤ 2 * s.blockSize := by
  have hrest := h.length_rest_le
  have hread : (s.reads.flatMap s.fetched ++ s.held).length ≤ s.blockSize := by
    rcases h.reads_cases with hnone | ⟨op, hone⟩
    · rw [hnone]
      exact h.length_held_le
    · rw [hone, held, if_neg (h.count_ne hone), List.flatMap_singleton, List.append_nil,
        fetched]
      split
      · rw [window, List.drop_zero, List.length_take, h.size]
        exact Nat.min_le_right _ _
      · exact Nat.zero_le _
  rw [waiting, List.length_append]
  omega

/-- With no operation in progress nothing is left. -/
theorem Inv.waiting_eq_nil (h : Inv base true s) (hnone : s.operations = 0) : s.waiting = [] := by
  have hnone : s.reads.length + s.writes.length = 0 := hnone
  have hreads : s.reads = [] := List.length_eq_zero_iff.mp (by omega)
  have hwrites : s.writes = [] := List.length_eq_zero_iff.mp (by omega)
  -- A block could only be held here if it had no bytes.
  have hheld : s.held = [] := by
    have hover : s.unsentCount = 2 → s.blockSize = 0 := by
      cases h.turn with
      | ended _ _ hok => exact hok rfl
      | _ => omega
    rw [held]
    split
    · next hcount =>
        have hsize : (s.memory s.readData).length = 0 := (h.size _).trans (hover hcount)
        simp [window, List.length_eq_zero_iff.mp hsize]
    · rfl
  rw [waiting, hreads, hwrites, hheld]
  rfl

end Blocks
end PingPong
end Example
end Muradin
