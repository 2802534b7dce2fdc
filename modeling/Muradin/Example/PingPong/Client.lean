import Muradin.Cpp.Method
import Muradin.Example.PingPong.Flow
import Muradin.Lib.Machine

/-!
# Client — `class session` of `example/asio/pingpong/client.cpp`

The session connects to the first endpoint that answers, sends a block of its own and from then on
sends back what it reads.

* `Inv` — what holds of the two blocks, whatever the socket does;
* `counted_of_run` — `bytes_written_` and `bytes_read_`, which the statistics add up;
* `connects_in_order` — the endpoints are tried one after the other, up to the first one that answers.
-/

namespace Muradin
namespace Example
namespace PingPong

open Lib Cpp

/-- The block that the constructor fills in. -/
def pattern (blockSize : Nat) : List Byte :=
  (List.range blockSize).map fun i => BitVec.ofNat 8 (i % 128)

structure ClientSession (Endpoint : Type) extends Blocks where
  /-- an `async_connect` whose handler has not run -/
  connecting : Bool
  /-- from the iterator on that this handler gets -/
  endpoints : List Endpoint
  /-- what `async_connect` was called with -/
  tried : List Endpoint
  /-- the first block was sent -/
  connected : Bool
  /-- `socket_.close()` was called -/
  closed : Bool
  bytesWritten : Nat
  bytesRead : Nat

namespace ClientSession

variable {Endpoint : Type}

/-- The array of the reads holds what was in the memory before. -/
def construct {blockSize : Nat} (memory : Vector Byte blockSize) : ClientSession Endpoint :=
  { blockSize
    memory := fun b => bif b then pattern blockSize else memory.toList
    readData := false
    readDataLength := 0
    writeData := true
    unsentCount := 0
    reads := []
    writes := []
    sent := []
    received := []
    connecting := false
    endpoints := []
    tried := []
    connected := false
    closed := false
    bytesWritten := 0
    bytesRead := 0 }

def withBlocks (s : ClientSession Endpoint) (b : Blocks) : ClientSession Endpoint :=
  { s with toBlocks := b }

/-- `socket_.async_connect(endpoint, ..)`, which opens a closed socket. -/
def asyncConnect (s : ClientSession Endpoint) (endpoint : Endpoint) (rest : List Endpoint) :
    ClientSession Endpoint :=
  { s with
    connecting := true
    endpoints := rest
    tried := s.tried ++ [endpoint]
    closed := false }

/-- `start(endpoint_iterator)`; the resolver has found an endpoint. -/
def start (s : ClientSession Endpoint) (endpoint : Endpoint) (rest : List Endpoint) :
    ClientSession Endpoint :=
  s.asyncConnect endpoint rest

/-- `handle_connect(err, endpoint_iterator)`, with what `set_option` answers. -/
def handleConnect (s : ClientSession Endpoint) (err optionSet : Bool) : ClientSession Endpoint :=
  let s := { s with connecting := false }
  if err = false then
    if optionSet = true then
      { s.withBlocks ({ s.toBlocks with unsentCount := s.unsentCount + 1 }.asyncWrite
          s.blockSize).asyncReadSome with connected := true }
    else
      s
  else
    match s.endpoints with
    | endpoint :: rest => s.asyncConnect endpoint rest
    | [] => s

def handleRead (s : ClientSession Endpoint) : Option Nat → ClientSession Endpoint
  | some length => { s.withBlocks (s.readDone length) with bytesRead := SizeT.add s.bytesRead length }
  | none => s

def handleWrite (s : ClientSession Endpoint) : Option Nat → ClientSession Endpoint
  | some length =>
      if 0 < length then
        { s.withBlocks s.writeDone with bytesWritten := SizeT.add s.bytesWritten length }
      else
        s
  | none => s

inductive Act
  | handleConnect (err optionSet : Bool)
  | transfer (t : Transfer)
  | handleRead (i : Nat)
  | handleWrite (i : Nat)
  /-- `close_socket()`, which `stop()` posts -/
  | closeSocket
  deriving DecidableEq, Repr

def Act.isWriteFails : Act → Bool
  | .transfer t => t.isWriteFails
  | _ => false

/-- The bytes that come from the socket. -/
def Act.stores : Act → List Byte
  | .transfer t => t.stores
  | _ => []

/-- A closed socket only fails. -/
def Answers (s : ClientSession Endpoint) : Transfer → Prop
  | .readSome _ _ | .writeSome _ _ => s.closed = false
  | .readFails _ | .writeFails _ => True

instance (s : ClientSession Endpoint) : (t : Transfer) → Decidable (s.Answers t)
  | .readSome _ _ | .writeSome _ _ => inferInstanceAs (Decidable (_ = _))
  | .readFails _ | .writeFails _ => inferInstanceAs (Decidable True)

def step (s : ClientSession Endpoint) : Act → Option (ClientSession Endpoint)
  | .handleConnect err optionSet =>
      if s.connecting = true then some (s.handleConnect err optionSet) else none
  | .transfer t => if s.Answers t then (s.toBlocks.transfer t).map s.withBlocks else none
  | .handleRead i => (s.takeRead i).map fun r => (s.withBlocks r.2).handleRead r.1
  | .handleWrite i => (s.takeWrite i).map fun r => (s.withBlocks r.2).handleWrite r.1
  | .closeSocket => some { s with closed := true }

variable {s s' : ClientSession Endpoint} {ok : Bool}

/-! ## The invariant -/

/-- What the session sends on its own account. -/
def base (s : ClientSession Endpoint) : List Byte :=
  bif s.connected then pattern s.blockSize else []

structure Inv (ok : Bool) (s : ClientSession Endpoint) : Prop where
  blocks : s.toBlocks.Inv s.base ok
  /-- before the first block -/
  fresh : s.connected = false → s.unsentCount = 0 ∧ s.operations = 0 ∧ s.sent = [] ∧
    s.received = [] ∧ s.memory s.writeData = pattern s.blockSize ∧ ok = true
  once : s.connected = true → s.connecting = false

theorem length_pattern (blockSize : Nat) : (pattern blockSize).length = blockSize := by
  simp [pattern]

theorem inv_construct {blockSize : Nat} (memory : Vector Byte blockSize) :
    Inv true (construct memory : ClientSession Endpoint) where
  blocks :=
    { apart := Bool.false_ne_true
      size := by
        intro b
        cases b with
        | false => exact memory.length_toList
        | true => exact length_pattern blockSize
      fetches := nofun
      sends := nofun
      failed := nofun
      turn := .ended rfl rfl nofun
      balance := fun _ => rfl
      sent := nofun }
  fresh := fun _ => ⟨rfl, rfl, rfl, rfl, rfl, rfl⟩
  once := nofun

/-- While an operation is in progress the session is connected. -/
theorem Inv.busy (h : Inv ok s) (hbusy : 0 < s.operations) : s.connected = true := by
  by_contra hconnected
  have hnone := (h.fresh (Bool.eq_false_iff.mpr hconnected)).2.1
  omega

/-! ### The socket -/

theorem base_withBlocks {b : Blocks} (hsize : b.blockSize = s.blockSize) :
    (s.withBlocks b).base = s.base := by
  rw [base, base]
  show (bif s.connected then pattern b.blockSize else []) = _
  rw [hsize]

theorem Inv.transfer (h : Inv ok s) {t : Transfer} {b : Blocks}
    (hs : s.toBlocks.transfer t = some b) :
    Inv (ok && !t.isWriteFails) (s.withBlocks b) := by
  have hconnected := h.busy (Blocks.operations_transfer hs).2
  exact
    { blocks := by
        rw [base_withBlocks (Blocks.blockSize_transfer hs)]
        exact h.blocks.transfer hs
      fresh := fun hfresh => nomatch hconnected.symm.trans hfresh
      once := h.once }

/-! ### The handlers -/

/-- The first block, and the first read. -/
theorem Inv.firstBlock (h : Inv ok s) (hconnected : s.connected = false) :
    (({ s.toBlocks with unsentCount := s.unsentCount + 1 }.asyncWrite
      s.blockSize).asyncReadSome).Inv (pattern s.blockSize) ok := by
  obtain ⟨hcount, hnone, hsent, hreceived, hpattern, rfl⟩ := h.fresh hconnected
  have hnone : s.reads.length + s.writes.length = 0 := hnone
  have hreads : s.reads = [] := List.length_eq_zero_iff.mp (by omega)
  have hwrites : s.writes = [] := List.length_eq_zero_iff.mp (by omega)
  -- The count is 1, and a read and a write are in progress, as behind an exchange.
  have hone : ∀ op ∈ s.writes ++ [⟨s.writeData, s.blockSize, 0, false⟩],
      op = ⟨s.writeData, s.blockSize, 0, false⟩ := by
    simp [hwrites]
  exact
    { apart := h.blocks.apart
      size := h.blocks.size
      fetches := by
        intro op hop
        obtain rfl : op = { data := s.readData, result := .pending } := by
          simpa [Blocks.asyncReadSome, Blocks.asyncWrite, hreads] using hop
        refine ⟨rfl, ?_, ?_⟩
        · intro n hn
          cases hn
        · intro n hn
          cases hn
      sends := by
        intro op hop
        obtain rfl := hone op hop
        exact ⟨rfl, Nat.zero_le _, Nat.le_refl _, id⟩
      failed := by
        intro op hop
        obtain rfl := hone op hop
        rfl
      turn := by
        refine .exchanging ?_ ?_ ?_
        · show s.unsentCount + 1 = 1
          omega
        · simp [Blocks.asyncReadSome, Blocks.asyncWrite, hreads]
        · simp [Blocks.asyncReadSome, Blocks.asyncWrite, hwrites]
      balance := by
        intro _
        have hblock : window (s.memory s.writeData) 0 s.blockSize = pattern s.blockSize := by
          rw [hpattern, window, List.drop_zero, List.take_of_length_le]
          exact Nat.le_of_eq (length_pattern _)
        show pattern s.blockSize ++ s.received = s.sent ++ Blocks.waiting _
        rw [hreceived, hsent, Blocks.waiting, Blocks.held, if_neg]
        · simp [Blocks.asyncReadSome, Blocks.asyncWrite, Blocks.rest, Blocks.fetched, hreads,
            hwrites, hblock]
        · show ¬ s.unsentCount + 1 = 2
          omega
      sent := fun hok => absurd hok.symm Bool.false_ne_true }

/-- What happens before the first block. -/
theorem Inv.connecting (h : Inv ok s) (hconnected : s.connected = false)
    {connecting closed : Bool} {endpoints tried : List Endpoint} :
    Inv ok { s with connecting, endpoints, tried, closed } where
  blocks := h.blocks
  fresh := h.fresh
  once := fun hc => nomatch hconnected.symm.trans hc

theorem Inv.handleConnect (h : Inv ok s) (hconnecting : s.connecting = true) (err optionSet : Bool) :
    Inv ok (s.handleConnect err optionSet) := by
  have hconnected : s.connected = false := by
    refine Bool.eq_false_iff.mpr fun hc => ?_
    cases hconnecting.symm.trans (h.once hc)
  rw [ClientSession.handleConnect]
  split
  · split
    · exact
        { blocks := h.firstBlock hconnected
          fresh := nofun
          once := fun _ => rfl }
    · exact h.connecting hconnected
  · split
    · exact h.connecting hconnected
    · exact h.connecting hconnected

theorem Inv.handleRead (h : Inv ok s) {i : Nat} {outcome : Option Nat} {b : Blocks}
    (hs : s.takeRead i = some (outcome, b)) :
    Inv ok ((s.withBlocks b).handleRead outcome) := by
  have hconnected := h.busy (Blocks.busy_takeRead hs)
  obtain ⟨-, -, hsize⟩ := Blocks.takeRead_same hs
  cases outcome with
  | none =>
      exact
        { blocks := by
            rw [ClientSession.handleRead, base_withBlocks hsize]
            exact h.blocks.readError hs
          fresh := fun hfresh => nomatch hconnected.symm.trans hfresh
          once := h.once }
  | some n =>
      obtain ⟨-, -, hsize'⟩ := b.readDone_same n
      exact
        { blocks := by
            show (b.readDone n).Inv (s.withBlocks (b.readDone n)).base ok
            rw [base_withBlocks (hsize'.trans hsize)]
            exact h.blocks.readDone hs
          fresh := fun hfresh => nomatch hconnected.symm.trans hfresh
          once := h.once }

theorem Inv.handleWrite (h : Inv ok s) {i : Nat} {outcome : Option Nat} {b : Blocks}
    (hs : s.takeWrite i = some (outcome, b)) :
    Inv ok ((s.withBlocks b).handleWrite outcome) := by
  have hconnected := h.busy (Blocks.busy_takeWrite hs)
  obtain ⟨-, -, hsize⟩ := Blocks.takeWrite_same hs
  -- Where the handler does nothing: behind an error, or behind no bytes.
  have hignored : (∀ n, outcome = some n → n = 0) → Inv ok (s.withBlocks b) := by
    intro hzero
    exact
      { blocks := by
          rw [base_withBlocks hsize]
          exact h.blocks.writeIgnored hs hzero
        fresh := fun hfresh => nomatch hconnected.symm.trans hfresh
        once := h.once }
  cases outcome with
  | none => exact hignored nofun
  | some n =>
      rw [ClientSession.handleWrite]
      split
      · obtain ⟨-, -, hsize'⟩ := b.writeDone_same
        exact
          { blocks := by
              show b.writeDone.Inv (s.withBlocks b.writeDone).base ok
              rw [base_withBlocks (hsize'.trans hsize)]
              exact h.blocks.writeDone hs
            fresh := fun hfresh => nomatch hconnected.symm.trans hfresh
            once := h.once }
      · next hn =>
          refine hignored fun m hm => ?_
          cases hm
          omega

/-- The step lemma. -/
theorem Inv.step (h : Inv ok s) {a : Act} (hs : s.step a = some s') :
    Inv (ok && !a.isWriteFails) s' := by
  cases a with
  | handleConnect err optionSet =>
      rw [ClientSession.step] at hs
      split at hs
      · next hconnecting =>
          cases hs
          show Inv (ok && true) _
          rw [Bool.and_true]
          exact h.handleConnect hconnecting err optionSet
      · cases hs
  | transfer t =>
      rw [ClientSession.step] at hs
      split at hs
      · rcases Option.map_eq_some_iff.mp hs with ⟨b, hb, rfl⟩
        exact h.transfer hb
      · cases hs
  | handleRead i =>
      rcases Option.map_eq_some_iff.mp hs with ⟨⟨outcome, b⟩, hb, rfl⟩
      show Inv (ok && true) _
      rw [Bool.and_true]
      exact h.handleRead hb
  | handleWrite i =>
      rcases Option.map_eq_some_iff.mp hs with ⟨⟨outcome, b⟩, hb, rfl⟩
      show Inv (ok && true) _
      rw [Bool.and_true]
      exact h.handleWrite hb
  | closeSocket =>
      cases hs
      show Inv (ok && true) _
      rw [Bool.and_true]
      exact
        { blocks := h.blocks
          fresh := h.fresh
          once := h.once }

/-! ## What is counted -/

/-- The handlers have added up `read` and `written` bytes; `ok` says that no write has failed. -/
structure Counted (ok : Bool) (read written : Nat) (s : ClientSession Endpoint) : Prop where
  fits : s.Fits
  bytesRead : s.bytesRead = read % SizeT.modulus
  bytesWritten : s.bytesWritten = written % SizeT.modulus
  received : s.received.length = read + s.storedNow
  /-- what a write that fails has sent is never counted -/
  sent_le : written + s.takenNow ≤ s.sent.length
  sent : ok = true → s.sent.length = written + s.takenNow
  intact : ok = true → ∀ op ∈ s.writes, op.failed = false

variable {read written : Nat}

theorem counted_construct {blockSize : Nat} (memory : Vector Byte blockSize) :
    Counted true 0 0 (construct memory : ClientSession Endpoint) where
  fits :=
    { size := by
        intro b
        cases b with
        | false => exact memory.length_toList
        | true => exact length_pattern blockSize
      readDataLength := Nat.zero_le _
      reads := nofun
      writes := nofun }
  bytesRead := rfl
  bytesWritten := rfl
  received := rfl
  sent_le := Nat.le_refl _
  sent := fun _ => rfl
  intact := fun _ => nofun

/-- A `size_t` counts modulo `2 ^ 64`. -/
theorem add_mod (a n : Nat) : SizeT.add (a % SizeT.modulus) n = (a + n) % SizeT.modulus :=
  Nat.mod_add_mod a _ n

theorem Counted.transfer (h : Counted ok read written s) {t : Transfer} {b : Blocks}
    (hs : s.toBlocks.transfer t = some b) :
    Counted (ok && !t.isWriteFails) read written (s.withBlocks b) := by
  obtain ⟨hreceived, htaken⟩ := h.fits.counts_transfer hs
  have hread := h.received
  have hle := h.sent_le
  exact
    { fits := h.fits.transfer hs
      bytesRead := h.bytesRead
      bytesWritten := h.bytesWritten
      received := by
        show b.received.length = read + b.storedNow
        omega
      sent_le := by
        show written + b.takenNow ≤ b.sent.length
        omega
      sent := by
        intro hok
        have hsent := h.sent (Bool.and_eq_true_iff.mp hok).1
        show b.sent.length = written + b.takenNow
        omega
      intact := by
        intro hok
        obtain ⟨hok, ht⟩ := Bool.and_eq_true_iff.mp hok
        exact Blocks.intact_transfer (by simpa using ht) hs (h.intact hok) }

/-- Before the first block, where no bytes are concerned. -/
theorem Counted.connecting (h : Counted ok read written s) {connecting connected closed : Bool}
    {endpoints tried : List Endpoint} :
    Counted ok read written { s with connecting, endpoints, tried, connected, closed } where
  fits := h.fits
  bytesRead := h.bytesRead
  bytesWritten := h.bytesWritten
  received := h.received
  sent_le := h.sent_le
  sent := h.sent
  intact := h.intact

theorem Counted.handleConnect (h : Counted ok read written s) (err optionSet : Bool) :
    Counted ok read written (s.handleConnect err optionSet) := by
  rw [ClientSession.handleConnect]
  split
  · split
    · have hfits : ({ s.toBlocks with unsentCount := s.unsentCount + 1 } : Blocks).Fits :=
        ⟨h.fits.size, h.fits.readDataLength, h.fits.reads, h.fits.writes⟩
      exact
        { fits := hfits.asyncBoth (Nat.le_refl _)
          bytesRead := h.bytesRead
          bytesWritten := h.bytesWritten
          received := by
            show s.received.length = read + Blocks.storedNow (Blocks.asyncReadSome _)
            rw [Blocks.storedNow_asyncReadSome]
            exact h.received
          sent_le := by
            show written + Blocks.takenNow (Blocks.asyncWrite _ _) ≤ s.sent.length
            rw [Blocks.takenNow_asyncWrite]
            exact h.sent_le
          sent := by
            intro hok
            show s.sent.length = written + Blocks.takenNow (Blocks.asyncWrite _ _)
            rw [Blocks.takenNow_asyncWrite]
            exact h.sent hok
          intact := by
            intro hok op hop
            rcases List.mem_append.mp hop with hmem | hmem
            · exact h.intact hok op hmem
            · obtain rfl := List.mem_singleton.mp hmem
              rfl }
    · exact h.connecting
  · split
    · exact h.connecting
    · exact h.connecting

theorem Counted.handleRead (h : Counted ok read written s) {i : Nat} {outcome : Option Nat}
    {b : Blocks} (hs : s.takeRead i = some (outcome, b)) :
    Counted ok (read + outcome.getD 0) written ((s.withBlocks b).handleRead outcome) := by
  have hstored := Blocks.storedNow_takeRead hs
  have hread := h.received
  obtain ⟨hreceived, hsent, -⟩ := Blocks.takeRead_same hs
  have hwrites : b.writes = s.writes := by
    rcases Blocks.takeRead_eq_some hs with ⟨op, -, -, rfl⟩
    rfl
  have htaken : b.takenNow = s.takenNow := by rw [Blocks.takenNow, hwrites, Blocks.takenNow]
  cases outcome with
  | none =>
      exact
        { fits := h.fits.takeRead hs
          bytesRead := h.bytesRead
          bytesWritten := h.bytesWritten
          received := by
            show b.received.length = read + b.storedNow
            rw [hreceived, hread, ← hstored]
            rfl
          sent_le := by
            show written + b.takenNow ≤ b.sent.length
            rw [htaken, hsent]
            exact h.sent_le
          sent := by
            show ok = true → b.sent.length = written + b.takenNow
            rw [htaken, hsent]
            exact h.sent
          intact := by
            show ok = true → ∀ op ∈ b.writes, op.failed = false
            rw [hwrites]
            exact h.intact }
  | some n =>
      obtain ⟨hreceived', hsent', -⟩ := b.readDone_same n
      exact
        { fits := h.fits.readDone hs
          bytesRead := by
            show SizeT.add s.bytesRead n = (read + n) % SizeT.modulus
            rw [h.bytesRead, add_mod]
          bytesWritten := h.bytesWritten
          received := by
            show (b.readDone n).received.length = read + n + (b.readDone n).storedNow
            rw [hreceived', hreceived, Blocks.storedNow_readDone, hread, ← hstored, Option.getD_some]
            omega
          sent_le := by
            show written + (b.readDone n).takenNow ≤ (b.readDone n).sent.length
            rw [Blocks.takenNow_readDone, htaken, hsent', hsent]
            exact h.sent_le
          sent := by
            show ok = true → (b.readDone n).sent.length = written + (b.readDone n).takenNow
            rw [Blocks.takenNow_readDone, htaken, hsent', hsent]
            exact h.sent
          intact := fun hok => Blocks.writes_readDone n (hwrites ▸ h.intact hok) }

/-- A handler that does nothing: behind an error, or behind no bytes. -/
theorem Counted.ignored (h : Counted ok read written s) {i : Nat} {outcome : Option Nat}
    {b : Blocks} (hs : s.takeWrite i = some (outcome, b)) (hzero : outcome.getD 0 = 0) :
    Counted ok read written (s.withBlocks b) := by
  obtain ⟨htaken_le, htaken⟩ := Blocks.takenNow_takeWrite hs
  obtain ⟨hreceived, hsent, -⟩ := Blocks.takeWrite_same hs
  obtain ⟨hstored, hwrites⟩ := Blocks.takeWrite_kept hs
  have hle := h.sent_le
  exact
    { fits := h.fits.takeWrite hs
      bytesRead := h.bytesRead
      bytesWritten := h.bytesWritten
      received := by
        show b.received.length = read + b.storedNow
        rw [hreceived, hstored, h.received]
      sent_le := by
        show written + b.takenNow ≤ b.sent.length
        rw [hsent]
        omega
      sent := by
        intro hok
        have hall := h.sent hok
        rcases Blocks.exists_of_takeWrite (h.intact hok) hs with ⟨n, rfl⟩
        have hsame := htaken n rfl
        rw [Option.getD_some] at hzero
        show b.sent.length = written + b.takenNow
        rw [hsent]
        omega
      intact := fun hok op hop => h.intact hok op (hwrites op hop) }

theorem Counted.handleWrite (h : Counted ok read written s) {i : Nat} {outcome : Option Nat}
    {b : Blocks} (hs : s.takeWrite i = some (outcome, b)) :
    Counted ok read (written + outcome.getD 0) ((s.withBlocks b).handleWrite outcome) := by
  cases outcome with
  | none => exact h.ignored hs rfl
  | some n =>
      rw [ClientSession.handleWrite]
      split
      · obtain ⟨-, htaken⟩ := Blocks.takenNow_takeWrite hs
        obtain ⟨hreceived, hsent, -⟩ := Blocks.takeWrite_same hs
        obtain ⟨hstored, hwrites⟩ := Blocks.takeWrite_kept hs
        obtain ⟨hreceived', hsent', -⟩ := b.writeDone_same
        have hle := h.sent_le
        have hsame := htaken n rfl
        exact
          { fits := (h.fits.takeWrite hs).writeDone
            bytesRead := h.bytesRead
            bytesWritten := by
              show SizeT.add s.bytesWritten n = (written + n) % SizeT.modulus
              rw [h.bytesWritten, add_mod]
            received := by
              show b.writeDone.received.length = read + b.writeDone.storedNow
              rw [hreceived', hreceived, Blocks.storedNow_writeDone, hstored, h.received]
            sent_le := by
              show written + n + b.writeDone.takenNow ≤ b.writeDone.sent.length
              rw [Blocks.takenNow_writeDone, hsent', hsent]
              omega
            sent := by
              intro hok
              have hall := h.sent hok
              show b.writeDone.sent.length = written + n + b.writeDone.takenNow
              rw [Blocks.takenNow_writeDone, hsent', hsent]
              omega
            intact := fun hok =>
              Blocks.writes_writeDone fun op hop => h.intact hok op (hwrites op hop) }
      · next hn =>
          obtain rfl : n = 0 := by omega
          exact h.ignored hs rfl

/-- The step lemma. -/
theorem Counted.step (h : Counted ok read written s) {a : Act} (hs : s.step a = some s') :
    ∃ read' written', Counted (ok && !a.isWriteFails) read' written' s' := by
  cases a with
  | handleConnect err optionSet =>
      rw [ClientSession.step] at hs
      split at hs
      · cases hs
        refine ⟨read, written, ?_⟩
        show Counted (ok && true) _ _ _
        rw [Bool.and_true]
        exact h.handleConnect err optionSet
      · cases hs
  | transfer t =>
      rw [ClientSession.step] at hs
      split at hs
      · rcases Option.map_eq_some_iff.mp hs with ⟨b, hb, rfl⟩
        exact ⟨read, written, h.transfer hb⟩
      · cases hs
  | handleRead i =>
      rcases Option.map_eq_some_iff.mp hs with ⟨⟨outcome, b⟩, hb, rfl⟩
      refine ⟨read + outcome.getD 0, written, ?_⟩
      show Counted (ok && true) _ _ _
      rw [Bool.and_true]
      exact h.handleRead hb
  | handleWrite i =>
      rcases Option.map_eq_some_iff.mp hs with ⟨⟨outcome, b⟩, hb, rfl⟩
      refine ⟨read, written + outcome.getD 0, ?_⟩
      show Counted (ok && true) _ _ _
      rw [Bool.and_true]
      exact h.handleWrite hb
  | closeSocket =>
      cases hs
      refine ⟨read, written, ?_⟩
      show Counted (ok && true) _ _ _
      rw [Bool.and_true]
      exact h.connecting

/-! ### The two streams -/

/-- What a step adds to them. -/
theorem stream_step {a : Act} (hs : s.step a = some s') :
    s'.received = s.received ++ a.stores ∧ s.sent <+: s'.sent ∧ s'.blockSize = s.blockSize ∧
      a.stores.length ≤ s.blockSize := by
  cases a with
  | handleConnect err optionSet =>
      rw [ClientSession.step] at hs
      split at hs
      · cases hs
        have hsame : (s.handleConnect err optionSet).received = s.received ∧
            (s.handleConnect err optionSet).sent = s.sent ∧
            (s.handleConnect err optionSet).blockSize = s.blockSize := by
          rw [handleConnect]
          split
          · split <;> exact ⟨rfl, rfl, rfl⟩
          · split <;> exact ⟨rfl, rfl, rfl⟩
        obtain ⟨hreceived, hsent, hsize⟩ := hsame
        rw [hreceived, hsent]
        exact ⟨(List.append_nil _).symm, List.prefix_rfl, hsize, Nat.zero_le _⟩
      · cases hs
  | transfer t =>
      rw [ClientSession.step] at hs
      split at hs
      · rcases Option.map_eq_some_iff.mp hs with ⟨b, hb, rfl⟩
        obtain ⟨hreceived, hsent, hle⟩ := Blocks.stream_transfer hb
        exact ⟨hreceived, hsent, Blocks.blockSize_transfer hb, hle⟩
      · cases hs
  | handleRead i =>
      rcases Option.map_eq_some_iff.mp hs with ⟨⟨outcome, b⟩, hb, rfl⟩
      obtain ⟨hreceived, hsent, hsize⟩ := Blocks.takeRead_same hb
      rw [show Act.stores (.handleRead i) = [] from rfl, List.append_nil, ← hreceived, ← hsent,
        ← hsize]
      cases outcome with
      | none => exact ⟨rfl, List.prefix_rfl, rfl, Nat.zero_le _⟩
      | some n =>
          obtain ⟨hreceived', hsent', hsize'⟩ := b.readDone_same n
          exact ⟨hreceived', ⟨[], (List.append_nil _).trans hsent'.symm⟩, hsize', Nat.zero_le _⟩
  | handleWrite i =>
      rcases Option.map_eq_some_iff.mp hs with ⟨⟨outcome, b⟩, hb, rfl⟩
      obtain ⟨hreceived, hsent, hsize⟩ := Blocks.takeWrite_same hb
      rw [show Act.stores (.handleWrite i) = [] from rfl, List.append_nil, ← hreceived, ← hsent,
        ← hsize]
      cases outcome with
      | none => exact ⟨rfl, List.prefix_rfl, rfl, Nat.zero_le _⟩
      | some n =>
          rw [handleWrite]
          split
          · obtain ⟨hreceived', hsent', hsize'⟩ := b.writeDone_same
            exact ⟨hreceived', ⟨[], (List.append_nil _).trans hsent'.symm⟩, hsize', Nat.zero_le _⟩
          · exact ⟨rfl, List.prefix_rfl, rfl, Nat.zero_le _⟩
  | closeSocket =>
      cases hs
      exact ⟨(List.append_nil _).symm, List.prefix_rfl, rfl, Nat.zero_le _⟩

/-! ### Connecting -/

/-- The session waits for an answer, or has got one, or there is no endpoint left. -/
def GoesOn (s : ClientSession Endpoint) : Prop :=
  s.connecting = true ∨ s.connected = true ∨ s.endpoints = []

/-- The handlers of reads and writes have nothing to do with it. -/
theorem handleRead_connects (s : ClientSession Endpoint) (outcome : Option Nat) :
    (s.handleRead outcome).tried = s.tried ∧ (s.handleRead outcome).endpoints = s.endpoints ∧
      (s.handleRead outcome).connecting = s.connecting ∧
      (s.handleRead outcome).connected = s.connected := by
  cases outcome <;> exact ⟨rfl, rfl, rfl, rfl⟩

theorem handleWrite_connects (s : ClientSession Endpoint) (outcome : Option Nat) :
    (s.handleWrite outcome).tried = s.tried ∧ (s.handleWrite outcome).endpoints = s.endpoints ∧
      (s.handleWrite outcome).connecting = s.connecting ∧
      (s.handleWrite outcome).connected = s.connected := by
  cases outcome with
  | none => exact ⟨rfl, rfl, rfl, rfl⟩
  | some n =>
      rw [handleWrite]
      split <;> exact ⟨rfl, rfl, rfl, rfl⟩

theorem step_connects {a : Act} (hs : s.step a = some s') :
    s'.tried ++ s'.endpoints = s.tried ++ s.endpoints ∧
      (a ≠ .handleConnect false false → s.GoesOn → s'.GoesOn) := by
  cases a with
  | handleConnect err optionSet =>
      rw [ClientSession.step] at hs
      split at hs
      · cases hs
        rw [handleConnect]
        split
        · next herr =>
            split
            · exact ⟨rfl, fun _ _ => Or.inr (Or.inl rfl)⟩
            · next hset =>
                refine ⟨rfl, fun hne => absurd ?_ hne⟩
                rw [herr, Bool.eq_false_iff.mpr hset]
        · split
          · next endpoint rest hendpoints =>
              refine ⟨?_, fun _ _ => Or.inl rfl⟩
              show s.tried ++ [endpoint] ++ rest = s.tried ++ s.endpoints
              rw [show s.endpoints = endpoint :: rest from hendpoints, List.append_assoc]
              rfl
          · next hendpoints => exact ⟨rfl, fun _ _ => Or.inr (Or.inr hendpoints)⟩
      · cases hs
  | transfer t =>
      rw [ClientSession.step] at hs
      split at hs
      · rcases Option.map_eq_some_iff.mp hs with ⟨b, -, rfl⟩
        exact ⟨rfl, fun _ h => h⟩
      · cases hs
  | handleRead i =>
      rcases Option.map_eq_some_iff.mp hs with ⟨⟨outcome, b⟩, -, rfl⟩
      obtain ⟨htried, hendpoints, hconnecting, hconnected⟩ :=
        handleRead_connects (s.withBlocks b) outcome
      refine ⟨by rw [htried, hendpoints]; rfl, fun _ h => ?_⟩
      rw [GoesOn, hconnecting, hconnected, hendpoints]
      exact h
  | handleWrite i =>
      rcases Option.map_eq_some_iff.mp hs with ⟨⟨outcome, b⟩, -, rfl⟩
      obtain ⟨htried, hendpoints, hconnecting, hconnected⟩ :=
        handleWrite_connects (s.withBlocks b) outcome
      refine ⟨by rw [htried, hendpoints]; rfl, fun _ h => ?_⟩
      rw [GoesOn, hconnecting, hconnected, hendpoints]
      exact h
  | closeSocket =>
      cases hs
      exact ⟨rfl, fun _ h => h⟩

/-! ## Runs -/

variable {blockSize : Nat} {memory : Vector Byte blockSize} {endpoint : Endpoint}
  {rest : List Endpoint} {as : List Act}

theorem inv_start (memory : Vector Byte blockSize) (endpoint : Endpoint) (rest : List Endpoint) :
    Inv true ((construct memory).start endpoint rest) :=
  (inv_construct memory).connecting rfl

theorem counted_start (memory : Vector Byte blockSize) (endpoint : Endpoint) (rest : List Endpoint) :
    Counted true 0 0 ((construct memory).start endpoint rest) :=
  (counted_construct memory).connecting

/-- A counter that has counted all bytes but those in progress. -/
theorem mod_sub_of_eq {total counted inProgress : Nat} (h : total = counted + inProgress) :
    counted % SizeT.modulus = (total - inProgress) % SizeT.modulus := by
  rw [h, Nat.add_sub_cancel]

/-- In every run of a session, modulo `2 ^ 64`: `bytes_read_` is what was received but for the reads
whose handlers have not run, and `bytes_written_` is at most what was sent but for the writes in
progress, and exactly that as long as no write fails. -/
theorem counted_of_run
    (hrun : run step ((construct memory).start endpoint rest) as = some s) :
    s.storedNow ≤ s.received.length ∧
      s.bytesRead = (s.received.length - s.storedNow) % SizeT.modulus ∧
      s.bytesWritten + s.takenNow ≤ s.sent.length ∧
      ((∀ a ∈ as, a.isWriteFails = false) →
        s.bytesWritten = (s.sent.length - s.takenNow) % SizeT.modulus) := by
  have hstart := counted_start memory endpoint rest
  have hany : ∃ ok read written, Counted ok read written s :=
    invariant_run (I := fun s => ∃ ok read written, Counted ok read written s)
      (fun _ _ _ ⟨_, _, _, h⟩ hs => ⟨_, h.step hs⟩) ⟨true, 0, 0, hstart⟩ hrun
  rcases hany with ⟨ok, read, written, h⟩
  refine ⟨?_, h.bytesRead.trans (mod_sub_of_eq h.received), ?_, fun hok => ?_⟩
  · rw [h.received]
    exact Nat.le_add_left _ _
  · rw [h.bytesWritten]
    exact Nat.le_trans (Nat.add_le_add_right (Nat.mod_le _ _) _) h.sent_le
  · have h' : ∃ read written, Counted true read written s := by
      refine invariant_along (I := fun s => ∃ read written, Counted true read written s) ?_
        ⟨0, 0, hstart⟩ (along_of_forall_mem hok _) hrun
      rintro s a s' ⟨read, written, h⟩ hok hs
      have h' := h.step hs
      rwa [hok] at h'
    rcases h' with ⟨read, written, h'⟩
    exact h'.bytesWritten.trans (mod_sub_of_eq (h'.sent rfl))

/-- The second endpoint answers, the block of two bytes is sent in part, and one byte comes back. -/
def oneByteBack : List Act :=
  [.handleConnect true false, .handleConnect false true, .transfer (.writeSome 0 1),
    .transfer (.readSome 0 [0]), .handleRead 0]

theorem counted_of_run_oneByteBack :
    ∃ s, run step ((construct (Vector.replicate 2 0)).start 1 [2]) oneByteBack = some s ∧
      s.bytesRead = 1 ∧ s.bytesWritten = 0 ∧ s.sent.length = 1 ∧
      s.bytesRead = (s.received.length - s.storedNow) % SizeT.modulus ∧
      s.bytesWritten = (s.sent.length - s.takenNow) % SizeT.modulus := by
  have hany : (run step ((construct (Vector.replicate 2 0)).start 1 [2]) oneByteBack).any
      (fun s => decide (s.bytesRead = 1 ∧ s.bytesWritten = 0 ∧ s.sent.length = 1)) = true := by
    decide +kernel
  rcases exists_run_of_any hany with ⟨s, hrun, hread, hwritten, hsent⟩
  have hcounted := counted_of_run hrun
  exact ⟨s, hrun, hread, hwritten, hsent, hcounted.2.1, hcounted.2.2.2 (by decide)⟩

/-- The endpoints are tried one after the other; and unless `set_option` fails, the session waits for
an answer until it has got one or has tried all of them. -/
theorem connects_in_order
    (hrun : run step ((construct memory).start endpoint rest) as = some s) :
    s.tried ++ s.endpoints = endpoint :: rest ∧
      ((∀ a ∈ as, a ≠ .handleConnect false false) → s.GoesOn) := by
  constructor
  · exact invariant_run (I := fun s => s.tried ++ s.endpoints = endpoint :: rest)
      (fun _ _ _ h hs => (step_connects hs).1.trans h) rfl hrun
  · intro hset
    exact invariant_along (fun _ _ _ h hne hs => (step_connects hs).2 hne h) (Or.inl rfl)
      (along_of_forall_mem hset _) hrun

theorem connects_in_order_oneByteBack :
    ∃ s, run step ((construct (Vector.replicate 2 0)).start 1 [2]) oneByteBack = some s ∧
      s.tried = [1, 2] ∧ s.tried ++ s.endpoints = [1, 2] ∧ s.GoesOn := by
  have hany : (run step ((construct (Vector.replicate 2 0)).start 1 [2]) oneByteBack).any
      (fun s => decide (s.tried = [1, 2])) = true := by
    decide
  rcases exists_run_of_any hany with ⟨s, hrun, htried⟩
  have horder := connects_in_order hrun
  exact ⟨s, hrun, htried, horder.1, horder.2 (by decide)⟩

end ClientSession
end PingPong
end Example
end Muradin
