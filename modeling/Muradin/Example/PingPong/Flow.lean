import Mathlib.Algebra.Ring.Nat
import Muradin.Example.PingPong.Blocks

/-!
# Flow — how the bytes of a session move on

* what the operations in progress have done so far (`takenNow`, `storedNow`), and that none goes beyond
  its block (`Fits`), which does not depend on the count;
* what passes between the session and its socket (`stream_transfer`);
* while nothing fails, a session goes on (`Going`), and each step brings its bytes nearer to the
  socket (`cost`).
-/

namespace Muradin
namespace Example
namespace PingPong

open Lib

/-- The bytes that are stored for a read. -/
def ReadOp.length (op : ReadOp) : Nat :=
  match op.result with
  | .completed length => length
  | _ => 0

theorem ReadOp.length_of_outcome {op : ReadOp} {outcome : Option Nat}
    (h : op.outcome = some outcome) : op.length = outcome.getD 0 := by
  cases outcome with
  | none => rw [length, outcome_none h, Option.getD_none]
  | some n => rw [length, outcome_some h, Option.getD_some]

namespace Blocks

variable {s s' s₁ : Blocks} {base : List Byte} {ok : Bool} {i : Nat}

/-! ## The operations in progress -/

/-- The bytes of the writes in progress that the socket has taken. -/
def takenNow (s : Blocks) : Nat :=
  (s.writes.map WriteOp.taken).sum

/-- The bytes that are stored for the reads whose handlers have not run. -/
def storedNow (s : Blocks) : Nat :=
  (s.reads.map ReadOp.length).sum

theorem sum_map_set {α : Type} (f : α → Nat) {xs : List α} {x : α} (hx : xs[i]? = some x) (y : α) :
    ((xs.set i y).map f).sum + f x = (xs.map f).sum + f y := by
  induction xs generalizing i with
  | nil => simp at hx
  | cons z xs ih =>
      cases i with
      | zero =>
          obtain rfl : z = x := by simpa using hx
          simp only [List.set_cons_zero, List.map_cons, List.sum_cons]
          omega
      | succ i =>
          have hrest := ih (i := i) (by simpa using hx)
          simp only [List.set_cons_succ, List.map_cons, List.sum_cons]
          omega

theorem sum_map_eraseIdx {α : Type} (f : α → Nat) {xs : List α} {x : α} (hx : xs[i]? = some x) :
    ((xs.eraseIdx i).map f).sum + f x = (xs.map f).sum := by
  induction xs generalizing i with
  | nil => simp at hx
  | cons z xs ih =>
      cases i with
      | zero =>
          obtain rfl : z = x := by simpa using hx
          simp only [List.eraseIdx_cons_zero, List.map_cons, List.sum_cons]
          omega
      | succ i =>
          have hrest := ih (i := i) (by simpa using hx)
          simp only [List.eraseIdx_cons_succ, List.map_cons, List.sum_cons]
          omega

theorem storedNow_of_read {op : ReadOp} (hreads : s.reads = [op]) : s.storedNow = op.length := by
  simp [storedNow, hreads]

theorem storedNow_asyncReadSome (s : Blocks) : s.asyncReadSome.storedNow = s.storedNow := by
  simp [storedNow, asyncReadSome, ReadOp.length]

theorem takenNow_asyncWrite (s : Blocks) (n : Nat) : (s.asyncWrite n).takenNow = s.takenNow := by
  simp [takenNow, asyncWrite]

theorem storedNow_exchange (s : Blocks) : s.exchange.storedNow = s.storedNow :=
  storedNow_asyncReadSome _

theorem takenNow_exchange (s : Blocks) : s.exchange.takenNow = s.takenNow :=
  takenNow_asyncWrite _ _

theorem storedNow_readDone (s : Blocks) (n : Nat) : (s.readDone n).storedNow = s.storedNow := by
  rw [readDone]
  split
  · exact storedNow_exchange _
  · rfl

theorem takenNow_readDone (s : Blocks) (n : Nat) : (s.readDone n).takenNow = s.takenNow := by
  rw [readDone]
  split
  · exact takenNow_exchange _
  · rfl

theorem storedNow_writeDone (s : Blocks) : s.writeDone.storedNow = s.storedNow := by
  rw [writeDone]
  split
  · exact storedNow_exchange _
  · rfl

theorem takenNow_writeDone (s : Blocks) : s.writeDone.takenNow = s.takenNow := by
  rw [writeDone]
  split
  · exact takenNow_exchange _
  · rfl

/-- A handler is called with what was stored. -/
theorem storedNow_takeRead {outcome : Option Nat} (hs : s.takeRead i = some (outcome, s₁)) :
    s₁.storedNow + outcome.getD 0 = s.storedNow := by
  rcases takeRead_eq_some hs with ⟨op, hop, houtcome, rfl⟩
  rw [← ReadOp.length_of_outcome houtcome]
  exact sum_map_eraseIdx ReadOp.length hop

/-- And with what was taken, unless the write has failed. -/
theorem takenNow_takeWrite {outcome : Option Nat} (hs : s.takeWrite i = some (outcome, s₁)) :
    s₁.takenNow + outcome.getD 0 ≤ s.takenNow ∧
      ∀ n, outcome = some n → s₁.takenNow + n = s.takenNow := by
  rcases takeWrite_eq_some hs with ⟨op, hop, houtcome, rfl⟩
  have hsum := sum_map_eraseIdx WriteOp.taken hop
  cases outcome with
  | none => exact ⟨Nat.le_trans (Nat.le_add_right _ _) (Nat.le_of_eq hsum), nofun⟩
  | some n =>
      obtain ⟨-, htaken, hn⟩ := WriteOp.outcome_some houtcome
      rw [htaken, hn] at hsum
      exact ⟨Nat.le_of_eq hsum, fun m hm => Option.some.inj hm ▸ hsum⟩

/-! ## Inside the blocks -/

/-- Whatever the count is, no operation goes beyond its block. -/
structure Fits (s : Blocks) : Prop where
  size : ∀ b, (s.memory b).length = s.blockSize
  readDataLength : s.readDataLength ≤ s.blockSize
  reads : ∀ op ∈ s.reads, op.length ≤ s.blockSize
  writes : ∀ op ∈ s.writes, op.taken ≤ op.length ∧ op.length ≤ s.blockSize

theorem Fits.transfer (h : s.Fits) {t : Transfer} (hs : s.transfer t = some s') : s'.Fits := by
  cases t with
  | readSome i bytes =>
      rcases bind_ite_eq_some hs with ⟨op, hop, ⟨-, hle, -⟩, rfl⟩
      have hroom : 0 + bytes.length ≤ (s.memory op.data).length := by
        rw [h.size, Nat.zero_add]
        exact hle
      exact
        { size := by
            intro b
            by_cases hb : b = op.data
            · subst hb
              simpa [stored, length_overlay hroom] using h.size _
            · simpa [stored, Function.update_of_ne hb] using h.size b
          readDataLength := h.readDataLength
          reads := by
            intro r hr
            rcases List.mem_or_eq_of_mem_set hr with hmem | rfl
            · exact h.reads r hmem
            · exact hle
          writes := h.writes }
  | readFails i =>
      rcases bind_ite_eq_some hs with ⟨op, hop, -, rfl⟩
      exact
        { size := h.size
          readDataLength := h.readDataLength
          reads := by
            intro r hr
            rcases List.mem_or_eq_of_mem_set hr with hmem | rfl
            · exact h.reads r hmem
            · exact Nat.zero_le _
          writes := h.writes }
  | writeSome i n =>
      rcases bind_ite_eq_some hs with ⟨op, hop, ⟨-, -, hle⟩, rfl⟩
      exact
        { size := h.size
          readDataLength := h.readDataLength
          reads := h.reads
          writes := by
            intro w hw
            rcases List.mem_or_eq_of_mem_set hw with hmem | rfl
            · exact h.writes w hmem
            · exact ⟨hle, (h.writes op (List.mem_of_getElem? hop)).2⟩ }
  | writeFails i =>
      rcases bind_ite_eq_some hs with ⟨op, hop, -, rfl⟩
      exact
        { size := h.size
          readDataLength := h.readDataLength
          reads := h.reads
          writes := by
            intro w hw
            rcases List.mem_or_eq_of_mem_set hw with hmem | rfl
            · exact h.writes w hmem
            · exact h.writes op (List.mem_of_getElem? hop) }

/-- A block to send and a read. -/
theorem Fits.asyncBoth (h : s.Fits) {n : Nat} (hn : n ≤ s.blockSize) :
    (s.asyncWrite n).asyncReadSome.Fits where
  size := h.size
  readDataLength := h.readDataLength
  reads := by
    intro op hop
    rcases List.mem_append.mp hop with hmem | hmem
    · exact h.reads op hmem
    · obtain rfl := List.mem_singleton.mp hmem
      exact Nat.zero_le _
  writes := by
    intro op hop
    rcases List.mem_append.mp hop with hmem | hmem
    · exact h.writes op hmem
    · obtain rfl := List.mem_singleton.mp hmem
      exact ⟨Nat.zero_le _, hn⟩

theorem Fits.exchange (h : s.Fits) : s.exchange.Fits := by
  have hswap : s.swapData.Fits := ⟨h.size, h.readDataLength, h.reads, h.writes⟩
  exact hswap.asyncBoth h.readDataLength

theorem Fits.readDone (h : s.Fits) {n : Nat} (hs : s.takeRead i = some (some n, s₁)) :
    (s₁.readDone n).Fits := by
  rcases takeRead_eq_some hs with ⟨op, hop, houtcome, rfl⟩
  have hle : n ≤ s.blockSize := by
    have hlength : op.length = n := ReadOp.length_of_outcome houtcome
    have hfits := h.reads op (List.mem_of_getElem? hop)
    omega
  have hreads : ∀ op ∈ s.reads.eraseIdx i, op.length ≤ s.blockSize :=
    fun op hop => h.reads op (List.mem_of_mem_eraseIdx hop)
  rw [Blocks.readDone]
  split
  · exact Fits.exchange ⟨h.size, hle, hreads, h.writes⟩
  · exact ⟨h.size, hle, hreads, h.writes⟩

theorem Fits.takeRead (h : s.Fits) {outcome : Option Nat}
    (hs : s.takeRead i = some (outcome, s₁)) : s₁.Fits := by
  rcases takeRead_eq_some hs with ⟨op, -, -, rfl⟩
  exact
    { size := h.size
      readDataLength := h.readDataLength
      reads := fun op hop => h.reads op (List.mem_of_mem_eraseIdx hop)
      writes := h.writes }

theorem Fits.takeWrite (h : s.Fits) {outcome : Option Nat}
    (hs : s.takeWrite i = some (outcome, s₁)) : s₁.Fits := by
  rcases takeWrite_eq_some hs with ⟨op, -, -, rfl⟩
  exact
    { size := h.size
      readDataLength := h.readDataLength
      reads := h.reads
      writes := fun op hop => h.writes op (List.mem_of_mem_eraseIdx hop) }

theorem Fits.writeDone (h : s.Fits) : s.writeDone.Fits := by
  rw [Blocks.writeDone]
  split
  · exact Fits.exchange ⟨h.size, h.readDataLength, h.reads, h.writes⟩
  · exact ⟨h.size, h.readDataLength, h.reads, h.writes⟩

/-- The socket moves bytes into the operations in progress. -/
theorem Fits.counts_transfer (h : s.Fits) {t : Transfer} (hs : s.transfer t = some s') :
    s'.received.length + s.storedNow = s.received.length + s'.storedNow ∧
      s'.sent.length + s.takenNow = s.sent.length + s'.takenNow := by
  cases t with
  | readSome i bytes =>
      rcases bind_ite_eq_some hs with ⟨op, hop, ⟨hpending, -, -⟩, rfl⟩
      have hsum := sum_map_set ReadOp.length hop { op with result := .completed bytes.length }
      have hempty : op.length = 0 := by rw [ReadOp.length, hpending]
      refine ⟨?_, rfl⟩
      show (s.received ++ bytes).length + s.storedNow = s.received.length +
        ((s.reads.set i _).map ReadOp.length).sum
      rw [hempty, Nat.add_zero] at hsum
      rw [hsum, List.length_append, Nat.add_assoc, Nat.add_comm bytes.length]
      rfl
  | readFails i =>
      rcases bind_ite_eq_some hs with ⟨op, hop, hpending, rfl⟩
      have hsum := sum_map_set ReadOp.length hop { op with result := .failed }
      have hempty : op.length = 0 := by rw [ReadOp.length, hpending]
      rw [hempty] at hsum
      exact ⟨congrArg (s.received.length + ·) hsum.symm, rfl⟩
  | writeSome i n =>
      rcases bind_ite_eq_some hs with ⟨op, hop, ⟨-, -, hle⟩, rfl⟩
      have hsum := sum_map_set WriteOp.taken hop { op with taken := op.taken + n }
      have hroom : op.taken + n ≤ (s.memory op.data).length := by
        rw [h.size]
        exact Nat.le_trans hle (h.writes op (List.mem_of_getElem? hop)).2
      refine ⟨rfl, ?_⟩
      show (s.sent ++ window _ _ _).length + s.takenNow = s.sent.length +
        ((s.writes.set i _).map WriteOp.taken).sum
      have htaken : op.taken + n - op.taken = n := Nat.add_sub_cancel_left ..
      rw [List.length_append, length_window hroom, htaken, takenNow]
      have hmore : WriteOp.taken { op with taken := op.taken + n } = op.taken + n := rfl
      omega
  | writeFails i =>
      rcases bind_ite_eq_some hs with ⟨op, hop, -, rfl⟩
      have hsum := sum_map_set WriteOp.taken hop { op with failed := true }
      exact ⟨rfl, congrArg (s.sent.length + ·) (Nat.add_right_cancel hsum).symm⟩

/-- A write that has not failed goes on. -/
theorem intact_transfer {t : Transfer} (hok : t.isWriteFails = false) (hs : s.transfer t = some s')
    (h : ∀ op ∈ s.writes, op.failed = false) : ∀ op ∈ s'.writes, op.failed = false := by
  cases t with
  | readSome i bytes =>
      rcases bind_ite_eq_some hs with ⟨op, -, -, rfl⟩
      exact h
  | readFails i =>
      rcases bind_ite_eq_some hs with ⟨op, -, -, rfl⟩
      exact h
  | writeSome i n =>
      rcases bind_ite_eq_some hs with ⟨op, -, ⟨hintact, -, -⟩, rfl⟩
      intro w hw
      rcases List.mem_or_eq_of_mem_set hw with hmem | rfl
      · exact h w hmem
      · exact hintact
  | writeFails i => cases hok

theorem writes_exchange (h : ∀ op ∈ s.writes, op.failed = false) :
    ∀ op ∈ s.exchange.writes, op.failed = false := by
  intro op hop
  -- The new write has just been started.
  rcases List.mem_append.mp hop with hmem | hmem
  · exact h op hmem
  · obtain rfl := List.mem_singleton.mp hmem
    rfl

theorem writes_readDone (n : Nat) (h : ∀ op ∈ s.writes, op.failed = false) :
    ∀ op ∈ (s.readDone n).writes, op.failed = false := by
  rw [readDone]
  split
  · exact writes_exchange h
  · exact h

theorem writes_writeDone (h : ∀ op ∈ s.writes, op.failed = false) :
    ∀ op ∈ s.writeDone.writes, op.failed = false := by
  rw [writeDone]
  split
  · exact writes_exchange h
  · exact h

/-! ## One operation at a time -/

theorem Inv.storedNow_takeRead (h : Inv base ok s) {outcome : Option Nat}
    (hs : s.takeRead i = some (outcome, s₁)) :
    s.storedNow = outcome.getD 0 ∧ s₁.storedNow = 0 := by
  have hsum := Blocks.storedNow_takeRead hs
  have hempty : s₁.storedNow = 0 := by
    rcases takeRead_eq_some hs with ⟨op, hop, -, rfl⟩
    obtain ⟨rfl, hreads⟩ := h.read hop
    simp [storedNow, hreads]
  exact ⟨by omega, hempty⟩

theorem Inv.writes_takeWrite (h : Inv base ok s) {outcome : Option Nat}
    (hs : s.takeWrite i = some (outcome, s₁)) : 0 < s.writes.length ∧ s₁.writes = [] := by
  rcases takeWrite_eq_some hs with ⟨op, hop, -, rfl⟩
  obtain ⟨rfl, hwrites⟩ := h.write hop
  simp [hwrites]

/-- The handler of a write is called with an error only where a write has failed. -/
theorem Inv.lost_takeWrite (h : Inv base ok s) (hs : s.takeWrite i = some (none, s₁)) :
    ok = false := by
  rcases takeWrite_eq_some hs with ⟨op, hop, houtcome, rfl⟩
  obtain ⟨rfl, hwrites⟩ := h.write hop
  have hfailed := h.failed op (by simp [hwrites])
  rw [WriteOp.outcome_none houtcome] at hfailed
  simpa using hfailed.symm

/-! ## The socket -/

/-- The handlers move no byte between the session and the socket. -/
theorem readDone_same (s : Blocks) (n : Nat) : (s.readDone n).received = s.received ∧
    (s.readDone n).sent = s.sent ∧ (s.readDone n).blockSize = s.blockSize := by
  rw [readDone]
  split <;> exact ⟨rfl, rfl, rfl⟩

theorem writeDone_same (s : Blocks) : s.writeDone.received = s.received ∧
    s.writeDone.sent = s.sent ∧ s.writeDone.blockSize = s.blockSize := by
  rw [writeDone]
  split <;> exact ⟨rfl, rfl, rfl⟩

/-- What a transfer adds to the two streams. -/
theorem stream_transfer {t : Transfer} (hs : s.transfer t = some s') :
    s'.received = s.received ++ t.stores ∧ s.sent <+: s'.sent ∧
      t.stores.length ≤ s.blockSize := by
  cases t with
  | readSome i bytes =>
      rcases bind_ite_eq_some hs with ⟨op, -, ⟨-, hle, -⟩, rfl⟩
      exact ⟨rfl, List.prefix_rfl, hle⟩
  | readFails i =>
      rcases bind_ite_eq_some hs with ⟨op, -, -, rfl⟩
      exact ⟨(List.append_nil _).symm, List.prefix_rfl, Nat.zero_le _⟩
  | writeSome i n =>
      rcases bind_ite_eq_some hs with ⟨op, -, -, rfl⟩
      exact ⟨(List.append_nil _).symm, List.prefix_append _ _, Nat.zero_le _⟩
  | writeFails i =>
      rcases bind_ite_eq_some hs with ⟨op, -, -, rfl⟩
      exact ⟨(List.append_nil _).symm, List.prefix_rfl, Nat.zero_le _⟩

theorem takeRead_same {outcome : Option Nat} (hs : s.takeRead i = some (outcome, s₁)) :
    s₁.received = s.received ∧ s₁.sent = s.sent ∧ s₁.blockSize = s.blockSize := by
  rcases takeRead_eq_some hs with ⟨op, -, -, rfl⟩
  exact ⟨rfl, rfl, rfl⟩

theorem takeWrite_same {outcome : Option Nat} (hs : s.takeWrite i = some (outcome, s₁)) :
    s₁.received = s.received ∧ s₁.sent = s.sent ∧ s₁.blockSize = s.blockSize := by
  rcases takeWrite_eq_some hs with ⟨op, -, -, rfl⟩
  exact ⟨rfl, rfl, rfl⟩

/-- The writes that are left were there before. -/
theorem takeWrite_kept {outcome : Option Nat} (hs : s.takeWrite i = some (outcome, s₁)) :
    s₁.storedNow = s.storedNow ∧ ∀ op ∈ s₁.writes, op ∈ s.writes := by
  rcases takeWrite_eq_some hs with ⟨op, -, -, rfl⟩
  exact ⟨rfl, fun w hw => List.mem_of_mem_eraseIdx hw⟩

/-- A write that has not failed calls its handler with a count. -/
theorem exists_of_takeWrite (h : ∀ op ∈ s.writes, op.failed = false) {outcome : Option Nat}
    (hs : s.takeWrite i = some (outcome, s₁)) : ∃ n, outcome = some n := by
  rcases takeWrite_eq_some hs with ⟨op, hop, houtcome, -⟩
  cases outcome with
  | some n => exact ⟨n, rfl⟩
  | none =>
      have hfailed := h op (List.mem_of_getElem? hop)
      rw [WriteOp.outcome_none houtcome] at hfailed
      cases hfailed

/-! ## What is left to do -/

/-- Each byte by how far it is from the socket, and the writes in progress. -/
def cost (top : Nat) (s : Blocks) : Nat :=
  (top + 2) * s.storedNow + (top + 1) * s.held.length +
    top * (s.writes.flatMap s.rest).length + s.writes.length

variable {top : Nat}

/-- A block to send and a read. -/
theorem cost_asyncBoth (n : Nat) (hcount : s.unsentCount = 1) (hwrites : s.writes = []) :
    (s.asyncWrite n).asyncReadSome.cost top = (top + 2) * s.storedNow +
      top * (window (s.memory s.writeData) 0 n).length + 1 := by
  have hheld : (s.asyncWrite n).asyncReadSome.held = [] :=
    if_neg (by show ¬ s.unsentCount = 2; omega)
  have hone : (s.asyncWrite n).asyncReadSome.writes = [⟨s.writeData, n, 0, false⟩] := by
    show s.writes ++ _ = _
    rw [hwrites]
    rfl
  rw [cost, storedNow_asyncReadSome, hheld, hone, List.flatMap_singleton]
  rfl

theorem cost_exchange (hcount : s.unsentCount = 1) (hwrites : s.writes = []) :
    s.exchange.cost top = (top + 2) * s.storedNow +
      top * (window (s.memory s.readData) 0 s.readDataLength).length + 1 :=
  cost_asyncBoth (s := s.swapData) s.readDataLength hcount hwrites

/-- The block goes back at once. -/
theorem cost_readDone_of_free {n : Nat} (hcount : s.unsentCount = 0) (hwrites : s.writes = [])
    (hstored : s.storedNow = 0) :
    (s.readDone n).cost top = top * (window (s.memory s.readData) 0 n).length + 1 := by
  have hone : s.unsentCount + 1 = 1 := by omega
  rw [readDone, if_pos hone]
  refine Eq.trans (cost_exchange hone hwrites) ?_
  show (top + 2) * s.storedNow + _ + 1 = _
  rw [hstored, Nat.mul_zero, Nat.zero_add]

/-- It is held. -/
theorem cost_readDone_of_busy {n : Nat} (hcount : s.unsentCount = 1) (hstored : s.storedNow = 0) :
    (s.readDone n).cost top = (top + 1) * (window (s.memory s.readData) 0 n).length +
      top * (s.writes.flatMap s.rest).length + s.writes.length := by
  have htwo : s.unsentCount + 1 = 2 := by omega
  have hne : ¬ s.unsentCount + 1 = 1 := by omega
  rw [readDone, if_neg hne, cost, held, if_pos htwo]
  show (top + 2) * s.storedNow + _ + _ + _ = _
  rw [hstored, Nat.mul_zero, Nat.zero_add]
  rfl

/-- The block that was held is the next one. -/
theorem cost_writeDone_of_held (hcount : s.unsentCount = 2) (hwrites : s.writes = []) :
    s.writeDone.cost top = (top + 2) * s.storedNow +
      top * (window (s.memory s.readData) 0 s.readDataLength).length + 1 := by
  have hone : s.unsentCount - 1 = 1 := by omega
  rw [writeDone, if_pos hone]
  exact cost_exchange hone hwrites

theorem cost_writeDone_of_free (hcount : s.unsentCount = 1) (hwrites : s.writes = []) :
    s.writeDone.cost top = (top + 2) * s.storedNow := by
  have hne : ¬ s.unsentCount - 1 = 1 := by omega
  have hne' : ¬ s.unsentCount - 1 = 2 := by omega
  rw [writeDone, if_neg hne, cost, held, if_neg hne', hwrites]
  rfl

/-- What is read is far from the socket again. -/
theorem Inv.cost_readSome (h : Inv base ok s) {bytes : List Byte}
    (hs : s.readSome i bytes = some s') :
    s'.cost top = s.cost top + (top + 2) * bytes.length := by
  rcases bind_ite_eq_some hs with ⟨op, hop, ⟨hpending, hle, -⟩, rfl⟩
  obtain ⟨rfl, hreads⟩ := h.read hop
  have hempty : s.fetched op = [] := by simp [fetched, hpending]
  have hwaiting := h.waiting_stored hreads hpending hle
  have hcount := h.count_ne hreads
  rw [waiting_of_read hreads hcount, waiting_of_read (reads_stored hreads bytes) hcount,
    h.fetched_stored hle, hempty, List.append_nil] at hwaiting
  have hrest := List.append_cancel_right hwaiting
  have hheld : s.held = [] := if_neg hcount
  have hheld' : (s.stored 0 op bytes).held = [] := if_neg hcount
  have hnone : op.length = 0 := by rw [ReadOp.length, hpending]
  rw [cost, cost, storedNow_of_read hreads, storedNow_of_read (reads_stored hreads bytes),
    hnone, hrest, hheld, hheld']
  show (top + 2) * bytes.length + (top + 1) * 0 + _ + s.writes.length =
    (top + 2) * 0 + (top + 1) * 0 + _ + s.writes.length + _
  omega

/-- What is taken has left the session. -/
theorem Inv.cost_writeSome (h : Inv base ok s) {n : Nat} (hs : s.writeSome i n = some s') :
    s'.cost top + top * n = s.cost top ∧ s'.sent.length = s.sent.length + n ∧ 0 < n := by
  rcases bind_ite_eq_some hs with ⟨op, hop, ⟨-, hpos, hle⟩, rfl⟩
  obtain ⟨rfl, hwrites⟩ := h.write hop
  have hsends := h.sends op (by simp [hwrites])
  have hroom : op.length ≤ (s.memory op.data).length := by
    rw [h.size]
    exact hsends.length_le
  have hwrites' : (s.takenSome 0 op n).writes = [{ op with taken := op.taken + n }] := by
    simp [takenSome, hwrites]
  refine ⟨?_, ?_, hpos⟩
  · rw [cost, cost, hwrites, hwrites', List.flatMap_singleton, List.flatMap_singleton, rest, rest,
      length_window hroom]
    show _ + _ + top * (window (s.memory op.data) (op.taken + n) op.length).length + 1 + _ = _
    rw [length_window hroom]
    have hsplit : op.length - op.taken = op.length - (op.taken + n) + n := by omega
    rw [hsplit, Nat.mul_add]
    show (top + 2) * s.storedNow + (top + 1) * s.held.length + _ + 1 + _ = _ + 1
    omega
  · show (s.sent ++ window _ _ _).length = _
    rw [List.length_append, length_window (Nat.le_trans hle hroom)]
    omega

/-- `handle_read` brings a block on. -/
theorem Inv.cost_readDone (h : Inv base ok s) (hsize : 0 < s.blockSize) {n : Nat}
    (hs : s.takeRead i = some (some n, s₁)) : (s₁.readDone n).cost top + 1 ≤ s.cost top := by
  obtain ⟨hstored, hempty⟩ := h.storedNow_takeRead hs
  rcases takeRead_eq_some hs with ⟨op, hop, houtcome, hs₁⟩
  obtain ⟨rfl, hreads⟩ := h.read hop
  have hlength : s.reads.length = 1 := congrArg List.length hreads
  have hfetches := h.fetches op (by simp [hreads])
  have hresult := ReadOp.outcome_some houtcome
  have hle := hfetches.length_le n hresult
  have hpos : n ≠ 0 := fun h0 => by
    have := hfetches.length_pos n hresult h0
    omega
  have hblock : (window (s₁.memory s₁.readData) 0 n).length = n := by
    rw [hs₁, length_window (by rw [h.size]; exact hle), Nat.sub_zero]
  have hheld : s.held = [] := if_neg (h.count_ne hreads)
  have hstored : s.storedNow = n := hstored
  by_cases hcount : s.unsentCount = 0
  · have hwrites : s.writes.length = 0 := by
      cases h.turn <;> omega
    have hnone : s.writes = [] := List.length_eq_zero_iff.mp hwrites
    have hcount₁ : s₁.unsentCount = 0 := by rw [hs₁]; exact hcount
    have hnone₁ : s₁.writes = [] := by rw [hs₁]; exact hnone
    rw [cost_readDone_of_free hcount₁ hnone₁ hempty, cost, hheld, hnone, hstored, hblock]
    show top * n + 1 + 1 ≤ (top + 2) * n + (top + 1) * 0 + top * 0 + 0
    rw [Nat.add_mul]
    omega
  · have hcount : s.unsentCount = 1 := by
      cases h.turn <;> omega
    have hcount₁ : s₁.unsentCount = 1 := by rw [hs₁]; exact hcount
    rw [cost_readDone_of_busy hcount₁ hempty, cost, hheld, hstored, hblock, hs₁]
    show (top + 1) * n + top * (s.writes.flatMap s.rest).length + s.writes.length + 1 ≤
      (top + 2) * n + (top + 1) * 0 + _ + _
    rw [Nat.add_mul top 2, Nat.add_mul top 1]
    omega

/-- And so does `handle_write`. -/
theorem Inv.cost_writeDone (h : Inv base ok s) (hsize : 0 < s.blockSize) {n : Nat}
    (hs : s.takeWrite i = some (some n, s₁)) : s₁.writeDone.cost top + 1 ≤ s.cost top := by
  have hnone := (h.writes_takeWrite hs).2
  rcases takeWrite_eq_some hs with ⟨op, hop, houtcome, hs₁⟩
  obtain ⟨rfl, hwrites⟩ := h.write hop
  have hlength : s.writes.length = 1 := congrArg List.length hwrites
  have hstored : s₁.storedNow = s.storedNow := by
    rw [hs₁]
    rfl
  by_cases hcount : s.unsentCount = 2
  · have hturn : s.readDataLength ≤ s.blockSize ∧ (s.readDataLength = 0 → s.blockSize = 0) := by
      cases h.turn with
      | holding _ _ _ hle hpos => exact ⟨hle, hpos⟩
      | _ => omega
    have hpos : s.readDataLength ≠ 0 := fun h0 => by
      have := hturn.2 h0
      omega
    have hblock : (window (s.memory s.readData) 0 s.readDataLength).length = s.readDataLength := by
      rw [length_window (by rw [h.size]; exact hturn.1), Nat.sub_zero]
    have hblock₁ : (window (s₁.memory s₁.readData) 0 s₁.readDataLength).length =
        s.readDataLength := by
      rw [hs₁]
      exact hblock
    rw [cost_writeDone_of_held (by rw [hs₁]; exact hcount) hnone, cost, held, if_pos hcount,
      hlength, hstored, hblock, hblock₁, Nat.add_mul top 1]
    omega
  · have hcount : s.unsentCount = 1 := by
      cases h.turn <;> omega
    rw [cost_writeDone_of_free (by rw [hs₁]; exact hcount) hnone, cost, hlength, hstored]
    omega

/-- The first read costs nothing. -/
theorem cost_asyncReadSome (s : Blocks) : s.asyncReadSome.cost top = s.cost top := by
  rw [cost, cost, storedNow_asyncReadSome]
  rfl

theorem cost_of_idle (hcount : s.unsentCount = 0) (hreads : s.reads = []) (hwrites : s.writes = []) :
    s.cost top = 0 := by
  rw [cost, storedNow, held, if_neg (by omega), hreads, hwrites]
  rfl

/-- Behind a transfer, where a byte costs less in the socket than in the session. -/
theorem Inv.cost_transfer (h : Inv base ok s) (hsize : 0 < s.blockSize) {out : Nat}
    (hout : out < top) {t : Transfer} (hok : t.isFailure = false) (hs : s.transfer t = some s') :
    s'.cost top + out * s'.sent.length + 1 ≤
      s.cost top + out * s.sent.length + (top + 3) * t.stores.length := by
  cases t with
  | readSome i bytes =>
      rw [h.cost_readSome hs]
      have hbytes : 0 < bytes.length := by
        rcases bind_ite_eq_some hs with ⟨op, -, ⟨-, -, hpos⟩, -⟩
        refine Nat.pos_of_ne_zero fun hzero => ?_
        have := hpos hzero
        omega
      have hsent : s'.sent = s.sent := by
        rcases bind_ite_eq_some hs with ⟨op, -, -, rfl⟩
        rfl
      rw [hsent]
      show _ + _ + _ + 1 ≤ _ + _ + (top + 2 + 1) * bytes.length
      rw [Nat.add_mul (top + 2) 1]
      omega
  | writeSome i n =>
      obtain ⟨hcost, hsent, hpos⟩ := h.cost_writeSome hs
      rw [hsent, ← hcost]
      have hmul : out * n + n ≤ top * n := by
        rw [← Nat.succ_mul]
        exact Nat.mul_le_mul_right n hout
      show _ + out * (s.sent.length + n) + 1 ≤ _ + _ + (top + 3) * 0
      rw [Nat.mul_add]
      omega
  | readFails i => cases hok
  | writeFails i => cases hok

/-! ## Going on -/

/-- As long as nothing fails, a session reads, or writes, or does both. -/
structure Going (s : Blocks) : Prop where
  count : s.unsentCount = 0 ∨ s.unsentCount = 1 ∨ s.unsentCount = 2
  reads : s.reads.length = if s.unsentCount = 2 then 0 else 1
  writes : s.writes.length = if s.unsentCount = 0 then 0 else 1
  intact : ∀ op ∈ s.reads, op.result ≠ .failed

theorem Going.operations_pos (h : s.Going) : 0 < s.operations := by
  have hreads := h.reads
  have hwrites := h.writes
  rw [operations]
  split at hreads <;> split at hwrites <;> omega

theorem Going.transfer (h : s.Going) {t : Transfer} (hok : t.isFailure = false)
    (hs : s.transfer t = some s') : s'.Going := by
  cases t with
  | readSome i bytes =>
      rcases bind_ite_eq_some hs with ⟨op, hop, -, rfl⟩
      exact
        { count := h.count
          reads := List.length_set.trans h.reads
          writes := h.writes
          intact := by
            intro r hr
            rcases List.mem_or_eq_of_mem_set hr with hmem | rfl
            · exact h.intact r hmem
            · exact nofun }
  | writeSome i n =>
      rcases bind_ite_eq_some hs with ⟨op, hop, -, rfl⟩
      exact
        { count := h.count
          reads := h.reads
          writes := List.length_set.trans h.writes
          intact := h.intact }
  | readFails i => cases hok
  | writeFails i => cases hok

/-- With a fresh block to send and a fresh read. -/
theorem going_asyncBoth (n : Nat) (hcount : s.unsentCount = 1) (hreads : s.reads = [])
    (hwrites : s.writes = []) : (s.asyncWrite n).asyncReadSome.Going where
  count := Or.inr (Or.inl hcount)
  reads := by
    rw [if_neg (by show ¬ s.unsentCount = 2; omega)]
    show (s.reads ++ _).length = 1
    rw [hreads]
    rfl
  writes := by
    rw [if_neg (by show ¬ s.unsentCount = 0; omega)]
    show (s.writes ++ _).length = 1
    rw [hwrites]
    rfl
  intact := by
    intro op hop
    obtain rfl : op = { data := s.readData, result := .pending } := by
      simpa [asyncWrite, asyncReadSome, hreads] using hop
    intro hfailed
    cases hfailed

theorem going_exchange (hcount : s.unsentCount = 1) (hreads : s.reads = [])
    (hwrites : s.writes = []) : s.exchange.Going :=
  going_asyncBoth (s := s.swapData) s.readDataLength hcount hreads hwrites

/-- With the first read. -/
theorem going_asyncReadSome (hcount : s.unsentCount = 0) (hreads : s.reads = [])
    (hwrites : s.writes = []) : s.asyncReadSome.Going where
  count := Or.inl hcount
  reads := by
    rw [if_neg (by show ¬ s.unsentCount = 2; omega)]
    show (s.reads ++ _).length = 1
    rw [hreads]
    rfl
  writes := by
    rw [if_pos (by exact hcount)]
    show s.writes.length = 0
    rw [hwrites]
    rfl
  intact := by
    intro op hop
    obtain rfl : op = { data := s.readData, result := .pending } := by
      simpa [asyncReadSome, hreads] using hop
    intro hfailed
    cases hfailed

theorem Going.readDone (h : s.Going) {outcome : Option Nat}
    (hs : s.takeRead i = some (outcome, s₁)) : ∃ n, outcome = some n ∧ (s₁.readDone n).Going := by
  rcases takeRead_eq_some hs with ⟨op, hop, houtcome, rfl⟩
  have hlt := (List.getElem?_eq_some_iff.mp hop).1
  have hreads := h.reads
  have hwrites := h.writes
  have hcount := h.count
  cases outcome with
  | none =>
      have hmem : op ∈ s.reads := List.mem_of_getElem? hop
      exact absurd (ReadOp.outcome_none houtcome) (h.intact op hmem)
  | some n =>
      refine ⟨n, rfl, ?_⟩
      have hnone : s.reads.eraseIdx i = [] := by
        refine List.length_eq_zero_iff.mp ?_
        rw [List.length_eraseIdx, if_pos hlt]
        split at hreads <;> omega
      by_cases hzero : s.unsentCount = 0
      · rw [if_pos hzero] at hwrites
        have hone : s.unsentCount + 1 = 1 := by omega
        rw [Blocks.readDone, if_pos hone]
        exact going_exchange hone hnone (List.length_eq_zero_iff.mp hwrites)
      · have htwo : s.unsentCount ≠ 2 := by
          intro htwo
          rw [if_pos htwo] at hreads
          omega
        have hne : ¬ s.unsentCount + 1 = 1 := by omega
        rw [if_neg hzero] at hwrites
        rw [Blocks.readDone, if_neg hne]
        exact
          { count := by
              show s.unsentCount + 1 = 0 ∨ s.unsentCount + 1 = 1 ∨ s.unsentCount + 1 = 2
              omega
            reads := by
              show (s.reads.eraseIdx i).length = if s.unsentCount + 1 = 2 then 0 else 1
              rw [hnone, if_pos (by omega)]
              rfl
            writes := by
              show s.writes.length = if s.unsentCount + 1 = 0 then 0 else 1
              rw [hwrites, if_neg (by omega)]
            intact := by
              show ∀ op ∈ s.reads.eraseIdx i, _
              rw [hnone]
              intro op hop
              cases hop }

theorem Going.writeDone (h : s.Going) (hinv : Inv base true s) {outcome : Option Nat}
    (hs : s.takeWrite i = some (outcome, s₁)) : ∃ n, outcome = some n ∧ s₁.writeDone.Going := by
  have hnone := (hinv.writes_takeWrite hs).2
  have hlost : s.takeWrite i = some (none, s₁) → true = false := fun hs => hinv.lost_takeWrite hs
  rcases takeWrite_eq_some hs with ⟨op, hop, houtcome, rfl⟩
  have hlt := (List.getElem?_eq_some_iff.mp hop).1
  have hreads := h.reads
  have hwrites := h.writes
  have hcount := h.count
  cases outcome with
  | none => cases hlost hs
  | some n =>
      refine ⟨n, rfl, ?_⟩
      have hzero : s.unsentCount ≠ 0 := by
        intro hzero
        rw [if_pos hzero] at hwrites
        omega
      by_cases htwo : s.unsentCount = 2
      · rw [if_pos htwo] at hreads
        have hone : s.unsentCount - 1 = 1 := by omega
        rw [Blocks.writeDone, if_pos hone]
        exact going_exchange hone (List.length_eq_zero_iff.mp hreads) hnone
      · have hne : ¬ s.unsentCount - 1 = 1 := by omega
        rw [if_neg htwo] at hreads
        rw [Blocks.writeDone, if_neg hne]
        exact
          { count := by
              show s.unsentCount - 1 = 0 ∨ s.unsentCount - 1 = 1 ∨ s.unsentCount - 1 = 2
              omega
            reads := by
              show s.reads.length = if s.unsentCount - 1 = 2 then 0 else 1
              rw [hreads, if_neg (by omega)]
            writes := by
              show (s.writes.eraseIdx i).length = if s.unsentCount - 1 = 0 then 0 else 1
              rw [show s.writes.eraseIdx i = [] from hnone, if_pos (by omega)]
              rfl
            intact := h.intact }

/-- A block is never empty. -/
theorem Inv.takeWrite_pos (h : Inv base ok s) (hsize : 0 < s.blockSize) {n : Nat}
    (hs : s.takeWrite i = some (some n, s₁)) : 0 < n := by
  rcases takeWrite_eq_some hs with ⟨op, hop, houtcome, -⟩
  obtain ⟨rfl, hwrites⟩ := h.write hop
  obtain ⟨-, -, rfl⟩ := WriteOp.outcome_some houtcome
  refine Nat.pos_of_ne_zero fun hzero => ?_
  have := (h.sends op (by simp [hwrites])).length_pos hzero
  omega

/-- What a session can do: send a byte, or call a handler; or it has nothing left and waits for a
byte. -/
theorem Going.exists_step (h : s.Going) (hinv : Inv base true s) (hsize : 0 < s.blockSize) :
    (∃ b, s.transfer (.writeSome 0 1) = some b) ∨ (∃ r, s.takeWrite 0 = some r) ∨
      (∃ r, s.takeRead 0 = some r) ∨
      s.waiting = [] ∧ ∀ byte, ∃ b, s.transfer (.readSome 0 [byte]) = some b := by
  rcases hinv.writes_cases with hnone | ⟨op, hone⟩
  · have hzero : s.unsentCount = 0 := by
      have hwrites := h.writes
      rw [hnone] at hwrites
      by_contra hne
      rw [if_neg hne] at hwrites
      cases hwrites
    have htwo : s.unsentCount ≠ 2 := by omega
    have hreads := h.reads
    rw [if_neg htwo] at hreads
    rcases hinv.reads_cases with hempty | ⟨op, hread⟩
    · rw [hempty] at hreads
      cases hreads
    · have hop : s.reads[0]? = some op := by rw [hread, List.getElem?_cons_zero]
      rcases hresult : op.result with _ | n | _
      · refine Or.inr (Or.inr (Or.inr ⟨?_, fun byte => ⟨s.stored 0 op [byte], ?_⟩⟩))
        · rw [waiting_of_read hread htwo, hnone, fetched, hresult]
          rfl
        · show s.reads[0]?.bind _ = _
          rw [hop, Option.bind_some, if_pos]
          exact ⟨hresult, hsize, fun h0 => by cases h0⟩
      · refine Or.inr (Or.inr (Or.inl ⟨(some n, { s with reads := s.reads.eraseIdx 0 }), ?_⟩))
        rw [takeRead, hop, Option.bind_some, ReadOp.outcome, hresult]
        rfl
      · exact absurd hresult (h.intact op (by simp [hread]))
  · have hop : s.writes[0]? = some op := by rw [hone, List.getElem?_cons_zero]
    have hfailed : op.failed = false := hinv.failed op (by simp [hone])
    by_cases htaken : op.taken = op.length
    · refine Or.inr (Or.inl ⟨(some op.length, { s with writes := s.writes.eraseIdx 0 }), ?_⟩)
      rw [takeWrite, hop, Option.bind_some, WriteOp.outcome, hfailed, if_neg Bool.false_ne_true,
        if_pos htaken]
      rfl
    · have hle := (hinv.sends op (by simp [hone])).taken_le
      refine Or.inl ⟨s.takenSome 0 op 1, ?_⟩
      show s.writes[0]?.bind _ = _
      rw [hop, Option.bind_some, if_pos ⟨hfailed, Nat.zero_lt_one, by omega⟩]

end Blocks
end PingPong
end Example
end Muradin
