import Muradin.Net.ByteBuffer.Layout

/-!
# Reachable — the buffers that a program can have

`Reachable` are the buffers that the constructor and the public member functions can give, for calls
that meet their asserted preconditions, whose sizes do not wrap, and whose `resize` covers the write
index; a call that throws leaves the buffer as it was.  `swap` only exchanges what two objects hold.

All of them are in the documented layout (`Reachable.inv`).
-/

namespace Muradin
namespace Net

open Lib Cpp

namespace ByteBuffer

variable {B : Build} {host : ByteOrder} {b b' : ByteBuffer} {q : ByteFifo}

inductive Reachable (B : Build) (host : ByteOrder) : ByteBuffer → Prop
  | construct {order : ByteOrder} {size : Nat} {b : ByteBuffer} :
      size + resverIndex < SizeT.modulus → construct order size = .ok b → Reachable B host b
  | call {b b' : ByteBuffer} (op : Op) {out : Out} :
      Reachable B host b → op.Pre b → (op.exec B host).run b = .ok out b' → Reachable B host b'
  | byteorder {b : ByteBuffer} (order : ByteOrder) :
      Reachable B host b → Reachable B host { b with byteorder := order }
  /-- a store through `wt_ptr()` that is not committed -/
  | store {b b' : ByteBuffer} (bytes : List Byte) :
      Reachable B host b → b.wtIndex + bytes.length ≤ b.storage →
        (storeAtWtPtr bytes).run b = .ok () b' → Reachable B host b'
  | hasWritten {b b' : ByteBuffer} {bytes n : Nat} :
      Reachable B host b → b.wtIndex + bytes ≤ b.storage →
        (ByteBuffer.hasWritten B bytes).run b = .ok n b' → Reachable B host b'
  | resize {b b' : ByteBuffer} {newCapacity : Nat} :
      Reachable B host b → newCapacity + resverIndex < SizeT.modulus →
        b.wtIndex ≤ newCapacity + resverIndex →
        (ByteBuffer.resize newCapacity).run b = .ok () b' → Reachable B host b'
  | appendBuffer {b b' another : ByteBuffer} {n : Nat} :
      Reachable B host b → Reachable B host another →
        (ByteBuffer.appendBuffer B another).run b = .ok n b' → Reachable B host b'
  | appendSelf {b b' : ByteBuffer} {n : Nat} :
      Reachable B host b → (ByteBuffer.appendSelf B).run b = .ok n b' → Reachable B host b'

/-- What a member function leaves that returns, by its specification. -/
theorem inv_of_yields {α : Type} {m : Method ByteBuffer α} {q' : ByteFifo} {a a' : α}
    (h : Yields m b q' a') (hrun : m.run b = .ok a b') : b'.Inv := by
  rcases h with ⟨b'', hrun', hrep⟩
  cases hrun.symm.trans hrun'
  exact hrep.toInv

theorem not_ok_of_throws {α : Type} {m : Method ByteBuffer α} {a : α} (h : Throws m b) :
    m.run b ≠ .ok a b' := by
  intro hrun
  cases hrun.symm.trans h

/-- Whatever it appends, a buffer that is appended to itself keeps its layout, has no memory for the
bytes, or reads freed memory. -/
theorem Inv.appendSelf_cases (h : b.Inv) :
    (∃ n b', (ByteBuffer.appendSelf B).run b = .ok n b' ∧ b'.Inv) ∨
      Throws (ByteBuffer.appendSelf B) b ∨
        ∃ b', (ByteBuffer.appendSelf B).run b = .error .overrun b' := by
  by_cases hn : b.content.length ≤ b.freeBytes
  · rcases h.represents.appendSelf_move_spec (B := B) hn with ⟨b', hrun, hrep⟩
    exact Or.inl ⟨_, b', hrun, hrep.toInv⟩
  · have hn : b.freeBytes < b.content.length := Nat.lt_of_not_le hn
    by_cases hcap : b.content.length + b.wtIndex ≤ b.contianer.capacity
    · rcases h.represents.appendSelf_grow_spec (B := B) hn hcap with ⟨b', hrun, hrep⟩
      exact Or.inl ⟨_, b', hrun, hrep.toInv⟩
    · by_cases hmax : b.content.length + b.wtIndex ≤ CharVector.maxSize
      · exact Or.inr (Or.inr (h.appendSelf_realloc hn (Nat.lt_of_not_le hcap) hmax))
      · exact Or.inr (Or.inl (h.appendSelf_throw hn (Nat.lt_of_not_le hmax)))

/-- The step lemma of one call. -/
theorem Inv.call (h : b.Inv) {op : Op} {out : Out} (hpre : op.Pre b)
    (hrun : (op.exec B host).run b = .ok out b') : b'.Inv := by
  rcases op.meets_of_pre (B := B) h.represents hpre with ⟨b'', hrun', hrep, -⟩ | ⟨hthrow, -⟩
  · exact inv_of_yields ⟨b'', hrun', hrep⟩ hrun
  · exact absurd hrun (not_ok_of_throws hthrow)

theorem Reachable.inv (h : Reachable B host b) : b.Inv := by
  induction h with
  | @construct order size b hsize hrun =>
      rcases Nat.lt_or_ge CharVector.maxSize (size + resverIndex) with hlarge | hle
      · -- The constructor would have thrown.
        rw [ByteBuffer.construct, SizeT.add_eq hsize, CharVector.ofSize_eq_error hlarge] at hrun
        cases hrun
      · rcases construct_represents order hle with ⟨b', hb', hrep, -⟩
        cases hrun.symm.trans hb'
        exact hrep.toInv
  | call op _ hpre hrun ih => exact ih.call hpre hrun
  | byteorder order _ ih => exact { ih with }
  | store bytes _ hroom hrun ih =>
      rcases ih.represents.storeAtWtPtr_spec hroom with ⟨b'', hrun', hrep, -⟩
      cases hrun.symm.trans hrun'
      exact hrep.toInv
  | hasWritten _ hroom hrun ih =>
      rcases ih.hasWritten_spec (B := B) hroom with ⟨b'', hrun', hinv⟩
      cases hrun.symm.trans hrun'
      exact hinv
  | resize _ hsize hcovers hrun ih =>
      rcases ih.resize_spec hsize with ⟨b'', hrun', hiff⟩ | ⟨hthrow, -⟩
      · cases hrun.symm.trans hrun'
        exact hiff.mpr hcovers
      · exact absurd hrun (not_ok_of_throws hthrow)
  | appendBuffer _ _ hrun ih ihanother =>
      rcases ih.represents.appendBuffer_spec (B := B) ihanother.represents with hyields | ⟨hthrow, -⟩
      · exact inv_of_yields hyields hrun
      · exact absurd hrun (not_ok_of_throws hthrow)
  | appendSelf _ hrun ih =>
      rcases ih.appendSelf_cases (B := B) with ⟨n, b'', hrun', hinv⟩ | hthrow | ⟨b'', herr⟩
      · cases hrun.symm.trans hrun'
        exact hinv
      · exact absurd hrun (not_ok_of_throws hthrow)
      · cases hrun.symm.trans herr

/-! ## Reachable by evaluation -/

/-- A call that meets its precondition and returns. -/
def callStep (B : Build) (host : ByteOrder) (b : ByteBuffer) (op : Op) : Option ByteBuffer :=
  if op.Pre b then
    match (op.exec B host).run b with
    | .ok _ b' => some b'
    | .error _ _ => none
  else
    none

theorem Reachable.callStep (h : Reachable B host b) {op : Op}
    (hs : callStep B host b op = some b') : Reachable B host b' := by
  rw [ByteBuffer.callStep] at hs
  split at hs
  · next hpre =>
    cases hrun : (op.exec B host).run b with
    | ok out b'' =>
        rw [hrun] at hs
        obtain rfl := Option.some.inj hs
        exact .call op h hpre hrun
    | error e b'' =>
        rw [hrun] at hs
        cases hs
  · cases hs

theorem Reachable.run {ops : List Op} (h : Reachable B host b)
    (hrun : Lib.run (ByteBuffer.callStep B host) b ops = some b') : Reachable B host b' :=
  invariant_run (fun _ _ _ h hs => Reachable.callStep h hs) h hrun

theorem reachable_freshFour (B : Build) (host : ByteOrder) : Reachable B host freshFour :=
  .construct (by decide : 4 + resverIndex < SizeT.modulus) rfl

end ByteBuffer

end Net
end Muradin
