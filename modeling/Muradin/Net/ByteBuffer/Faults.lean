import Muradin.Net.ByteBuffer.Refinement

/-!
# Faults — how a call on a buffer can stop

By a failed assertion, by `std::length_error`, or outside the elements of its container, but never
by a fault of another object: `raises_exec`.
-/

namespace Muradin

open Lib Cpp

/-! ## The container -/

namespace Cpp

/-- The faults that an object's own functions and containers have. -/
def Fault.OfObject : Fault → Prop
  | .assertion | .lengthError | .overrun => True
  | .badFunctionCall | .dangling => False

namespace CharVector

theorem ofSize_error {n : Nat} {e : Fault} (h : ofSize n = .error e) : e.OfObject := by
  unfold ofSize at h
  split at h <;> cases h
  trivial

theorem resize_error {v : CharVector} {n : Nat} {e : Fault} (h : v.resize n = .error e) :
    e.OfObject := by
  unfold resize at h
  split at h
  · cases h
  · split at h <;> cases h
    trivial

theorem store_error {v : CharVector} {pos : Nat} {bs : List Byte} {e : Fault}
    (h : v.store pos bs = .error e) : e.OfObject := by
  unfold store at h
  split at h
  · cases h
  · split at h <;> cases h
    trivial

theorem load_error {v : CharVector} {lo hi : Nat} {e : Fault} (h : v.load lo hi = .error e) :
    e.OfObject := by
  unfold load at h
  split at h <;> cases h
  trivial

theorem loadCString_error {v : CharVector} {pos : Nat} {e : Fault}
    (h : v.loadCString pos = .error e) : e.OfObject := by
  unfold loadCString at h
  split at h <;> cases h
  trivial

end CharVector

end Cpp

/-! ## The member functions -/

namespace Net.ByteBuffer

variable {w : Nat} (B : Build) (host : ByteOrder)

/-- `readable_bytes()` is the difference of the indices, or its assertion fails. -/
theorem readableBytes_cases (b : ByteBuffer) :
    (readableBytes B).run b = .ok (SizeT.sub b.wtIndex b.rdIndex) b ∨
      (readableBytes B).run b = .error .assertion b := by
  rw [readableBytes, run_bind_ok (EStateM.run_get _)]
  by_cases hassert : B = .debug ∧ ¬ b.rdIndex ≤ b.wtIndex
  · right
    rcases hassert with ⟨rfl, hlt⟩
    exact run_bind_error (run_cassert_debug hlt b)
  · left
    rw [cassert, if_neg hassert]
    rfl

theorem raises_readableBytes : Raises Fault.OfObject (readableBytes B) :=
  (Raises.get _).bind fun _ => (Raises.cassert trivial B _).bind fun _ => Raises.pure _ _

theorem raises_writeableBytes : Raises Fault.OfObject (writeableBytes B) :=
  (Raises.get _).bind fun _ => (Raises.cassert trivial B _).bind fun _ => Raises.pure _ _

theorem raises_discardableBytes : Raises Fault.OfObject (discardableBytes B) :=
  (Raises.get _).bind fun _ => (Raises.cassert trivial B _).bind fun _ => Raises.pure _ _

theorem raises_makeSpace (bytes : Nat) : Raises Fault.OfObject (makeSpace B bytes) := by
  refine (raises_discardableBytes B).bind fun _ => (raises_writeableBytes B).bind fun _ => ?_
  refine Raises.ite ?_ ?_
  · refine (Raises.get _).bind fun b => ?_
    exact (Raises.orThrow fun _ => CharVector.resize_error).bind fun _ => Raises.set _ _
  · refine (raises_readableBytes B).bind fun readable => (Raises.get _).bind fun b => ?_
    refine (Raises.orThrow fun _ => CharVector.load_error).bind fun source => ?_
    refine (Raises.orThrow fun _ => CharVector.store_error).bind fun moved => ?_
    refine (Raises.set _ _).bind fun _ => (raises_readableBytes B).bind fun _ => ?_
    exact Raises.cassert trivial B _

theorem raises_shrink (resverBytes : Nat) : Raises Fault.OfObject (shrink B resverBytes) := by
  refine (raises_readableBytes B).bind fun readable => (Raises.get _).bind fun b => ?_
  refine (Raises.orThrow fun _ => CharVector.ofSize_error).bind fun buf => ?_
  refine (Raises.orThrow fun _ => CharVector.load_error).bind fun bytes => ?_
  exact (Raises.orThrow fun _ => CharVector.store_error).bind fun buf => Raises.set _ _

theorem raises_hasWritten (bytes : Nat) : Raises Fault.OfObject (hasWritten B bytes) := by
  refine (Raises.get _).bind fun b => (Raises.cassert trivial B _).bind fun _ => ?_
  exact (Raises.set _ _).bind fun _ => raises_readableBytes B

theorem raises_storeAtWtPtr (bytes : List Byte) : Raises Fault.OfObject (storeAtWtPtr bytes) := by
  refine (Raises.get _).bind fun b => ?_
  exact (Raises.orThrow fun _ => CharVector.store_error).bind fun _ => Raises.set _ _

theorem raises_append (data : List Byte) : Raises Fault.OfObject (append B data) := by
  refine (raises_makeSpace B _).bind fun _ => (raises_storeAtWtPtr data).bind fun _ => ?_
  exact (raises_hasWritten B _).bind fun _ => raises_readableBytes B

theorem raises_fill (room : Nat) (bytes : List Byte) : Raises Fault.OfObject (fill B room bytes) :=
  (raises_makeSpace B room).bind fun _ => (raises_storeAtWtPtr bytes).bind fun _ =>
    raises_hasWritten B _

theorem raises_discard (bytes : Nat) : Raises Fault.OfObject (discard B bytes) := by
  refine (raises_readableBytes B).bind fun readable => (Raises.cassert trivial B _).bind fun _ => ?_
  -- Both ways of discarding only write the indices.
  refine Raises.ite ?_ ?_
  · exact (Raises.modify _ _).bind fun _ => raises_readableBytes B
  · exact (Raises.modify _ _).bind fun _ => raises_readableBytes B

theorem raises_rollbackWrite (bytes : Nat) : Raises Fault.OfObject (rollbackWrite B bytes) := by
  refine (raises_readableBytes B).bind fun readable => (Raises.cassert trivial B _).bind fun _ => ?_
  refine Raises.ite ?_ ?_
  · exact (Raises.modify _ _).bind fun _ => raises_readableBytes B
  · exact (Raises.modify _ _).bind fun _ => raises_readableBytes B

theorem raises_readUint (n : Nat) (byteorderValue : ByteOrder → BitVec w → BitVec w)
    (byteorderCov : Bool) :
    Raises Fault.OfObject (readUint B host n byteorderValue byteorderCov) := by
  refine (raises_readableBytes B).bind fun readable => (Raises.cassert trivial B _).bind fun _ => ?_
  have hread : Raises Fault.OfObject (readInteger host w n) := by
    refine (Raises.get _).bind fun b => ?_
    exact (Raises.orThrow fun _ => CharVector.load_error).bind fun _ => Raises.pure _ _
  exact hread.bind fun val => (Raises.get _).bind fun b => Raises.pure _ _

theorem raises_retrieveUint (n : Nat) {read : Method ByteBuffer (BitVec w)}
    (hread : Raises Fault.OfObject read) : Raises Fault.OfObject (retrieveUint B n read) :=
  hread.bind fun _ => (raises_discard B n).bind fun _ => Raises.pure _ _

theorem raises_appendUint (n : Nat) (htobe htole : ByteOrder → BitVec w → BitVec w)
    (val : BitVec w) (byteorderCov : Bool) :
    Raises Fault.OfObject (appendUint B host n htobe htole val byteorderCov) :=
  (Raises.get _).bind fun _ => raises_append B _

theorem raises_retrieveString : Raises Fault.OfObject (retrieveString B) := by
  have hfind : Raises Fault.OfObject (findChar 0) := by
    refine (Raises.get _).bind fun b => ?_
    exact (Raises.orThrow fun _ => CharVector.load_error).bind fun _ => Raises.pure _ _
  refine hfind.bind fun pos => Raises.ite ?_ (Raises.pure _ _)
  refine (Raises.get _).bind fun b => ?_
  refine (Raises.orThrow fun _ => CharVector.loadCString_error).bind fun ret => ?_
  exact (raises_discard B pos).bind fun _ => Raises.pure _ _

/-- Whatever is called on a buffer, in whatever state it is. -/
theorem raises_exec (op : Op) : Raises Fault.OfObject (op.exec B host) := by
  cases op with
  | append data => exact (raises_append B _).map
  | appendStr szStr => exact (raises_append B _).map
  | appendUint8 val => exact (raises_append B _).map
  | appendUint16 val cov => exact (raises_appendUint B host 2 htobe16 htole16 val cov).map
  | appendUint32 val cov => exact (raises_appendUint B host 4 htobe32 htole32 val cov).map
  | appendUint64 val cov => exact (raises_appendUint B host 8 htobe64 htole64 val cov).map
  | ensureWriteSpace bytes => exact (raises_makeSpace B bytes).map
  | fill room bytes => exact (raises_fill B room bytes).map
  | discard bytes => exact (raises_discard B bytes).map
  | rollbackWrite bytes => exact (raises_rollbackWrite B bytes).map
  | discardAll => exact (Raises.modify _ _).map
  | shrink resverBytes => exact (raises_shrink B resverBytes).map
  | retrieveUint8 => exact (raises_retrieveUint B 1 (raises_readUint B host 1 _ _)).map
  | retrieveUint16 cov => exact (raises_retrieveUint B 2 (raises_readUint B host 2 _ cov)).map
  | retrieveUint32 cov => exact (raises_retrieveUint B 4 (raises_readUint B host 4 _ cov)).map
  | retrieveUint64 cov => exact (raises_retrieveUint B 8 (raises_readUint B host 8 _ cov)).map
  | retrieveString => exact (raises_retrieveString B).map

end Net.ByteBuffer
end Muradin
