import Muradin.Net.ByteBuffer.Consume
import Muradin.Net.ByteBuffer.Reachable

/-!
# Storage — how large the container becomes

`make_space` grows the container behind the write index, without moving the readable bytes down
first.  It does so only if the bytes that could be discarded are fewer than the request, so what is
in front of the readable bytes never adds more than one request to the size.

`storage_bounded`: with requests of at most `K` bytes and at most `R` readable bytes, the container
never becomes larger than `2 * K + R + 8`, however many bytes pass through.
-/

namespace Muradin
namespace Net

open Lib Cpp

namespace ByteBuffer

variable {B : Build} {host : ByteOrder} {b b' : ByteBuffer} {n : Nat}

/-! ## One request -/

/-- The container is at least as large as before, and larger only up to twice the request behind the
readable bytes. -/
def Stretches (n : Nat) (b b' : ByteBuffer) : Prop :=
  b.storage ≤ b'.storage ∧ b'.storage ≤ max b.storage (2 * n + b.content.length + resverIndex)

theorem Stretches.of_eq (h : b'.storage = b.storage) : Stretches n b b' :=
  ⟨Nat.le_of_eq h.symm, Nat.le_trans (Nat.le_of_eq h) (Nat.le_max_left _ _)⟩

theorem Inv.makeSpace_stretches (h : b.Inv) (hwrap : n + b.wtIndex < SizeT.modulus) :
    Stretches n b (stateOf ((makeSpace B n).run b)) := by
  have hlen := length_content h
  have hresver : resverIndex ≤ b.rdIndex := h.resver_le_rd
  have hrd := h.rd_le_wt
  have hwt := h.wt_le_storage
  by_cases hn : n ≤ b.freeBytes
  · -- The bytes are moved inside the container.
    rcases h.run_makeSpace_move (B := B) hn with ⟨v, hrun, helems, -⟩
    rw [hrun]
    exact Stretches.of_eq (CharVector.size_of_stored h.content_fits helems)
  · have hn : b.freeBytes < n := Nat.lt_of_not_le hn
    rcases Nat.lt_or_ge CharVector.maxSize (n + b.wtIndex) with hlarge | hmax
    · rw [h.run_makeSpace_throw hn hlarge hwrap]
      exact Stretches.of_eq rfl
    · -- What could be discarded is smaller than the request.
      rcases h.run_makeSpace_grow (B := B) hn hmax with ⟨v, hrun, helems, -⟩
      have hgap : b.rdIndex - resverIndex + (b.storage - b.wtIndex) < n := hn
      have hsize : v.size = n + b.wtIndex := by
        have hstorage : b.contianer.elems.length = b.storage := rfl
        rw [CharVector.size, helems, List.length_append, List.length_replicate]
        omega
      rw [hrun]
      refine ⟨?_, Nat.le_trans ?_ (Nat.le_max_right _ _)⟩
      · show b.storage ≤ v.size
        omega
      · show v.size ≤ 2 * n + b.content.length + resverIndex
        omega

/-! ## What keeps the size -/

theorem keeps_storage_storeAtWtPtr (bytes : List Byte) : Keeps storage (storeAtWtPtr bytes) := by
  intro b
  by_cases hnil : bytes = []
  · subst hnil
    rfl
  rcases Nat.lt_or_ge b.contianer.size (b.wtIndex + bytes.length) with hlt | hle
  · rw [storeAtWtPtr, run_bind_ok (EStateM.run_get b), CharVector.store_eq_error hnil hlt,
      run_bind_error (run_orThrow_error _ _)]
    rfl
  · rcases CharVector.store_eq_ok hle with ⟨v, hv, helems, -⟩
    rw [storeAtWtPtr, run_bind_ok (EStateM.run_get b), hv, run_bind_ok (run_orThrow_ok _ _),
      EStateM.run_set]
    exact CharVector.size_of_stored hle helems

theorem keeps_storage_hasWritten (bytes : Nat) : Keeps storage (hasWritten B bytes) := by
  intro b
  rw [hasWritten, run_bind_ok (EStateM.run_get b)]
  by_cases hassert : SizeT.add b.wtIndex bytes ≤ b.storage
  · rw [run_bind_ok (run_cassert_of hassert b), run_bind_ok (EStateM.run_set _ _)]
    exact keeps_readableBytes storage { b with wtIndex := SizeT.add b.wtIndex bytes }
  · cases B with
    | debug =>
        rw [run_bind_error (run_cassert_debug hassert b)]
        rfl
    | release =>
        rw [run_bind_ok (run_cassert_release b), run_bind_ok (EStateM.run_set _ _)]
        exact keeps_readableBytes storage { b with wtIndex := SizeT.add b.wtIndex bytes }

/-- The indices are not part of the container. -/
theorem storage_setIndices (b : ByteBuffer) (rd wt : Nat) :
    storage { b with rdIndex := rd, wtIndex := wt } = b.storage := rfl

theorem keeps_storage_discardAll : Keeps storage discardAll :=
  Keeps.modify fun b => storage_setIndices b _ _

theorem keeps_storage_discard (bytes : Nat) : Keeps storage (discard B bytes) := by
  refine (keeps_readableBytes storage).bind fun readable => ?_
  refine (Keeps.cassert storage B _).bind fun _ => Keeps.ite ?_ ?_
  · exact keeps_storage_discardAll.bind fun _ => keeps_readableBytes storage
  · exact (Keeps.modify fun b => storage_setIndices b _ b.wtIndex).bind fun _ =>
      keeps_readableBytes storage

theorem keeps_storage_rollbackWrite (bytes : Nat) : Keeps storage (rollbackWrite B bytes) := by
  refine (keeps_readableBytes storage).bind fun readable => ?_
  refine (Keeps.cassert storage B _).bind fun _ => Keeps.ite ?_ ?_
  · exact keeps_storage_discardAll.bind fun _ => keeps_readableBytes storage
  · exact (Keeps.modify fun b => storage_setIndices b b.rdIndex _).bind fun _ =>
      keeps_readableBytes storage

theorem keeps_storage_retrieveUint {w : Nat} (n : Nat)
    (byteorderValue : ByteOrder → BitVec w → BitVec w) (cov : Bool) :
    Keeps storage (retrieveUint B n (readUint B host n byteorderValue cov)) :=
  (keeps_readUint storage byteorderValue cov).bind fun _ =>
    (keeps_storage_discard n).bind fun _ => Keeps.pure storage _

theorem keeps_storage_retrieveString : Keeps storage (retrieveString B) := by
  have hfind : Keeps storage (findChar 0) :=
    (Keeps.get storage).bind fun b => (Keeps.orThrow storage _).bind fun _ => Keeps.pure storage _
  refine hfind.bind fun pos => Keeps.ite ?_ (Keeps.pure storage _)
  refine (Keeps.get storage).bind fun b => (Keeps.orThrow storage _).bind fun ret => ?_
  exact (keeps_storage_discard pos).bind fun _ => Keeps.pure storage _

/-! ## One call -/

theorem Stretches.of_storage {b'' : ByteBuffer} (h : Stretches n b b')
    (heq : b''.storage = b'.storage) : Stretches n b b'' := by
  rwa [Stretches, heq]

/-- Behind a request only the indices and the elements change. -/
theorem stretches_bind {α : Type} {m : Method ByteBuffer Unit} {k : Unit → Method ByteBuffer α}
    (h : Stretches n b (stateOf (m.run b))) (hk : ∀ u, Keeps storage (k u)) :
    Stretches n b (stateOf ((m >>= k).run b)) := by
  rw [EStateM.run_bind]
  cases hrun : m.run b with
  | ok u t =>
      rw [hrun] at h
      exact h.of_storage (hk u t)
  | error e t =>
      rw [hrun] at h
      exact h

theorem stateOf_run_map {α β : Type} (f : α → β) (m : Method ByteBuffer α) (b : ByteBuffer) :
    stateOf ((f <$> m).run b) = stateOf (m.run b) := by
  rw [run_map]
  cases m.run b <;> rfl

theorem Inv.append_stretches (h : b.Inv) {data : List Byte}
    (hwrap : data.length + b.wtIndex < SizeT.modulus) :
    Stretches data.length b (stateOf ((append B data).run b)) := by
  refine stretches_bind (h.makeSpace_stretches hwrap) fun _ => ?_
  refine (keeps_storage_storeAtWtPtr data).bind fun _ => ?_
  exact (keeps_storage_hasWritten _).bind fun _ => keeps_readableBytes storage

/-- The bytes that a call requests of `make_space`. -/
def Op.request : Op → Nat
  | append data => data.1.length
  | appendStr szStr => (szStr.1.takeWhile (· ≠ 0)).length
  | appendUint8 _ => 1
  | appendUint16 _ _ => 2
  | appendUint32 _ _ => 4
  | appendUint64 _ _ => 8
  | ensureWriteSpace bytes => bytes
  | fill room _ => room
  | _ => 0

/-- The calls that allocate no second container. -/
def Op.InPlace : Op → Prop
  | shrink _ => False
  | _ => True

theorem Op.exec_stretches (op : Op) (h : b.Inv) (hpre : op.Pre b) (hplace : op.InPlace) :
    Stretches op.request b (stateOf ((op.exec B host).run b)) := by
  have happend : ∀ data : List Byte, data.length ≤ CharVector.maxSize →
      Stretches data.length b (stateOf ((ByteBuffer.append B data).run b)) :=
    fun data hmax => h.append_stretches (add_wtIndex_lt_modulus h hmax)
  have hword : ∀ {w : Nat} (n : Nat) (htobe htole : ByteOrder → BitVec w → BitVec w)
      (val : BitVec w) (cov : Bool), n ≤ 8 →
        Stretches n b (stateOf ((appendUint B host n htobe htole val cov).run b)) := by
    intro w n htobe htole val cov hn
    rw [Op.run_appendUint h.represents]
    have hlen := Op.length_encodeUint host n htobe htole val cov b.toFifo.byteorder
    have hmax : n ≤ CharVector.maxSize := Nat.le_trans hn (by decide)
    have hstretch := happend _ (hlen ▸ hmax)
    rwa [hlen] at hstretch
  cases op with
  | append data =>
      rw [exec, stateOf_run_map]
      exact happend data.1 data.2
  | appendStr szStr =>
      rw [exec, stateOf_run_map]
      exact happend _ (Nat.le_trans (List.takeWhile_prefix _).length_le szStr.2)
  | appendUint8 val =>
      rw [exec, stateOf_run_map]
      have hlen := length_memoryImage host 1 val
      have hmax : (memoryImage host 1 val).length ≤ CharVector.maxSize := by
        rw [hlen]
        decide
      have hstretch := happend _ hmax
      rwa [hlen] at hstretch
  | appendUint16 val cov =>
      rw [exec, stateOf_run_map]
      exact hword 2 _ _ val cov (by decide)
  | appendUint32 val cov =>
      rw [exec, stateOf_run_map]
      exact hword 4 _ _ val cov (by decide)
  | appendUint64 val cov =>
      rw [exec, stateOf_run_map]
      exact hword 8 _ _ val cov (by decide)
  | ensureWriteSpace bytes =>
      rw [exec, stateOf_run_map]
      exact h.makeSpace_stretches hpre
  | fill room bytes =>
      rw [exec, stateOf_run_map]
      refine stretches_bind (h.makeSpace_stretches hpre.2) fun _ => ?_
      exact (keeps_storage_storeAtWtPtr bytes).bind fun _ => keeps_storage_hasWritten _
  | discard bytes => exact Stretches.of_eq ((keeps_storage_discard bytes).map b)
  | rollbackWrite bytes => exact Stretches.of_eq ((keeps_storage_rollbackWrite bytes).map b)
  | discardAll => exact Stretches.of_eq (keeps_storage_discardAll.map b)
  | shrink resverBytes => exact hplace.elim
  | retrieveUint8 => exact Stretches.of_eq ((keeps_storage_retrieveUint 1 _ _).map b)
  | retrieveUint16 cov => exact Stretches.of_eq ((keeps_storage_retrieveUint 2 _ cov).map b)
  | retrieveUint32 cov => exact Stretches.of_eq ((keeps_storage_retrieveUint 4 _ cov).map b)
  | retrieveUint64 cov => exact Stretches.of_eq ((keeps_storage_retrieveUint 8 _ cov).map b)
  | retrieveString => exact Stretches.of_eq (keeps_storage_retrieveString.map b)

/-! ## Runs -/

inductive StorageOp
  | call (op : Op)
  | hasWritten (bytes : Nat)
  | appendSelf

namespace StorageOp

def exec (B : Build) (host : ByteOrder) : StorageOp → Method ByteBuffer Out
  | call op => op.exec B host
  | hasWritten bytes => Out.size <$> ByteBuffer.hasWritten B bytes
  | appendSelf => Out.size <$> ByteBuffer.appendSelf B

/-- The asserted preconditions, and that no size computation reaches `2 ^ 64`. -/
def Pre (b : ByteBuffer) : StorageOp → Prop
  | call op => op.Pre b ∧ op.InPlace
  | hasWritten bytes => b.wtIndex + bytes ≤ b.storage
  | appendSelf => True

def request (b : ByteBuffer) : StorageOp → Nat
  | call op => op.request
  | hasWritten _ => 0
  | appendSelf => b.content.length

end StorageOp

/-- One call; a thrown `std::length_error` is caught by the caller. -/
def storageStep (B : Build) (host : ByteOrder) (b : ByteBuffer) (op : StorageOp) :
    Option ByteBuffer :=
  match (op.exec B host).run b with
  | .ok _ b' => some b'
  | .error .lengthError b' => some b'
  | .error _ _ => none

theorem storageStep_stateOf {op : StorageOp} (hs : storageStep B host b op = some b') :
    b' = stateOf ((op.exec B host).run b) := by
  rw [storageStep] at hs
  split at hs
  · next hrun => rw [hrun, ← Option.some.inj hs, stateOf_ok]
  · next hrun => rw [hrun, ← Option.some.inj hs, stateOf_error]
  · cases hs

theorem Inv.appendSelf_stretches (h : b.Inv) :
    Stretches b.content.length b (stateOf ((ByteBuffer.appendSelf B).run b)) := by
  have hlen := length_content h
  have hwt := h.wt_le_storage
  have hsize : b.storage ≤ CharVector.maxSize := b.contianer.size_le_maxSize
  have hwrap := add_wtIndex_lt_modulus h (by omega : b.content.length ≤ CharVector.maxSize)
  rw [ByteBuffer.appendSelf, run_bind_ok (EStateM.run_get b), run_bind_ok h.run_readableBytes]
  refine stretches_bind (h.makeSpace_stretches hwrap) fun _ => ?_
  refine (Keeps.get storage).bind fun b₁ => (Keeps.orThrow storage _).bind fun data => ?_
  refine (keeps_storage_storeAtWtPtr data).bind fun _ => ?_
  exact (keeps_storage_hasWritten _).bind fun _ => keeps_readableBytes storage

/-- The step lemma: a call keeps the layout, and stretches the container for its request. -/
theorem Inv.storageStep (h : b.Inv) {op : StorageOp} (hpre : op.Pre b)
    (hs : storageStep B host b op = some b') : b'.Inv ∧ Stretches (op.request b) b b' := by
  have hstate := storageStep_stateOf hs
  cases op with
  | call op =>
      refine ⟨?_, hstate ▸ op.exec_stretches h hpre.1 hpre.2⟩
      rcases op.meets_of_pre (B := B) h.represents hpre.1 with ⟨b'', hrun, hrep, -⟩ | ⟨hthrow, -⟩
      · have hrun : ((StorageOp.call op).exec B host).run b = .ok _ b'' := hrun
        rw [hstate, hrun]
        exact hrep.toInv
      · have hthrow : ((StorageOp.call op).exec B host).run b = .error .lengthError b := hthrow
        rw [hstate, hthrow]
        exact h
  | hasWritten bytes =>
      rcases h.hasWritten_spec (B := B) hpre with ⟨b'', hrun, hinv⟩
      rw [hstate]
      refine ⟨?_, Stretches.of_eq ((keeps_storage_hasWritten bytes).map b)⟩
      rw [StorageOp.exec, stateOf_run_map, hrun]
      exact hinv
  | appendSelf =>
      have hstretch : Stretches b.content.length b b' := by
        rw [hstate, StorageOp.exec, stateOf_run_map]
        exact h.appendSelf_stretches
      refine ⟨?_, hstretch⟩
      rcases h.appendSelf_cases (B := B) with ⟨n, b'', hrun, hinv⟩ | hthrow | ⟨b'', herr⟩
      · rw [hstate, StorageOp.exec, stateOf_run_map, hrun]
        exact hinv
      · have hthrow : (ByteBuffer.appendSelf B).run b = .error .lengthError b := hthrow
        rw [hstate, StorageOp.exec, stateOf_run_map, hthrow]
        exact h
      · -- A read of freed memory is not a step.
        have hrun : (StorageOp.appendSelf.exec B host).run b = .error .overrun b'' :=
          run_map_error herr
        rw [ByteBuffer.storageStep, hrun] at hs
        cases hs

/-- The step is asked for at most `K` bytes, on at most `R` readable ones. -/
def Demands (K R : Nat) (b : ByteBuffer) (op : StorageOp) : Prop :=
  op.Pre b ∧ op.request b ≤ K ∧ b.content.length ≤ R

/-- What holds of every buffer of a run from a buffer of storage `S`. -/
structure Bounded (S K R : Nat) (b : ByteBuffer) : Prop where
  inv : b.Inv
  grown : S ≤ b.storage
  bounded : b.storage ≤ max S (2 * K + R + 8)

theorem Bounded.step {S K R : Nat} {op : StorageOp} (h : Bounded S K R b) (hop : Demands K R b op)
    (hs : storageStep B host b op = some b') : Bounded S K R b' := by
  rcases hop with ⟨hpre, hK, hR⟩
  rcases h.inv.storageStep hpre hs with ⟨hinv, hgrown, hstretch⟩
  refine { inv := hinv, grown := Nat.le_trans h.grown hgrown, bounded := ?_ }
  have hdemand : 2 * op.request b + b.content.length + resverIndex ≤ 2 * K + R + 8 := by
    show 2 * op.request b + b.content.length + 8 ≤ 2 * K + R + 8
    omega
  calc b'.storage
      ≤ max b.storage (2 * op.request b + b.content.length + resverIndex) := hstretch
    _ ≤ max S (2 * K + R + 8) :=
        Nat.max_le.mpr ⟨h.bounded, Nat.le_trans hdemand (Nat.le_max_right _ _)⟩

/-- The storage of a buffer is bounded by what is demanded of it, at every point of every run, and it
never decreases: `t` is the buffer at any point of the run, and `b'` the one at its end. -/
theorem storage_bounded {K R : Nat} {ops : List StorageOp} (h : Reachable B host b)
    (hops : Along (storageStep B host) (Demands K R) b ops)
    (hrun : run (storageStep B host) b ops = some b') :
    ∀ bs t, bs <+: ops → run (storageStep B host) b bs = some t →
      b.storage ≤ t.storage ∧ t.storage ≤ max b.storage (2 * K + R + 8) ∧
        t.storage ≤ b'.storage := by
  rintro bs t ⟨cs, rfl⟩ ht
  rcases run_append_eq_some.mp hrun with ⟨t', ht', hrest⟩
  obtain rfl : t = t' := Option.some.inj (ht.symm.trans ht')
  have hstart : Bounded b.storage K R b :=
    { inv := h.inv, grown := Nat.le_refl _, bounded := Nat.le_max_left _ _ }
  have hbounded : Bounded b.storage K R t :=
    invariant_along (fun _ _ _ h hop hs => h.step hop hs) hstart hops.append.1 ht
  -- The rest of the run is a run from `t`.
  have hagain : Bounded t.storage K R t :=
    { inv := hbounded.inv, grown := Nat.le_refl _, bounded := Nat.le_max_left _ _ }
  have hend : Bounded t.storage K R b' :=
    invariant_along (fun _ _ _ h hop hs => h.step hop hs) hagain (hops.append.2 t ht) hrest
  exact ⟨hbounded.grown, hbounded.bounded, hend.grown⟩

instance : (op : Op) → Decidable op.InPlace
  | .shrink _ => .isFalse id
  | .append _ | .appendStr _ | .appendUint8 _ | .appendUint16 _ _ | .appendUint32 _ _
  | .appendUint64 _ _ | .ensureWriteSpace _ | .fill _ _ | .discard _ | .rollbackWrite _ | .discardAll
  | .retrieveUint8 | .retrieveUint16 _ | .retrieveUint32 _ | .retrieveUint64 _ | .retrieveString =>
      .isTrue trivial

instance (b : ByteBuffer) : (op : StorageOp) → Decidable (op.Pre b)
  | .call op => inferInstanceAs (Decidable (op.Pre b ∧ op.InPlace))
  | .hasWritten _ => Nat.decLe _ _
  | .appendSelf => .isTrue trivial

instance (K R : Nat) (b : ByteBuffer) (op : StorageOp) : Decidable (Demands K R b op) :=
  inferInstanceAs (Decidable (op.Pre b ∧ op.request b ≤ K ∧ b.content.length ≤ R))

/-- Nine bytes pass through a buffer for four, at most five at a time. -/
def nineThroughFour : List StorageOp :=
  [.call (.append ⟨[1, 2, 3, 4, 5], by decide⟩), .call (.discard 4),
    .call (.append ⟨[6, 7, 8, 9], by decide⟩), .call (.retrieveUint32 true)]

theorem storage_bounded_nineThroughFour :
    ∃ b, run (storageStep .debug .liteEndian) freshFour nineThroughFour = some b ∧
      b.storage = 13 ∧ freshFour.storage ≤ b.storage ∧
      b.storage ≤ max freshFour.storage (2 * 5 + 5 + 8) := by
  have hany : (run (storageStep .debug .liteEndian) freshFour nineThroughFour).any
      (fun b => decide (b.storage = 13)) = true := by
    decide +kernel
  have hops : Along (storageStep .debug .liteEndian) (Demands 5 5) freshFour nineThroughFour := by
    decide +kernel
  rcases exists_run_of_any hany with ⟨b, hrun, hstorage⟩
  rcases storage_bounded (reachable_freshFour .debug .liteEndian) hops hrun nineThroughFour b
    (List.prefix_refl _) hrun with ⟨hgrown, hbounded, -⟩
  exact ⟨b, hrun, hstorage, hgrown, hbounded⟩

end ByteBuffer

end Net
end Muradin
