import Muradin.Net.ByteBuffer.Reachable

/-!
# Sizes — sums of a size and an index

`make_space`, `has_written`, `shrink` and the constructor add the size that they are called with to
an index before they compare or allocate.  The sum is a `size_t`.  Below `2 ^ 64` the container is as
large as asked for, or the call throws; from there on the wrapped sum is a small size, and the call
goes on with it.

The differences of the indices rely on the documented layout, which a `resize` below the write index
breaks: `writeable_bytes()` wraps behind it.
-/

namespace Muradin
namespace Net

open Lib Cpp

namespace ByteBuffer

variable {B : Build} {host : ByteOrder} {b : ByteBuffer} {n : Nat}

/-! ## What a size promises -/

/-- `ensure_write_space(n)` asks for more than `max_size()`, throws and leaves the buffer as it was, or
`writeable_bytes()` is at least `n` behind it, counts elements of the container, and the readable
bytes are the same.  Behind a container that was cut below the write index it counts none: it is a
difference that has wrapped. -/
def EnsuresSpace (B : Build) (n : Nat) (b : ByteBuffer) : Prop :=
  Throws (ensureWriteSpace B n) b ∧ CharVector.maxSize < n + b.wtIndex ∨
    ∃ b' m, (ensureWriteSpace B n).run b = .ok () b' ∧ (writeableBytes B).run b' = .ok m b' ∧
      n ≤ m ∧ b'.wtIndex + m ≤ b'.storage ∧ b'.content = b.content

/-- The constructor asks for more than `max_size()` and throws, or the container has the reserved
bytes and `n` more. -/
def Constructs (n : Nat) : Prop :=
  ∀ order,
    construct order n = .error .lengthError ∧ CharVector.maxSize < resverIndex + n ∨
      ∃ b, construct order n = .ok b ∧ b.storage = resverIndex + n

/-- `shrink(n)` asks for more than `max_size()`, throws and leaves the buffer as it was, or the
container has exactly the reserved bytes, the readable ones and `n` more. -/
def Shrinks (B : Build) (n : Nat) (b : ByteBuffer) : Prop :=
  Throws (shrink B n) b ∧ CharVector.maxSize < resverIndex + b.content.length + n ∨
    ∃ b', (shrink B n).run b = .ok () b' ∧ b'.storage = resverIndex + b.content.length + n

/-- The condition that `has_written(n)` asserts. -/
def AssertsWritten (n : Nat) (b : ByteBuffer) : Prop :=
  SizeT.add b.wtIndex n ≤ b.storage

instance (n : Nat) (b : ByteBuffer) : Decidable (AssertsWritten n b) :=
  inferInstanceAs (Decidable (_ ≤ _))

/-- `has_written(n)` passes its assertion only if `n` is at most `writeable_bytes()`. -/
def CommitsWriteable (B : Build) (n : Nat) (b : ByteBuffer) : Prop :=
  AssertsWritten n b → ∃ m, (writeableBytes B).run b = .ok m b ∧ n ≤ m

/-! ## Sums that wrap -/

/-- A sum that has wrapped is smaller than either of its parts. -/
theorem add_wrapped {a n : Nat} (ha : a < SizeT.modulus) (hn : n < SizeT.modulus)
    (hwrap : SizeT.modulus ≤ a + n) : SizeT.add a n + SizeT.modulus = a + n := by
  rw [SizeT.add, Nat.mod_eq_sub_mod hwrap, Nat.mod_eq_of_lt (by omega)]
  omega

/-- The container is cut below the write index. -/
theorem Inv.run_makeSpace_wrapped (h : b.Inv) (hn : n < SizeT.modulus)
    (hwrap : SizeT.modulus ≤ n + b.wtIndex) :
    ∃ v, (makeSpace B n).run b = .ok () { b with contianer := v } ∧ v.size < b.wtIndex := by
  have hsum : SizeT.add n b.wtIndex + SizeT.modulus = n + b.wtIndex :=
    add_wrapped hn h.wt_lt_modulus hwrap
  have hwt : b.wtIndex ≤ b.contianer.size := h.wt_le_storage
  have hrd := h.rd_le_wt
  have hsize := b.contianer.size_le_maxSize
  have hmax : CharVector.maxSize + CharVector.maxSize < SizeT.modulus := by decide
  have hfree : b.freeBytes < n := by
    unfold freeBytes storage
    omega
  have hlt : SizeT.add (b.rdIndex - resverIndex) (b.storage - b.wtIndex) < n := by
    rw [SizeT.add_eq h.freeBytes_lt]
    exact hfree
  rcases CharVector.resize_eq_ok (v := b.contianer) (by omega : SizeT.add n b.wtIndex ≤ CharVector.maxSize)
    with ⟨v, hv, hvsize⟩
  refine ⟨v, ?_, by omega⟩
  rw [makeSpace, run_bind_ok h.run_discardableBytes, run_bind_ok h.run_writeableBytes, if_pos hlt,
    run_bind_ok (EStateM.run_get b), hv, run_bind_ok (run_orThrow_ok _ _), EStateM.run_set]

/-! ## The exact conditions -/

theorem Inv.ensuresSpace_iff (h : b.Inv) (hn : n < SizeT.modulus) :
    EnsuresSpace B n b ↔ n + b.wtIndex < SizeT.modulus := by
  constructor
  · intro hensures
    by_contra hwrap
    have hwrap : SizeT.modulus ≤ n + b.wtIndex := Nat.le_of_not_lt hwrap
    rcases h.run_makeSpace_wrapped (B := B) hn hwrap with ⟨v, hrun, hcut⟩
    have hrun : (ensureWriteSpace B n).run b = .ok () { b with contianer := v } := hrun
    rcases hensures with ⟨hthrow, -⟩ | ⟨b', m, hrun', -, -, hinside, -⟩
    · exact not_ok_of_throws hthrow hrun
    · -- There is nothing behind the write index any more.
      cases hrun.symm.trans hrun'
      have hinside : b.wtIndex + m ≤ v.size := hinside
      omega
  · intro hwrap
    rcases h.represents.makeSpace_spec (B := B) hwrap with ⟨b', hrun, hrep, hroom⟩ | hthrow
    · right
      have hwt := hrep.wt_le_storage
      exact ⟨b', _, hrun, hrep.toInv.run_writeableBytes, by omega, by omega, hrep.content_eq⟩
    · exact Or.inl hthrow

theorem constructs_iff (hn : n < SizeT.modulus) :
    Constructs n ↔ resverIndex + n < SizeT.modulus := by
  have hresver : resverIndex < SizeT.modulus := by decide
  constructor
  · intro hconstructs
    by_contra hwrap
    have hsum := add_wrapped hn hresver (by omega)
    have hmax : resverIndex ≤ CharVector.maxSize := by decide
    rcases CharVector.ofSize_eq_ok (by omega : SizeT.add n resverIndex ≤ CharVector.maxSize) with
      ⟨v, hv, helems, -⟩
    have hsize : v.size = SizeT.add n resverIndex := by simp [CharVector.size, helems]
    have hrun : construct .liteEndian n = .ok
        { byteorder := .liteEndian, contianer := v, rdIndex := resverIndex, wtIndex := resverIndex } := by
      rw [construct, hv]
      rfl
    rcases hconstructs .liteEndian with ⟨herr, -⟩ | ⟨b, hb, hstorage⟩
    · cases hrun.symm.trans herr
    · cases hrun.symm.trans hb
      have hstorage : v.size = resverIndex + n := hstorage
      omega
  · intro hwrap order
    rcases Nat.lt_or_ge CharVector.maxSize (n + 8) with hlarge | hle
    · left
      have hsum : SizeT.add n resverIndex = n + 8 := SizeT.add_eq (by rwa [Nat.add_comm])
      refine ⟨?_, Nat.add_comm n 8 ▸ hlarge⟩
      rw [construct, hsum, CharVector.ofSize_eq_error hlarge]
      rfl
    · right
      rcases construct_represents order hle with ⟨b, hb, -, hstorage⟩
      exact ⟨b, hb, by rw [hstorage, Nat.add_comm]; rfl⟩

theorem Inv.shrinks_iff (h : b.Inv) (hn : n < SizeT.modulus) :
    Shrinks B n b ↔ resverIndex + b.content.length + n < SizeT.modulus := by
  have hlen := length_content h
  have hresver : resverIndex ≤ b.rdIndex := h.resver_le_rd
  have hrd := h.rd_le_wt
  have hwt : b.wtIndex ≤ b.contianer.size := h.wt_le_storage
  have hlt : resverIndex + b.content.length < SizeT.modulus := by
    have := h.wt_lt_modulus
    omega
  constructor
  · intro hshrinks
    by_contra hwrap
    have hadd : SizeT.add resverIndex b.content.length = resverIndex + b.content.length :=
      SizeT.add_eq hlt
    have hsum := add_wrapped hlt hn (Nat.le_of_not_lt hwrap)
    have hmax := b.contianer.size_le_maxSize
    rcases CharVector.ofSize_eq_ok
      (by omega : SizeT.add (resverIndex + b.content.length) n ≤ CharVector.maxSize) with
      ⟨buf, hbuf, helems, -⟩
    have hsize : buf.size = SizeT.add (resverIndex + b.content.length) n := by
      simp [CharVector.size, helems]
    have hend : b.rdIndex + b.content.length = b.wtIndex := by omega
    have hload : b.contianer.load b.rdIndex (b.rdIndex + b.content.length) = .ok b.content := by
      rw [hend, CharVector.load_eq_ok hrd hwt]
      rfl
    have hcopy : (shrink B n).run b =
        (do
          let buf ← orThrow (buf.store resverIndex b.content)
          set { b with
            contianer := buf, rdIndex := resverIndex,
            wtIndex := SizeT.add resverIndex b.content.length } : Method ByteBuffer Unit).run b := by
      rw [shrink, run_bind_ok h.run_readableBytes, run_bind_ok (EStateM.run_get b), hadd, hbuf,
        run_bind_ok (run_orThrow_ok _ _), hload, run_bind_ok (run_orThrow_ok _ _)]
    by_cases hnil : b.content = []
    · -- Nothing is copied: the new container has the wrapped size.
      have hrun : ∃ b', (shrink B n).run b = .ok () b' ∧ b'.storage = buf.size := by
        rw [hcopy, hnil, CharVector.store_nil, run_bind_ok (run_orThrow_ok _ _)]
        exact ⟨_, rfl, rfl⟩
      rcases hrun with ⟨b'', hrun, hwrapped⟩
      rcases hshrinks with ⟨hthrow, -⟩ | ⟨b', hrun', hstorage⟩
      · exact not_ok_of_throws hthrow hrun
      · cases hrun.symm.trans hrun'
        omega
    · -- The new container is too small for the readable bytes.
      have hrun : (shrink B n).run b = .error .overrun b := by
        rw [hcopy, CharVector.store_eq_error hnil (by omega), run_bind_error (run_orThrow_error _ _)]
      rcases hshrinks with ⟨hthrow, -⟩ | ⟨b', hrun', -⟩
      · cases hrun.symm.trans hthrow
      · cases hrun.symm.trans hrun'
  · intro hwrap
    rcases h.represents.shrink_spec (B := B) hwrap with ⟨b', hrun, -, hstorage, -⟩ | hthrow
    · exact Or.inr ⟨b', hrun, hstorage⟩
    · exact Or.inl hthrow

theorem Inv.commitsWriteable_iff (h : b.Inv) (hn : n < SizeT.modulus) :
    CommitsWriteable B n b ↔ n + b.wtIndex < SizeT.modulus := by
  have hlt := h.wt_lt_modulus
  have hwt := h.wt_le_storage
  have hwriteable := h.run_writeableBytes (B := B)
  constructor
  · intro hcommits
    by_contra hwrap
    have hsum := add_wrapped hlt hn (by omega)
    have hpasses : AssertsWritten n b := by
      show SizeT.add b.wtIndex n ≤ b.storage
      omega
    rcases hcommits hpasses with ⟨m, hm, hle⟩
    cases hwriteable.symm.trans hm
    have hsize := b.contianer.size_le_maxSize
    have hmax : CharVector.maxSize < SizeT.modulus := by decide
    unfold storage at hle
    omega
  · intro hwrap hpasses
    rw [AssertsWritten, SizeT.add_eq (by omega)] at hpasses
    exact ⟨_, hwriteable, by omega⟩

/-- The sizes of every buffer in the documented layout, with the exact condition for each of the four
functions: the sum that it computes stays below `2 ^ 64`.  A buffer is in the layout as long as no sum
of a call has wrapped and no `resize` was below the write index. -/
theorem sizes_iff_no_wrap (B : Build) (host : ByteOrder) (hn : n < SizeT.modulus) :
    (∀ b, Reachable B host b → b.Inv) ∧
      (Constructs n ↔ resverIndex + n < SizeT.modulus) ∧
      ∀ b : ByteBuffer, b.Inv →
        (EnsuresSpace B n b ↔ n + b.wtIndex < SizeT.modulus) ∧
          (Shrinks B n b ↔ resverIndex + b.content.length + n < SizeT.modulus) ∧
          (CommitsWriteable B n b ↔ n + b.wtIndex < SizeT.modulus) :=
  ⟨fun _ h => h.inv, constructs_iff hn, fun _ h =>
    ⟨h.ensuresSpace_iff hn, h.shrinks_iff hn, h.commitsWriteable_iff hn⟩⟩

theorem sizes_iff_no_wrap_freshFour :
    EnsuresSpace .debug 100 freshFour ∧ ¬ EnsuresSpace .debug (2 ^ 64 - 1) freshFour ∧
      Shrinks .release 100 freshFour ∧ ¬ CommitsWriteable .debug (2 ^ 64 - 1) freshFour ∧
      (∃ b', (shrink .release 100).run freshFour = .ok () b' ∧ b'.storage = 108) := by
  have hsmall : 100 < SizeT.modulus := by decide
  have hminusOne : 2 ^ 64 - 1 < SizeT.modulus := by decide
  have hreachable := reachable_freshFour .debug .liteEndian
  have h100 := sizes_iff_no_wrap .debug .liteEndian hsmall
  have h100r := sizes_iff_no_wrap .release .liteEndian hsmall
  have hm1 := sizes_iff_no_wrap .debug .liteEndian hminusOne
  have hinv := h100.1 freshFour hreachable
  have hshrinks := (h100r.2.2 freshFour hinv).2.1.mpr (by decide)
  refine ⟨(h100.2.2 freshFour hinv).1.mpr (by decide), ?_, hshrinks, ?_, ?_⟩
  · intro hensures
    exact absurd ((hm1.2.2 freshFour hinv).1.mp hensures) (by decide)
  · intro hcommits
    exact absurd ((hm1.2.2 freshFour hinv).2.2.mp hcommits) (by decide)
  · rcases hshrinks with ⟨-, hlarge⟩ | hshrunk
    · exact absurd hlarge (by decide)
    · exact hshrunk

/-- A new buffer for four bytes, all of them written. -/
def fourWritten : ByteBuffer :=
  { freshFour with wtIndex := 12 }

/-- The same buffer behind `resize(0)`. -/
def cutToNothing : ByteBuffer :=
  { fourWritten with
    contianer :=
      { freshFour.contianer with
        elems := List.replicate 8 0
        length_le_capacity := by decide } }

/-- With a size of `-1` none of the four does what it promises: a new buffer is constructed on a
container of seven bytes, fewer than the reserved ones, `ensure_write_space` cuts an old one down to
as many, and `has_written` passes its assertion.  Behind a `resize` below the write index the request
for a single byte is not met. -/
theorem minus_one_wraps :
    Reachable .debug .liteEndian freshFour ∧ ¬ EnsuresSpace .debug (2 ^ 64 - 1) freshFour ∧
      ¬ Constructs (2 ^ 64 - 1) ∧ ¬ Shrinks .debug (2 ^ 64 - 1) freshFour ∧
      ¬ CommitsWriteable .debug (2 ^ 64 - 1) freshFour ∧
      Reachable .debug .liteEndian fourWritten ∧ (resize 0).run fourWritten = .ok () cutToNothing ∧
      (writeableBytes .debug).run cutToNothing = .ok (2 ^ 64 - 4) cutToNothing ∧
      ¬ EnsuresSpace .debug 1 cutToNothing := by
  have hreachable := reachable_freshFour .debug .liteEndian
  have hminusOne : 2 ^ 64 - 1 < SizeT.modulus := by decide
  refine ⟨hreachable, ?_, ?_, ?_, ?_, ?_, rfl, rfl, ?_⟩
  · have hcut : (match (ensureWriteSpace .debug (2 ^ 64 - 1)).run freshFour with
        | .ok _ b' => decide (b'.storage = 7 ∧ b'.wtIndex = 8)
        | .error _ _ => false) = true := by
      decide +kernel
    rintro (⟨hthrow, -⟩ | ⟨b', m, hrun, -, -, hinside, -⟩)
    · rw [hthrow] at hcut
      cases hcut
    · rw [hrun] at hcut
      have hcut : b'.storage = 7 ∧ b'.wtIndex = 8 := of_decide_eq_true hcut
      omega
  · have hseven : (match construct .liteEndian (2 ^ 64 - 1) with
        | .ok b => decide (b.storage = 7)
        | .error _ => false) = true := by
      decide +kernel
    intro hconstructs
    rcases hconstructs .liteEndian with ⟨hthrow, -⟩ | ⟨b, hb, hstorage⟩
    · rw [hthrow] at hseven
      cases hseven
    · rw [hb] at hseven
      have hseven : b.storage = 7 := of_decide_eq_true hseven
      omega
  · rw [hreachable.inv.shrinks_iff hminusOne]
    decide
  · have hpasses : AssertsWritten (2 ^ 64 - 1) freshFour := by decide
    intro hcommits
    rcases hcommits hpasses with ⟨m, hm, hle⟩
    cases hreachable.inv.run_writeableBytes.symm.trans hm
    exact absurd hle (by decide)
  · have hcommitted : (hasWritten .debug 4).run freshFour = .ok 4 fourWritten := rfl
    exact .hasWritten hreachable (by decide : 8 + 4 ≤ 12) hcommitted
  · -- The readable bytes would be moved from behind the end of the container.
    have hoverrun : (match (ensureWriteSpace .debug 1).run cutToNothing with
        | .error .overrun _ => true
        | _ => false) = true := by
      decide +kernel
    rintro (⟨hthrow, -⟩ | ⟨b', m, hrun, -⟩)
    · rw [hthrow] at hoverrun
      cases hoverrun
    · rw [hrun] at hoverrun
      cases hoverrun

end ByteBuffer

end Net
end Muradin
