import Mathlib.Tactic.IntervalCases
import Muradin.Lib.ByteOrder

/-!
# Endian — byte orders of a host and of a buffer

The byte swaps and the host-to-wire conversions of `net/endian.h`, for a host of either byte
order.  A word lives in the memory of a host as `memoryImage host`; the conversions are right
when the memory image of a converted word does not depend on the host any more.
-/

namespace Muradin
namespace Net

open Lib

/-! ## Hosts and memory -/

/-- `bytebuffer::byteorder_t`; the host's own order is a value of it as well. -/
inductive ByteOrder
  | liteEndian
  | bigEndian
  deriving DecidableEq, Repr

variable {w n : Nat}

/-- The `n` bytes of a word in the memory of a host, lowest address first. -/
def memoryImage (host : ByteOrder) (n : Nat) (val : BitVec w) : List Byte :=
  match host with
  | .liteEndian => bytesLsb n val
  | .bigEndian => bytesMsb n val

/-- The word a host reads from these bytes. -/
def fromMemory (host : ByteOrder) (w : Nat) (bs : List Byte) : BitVec w :=
  match host with
  | .liteEndian => ofBytesLsb w bs
  | .bigEndian => ofBytesMsb w bs

@[simp] theorem length_memoryImage (host : ByteOrder) (n : Nat) (val : BitVec w) :
    (memoryImage host n val).length = n := by
  cases host <;> simp [memoryImage]

theorem fromMemory_memoryImage (host : ByteOrder) (val : BitVec w) (h : w ≤ 8 * n) :
    fromMemory host w (memoryImage host n val) = val := by
  cases host with
  | liteEndian => exact ofBytesLsb_bytesLsb val h
  | bigEndian => exact ofBytesMsb_bytesMsb val h

/-- `is_big_endianess`: look at the first byte of `0x1234` in memory. -/
def isBigEndianess (host : ByteOrder) : Bool :=
  (memoryImage host 2 0x1234#16)[0]? == some 0x12#8

@[simp] theorem isBigEndianess_bigEndian : isBigEndianess .bigEndian = true := by decide

@[simp] theorem isBigEndianess_liteEndian : isBigEndianess .liteEndian = false := by decide

/-! ## Byte swaps -/

/-- The operand is promoted to `int`, and the result is cut back to 16 bits. -/
def swap2Bytes (val : BitVec 16) : BitVec 16 :=
  ((val.setWidth 32 <<< 8) ||| (val.setWidth 32 >>> 8)).setWidth 16

def swap4Bytes (val : BitVec 32) : BitVec 32 :=
  (val <<< 24) ||| ((val <<< 8) &&& 0x00FF0000) ||| ((val >>> 8) &&& 0x0000FF00) ||| (val >>> 24)

def swap8Bytes (val : BitVec 64) : BitVec 64 :=
  ((val &&& 0x00000000000000FF) <<< 56) |||
  ((val &&& 0x000000000000FF00) <<< 40) |||
  ((val &&& 0x0000000000FF0000) <<< 24) |||
  ((val &&& 0x00000000FF000000) <<< 8) |||
  ((val &&& 0x000000FF00000000) >>> 8) |||
  ((val &&& 0x0000FF0000000000) >>> 24) |||
  ((val &&& 0x00FF000000000000) >>> 40) |||
  ((val &&& 0xFF00000000000000) >>> 56)

theorem isByteSwap_swap2Bytes : IsByteSwap 2 swap2Bytes := by
  apply isByteSwap_of_getLsbD
  intro v i j hi hj
  interval_cases i <;> interval_cases j <;> simp [swap2Bytes]

theorem isByteSwap_swap4Bytes : IsByteSwap 4 swap4Bytes := by
  apply isByteSwap_of_getLsbD
  intro v i j hi hj
  interval_cases i <;> interval_cases j <;> simp [swap4Bytes]

theorem isByteSwap_swap8Bytes : IsByteSwap 8 swap8Bytes := by
  apply isByteSwap_of_getLsbD
  intro v i j hi hj
  interval_cases i <;> interval_cases j <;> simp [swap8Bytes]

/-! ## Host to wire -/

/-- The body shared by `htobe16`, `htobe32` and `htobe64`. -/
def htobe (swap : BitVec w → BitVec w) (host : ByteOrder) (val : BitVec w) : BitVec w :=
  if isBigEndianess host then val else swap val

/-- The body shared by `htole16`, `htole32` and `htole64`. -/
def htole (swap : BitVec w → BitVec w) (host : ByteOrder) (val : BitVec w) : BitVec w :=
  if isBigEndianess host then swap val else val

def htobe16 : ByteOrder → BitVec 16 → BitVec 16 := htobe swap2Bytes
def htobe32 : ByteOrder → BitVec 32 → BitVec 32 := htobe swap4Bytes
def htobe64 : ByteOrder → BitVec 64 → BitVec 64 := htobe swap8Bytes
def htole16 : ByteOrder → BitVec 16 → BitVec 16 := htole swap2Bytes
def htole32 : ByteOrder → BitVec 32 → BitVec 32 := htole swap4Bytes
def htole64 : ByteOrder → BitVec 64 → BitVec 64 := htole swap8Bytes

/-- The conversion to a given byte order, at any width. -/
def htoOrder (swap : BitVec w → BitVec w) (host order : ByteOrder) (val : BitVec w) : BitVec w :=
  if order = .bigEndian then htobe swap host val else htole swap host val

/-- A converted word has the memory image of the target order on every host. -/
theorem memoryImage_htoOrder {swap : BitVec w → BitVec w} (hswap : IsByteSwap n swap)
    (host order : ByteOrder) (val : BitVec w) :
    memoryImage host n (htoOrder swap host order val) = memoryImage order n val := by
  cases host with
  | liteEndian =>
      cases order with
      | liteEndian => simp [htoOrder, htole, memoryImage]
      | bigEndian => simpa [htoOrder, htobe, memoryImage] using hswap val
  | bigEndian =>
      cases order with
      | liteEndian => simpa [htoOrder, htole, memoryImage] using hswap.bytesMsb val
      | bigEndian => simp [htoOrder, htobe, memoryImage]

/-- The same conversion also takes wire order back to host order. -/
theorem htoOrder_involutive {swap : BitVec w → BitVec w} (hswap : IsByteSwap n swap)
    (hw : w ≤ 8 * n) (host order : ByteOrder) (val : BitVec w) :
    htoOrder swap host order (htoOrder swap host order val) = val := by
  have hinv := hswap.involutive hw val
  cases host <;> cases order <;> simp [htoOrder, htobe, htole, hinv]

/-- Reading a word of wire order and converting it gives the value that was encoded. -/
theorem htoOrder_fromMemory {swap : BitVec w → BitVec w} (hswap : IsByteSwap n swap)
    (hw : w ≤ 8 * n) (host order : ByteOrder) (val : BitVec w) :
    htoOrder swap host order (fromMemory host w (memoryImage order n val)) = val := by
  rw [← memoryImage_htoOrder hswap host order val, fromMemory_memoryImage host _ hw,
    htoOrder_involutive hswap hw]

/-! ## Network order

`uintN_hton` and `uintN_ntoh` have the same body, `beNtoh` of the argument, so each is its own
inverse where the argument keeps all its bits. -/

def be16toh : ByteOrder → BitVec 16 → BitVec 16 := htobe16
def be32toh : ByteOrder → BitVec 32 → BitVec 32 := htobe32
def be64toh : ByteOrder → BitVec 64 → BitVec 64 := htobe64

def uint16Hton (host : ByteOrder) (val : BitVec 16) : BitVec 16 := be16toh host val
def uint16Ntoh (host : ByteOrder) (val : BitVec 16) : BitVec 16 := be16toh host val
def uint32Hton (host : ByteOrder) (val : BitVec 32) : BitVec 32 := be32toh host val
def uint32Ntoh (host : ByteOrder) (val : BitVec 32) : BitVec 32 := be32toh host val

/-- The parameter is a `uint32_t`; it is widened again for `be64toh`. -/
def uint64Hton (host : ByteOrder) (val : BitVec 32) : BitVec 64 := be64toh host (val.setWidth 64)
def uint64Ntoh (host : ByteOrder) (val : BitVec 32) : BitVec 64 := be64toh host (val.setWidth 64)

/-- A call with a 64-bit argument: the argument is converted to the parameter's type first. -/
def uint64HtonOf (host : ByteOrder) (v : BitVec 64) : BitVec 64 := uint64Hton host (v.setWidth 32)
def uint64NtohOf (host : ByteOrder) (v : BitVec 64) : BitVec 64 := uint64Ntoh host (v.setWidth 32)

theorem htobe_involutive {swap : BitVec w → BitVec w} (hswap : IsByteSwap n swap) (hw : w ≤ 8 * n)
    (host : ByteOrder) (val : BitVec w) : htobe swap host (htobe swap host val) = val :=
  htoOrder_involutive hswap hw host .bigEndian val

theorem memoryImage_htobe {swap : BitVec w → BitVec w} (hswap : IsByteSwap n swap)
    (host : ByteOrder) (val : BitVec w) :
    memoryImage host n (htobe swap host val) = bytesMsb n val :=
  memoryImage_htoOrder hswap host .bigEndian val

/-- Cutting a word to 32 bits and widening it again keeps it exactly below `2 ^ 32`. -/
theorem widen_cut_eq_iff (v : BitVec 64) :
    (v.setWidth 32).setWidth 64 = v ↔ v.toNat < 2 ^ 32 := by
  rw [← BitVec.toNat_inj]
  simp only [BitVec.toNat_setWidth]
  omega

theorem cut_widen (val : BitVec 32) : (val.setWidth 64).setWidth 32 = val := by
  apply BitVec.eq_of_toNat_eq
  simp only [BitVec.toNat_setWidth]
  omega

/-- A swap moves the four low bytes up, where the second conversion cuts them off. -/
theorem cut_swap8Bytes_widen (val : BitVec 32) :
    (swap8Bytes (val.setWidth 64)).setWidth 32 = 0 := by
  apply BitVec.eq_of_getLsbD_eq
  intro i hi
  interval_cases i <;> simp [swap8Bytes]

theorem uint64_round_trip_iff (host : ByteOrder) (v : BitVec 64) :
    uint64NtohOf host (uint64HtonOf host v) = v ↔
      v = 0 ∨ host = .bigEndian ∧ v.toNat < 2 ^ 32 := by
  cases host with
  | liteEndian =>
      have hzero : uint64NtohOf .liteEndian (uint64HtonOf .liteEndian v) = 0 := by
        show swap8Bytes (((swap8Bytes ((v.setWidth 32).setWidth 64)).setWidth 32).setWidth 64) = 0
        rw [cut_swap8Bytes_widen]
        decide
      rw [hzero]
      constructor
      · intro h
        exact Or.inl h.symm
      · rintro (rfl | ⟨hbig, -⟩)
        · rfl
        · cases hbig
  | bigEndian =>
      -- no bytes are swapped, and both conversions cut to the same 32 bits
      have hcut : uint64NtohOf .bigEndian (uint64HtonOf .bigEndian v)
          = (v.setWidth 32).setWidth 64 := by
        show (((v.setWidth 32).setWidth 64).setWidth 32).setWidth 64 = _
        rw [cut_widen]
      rw [hcut, widen_cut_eq_iff]
      constructor
      · intro hlt
        exact Or.inr ⟨rfl, hlt⟩
      · rintro (rfl | ⟨-, hlt⟩)
        · decide
        · exact hlt

theorem uint64_memoryImage_iff (host : ByteOrder) (v : BitVec 64) :
    memoryImage host 8 (uint64HtonOf host v) = bytesMsb 8 v ↔ v.toNat < 2 ^ 32 := by
  have himage : memoryImage host 8 (uint64HtonOf host v)
      = bytesMsb 8 ((v.setWidth 32).setWidth 64) :=
    memoryImage_htobe isByteSwap_swap8Bytes host _
  rw [himage, ← widen_cut_eq_iff]
  constructor
  · exact bytesMsb_injective (by decide)
  · intro heq
    rw [heq]

/-- The conversions of 16 and 32 bits undo each other and put the bytes most significant first;
those of 64 bits do so exactly where the cut to 32 bits loses nothing. -/
theorem network_order_iff (host : ByteOrder) (v : BitVec 16) (v' : BitVec 32) (v'' : BitVec 64) :
    (uint16Ntoh host (uint16Hton host v) = v ∧
      memoryImage host 2 (uint16Hton host v) = bytesMsb 2 v) ∧
    (uint32Ntoh host (uint32Hton host v') = v' ∧
      memoryImage host 4 (uint32Hton host v') = bytesMsb 4 v') ∧
    (uint64NtohOf host (uint64HtonOf host v'') = v'' ↔
      v'' = 0 ∨ host = .bigEndian ∧ v''.toNat < 2 ^ 32) ∧
    (memoryImage host 8 (uint64HtonOf host v'') = bytesMsb 8 v'' ↔ v''.toNat < 2 ^ 32) := by
  refine ⟨⟨?_, ?_⟩, ⟨?_, ?_⟩, ?_, ?_⟩
  · exact htobe_involutive isByteSwap_swap2Bytes (by decide) host v
  · exact memoryImage_htobe isByteSwap_swap2Bytes host v
  · exact htobe_involutive isByteSwap_swap4Bytes (by decide) host v'
  · exact memoryImage_htobe isByteSwap_swap4Bytes host v'
  · exact uint64_round_trip_iff host v''
  · exact uint64_memoryImage_iff host v''

/-- The round trip of `1` on a little-endian host gives `0`, and the bytes of `2 ^ 32` are lost on
every host. -/
theorem uint64_hton_cuts_its_argument :
    uint64NtohOf .liteEndian (uint64HtonOf .liteEndian 1) ≠ 1 ∧
    uint64NtohOf .bigEndian (uint64HtonOf .bigEndian (2 ^ 32)) ≠ 2 ^ 32 ∧
    ∀ host, memoryImage host 8 (uint64HtonOf host (2 ^ 32)) ≠ bytesMsb 8 (2 ^ 32 : BitVec 64) := by
  refine ⟨by decide, by decide, ?_⟩
  intro host
  cases host <;> decide

end Net
end Muradin
