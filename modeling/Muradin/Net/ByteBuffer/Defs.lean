import Muradin.Cpp.CharVector
import Muradin.Net.Endian

/-!
# ByteBuffer — `net/bytebuffer.h` and `net/bytebuffer.cpp`

The data members of `bytebuffer` and its member functions, as the source computes them: `size_t`
arithmetic wraps, `assert`s fail only in a Debug build, `std::vector::resize` may throw, and raw
pointers are checked against the elements of the container.

A caller's memory is passed by value, as the list of the bytes it holds.
-/

namespace Muradin
namespace Net

open Lib Cpp

/-- `class bytebuffer`. -/
structure ByteBuffer where
  byteorder : ByteOrder
  contianer : CharVector
  rdIndex : Nat
  wtIndex : Nat
  deriving DecidableEq

namespace ByteBuffer

/-- `m_resver_index`. -/
def resverIndex : Nat := 8

/-- `bytebuffer(byteorder, size)`. -/
def construct (byteorder : ByteOrder) (size : Nat) : Except Fault ByteBuffer := do
  let contianer ← CharVector.ofSize (SizeT.add size resverIndex)
  return { byteorder, contianer, rdIndex := resverIndex, wtIndex := resverIndex }

/-- `byteorder(order)`. -/
def setByteorder (order : ByteOrder) : Method ByteBuffer Unit :=
  modify fun b => { b with byteorder := order }

def empty (b : ByteBuffer) : Bool := b.rdIndex == b.wtIndex

def storage (b : ByteBuffer) : Nat := b.contianer.size

def space (b : ByteBuffer) : Nat := SizeT.sub b.contianer.size resverIndex

/-! ## Sizes -/

def readableBytes (B : Build) : Method ByteBuffer Nat := do
  let b ← get
  cassert B (b.rdIndex ≤ b.wtIndex)
  return SizeT.sub b.wtIndex b.rdIndex

def writeableBytes (B : Build) : Method ByteBuffer Nat := do
  let b ← get
  cassert B (b.wtIndex ≤ b.contianer.capacity)
  return SizeT.sub b.contianer.size b.wtIndex

def discardableBytes (B : Build) : Method ByteBuffer Nat := do
  let b ← get
  cassert B (resverIndex ≤ b.rdIndex)
  return SizeT.sub b.rdIndex resverIndex

/-! ## Space -/

def makeSpace (B : Build) (bytes : Nat) : Method ByteBuffer Unit := do
  let discardable ← discardableBytes B
  let writeable ← writeableBytes B
  if SizeT.add discardable writeable < bytes then
    -- Grow behind the write index; the readable bytes stay where they are.
    let b ← get
    let grown ← orThrow (b.contianer.resize (SizeT.add bytes b.wtIndex))
    set { b with contianer := grown }
  else
    -- Move the readable bytes down to the reserved bytes.
    let readable ← readableBytes B
    let b ← get
    let source ← orThrow (b.contianer.load b.rdIndex b.wtIndex)
    let moved ← orThrow (b.contianer.store resverIndex source)
    set { b with
      contianer := moved, rdIndex := resverIndex, wtIndex := SizeT.add resverIndex readable }
    let readable' ← readableBytes B
    cassert B (readable = readable')

def ensureWriteSpace (B : Build) (bytes : Nat) : Method ByteBuffer Unit :=
  makeSpace B bytes

def resize (newCapacity : Nat) : Method ByteBuffer Unit := do
  let b ← get
  let resized ← orThrow (b.contianer.resize (SizeT.add newCapacity resverIndex))
  set { b with contianer := resized }

def shrink (B : Build) (resverBytes : Nat) : Method ByteBuffer Unit := do
  let readable ← readableBytes B
  let b ← get
  let buf ← orThrow (CharVector.ofSize (SizeT.add (SizeT.add resverIndex readable) resverBytes))
  let bytes ← orThrow (b.contianer.load b.rdIndex (b.rdIndex + readable))
  let buf ← orThrow (buf.store resverIndex bytes)
  set { b with
    contianer := buf, rdIndex := resverIndex, wtIndex := SizeT.add resverIndex readable }

/-- `a.swap(b)`: what `a` and `b` hold afterwards. -/
def swap (a b : ByteBuffer) : ByteBuffer × ByteBuffer :=
  ({ byteorder := b.byteorder, contianer := b.contianer, rdIndex := b.rdIndex,
     wtIndex := b.wtIndex },
   { byteorder := a.byteorder, contianer := a.contianer, rdIndex := a.rdIndex,
     wtIndex := a.wtIndex })

/-! ## Writing -/

def hasWritten (B : Build) (bytes : Nat) : Method ByteBuffer Nat := do
  let b ← get
  cassert B (SizeT.add b.wtIndex bytes ≤ b.storage)
  set { b with wtIndex := SizeT.add b.wtIndex bytes }
  readableBytes B

/-- Store through `wt_ptr()`, as `memcpy`, `std::copy` or `recv` do. -/
def storeAtWtPtr (bytes : List Byte) : Method ByteBuffer Unit := do
  let b ← get
  let stored ← orThrow (b.contianer.store b.wtIndex bytes)
  set { b with contianer := stored }

/-- `append(data_ptr, size)` for memory outside the buffer. -/
def append (B : Build) (data : List Byte) : Method ByteBuffer Nat := do
  ensureWriteSpace B data.length
  storeAtWtPtr data
  let _ ← hasWritten B data.length
  readableBytes B

/-- `ensure_write_space(room)`, then fewer or equally many bytes stored through `wt_ptr()` and
committed with `has_written`. -/
def fill (B : Build) (room : Nat) (bytes : List Byte) : Method ByteBuffer Nat := do
  ensureWriteSpace B room
  storeAtWtPtr bytes
  hasWritten B bytes.length

/-- `append(another)` for another object. -/
def appendBuffer (B : Build) (another : ByteBuffer) : Method ByteBuffer Nat := do
  match (readableBytes B).run another with
  | .error e _ => throw e
  | .ok n _ =>
      let data ← orThrow (another.contianer.load another.rdIndex (another.rdIndex + n))
      append B data

/-- `append(*this)`: the pointer to the source is taken before `make_space`, and a container that was
reallocated has freed what it points to. -/
def appendSelf (B : Build) : Method ByteBuffer Nat := do
  let another ← get
  let n ← readableBytes B
  ensureWriteSpace B n
  let b ← get
  let data ← orThrow (
    if b.contianer.capacity = another.contianer.capacity then
      b.contianer.load another.rdIndex (another.rdIndex + n)
    else
      .error .overrun)
  storeAtWtPtr data
  let _ ← hasWritten B n
  readableBytes B

/-- `append_str(sz_str)`: the string ends at its first NUL. -/
def appendStr (B : Build) (szStr : List Byte) : Method ByteBuffer Nat :=
  append B (szStr.takeWhile (· ≠ 0))

/-! ## Discarding -/

def discardAll : Method ByteBuffer Unit :=
  modify fun b => { b with rdIndex := resverIndex, wtIndex := resverIndex }

def discard (B : Build) (bytes : Nat) : Method ByteBuffer Nat := do
  let readable ← readableBytes B
  cassert B (bytes ≤ readable)
  if readable ≤ bytes then
    discardAll
  else
    modify fun b => { b with rdIndex := SizeT.add b.rdIndex bytes }
  readableBytes B

def rollbackWrite (B : Build) (bytes : Nat) : Method ByteBuffer Nat := do
  let readable ← readableBytes B
  cassert B (bytes ≤ readable)
  if readable ≤ bytes then
    discardAll
  else
    modify fun b => { b with wtIndex := SizeT.sub b.wtIndex bytes }
  readableBytes B

/-! ## Integers -/

variable {w : Nat}

def byteorderValueS (host order : ByteOrder) (val : BitVec 16) : BitVec 16 :=
  if order = .bigEndian then htobe16 host val else htole16 host val

def byteorderValueL (host order : ByteOrder) (val : BitVec 32) : BitVec 32 :=
  if order = .bigEndian then htobe32 host val else htole32 host val

def byteorderValueLl (host order : ByteOrder) (val : BitVec 64) : BitVec 64 :=
  if order = .bigEndian then htobe64 host val else htole64 host val

/-- `read_integer<T>()` for a `T` of `n` bytes. -/
def readInteger (host : ByteOrder) (w n : Nat) : Method ByteBuffer (BitVec w) := do
  let b ← get
  let bytes ← orThrow (b.contianer.load b.rdIndex (b.rdIndex + n))
  return fromMemory host w bytes

/-- The body shared by the `read_uint*` functions. -/
def readUint (B : Build) (host : ByteOrder) (n : Nat)
    (byteorderValue : ByteOrder → BitVec w → BitVec w) (byteorderCov : Bool) :
    Method ByteBuffer (BitVec w) := do
  let readable ← readableBytes B
  cassert B (n ≤ readable)
  let val ← readInteger host w n
  let b ← get
  return if byteorderCov then byteorderValue b.byteorder val else val

def readUint8 (B : Build) (host : ByteOrder) : Method ByteBuffer (BitVec 8) :=
  readUint B host 1 (fun _ val => val) false

def readUint16 (B : Build) (host : ByteOrder) (byteorderCov : Bool) :
    Method ByteBuffer (BitVec 16) :=
  readUint B host 2 (byteorderValueS host) byteorderCov

def readUint32 (B : Build) (host : ByteOrder) (byteorderCov : Bool) :
    Method ByteBuffer (BitVec 32) :=
  readUint B host 4 (byteorderValueL host) byteorderCov

def readUint64 (B : Build) (host : ByteOrder) (byteorderCov : Bool) :
    Method ByteBuffer (BitVec 64) :=
  readUint B host 8 (byteorderValueLl host) byteorderCov

/-- The body shared by the `retrieve_uint*` functions. -/
def retrieveUint (B : Build) (n : Nat) (read : Method ByteBuffer (BitVec w)) :
    Method ByteBuffer (BitVec w) := do
  let val ← read
  let _ ← discard B n
  return val

def retrieveUint8 (B : Build) (host : ByteOrder) : Method ByteBuffer (BitVec 8) :=
  retrieveUint B 1 (readUint8 B host)

def retrieveUint16 (B : Build) (host : ByteOrder) (byteorderCov : Bool) :
    Method ByteBuffer (BitVec 16) :=
  retrieveUint B 2 (readUint16 B host byteorderCov)

def retrieveUint32 (B : Build) (host : ByteOrder) (byteorderCov : Bool) :
    Method ByteBuffer (BitVec 32) :=
  retrieveUint B 4 (readUint32 B host byteorderCov)

def retrieveUint64 (B : Build) (host : ByteOrder) (byteorderCov : Bool) :
    Method ByteBuffer (BitVec 64) :=
  retrieveUint B 8 (readUint64 B host byteorderCov)

/-- The body shared by the `append_uint*` functions. -/
def appendUint (B : Build) (host : ByteOrder) (n : Nat)
    (htobe htole : ByteOrder → BitVec w → BitVec w) (val : BitVec w) (byteorderCov : Bool) :
    Method ByteBuffer Nat := do
  let b ← get
  let val :=
    if byteorderCov then
      if b.byteorder = .bigEndian then htobe host val else htole host val
    else
      val
  append B (memoryImage host n val)

def appendUint8 (B : Build) (host : ByteOrder) (val : BitVec 8) : Method ByteBuffer Nat :=
  append B (memoryImage host 1 val)

def appendUint16 (B : Build) (host : ByteOrder) (val : BitVec 16) (byteorderCov : Bool) :
    Method ByteBuffer Nat :=
  appendUint B host 2 htobe16 htole16 val byteorderCov

def appendUint32 (B : Build) (host : ByteOrder) (val : BitVec 32) (byteorderCov : Bool) :
    Method ByteBuffer Nat :=
  appendUint B host 4 htobe32 htole32 val byteorderCov

def appendUint64 (B : Build) (host : ByteOrder) (val : BitVec 64) (byteorderCov : Bool) :
    Method ByteBuffer Nat :=
  appendUint B host 8 htobe64 htole64 val byteorderCov

/-! ## Strings -/

/-- The distance behind the first `c` of the readable bytes, or 0. -/
def findChar (c : Byte) : Method ByteBuffer Nat := do
  let b ← get
  let bytes ← orThrow (b.contianer.load b.rdIndex b.wtIndex)
  return if c ∈ bytes then bytes.idxOf c + 1 else 0

def retrieveString (B : Build) : Method ByteBuffer (List Byte) := do
  let pos ← findChar 0
  if pos ≠ 0 then
    let b ← get
    let ret ← orThrow (b.contianer.loadCString b.rdIndex)
    let _ ← discard B pos
    return ret
  else
    return []

def asString : Method ByteBuffer (List Byte) := do
  let b ← get
  orThrow (b.contianer.loadCString b.rdIndex)

end ByteBuffer

end Net
end Muradin
