import Muradin.Net.ByteBuffer.Refinement

/-!
# Codec — typed fields over a byte buffer

A field is an unsigned integer of one of four widths, appended with or without conversion to the
byte order of the buffer, or a string without NUL bytes, appended with its terminating NUL.

`Field.append_spec` says which bytes `append_*` adds: with conversion they are the bytes of the
buffer's byte order, whatever the host.  `Field.retrieve_spec` says that the matching `retrieve_*`
takes exactly these bytes and returns the value.  `codec_round_trip` puts the two together over
whole runs, with appends and retrievals in any order.
-/

namespace Muradin
namespace Net

open Lib Cpp

namespace ByteBuffer

/-! ## Fields -/

/-- What is retrieved next. -/
inductive Kind
  | uint8
  | uint16 (byteorderCov : Bool)
  | uint32 (byteorderCov : Bool)
  | uint64 (byteorderCov : Bool)
  | string
  deriving DecidableEq

inductive Value
  | uint8 (val : BitVec 8)
  | uint16 (val : BitVec 16)
  | uint32 (val : BitVec 32)
  | uint64 (val : BitVec 64)
  | string (bytes : List Byte)
  deriving DecidableEq

/-- A string without NUL bytes that fits in memory together with its terminating NUL. -/
structure CString where
  bytes : List Byte
  nulFree : 0 ∉ bytes
  length_lt : bytes.length < CharVector.maxSize

inductive Field
  | uint8 (val : BitVec 8)
  | uint16 (val : BitVec 16) (byteorderCov : Bool)
  | uint32 (val : BitVec 32) (byteorderCov : Bool)
  | uint64 (val : BitVec 64) (byteorderCov : Bool)
  | string (str : CString)

/-- The bytes of a word in a buffer of the given byte order: most significant byte first in a
`big_endian` one, least significant byte first in a `lite_endian` one. -/
def wireBytes {w : Nat} (order : ByteOrder) (n : Nat) (val : BitVec w) : List Byte :=
  match order with
  | .bigEndian => bytesMsb n val
  | .liteEndian => bytesLsb n val

namespace Field

def kind : Field → Kind
  | uint8 _ => .uint8
  | uint16 _ cov => .uint16 cov
  | uint32 _ cov => .uint32 cov
  | uint64 _ cov => .uint64 cov
  | string _ => .string

def value : Field → Value
  | uint8 val => .uint8 val
  | uint16 val _ => .uint16 val
  | uint32 val _ => .uint32 val
  | uint64 val _ => .uint64 val
  | string str => .string str.bytes

/-- The encoding does not depend on the host that wrote it. -/
def Portable : Field → Prop
  | uint16 _ cov => cov = true
  | uint32 _ cov => cov = true
  | uint64 _ cov => cov = true
  | _ => True

/-- The bytes of a field written on host `writer` into a buffer of byte order `order`. -/
def encode (writer order : ByteOrder) : Field → List Byte
  | uint8 val => [val]
  | uint16 val cov => if cov then wireBytes order 2 val else memoryImage writer 2 val
  | uint32 val cov => if cov then wireBytes order 4 val else memoryImage writer 4 val
  | uint64 val cov => if cov then wireBytes order 8 val else memoryImage writer 8 val
  | string str => str.bytes ++ [0]

/-- The `append` call for a field. -/
def append (B : Build) (host : ByteOrder) : Field → Method ByteBuffer Nat
  | uint8 val => appendUint8 B host val
  | uint16 val cov => appendUint16 B host val cov
  | uint32 val cov => appendUint32 B host val cov
  | uint64 val cov => appendUint64 B host val cov
  | string str => ByteBuffer.append B (str.bytes ++ [0])

end Field

/-- The `retrieve` call for a kind of field. -/
def Kind.retrieve (B : Build) (host : ByteOrder) : Kind → Method ByteBuffer Value
  | .uint8 => Value.uint8 <$> retrieveUint8 B host
  | .uint16 cov => Value.uint16 <$> retrieveUint16 B host cov
  | .uint32 cov => Value.uint32 <$> retrieveUint32 B host cov
  | .uint64 cov => Value.uint64 <$> retrieveUint64 B host cov
  | .string => Value.string <$> retrieveString B

/-! ## One field -/

variable {b : ByteBuffer} {q : ByteFifo} {B : Build} {host writer order : ByteOrder} {w n : Nat}

theorem wireBytes_eq_memoryImage (order : ByteOrder) (n : Nat) (val : BitVec w) :
    wireBytes order n val = memoryImage order n val := by
  cases order <;> rfl

theorem length_encodedWord (writer order : ByteOrder) (n : Nat) (val : BitVec w) (cov : Bool) :
    (if cov then wireBytes order n val else memoryImage writer n val).length = n := by
  split
  · rw [wireBytes_eq_memoryImage, length_memoryImage]
  · exact length_memoryImage _ _ _

/-- The bytes that `append_uint*` adds, at any width. -/
theorem encodeUint_eq {swap : BitVec w → BitVec w} (hswap : IsByteSwap n swap)
    (host : ByteOrder) (val : BitVec w) (cov : Bool) (order : ByteOrder) :
    Op.encodeUint host n (htobe swap) (htole swap) val cov order =
      if cov then wireBytes order n val else memoryImage host n val := by
  cases cov with
  | false => rfl
  | true =>
      rw [if_pos rfl, wireBytes_eq_memoryImage, ← memoryImage_htoOrder hswap host order val]
      rfl

theorem memoryImage_byte (host : ByteOrder) (val : BitVec 8) : memoryImage host 1 val = [val] := by
  have hval : val.extractLsb' 0 8 = val := BitVec.extractLsb'_eq_self
  cases host <;> simp [memoryImage, bytesMsb, bytesLsb, hval]

/-- What one typed `append` adds: in host-independent form if it converts. -/
theorem Field.append_spec (f : Field) (host : ByteOrder) (h : b.Represents q) :
    Yields (f.append B host) b (q.push (f.encode host q.byteorder))
        (q.push (f.encode host q.byteorder)).content.length ∨
      Throws (f.append B host) b ∧
        CharVector.maxSize < (f.encode host q.byteorder).length + b.wtIndex := by
  cases f with
  | uint8 val =>
      -- One byte has the same image on every host.
      have hexec : (uint8 val).append B host = ByteBuffer.append B [val] :=
        congrArg (ByteBuffer.append B) (memoryImage_byte host val)
      have hmax : [val].length ≤ CharVector.maxSize := (by decide : 1 ≤ CharVector.maxSize)
      rw [hexec]
      exact h.append_spec hmax
  | uint16 val cov =>
      have hspec :=
        Op.appendUint_spec (B := B) h host (by decide : 2 ≤ 8) htobe16 htole16 val cov
      have henc := encodeUint_eq isByteSwap_swap2Bytes host val cov q.byteorder
      have hlen := length_encodedWord host q.byteorder 2 val cov
      rw [show Op.encodeUint host 2 htobe16 htole16 val cov q.byteorder = _ from henc] at hspec
      rwa [Field.encode, hlen]
  | uint32 val cov =>
      have hspec :=
        Op.appendUint_spec (B := B) h host (by decide : 4 ≤ 8) htobe32 htole32 val cov
      have henc := encodeUint_eq isByteSwap_swap4Bytes host val cov q.byteorder
      have hlen := length_encodedWord host q.byteorder 4 val cov
      rw [show Op.encodeUint host 4 htobe32 htole32 val cov q.byteorder = _ from henc] at hspec
      rwa [Field.encode, hlen]
  | uint64 val cov =>
      have hspec :=
        Op.appendUint_spec (B := B) h host (by decide : 8 ≤ 8) htobe64 htole64 val cov
      have henc := encodeUint_eq isByteSwap_swap8Bytes host val cov q.byteorder
      have hlen := length_encodedWord host q.byteorder 8 val cov
      rw [show Op.encodeUint host 8 htobe64 htole64 val cov q.byteorder = _ from henc] at hspec
      rwa [Field.encode, hlen]
  | string str =>
      -- A string goes with the 0 that ends it.
      have hmax : (str.bytes ++ [0]).length ≤ CharVector.maxSize := by
        rw [List.length_append]
        exact str.length_lt
      exact h.append_spec hmax

/-- `retrieve_uint*` undoes the encoding at any width. -/
theorem decodeUint_encode {swap : BitVec w → BitVec w} (hswap : IsByteSwap n swap)
    (hw : w ≤ 8 * n) (val : BitVec w) (cov : Bool) (hhost : cov = true ∨ writer = host)
    {rest : List Byte}
    (hq : q.content =
      (if cov then wireBytes q.byteorder n val else memoryImage writer n val) ++ rest) :
    decodeUint host n (htoOrder swap host) cov q = val := by
  cases cov with
  | true =>
      have htake : q.content.take n = memoryImage q.byteorder n val := by
        rw [hq, if_pos rfl, wireBytes_eq_memoryImage, List.take_left' (length_memoryImage _ _ _)]
      simp [decodeUint, htake, htoOrder_fromMemory hswap hw]
  | false =>
      rcases hhost with hcov | rfl
      · cases hcov
      -- Without conversion the image is that of the writer, who has the byte order of the reader.
      · have htake : q.content.take n = memoryImage writer n val := by
          rw [hq, if_neg (by simp), List.take_left' (length_memoryImage _ _ _)]
        simp [decodeUint, htake, fromMemory_memoryImage _ _ hw]

/-- `retrieve_uint*` at any width that is converted. -/
theorem retrieve_uint_spec (h : b.Represents q) {swap : BitVec w → BitVec w}
    (hswap : IsByteSwap n swap) (hw : w ≤ 8 * n) (val : BitVec w) (cov : Bool)
    (hhost : cov = true ∨ writer = host) {rest : List Byte}
    (hq : q.content =
      (if cov then wireBytes q.byteorder n val else memoryImage writer n val) ++ rest)
    {α : Type} {f : BitVec w → α} :
    Yields (f <$> retrieveUint B n (readUint B host n (htoOrder swap host) cov)) b
      { q with content := rest } (f val) := by
  have hlen := length_encodedWord writer q.byteorder n val cov
  have hle : n ≤ q.content.length := by
    rw [hq, List.length_append, hlen]
    exact Nat.le_add_right _ _
  rcases h.retrieveUint_spec (B := B) hle with ⟨b', hrun, hrep⟩
  refine ⟨b', ?_, ?_⟩
  · rw [decodeUint_encode hswap hw val cov hhost hq] at hrun
    exact run_map_ok hrun
  · have hdrop : q.content.drop n = rest := by
      rw [hq]
      exact List.drop_left' hlen
    rw [ByteFifo.pop, hdrop] at hrep
    exact hrep

/-- One typed retrieval from a queue that starts with an encoded field: the value is the one that
was appended, and exactly its bytes are consumed. -/
theorem Field.retrieve_spec (h : b.Represents q) (f : Field) (hport : f.Portable ∨ writer = host)
    {rest : List Byte} (hq : q.content = f.encode writer q.byteorder ++ rest) :
    Yields (f.kind.retrieve B host) b { q with content := rest } f.value := by
  cases f with
  | uint8 val =>
      have hval : decodeUint host 1 (fun (_ : ByteOrder) (val : BitVec 8) => val) false q = val := by
        have htake : q.content.take 1 = memoryImage host 1 val := by
          rw [hq, memoryImage_byte]
          rfl
        simp [decodeUint, htake, fromMemory_memoryImage]
      have hlen : 1 ≤ q.content.length := by simp [hq, Field.encode]
      rcases h.retrieveUint_spec (B := B) hlen with ⟨b', hrun, hrep⟩
      refine ⟨b', ?_, ?_⟩
      · rw [← hval]
        exact run_map_ok hrun
      · simpa [ByteFifo.pop, hq, Field.encode] using hrep
  | uint16 val cov => exact retrieve_uint_spec h isByteSwap_swap2Bytes (by decide) val cov hport hq
  | uint32 val cov => exact retrieve_uint_spec h isByteSwap_swap4Bytes (by decide) val cov hport hq
  | uint64 val cov => exact retrieve_uint_spec h isByteSwap_swap8Bytes (by decide) val cov hport hq
  | string str =>
      -- The terminating NUL is the first one, so it is where the string is cut.
      have hstop : q.content.takeWhile (· ≠ 0) = str.bytes := by
        rw [hq, Field.encode, List.append_assoc, List.takeWhile_append_of_pos]
        · simp
        · intro x hx
          have : x ≠ 0 := fun h0 => str.nulFree (h0 ▸ hx)
          simpa using this
      have hidx : q.content.idxOf 0 = str.bytes.length := by
        rw [hq, Field.encode, List.append_assoc, List.idxOf_append_of_notMem str.nulFree]
        simp
      have h0 : 0 ∈ q.content := by simp [hq, Field.encode]
      rcases h.retrieveString_spec (B := B) h0 with ⟨b', hrun, hrep⟩
      refine ⟨b', ?_, ?_⟩
      · rw [hstop] at hrun
        exact run_map_ok hrun
      · have hdrop : q.content.drop (str.bytes.length + 1) = rest := by
          rw [hq, Field.encode]
          exact List.drop_left' (by simp)
        rw [hidx, ByteFifo.pop, hdrop] at hrep
        exact hrep

/-! ## Whole runs -/

/-- Append the fields of a list one after the other. -/
def appendAll (B : Build) (host : ByteOrder) : List Field → Method ByteBuffer Unit
  | [] => pure ()
  | f :: fs => do
      let _ ← f.append B host
      appendAll B host fs

/-- The bytes of a list of fields. -/
def encodeAll (writer order : ByteOrder) (fs : List Field) : List Byte :=
  fs.flatMap (Field.encode writer order)

/-- Of the fields of a list those before some field were appended to the queue `q`; for this one the
container would have to be larger than `max_size()`, and the call for it throws. -/
def RunsOut (B : Build) (host : ByteOrder) (fs : List Field) (b : ByteBuffer) (q : ByteFifo) : Prop :=
  ∃ done f rest b', fs = done ++ f :: rest ∧
    (appendAll B host done).run b = .ok () b' ∧
    b'.Represents (q.push (encodeAll host q.byteorder done)) ∧
    CharVector.maxSize < (f.encode host q.byteorder).length + b'.wtIndex ∧
    (appendAll B host fs).run b = .error .lengthError b'

theorem run_appendAll_cons {f : Field} {n : Nat} {b' : ByteBuffer}
    (h : (f.append B host).run b = .ok n b') (fs : List Field) :
    (appendAll B host (f :: fs)).run b = (appendAll B host fs).run b' := by
  rw [appendAll, run_bind_ok h]

theorem appendAll_spec (h : b.Represents q) (fs : List Field) :
    (∃ b', (appendAll B host fs).run b = .ok () b' ∧
        b'.Represents (q.push (encodeAll host q.byteorder fs))) ∨ RunsOut B host fs b q := by
  -- On the fields: each is appended to the buffer that the one before it left.
  induction fs generalizing b q with
  | nil =>
      left
      exact ⟨b, rfl, by simpa [encodeAll] using h⟩
  | cons f fs ih =>
      rcases f.append_spec (B := B) host h with ⟨b₁, hrun₁, hrep₁⟩ | ⟨hthrow, hlarge⟩
      · have hcons := fun gs => run_appendAll_cons hrun₁ gs
        have hpush : ∀ gs, (q.push (f.encode host q.byteorder)).push (encodeAll host q.byteorder gs) =
            q.push (encodeAll host q.byteorder (f :: gs)) := fun gs => ByteFifo.push_push _ _ _
        rcases ih hrep₁ with ⟨b₂, hrun₂, hrep₂⟩ | ⟨done, g, rest, b₂, rfl, hrun₂, hrep₂, hlarge, herror⟩
        · left
          exact ⟨b₂, (hcons fs).trans hrun₂, hpush fs ▸ hrep₂⟩
        · right
          exact ⟨f :: done, g, rest, b₂, rfl, (hcons done).trans hrun₂, hpush done ▸ hrep₂, hlarge,
            (hcons _).trans herror⟩
      · right
        refine ⟨[], f, fs, b, rfl, rfl, by simpa [encodeAll] using h, hlarge, ?_⟩
        rw [appendAll, run_bind_error hthrow]

/-- A reader: its buffer, the fields in it that were not retrieved yet, all fields that ever got
into it, and the values retrieved so far. -/
structure Session where
  buf : ByteBuffer
  pending : List Field
  history : List Field
  got : List Value

inductive SessionAct
  /-- an `append_*` call on the reader's own host -/
  | append (f : Field)
  /-- the bytes of a field of the writer arrive and are appended -/
  | receive (f : Field)
  /-- the `retrieve_*` call that matches the next field -/
  | retrieve

/-- The field that an action brings. -/
def SessionAct.field? : SessionAct → Option Field
  | append f => some f
  | receive f => some f
  | retrieve => none

/-- The session after the call `m` that brings field `f`; a caught exception changes nothing. -/
def Session.bring (s : Session) (f : Field) (m : Method ByteBuffer Nat) : Option Session :=
  match m.run s.buf with
  | .ok _ buf => some { s with buf, pending := s.pending ++ [f], history := s.history ++ [f] }
  | .error .lengthError buf => some { s with buf }
  | .error _ _ => none

def sessionStep (B : Build) (writer reader : ByteOrder) (s : Session) :
    SessionAct → Option Session
  | .append f => s.bring f (f.append B reader)
  | .receive f => s.bring f (append B (f.encode writer s.buf.byteorder))
  | .retrieve =>
      match s.pending with
      | [] => none
      | f :: rest =>
          match (f.kind.retrieve B reader).run s.buf with
          | .ok val buf => some { s with buf, pending := rest, got := s.got ++ [val] }
          | .error _ _ => none

/-- Every field in the buffer can be read on host `reader`. -/
def Readable (writer reader : ByteOrder) (f : Field) : Prop :=
  f.Portable ∨ writer = reader

/-- What holds between two actions: the buffer holds exactly the fields not retrieved yet, and the
values retrieved so far followed by theirs are the values of all fields, in order. -/
structure Session.Inv (writer reader order : ByteOrder) (s : Session) : Prop where
  represents : s.buf.Represents
    { content := encodeAll writer order s.pending, byteorder := order }
  readable : ∀ f ∈ s.pending, Readable writer reader f
  values : s.got ++ s.pending.map Field.value = s.history.map Field.value

variable {reader : ByteOrder}

theorem encode_eq_of_readable {f : Field} (h : Readable writer reader f) (order : ByteOrder) :
    f.encode reader order = f.encode writer order := by
  rcases h with hport | rfl
  · cases f <;> simp_all [Field.encode, Field.Portable]
  · rfl

theorem length_encode_le (f : Field) (writer order : ByteOrder) :
    (f.encode writer order).length ≤ CharVector.maxSize := by
  have h8 : 8 ≤ CharVector.maxSize := by decide
  cases f with
  | string str =>
      rw [Field.encode, List.length_append]
      exact str.length_lt
  | uint8 val => exact Nat.le_trans (by decide : 1 ≤ 8) h8
  | uint16 val cov =>
      rw [Field.encode, length_encodedWord]
      exact Nat.le_trans (by decide) h8
  | uint32 val cov =>
      rw [Field.encode, length_encodedWord]
      exact Nat.le_trans (by decide) h8
  | uint64 val cov =>
      rw [Field.encode, length_encodedWord]
      exact Nat.le_trans (by decide) h8

theorem encodeAll_append (writer order : ByteOrder) (fs gs : List Field) :
    encodeAll writer order (fs ++ gs) = encodeAll writer order fs ++ encodeAll writer order gs :=
  List.flatMap_append

/-- The field `f` got into the buffer behind the others; or the container would have to be larger than
`max_size()` for it, and nothing has changed. -/
def Session.Brings (writer order : ByteOrder) (f : Field) (s s' : Session) : Prop :=
  s'.pending = s.pending ++ [f] ∧ s'.history = s.history ++ [f] ∧ s'.got = s.got ∨
    s' = s ∧ CharVector.maxSize < (f.encode writer order).length + s.buf.wtIndex

/-- A call that brings a field keeps the invariant, whether it returns or throws. -/
theorem Session.Inv.bring {s : Session} (h : s.Inv writer reader order) {f : Field}
    (hf : Readable writer reader f) {m : Method ByteBuffer Nat} {n : Nat}
    (hspec : Yields m s.buf
        (ByteFifo.push { content := encodeAll writer order s.pending, byteorder := order }
          (f.encode writer order)) n ∨
      Throws m s.buf ∧ CharVector.maxSize < (f.encode writer order).length + s.buf.wtIndex) :
    ∃ s', s.bring f m = some s' ∧ s'.Inv writer reader order ∧ s.Brings writer order f s' := by
  rcases hspec with ⟨buf, hrun, hrep⟩ | ⟨hthrow, hlarge⟩
  · refine ⟨{ s with buf, pending := s.pending ++ [f], history := s.history ++ [f] }, ?_,
      ⟨?_, ?_, ?_⟩, Or.inl ⟨rfl, rfl, rfl⟩⟩
    · simp only [Session.bring, hrun]
    · have hsnoc : encodeAll writer order (s.pending ++ [f]) =
          encodeAll writer order s.pending ++ f.encode writer order := by
        rw [encodeAll_append]
        simp [encodeAll]
      simpa [ByteFifo.push, hsnoc] using hrep
    · intro g hg
      rcases List.mem_append.mp hg with hg | hg
      · exact h.readable g hg
      · rw [List.mem_singleton.mp hg]
        exact hf
    · rw [List.map_append, List.map_append, ← List.append_assoc, h.values]
  -- A call that throws leaves the session as it was.
  · have hthrow : m.run s.buf = .error .lengthError s.buf := hthrow
    refine ⟨s, ?_, h, Or.inr ⟨rfl, hlarge⟩⟩
    simp only [Session.bring, hthrow]

/-- An action that brings a field can always be taken. -/
theorem Session.Inv.brings {s : Session} (h : s.Inv writer reader order) {act : SessionAct}
    {f : Field} (hact : act.field? = some f) (hf : Readable writer reader f) :
    ∃ s', sessionStep B writer reader s act = some s' ∧ s'.Inv writer reader order ∧
      s.Brings writer order f s' := by
  cases act with
  | append g =>
      obtain rfl : g = f := Option.some.inj hact
      have hspec := g.append_spec (B := B) reader h.represents
      rw [encode_eq_of_readable hf] at hspec
      exact h.bring hf hspec
  | receive g =>
      -- What arrives was encoded by the writer, in the order of the buffer.
      obtain rfl : g = f := Option.some.inj hact
      have horder : s.buf.byteorder = order := h.represents.byteorder_eq
      show ∃ s', s.bring g (append B (g.encode writer s.buf.byteorder)) = some s' ∧ _
      rw [horder]
      exact h.bring hf (h.represents.append_spec (length_encode_le g writer order))
  | retrieve => cases hact

/-- Retrieving the next field always succeeds and returns its value. -/
theorem Session.Inv.retrieve {s : Session} (h : s.Inv writer reader order) {f : Field}
    {rest : List Field} (hpending : s.pending = f :: rest) :
    ∃ s', sessionStep B writer reader s .retrieve = some s' ∧ s'.Inv writer reader order ∧
      s'.pending = rest ∧ s'.history = s.history ∧ s'.got = s.got ++ [f.value] := by
  have hf : Readable writer reader f := h.readable f (by simp [hpending])
  have hq : encodeAll writer order s.pending =
      f.encode writer order ++ encodeAll writer order rest := by
    simp [hpending, encodeAll]
  rcases f.retrieve_spec (B := B) h.represents hf hq with ⟨buf, hrun, hrep⟩
  refine ⟨{ s with buf, pending := rest, got := s.got ++ [f.value] }, ?_, ?_, rfl, rfl, rfl⟩
  · simp only [sessionStep, hpending, hrun]
  · refine ⟨hrep, ?_, ?_⟩
    · intro g hg
      exact h.readable g (by simp [hpending, hg])
    · have hvalues := h.values
      rw [hpending, List.map_cons] at hvalues
      simpa using hvalues

/-- One action keeps the invariant. -/
theorem Session.Inv.step {s s' : Session} (h : s.Inv writer reader order) {act : SessionAct}
    (hact : ∀ f, act.field? = some f → Readable writer reader f)
    (hstep : sessionStep B writer reader s act = some s') : s'.Inv writer reader order := by
  cases hfield : act.field? with
  | some f =>
      rcases h.brings (B := B) hfield (hact f hfield) with ⟨t, ht, hinv, -⟩
      cases ht.symm.trans hstep
      exact hinv
  | none =>
      cases act with
      | append f => cases hfield
      | receive f => cases hfield
      | retrieve =>
          cases hpending : s.pending with
          | nil => simp [sessionStep, hpending] at hstep
          | cons f rest =>
              rcases h.retrieve (B := B) hpending with ⟨t, ht, hinv, -⟩
              cases ht.symm.trans hstep
              exact hinv

theorem Session.Inv.run {s s' : Session} (h : s.Inv writer reader order) {acts : List SessionAct}
    (hacts : ∀ act ∈ acts, ∀ f, act.field? = some f → Readable writer reader f)
    (hrun : Lib.run (sessionStep B writer reader) s acts = some s') :
    s'.Inv writer reader order := by
  -- On the actions, with the invariant carried from step to step.
  induction acts generalizing s with
  | nil =>
      cases hrun
      exact h
  | cons act acts ih =>
      obtain ⟨t, ht, hts⟩ := run_cons.mp hrun
      exact ih (h.step (hacts act (by simp)) ht) (fun a ha => hacts a (by simp [ha])) hts

/-- The typed codec, between any two hosts: appending fields adds their encodings, which for
converted integers and for strings are the same on every host; and on a buffer that holds the
encodings, retrievals in the order of the fields, between any further appends, return the values
that were appended and consume their bytes.  Unconverted integers need hosts of one byte order.  An
append throws only where the container would have to be larger than `max_size()`. -/
theorem codec_round_trip (B : Build) (writer reader order : ByteOrder) (fs : List Field)
    (acts : List SessionAct) (hfs : ∀ f ∈ fs, Readable writer reader f)
    (hacts : ∀ act ∈ acts, ∀ f, act.field? = some f → Readable writer reader f) :
    (∀ f : Field, f.Portable → ∀ host (b : ByteBuffer) (q : ByteFifo), b.Represents q →
      q.byteorder = order →
      Yields (f.append B host) b (q.push (f.encode writer order))
          (q.push (f.encode writer order)).content.length ∨
        Throws (f.append B host) b ∧
          CharVector.maxSize < (f.encode writer order).length + b.wtIndex) ∧
    (∀ (b : ByteBuffer) (q : ByteFifo), b.Represents q → q.byteorder = order →
      (∃ b', (appendAll B writer fs).run b = .ok () b' ∧
        b'.Represents (q.push (encodeAll writer order fs))) ∨ RunsOut B writer fs b q) ∧
    (∀ (b : ByteBuffer),
      b.Represents { content := encodeAll writer order fs, byteorder := order } →
      ∀ s, run (sessionStep B writer reader)
          { buf := b, pending := fs, history := fs, got := [] } acts = some s →
        s.got ++ s.pending.map Field.value = s.history.map Field.value ∧
        s.buf.content = encodeAll writer order s.pending ∧
        (∀ f rest, s.pending = f :: rest →
          ∃ s', sessionStep B writer reader s .retrieve = some s' ∧
            s'.got = s.got ++ [f.value] ∧ s'.pending = rest ∧
            s'.buf.content = encodeAll writer order rest) ∧
        ∀ act f, act.field? = some f → Readable writer reader f →
          ∃ s', sessionStep B writer reader s act = some s' ∧ s.Brings writer order f s') := by
  refine ⟨?_, ?_, ?_⟩
  · rintro f hf host b q h rfl
    have hencode : f.encode host q.byteorder = f.encode writer q.byteorder :=
      encode_eq_of_readable (Or.inl hf) q.byteorder
    rw [← hencode]
    exact f.append_spec host h
  · rintro b q h rfl
    exact appendAll_spec h fs
  · intro b h s hrun
    -- The start of a session meets the invariant: the encodings are the content.
    have hstart : Session.Inv writer reader order
        { buf := b, pending := fs, history := fs, got := [] } := ⟨h, hfs, rfl⟩
    have hinv := hstart.run hacts hrun
    refine ⟨hinv.values, hinv.represents.content_eq, ?_, ?_⟩
    · intro f rest hpending
      rcases hinv.retrieve (B := B) hpending with ⟨s', hs', hinv', hrest, -, hgot⟩
      refine ⟨s', hs', hgot, hrest, ?_⟩
      rw [← hrest]
      exact hinv'.represents.content_eq
    · intro act f hact hf
      rcases hinv.brings (B := B) hact hf with ⟨s', hs', -, hbrings⟩
      exact ⟨s', hs', hbrings⟩

/-- A converted integer and a string. -/
def wordAndString : List Field :=
  [.uint32 0x01020304 true, .string ⟨[0x61, 0x62], by decide, by decide⟩]

/-- A buffer to which a big-endian host has appended them. -/
def holdingBoth : ByteBuffer :=
  { byteorder := .liteEndian
    contianer :=
      { elems := List.replicate 8 0 ++ [4, 3, 2, 1, 0x61, 0x62, 0]
        capacity := 15
        length_le_capacity := by decide
        capacity_le_max := by decide }
    rdIndex := 8
    wtIndex := 15 }

/-- They are retrieved on a little-endian host, between a further append. -/
theorem codec_round_trip_two_hosts :
    (∃ b', (appendAll .debug .bigEndian wordAndString).run
        { freshFour with byteorder := .liteEndian } = .ok () b' ∧ b'.content = holdingBoth.content) ∧
      ∃ s, run (sessionStep .debug .bigEndian .liteEndian)
          { buf := holdingBoth, pending := wordAndString, history := wordAndString, got := [] }
          [.retrieve, .append (.uint16 7 true), .retrieve] = some s ∧
        s.got = [.uint32 0x01020304, .string [0x61, 0x62]] ∧ s.buf.content = [7, 0] ∧
        s.history.map Field.value = s.got ++ [.uint16 7] := by
  have happended : (match (appendAll .debug .bigEndian wordAndString).run
      { freshFour with byteorder := .liteEndian } with
        | .ok _ b' => decide (b'.content = holdingBoth.content)
        | .error _ _ => false) = true := by
    decide +kernel
  have hany : (run (sessionStep .debug .bigEndian .liteEndian)
      { buf := holdingBoth, pending := wordAndString, history := wordAndString, got := [] }
      [.retrieve, .append (.uint16 7 true), .retrieve]).any
      (fun s => decide (s.got = [.uint32 0x01020304, .string [0x61, 0x62]] ∧
        s.pending.map Field.value = [.uint16 7] ∧ s.buf.content = [7, 0])) = true := by
    decide +kernel
  have hrep : holdingBoth.Represents
      { content := encodeAll .bigEndian .liteEndian wordAndString, byteorder := .liteEndian } :=
    { resver_le_rd := by decide
      rd_le_wt := by decide
      wt_le_storage := by decide
      content_eq := by decide +kernel
      byteorder_eq := rfl }
  have hfresh : ({ freshFour with byteorder := .liteEndian } : ByteBuffer).Represents
      { content := [], byteorder := .liteEndian } :=
    { resver_le_rd := by decide
      rd_le_wt := by decide
      wt_le_storage := by decide
      content_eq := by decide +kernel
      byteorder_eq := rfl }
  have hround := codec_round_trip .debug .bigEndian .liteEndian .liteEndian wordAndString
    [.retrieve, .append (.uint16 7 true), .retrieve]
    (by simp [wordAndString, Readable, Field.Portable])
    (by simp [Readable, Field.Portable, SessionAct.field?])
  constructor
  · rcases hround.2.1 _ _ hfresh rfl with ⟨b', hrun, hrep'⟩ | ⟨_, _, _, b', -, -, -, -, herror⟩
    · exact ⟨b', hrun, hrep'.content_eq.trans hrep.content_eq.symm⟩
    · rw [herror] at happended
      cases happended
  · rcases exists_run_of_any hany with ⟨s, hrun, hgot, hpending, hcontent⟩
    have hvalues := (hround.2.2 holdingBoth hrep s hrun).1
    rw [hpending] at hvalues
    exact ⟨s, hrun, hgot, hcontent, hvalues.symm⟩

end ByteBuffer

end Net
end Muradin
