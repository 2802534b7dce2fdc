import Muradin.Net.ByteBuffer.Refinement

/-!
# Consume — taking bytes from the front of a buffer

`Consume` are the member functions that take readable bytes.  Whatever such a call is asked for, it
either returns and has taken the first bytes of the queue, or it stops and the buffer is as it was
(`Consume.run_exec`): its assertions and its reads come before its first store.
-/

namespace Muradin
namespace Net

open Lib Cpp

namespace ByteBuffer

inductive Consume
  | discard (bytes : Nat)
  | discardAll
  | retrieveUint8
  | retrieveUint16 (byteorderCov : Bool)
  | retrieveUint32 (byteorderCov : Bool)
  | retrieveUint64 (byteorderCov : Bool)
  | retrieveString
  deriving DecidableEq

namespace Consume

def op : Consume → Op
  | discard bytes => .discard bytes
  | discardAll => .discardAll
  | retrieveUint8 => .retrieveUint8
  | retrieveUint16 cov => .retrieveUint16 cov
  | retrieveUint32 cov => .retrieveUint32 cov
  | retrieveUint64 cov => .retrieveUint64 cov
  | retrieveString => .retrieveString

/-- How many of the readable bytes a call takes that returns. -/
def count (content : List Byte) : Consume → Nat
  | discard bytes => bytes
  | discardAll => content.length
  | retrieveUint8 => 1
  | retrieveUint16 _ => 2
  | retrieveUint32 _ => 4
  | retrieveUint64 _ => 8
  | retrieveString => if 0 ∈ content then content.idxOf 0 + 1 else 0

end Consume

variable {b : ByteBuffer} {q : ByteFifo} {B : Build} {host : ByteOrder} {w n : Nat}

/-- More than the readable bytes: a Debug build stops, a Release build takes all of them. -/
theorem Represents.discard_total (h : b.Represents q) (n : Nat) :
    Yields (discard B n) b (q.pop n) (q.pop n).content.length ∨
      (discard B n).run b = .error .assertion b := by
  rcases Nat.lt_or_ge q.content.length n with hlt | hge
  · cases B with
    | debug =>
        right
        have hfails : (cassert .debug (n ≤ q.content.length)).run b = .error .assertion b :=
          run_cassert_debug (Nat.not_le.mpr hlt) b
        rw [discard, run_bind_ok h.run_readableBytes, run_bind_error hfails]
    | release =>
        left
        have hall : q.pop n = q.clear := ByteFifo.pop_of_length_le (Nat.le_of_lt hlt)
        rcases h.discardAll_spec with ⟨b', hrun, hrep⟩
        rw [hall]
        refine ⟨b', ?_, hrep⟩
        rw [discard, run_bind_ok h.run_readableBytes, run_bind_ok (run_cassert_release b),
          if_pos (Nat.le_of_lt hlt), run_bind_ok hrun, hrep.run_readableBytes]
  · exact Or.inl (h.discard_spec hge)

theorem keeps_readableBytes {ρ : Type} (f : ByteBuffer → ρ) : Keeps f (readableBytes B) := by
  refine (Keeps.get f).bind fun b => ?_
  exact (Keeps.cassert f B _).bind fun _ => Keeps.pure f _

/-- Reading an integer changes nothing. -/
theorem keeps_readUint {ρ : Type} (f : ByteBuffer → ρ)
    (byteorderValue : ByteOrder → BitVec w → BitVec w) (cov : Bool) :
    Keeps f (readUint B host n byteorderValue cov) := by
  refine (keeps_readableBytes f).bind fun readable => ?_
  refine (Keeps.cassert f B _).bind fun _ => ?_
  have hread : Keeps f (readInteger host w n) :=
    (Keeps.get f).bind fun b => (Keeps.orThrow f _).bind fun bytes => Keeps.pure f _
  exact hread.bind fun val => (Keeps.get f).bind fun b => Keeps.pure f _

theorem Represents.retrieveUint_total (h : b.Represents q)
    (byteorderValue : ByteOrder → BitVec w → BitVec w) (cov : Bool) :
    (∃ val, Yields (retrieveUint B n (readUint B host n byteorderValue cov)) b (q.pop n) val) ∨
      ∃ e, (retrieveUint B n (readUint B host n byteorderValue cov)).run b = .error e b := by
  have hkeeps : stateOf ((readUint B host n byteorderValue cov).run b) = b :=
    keeps_readUint id byteorderValue cov b
  cases hread : (readUint B host n byteorderValue cov).run b with
  | ok val t =>
      rw [hread] at hkeeps
      obtain rfl : t = b := hkeeps
      rcases h.discard_total (B := B) n with ⟨b', hrun, hrep⟩ | habort
      · refine Or.inl ⟨val, b', ?_, hrep⟩
        simp only [retrieveUint, EStateM.run_bind, hread, hrun, EStateM.run_pure]
      · refine Or.inr ⟨.assertion, ?_⟩
        simp only [retrieveUint, EStateM.run_bind, hread, habort]
  | error e t =>
      rw [hread] at hkeeps
      obtain rfl : t = b := hkeeps
      refine Or.inr ⟨e, ?_⟩
      simp only [retrieveUint, EStateM.run_bind, hread]

/-- A call takes its bytes from the front, or stops and leaves the buffer as it was. -/
theorem Consume.run_exec (B : Build) (host : ByteOrder) (c : Consume) (h : b.Represents q) :
    (∃ out, Yields (c.op.exec B host) b (q.pop (c.count q.content)) out) ∨
      ∃ e, (c.op.exec B host).run b = .error e b := by
  -- The result of a call is that of its member function.
  have hmap : ∀ {α : Type} {m : Method ByteBuffer α} (f : α → Out) {q' : ByteFifo},
      (∃ a, Yields m b q' a) ∨ (∃ e, m.run b = .error e b) →
        (∃ out, Yields (f <$> m) b q' out) ∨ ∃ e, (f <$> m).run b = .error e b := by
    rintro α m f q' (⟨a, b', hrun, hrep⟩ | ⟨e, herr⟩)
    · exact Or.inl ⟨f a, b', run_map_ok hrun, hrep⟩
    · exact Or.inr ⟨e, run_map_error herr⟩
  cases c with
  | discard bytes =>
      refine hmap _ ?_
      rcases h.discard_total (B := B) bytes with hyields | habort
      · exact Or.inl ⟨_, hyields⟩
      · exact Or.inr ⟨_, habort⟩
  | discardAll =>
      have hall : q.pop q.content.length = q.clear := ByteFifo.pop_of_length_le (Nat.le_refl _)
      refine hmap _ (Or.inl ⟨(), ?_⟩)
      rw [count, hall]
      exact h.discardAll_spec
  | retrieveUint8 => exact hmap _ (h.retrieveUint_total _ _)
  | retrieveUint16 cov => exact hmap _ (h.retrieveUint_total _ cov)
  | retrieveUint32 cov => exact hmap _ (h.retrieveUint_total _ cov)
  | retrieveUint64 cov => exact hmap _ (h.retrieveUint_total _ cov)
  | retrieveString =>
      refine hmap _ (Or.inl ?_)
      -- Without a 0 among the readable bytes nothing is taken.
      by_cases h0 : 0 ∈ q.content
      · rw [count, if_pos h0]
        exact ⟨_, h.retrieveString_spec h0⟩
      · rw [count, if_neg h0, ByteFifo.pop_zero]
        exact ⟨_, b, h.retrieveString_spec_of_notMem h0, h⟩

end ByteBuffer

end Net
end Muradin
