import Muradin.Net.ByteBuffer.Reachable

/-!
# Aliasing — a buffer appended to a buffer

`append(const bytebuffer&)` takes the pointer to its source before `make_space`.  For two objects
that is harmless.  For one object `make_space` works on the source itself: moving the readable bytes
down overwrites a part of what the pointer shows, and a reallocation frees it.
-/

namespace Muradin
namespace Net

open Lib Cpp

namespace ByteBuffer

variable {B : Build} {bufs : Nat → ByteBuffer} {i j : Nat}

/-- `bufs[i].append(bufs[j])`; for `i = j` both are one object. -/
def appendAt (B : Build) (i j : Nat) : Method (Nat → ByteBuffer) Nat := do
  let bufs ← get
  atIndex i (if i = j then appendSelf B else appendBuffer B (bufs j))

/-- The readable bytes of `bufs[i]` are those of both buffers, and another object `bufs[j]` is as it
was; or the container would have to be larger than `max_size()` for them, and all buffers are as they
were. -/
def Appends (B : Build) (i j : Nat) (bufs : Nat → ByteBuffer) : Prop :=
  (∃ n bufs', (appendAt B i j).run bufs = .ok n bufs' ∧
      (bufs' i).content = (bufs i).content ++ (bufs j).content ∧ (i ≠ j → bufs' j = bufs j)) ∨
    (appendAt B i j).run bufs = .error .lengthError bufs ∧
      CharVector.maxSize < (bufs j).content.length + (bufs i).wtIndex

/-- With free bytes enough, the readable bytes repeat themselves at the distance by which they are
moved (as they do if it is 0, or at least their number).  Without, the container has the capacity for
twice the readable bytes, or none can have it. -/
def SelfAppendable (b : ByteBuffer) : Prop :=
  if b.content.length ≤ b.freeBytes then
    b.content.drop (b.rdIndex - resverIndex) =
      b.content.take (b.content.length - (b.rdIndex - resverIndex))
  else
    b.content.length + b.wtIndex ≤ b.contianer.capacity ∨
      CharVector.maxSize < b.content.length + b.wtIndex

instance (b : ByteBuffer) : Decidable (SelfAppendable b) :=
  inferInstanceAs (Decidable (if b.content.length ≤ b.freeBytes then _ = _ else _ ∨ _))

/-! ## One object -/

variable {b : ByteBuffer}

/-- What the pointer shows behind a move are the readable bytes exactly if they repeat themselves. -/
theorem sourceBehindMove_eq_iff (b : ByteBuffer) :
    b.sourceBehindMove = b.content ↔
      b.content.drop (b.rdIndex - resverIndex) =
        b.content.take (b.content.length - (b.rdIndex - resverIndex)) := by
  have hsplit := List.take_append_drop (b.content.length - (b.rdIndex - resverIndex)) b.content
  constructor
  · intro heq
    apply List.append_cancel_right
    rw [hsplit]
    exact heq
  · intro hrepeats
    rw [sourceBehindMove, hrepeats, hsplit]

/-- `append(*this)` appends the readable bytes, or asks for more than `max_size()`, throws and leaves
the buffer as it was. -/
def AppendsSelf (B : Build) (b : ByteBuffer) : Prop :=
  (∃ n b', (appendSelf B).run b = .ok n b' ∧ b'.content = b.content ++ b.content) ∨
    Throws (appendSelf B) b ∧ CharVector.maxSize < b.content.length + b.wtIndex

theorem Inv.appendsSelf_iff (h : b.Inv) : AppendsSelf B b ↔ b.SelfAppendable := by
  rw [SelfAppendable]
  split
  · next hn =>
    rcases h.represents.appendSelf_move_spec (B := B) hn with ⟨b₁, hrun, hrep⟩
    have hcontent : b₁.content = b.content ++ b.sourceBehindMove := hrep.content_eq
    rw [← sourceBehindMove_eq_iff]
    constructor
    · rintro (⟨n, b', hrun', hboth⟩ | ⟨hthrow, -⟩)
      · cases hrun.symm.trans hrun'
        exact List.append_cancel_left (hcontent.symm.trans hboth)
      · cases hrun.symm.trans hthrow
    · intro heq
      exact Or.inl ⟨_, b₁, hrun, by rw [hcontent, heq]⟩
  · next hn =>
    have hn : b.freeBytes < b.content.length := Nat.lt_of_not_le hn
    constructor
    · intro happends
      by_contra hneither
      obtain ⟨hcap, hmax⟩ := not_or.mp hneither
      -- The pointer would show freed memory.
      rcases h.appendSelf_realloc (B := B) hn (Nat.lt_of_not_le hcap) (Nat.le_of_not_lt hmax) with
        ⟨b₁, hrun⟩
      rcases happends with ⟨n, b', hrun', -⟩ | ⟨hthrow, -⟩
      · cases hrun.symm.trans hrun'
      · cases hrun.symm.trans hthrow
    · rintro (hcap | hmax)
      · rcases h.represents.appendSelf_grow_spec (B := B) hn hcap with ⟨b₁, hrun, hrep⟩
        exact Or.inl ⟨_, b₁, hrun, hrep.content_eq⟩
      · exact Or.inr ⟨h.appendSelf_throw hn hmax, hmax⟩

/-! ## Two objects or one -/

theorem run_appendAt_self (i : Nat) (bufs : Nat → ByteBuffer) :
    (appendAt B i i).run bufs = (atIndex i (appendSelf B)).run bufs := by
  rw [appendAt, run_bind_ok (EStateM.run_get bufs), if_pos rfl]

theorem run_appendAt_of_ne (hne : i ≠ j) (bufs : Nat → ByteBuffer) :
    (appendAt B i j).run bufs = (atIndex i (appendBuffer B (bufs j))).run bufs := by
  rw [appendAt, run_bind_ok (EStateM.run_get bufs), if_neg hne]

/-- On one object the other objects play no part. -/
theorem appends_self_iff (i : Nat) (bufs : Nat → ByteBuffer) :
    Appends B i i bufs ↔ AppendsSelf B (bufs i) := by
  rw [Appends, run_appendAt_self]
  cases hself : (appendSelf B).run (bufs i) with
  | ok n b =>
      have hrun : (atIndex i (appendSelf B)).run bufs = .ok n (Function.update bufs i b) :=
        run_atIndex_ok hself
      constructor
      · rintro (⟨n', bufs', hrun', hboth, -⟩ | ⟨hthrow, -⟩)
        · cases hrun.symm.trans hrun'
          rw [Function.update_self] at hboth
          exact Or.inl ⟨n, b, hself, hboth⟩
        · cases hrun.symm.trans hthrow
      · rintro (⟨n', b', hrun', hboth⟩ | ⟨hthrow, -⟩)
        · cases hself.symm.trans hrun'
          refine Or.inl ⟨n, _, hrun, ?_, fun hne => absurd rfl hne⟩
          rw [Function.update_self]
          exact hboth
        · cases hself.symm.trans hthrow
  | error e b =>
      have hrun : (atIndex i (appendSelf B)).run bufs = .error e (Function.update bufs i b) :=
        run_onField_error hself
      constructor
      · rintro (⟨n, bufs', hrun', -⟩ | ⟨hthrow, hlarge⟩)
        · cases hrun.symm.trans hrun'
        · obtain ⟨rfl, hsame⟩ := EStateM.Result.error.inj (hrun.symm.trans hthrow)
          have hb : b = bufs i := by
            rw [← congrFun hsame i, Function.update_self]
          right
          rw [Throws, hself, hb]
          exact ⟨rfl, hlarge⟩
      · rintro (⟨n, b', hrun', -⟩ | ⟨hthrow, hlarge⟩)
        · cases hself.symm.trans hrun'
        · exact Or.inr ⟨run_atIndex_throws hthrow, hlarge⟩

theorem appends_of_ne (hi : (bufs i).Inv) (hj : (bufs j).Inv) (hne : i ≠ j) : Appends B i j bufs := by
  rw [Appends, run_appendAt_of_ne hne]
  rcases hi.represents.appendBuffer_spec (B := B) hj.represents with
    ⟨b', hrun, hrep⟩ | ⟨hthrow, hlarge⟩
  · refine Or.inl ⟨_, _, run_atIndex_ok hrun, ?_, fun _ => ?_⟩
    · rw [Function.update_self]
      exact hrep.content_eq
    · exact Function.update_of_ne (Ne.symm hne) _ _
  · exact Or.inr ⟨run_atIndex_throws hthrow, hlarge⟩

/-- A buffer in the documented layout that is appended to another one appends its readable bytes; one
that is appended to itself does so exactly if it is `SelfAppendable`.  A buffer is in the layout as
long as no sum of a call has wrapped and no `resize` was below the write index. -/
theorem append_iff (B : Build) (host : ByteOrder) :
    (∀ b, Reachable B host b → b.Inv) ∧
      ∀ (bufs : Nat → ByteBuffer) (i j : Nat), (bufs i).Inv → (bufs j).Inv →
        (Appends B i j bufs ↔ (i = j → (bufs i).SelfAppendable)) := by
  refine ⟨fun _ h => h.inv, ?_⟩
  intro bufs i j hi hj
  by_cases heq : i = j
  · subst heq
    rw [appends_self_iff, hi.appendsSelf_iff]
    exact ⟨fun hself _ => hself, fun hself => hself rfl⟩
  · exact iff_of_true (appends_of_ne hi hj heq) fun hsame => absurd hsame heq

/-- A new buffer is given space for eight bytes, four are appended, and one of them is discarded. -/
def oneDiscarded : ByteBuffer :=
  { freshFour with
    contianer :=
      { elems := List.replicate 8 0 ++ [1, 2, 3, 4, 0, 0, 0, 0]
        capacity := 24
        length_le_capacity := by decide
        capacity_le_max := by decide }
    rdIndex := 9
    wtIndex := 12 }

theorem reachable_oneDiscarded : Reachable .debug .liteEndian oneDiscarded := by
  have hrun : run (callStep .debug .liteEndian) freshFour
      [.ensureWriteSpace 8, .append ⟨[1, 2, 3, 4], by decide⟩, .discard 1] = some oneDiscarded := by
    decide +kernel
  exact (reachable_freshFour .debug .liteEndian).run hrun

theorem append_iff_oneDiscarded :
    (∃ n bufs', (appendAt .debug 0 1).run (fun _ => oneDiscarded) = .ok n bufs' ∧
        (bufs' 0).content = [2, 3, 4, 2, 3, 4] ∧ bufs' 1 = oneDiscarded) ∧
      ¬ Appends .debug 0 0 (fun _ => oneDiscarded) := by
  have hiff := append_iff .debug .liteEndian
  have hinv := hiff.1 oneDiscarded reachable_oneDiscarded
  constructor
  · rcases (hiff.2 (fun _ => oneDiscarded) 0 1 hinv hinv).mpr (by simp) with
      ⟨n, bufs', hrun, hboth, hother⟩ | ⟨-, hlarge⟩
    · exact ⟨n, bufs', hrun, hboth, hother Nat.zero_ne_one⟩
    · exact absurd hlarge (by decide)
  · intro happends
    exact absurd ((hiff.2 (fun _ => oneDiscarded) 0 0 hinv hinv).mp happends rfl) (by decide)

/-- The three readable bytes are moved down by one, and the copy begins with the second of them. -/
theorem self_append_copies_moved_bytes :
    (∃ b', (appendSelf .debug).run oneDiscarded = .ok 6 b' ∧ b'.content = [2, 3, 4, 3, 4, 4]) ∧
      ¬ ∀ (B : Build) (host : ByteOrder) (bufs : Nat → ByteBuffer) (i j : Nat),
        (∀ k, Reachable B host (bufs k)) → Appends B i j bufs := by
  have hself : ∃ b', (appendSelf .debug).run oneDiscarded = .ok 6 b' ∧
      b'.content = [2, 3, 4, 3, 4, 4] := ⟨_, rfl, by decide⟩
  refine ⟨hself, ?_⟩
  intro h
  rcases hself with ⟨b', hrun, hcontent⟩
  have happends := h .debug .liteEndian (fun _ => oneDiscarded) 0 0
    (fun _ => reachable_oneDiscarded)
  rcases (appends_self_iff 0 _).mp happends with ⟨n, b'', hrun', hboth⟩ | ⟨hthrow, -⟩
  · cases hrun.symm.trans hrun'
    have htwice : ([2, 3, 4, 3, 4, 4] : List Byte) = oneDiscarded.content ++ oneDiscarded.content :=
      hcontent.symm.trans hboth
    exact absurd htwice (by decide)
  · cases hrun.symm.trans hthrow

end ByteBuffer

end Net
end Muradin
