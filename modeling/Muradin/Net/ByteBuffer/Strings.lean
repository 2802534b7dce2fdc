import Muradin.Net.ByteBuffer.Codec
import Muradin.Net.ByteBuffer.Reachable

/-!
# Strings — C strings in a buffer

`as_string()` reads a C string at `rd_ptr()`, and nothing ends it at `m_wt_index`: what earlier calls
have left behind the readable bytes is read as well, up to the next NUL.  `append_str` appends a
string without its NUL, and `retrieve_string` looks for one.
-/

namespace Muradin
namespace Net

open Lib Cpp

namespace ByteBuffer

variable {B : Build} {host : ByteOrder} {b b₁ b₂ : ByteBuffer} {q : ByteFifo}

/-! ## `as_string` -/

/-- `as_string()` returns the readable bytes up to the first NUL among them, or all of them. -/
def ShowsReadable (b : ByteBuffer) : Prop :=
  asString.run b = .ok (b.content.takeWhile (· ≠ 0)) b

/-- The first byte behind the readable ones is a NUL of the container. -/
def NulBehind (b : ByteBuffer) : Prop :=
  b.contianer.elems[b.wtIndex]? = some 0

instance (b : ByteBuffer) : Decidable (NulBehind b) :=
  inferInstanceAs (Decidable (_ = _))

theorem run_asString (b : ByteBuffer) :
    asString.run b = (orThrow (b.contianer.loadCString b.rdIndex)).run b := rfl

/-- A list begins with a NUL exactly if a NUL ends the empty string at its beginning. -/
theorem head_nul_iff (bytes : List Byte) :
    bytes.head? = some 0 ↔ 0 ∈ bytes ∧ bytes.takeWhile (· ≠ 0) = [] := by
  cases bytes with
  | nil => simp
  | cons x rest =>
      by_cases hx : x = 0#8
      · subst hx
        simp
      · simp [hx]

theorem Inv.showsReadable_iff (h : b.Inv) : ShowsReadable b ↔ 0 ∈ b.content ∨ NulBehind b := by
  rw [ShowsReadable, run_asString]
  by_cases h0 : 0 ∈ b.content
  · rw [h.represents.loadCString_eq h0]
    exact iff_of_true rfl (Or.inl h0)
  · -- The string goes on with the bytes behind the write index.
    have hall : b.content.takeWhile (· ≠ 0) = b.content := by
      rw [List.takeWhile_eq_self_iff]
      intro x hx
      have hne : x ≠ 0 := fun hzero => h0 (hzero ▸ hx)
      simpa using hne
    have hbehind : NulBehind b ↔ 0 ∈ b.contianer.elems.drop b.wtIndex ∧
        (b.contianer.elems.drop b.wtIndex).takeWhile (· ≠ 0) = [] := by
      rw [← head_nul_iff, List.head?_drop, NulBehind]
    have hstring : ((b.contianer.elems.drop b.rdIndex).takeWhile (· ≠ 0)) =
        b.content ++ (b.contianer.elems.drop b.wtIndex).takeWhile (· ≠ 0) := by
      rw [h.drop_rdIndex, List.takeWhile_append, hall, if_pos rfl]
    have hmem : 0 ∈ b.contianer.elems.drop b.rdIndex ↔ 0 ∈ b.contianer.elems.drop b.wtIndex := by
      rw [h.drop_rdIndex, List.mem_append]
      exact or_iff_right h0
    rw [or_iff_right h0, hbehind, CharVector.loadCString, hstring, hall]
    constructor
    · intro hrun
      split at hrun
      · next hnul =>
        obtain ⟨heq, -⟩ := EStateM.Result.ok.inj hrun
        exact ⟨hmem.mp hnul, List.append_right_eq_self.mp heq⟩
      · cases hrun
    · rintro ⟨hnul, hempty⟩
      rw [if_pos (hmem.mpr hnul), hempty, List.append_nil]
      rfl

/-- A buffer with the same readable bytes and nothing behind them. -/
theorem Reachable.exists_full (h : Reachable B host b) :
    ∃ b', Reachable B host b' ∧ b'.content = b.content ∧ b'.byteorder = b.byteorder ∧
      ¬ NulBehind b' := by
  have hlen := length_content h.inv
  have hresver : resverIndex ≤ b.rdIndex := h.inv.resver_le_rd
  have hrd := h.inv.rd_le_wt
  have hwt := h.inv.wt_le_storage
  have hsize : b.storage ≤ CharVector.maxSize := b.contianer.size_le_maxSize
  have hmax : CharVector.maxSize < SizeT.modulus := by decide
  have hpre : resverIndex + b.content.length + 0 < SizeT.modulus := by omega
  rcases h.inv.represents.shrink_spec (B := B) hpre with ⟨b', hrun, hrep, hstorage, hfree⟩ | ⟨-, hlarge⟩
  · refine ⟨b', .call (.shrink 0) h hpre (run_map_ok hrun), hrep.content_eq, hrep.byteorder_eq, ?_⟩
    have hend : b'.contianer.elems.length ≤ b'.wtIndex := Nat.le_of_sub_eq_zero hfree
    rw [NulBehind, List.getElem?_eq_none hend]
    simp
  · have hlarge : CharVector.maxSize < resverIndex + b.content.length + 0 := hlarge
    omega

/-- Two reachable buffers with the same readable bytes both show these exactly if there is a NUL
among them, or right behind them in both; all buffers with these readable bytes show them exactly if
there is a NUL among them. -/
theorem as_string_iff (h₁ : Reachable B host b₁) (h₂ : Reachable B host b₂)
    (hcontent : b₂.content = b₁.content) :
    (ShowsReadable b₁ ∧ ShowsReadable b₂ ↔ 0 ∈ b₁.content ∨ NulBehind b₁ ∧ NulBehind b₂) ∧
      ((∀ b, Reachable B host b → b.content = b₁.content → b.byteorder = b₁.byteorder →
        ShowsReadable b) ↔ 0 ∈ b₁.content) := by
  constructor
  · rw [h₁.inv.showsReadable_iff, h₂.inv.showsReadable_iff, hcontent, or_and_left]
  · constructor
    · intro hall
      rcases h₁.exists_full with ⟨b, hb, hsame, horder, hbehind⟩
      have hshows := hall b hb hsame horder
      rw [hb.inv.showsReadable_iff, hsame] at hshows
      exact hshows.resolve_right hbehind
    · intro h0 b hb hsame _
      rw [hb.inv.showsReadable_iff, hsame]
      exact Or.inl h0

/-- Three bytes are appended to a new buffer and discarded, and then two more are appended. -/
def hiBefore (x : Byte) : ByteBuffer :=
  { freshFour with
    contianer :=
      { elems := List.replicate 8 0 ++ [0x68, 0x69, x, 0]
        capacity := 12
        length_le_capacity := Nat.le_of_eq rfl
        capacity_le_max := freshFour.contianer.capacity_le_max }
    wtIndex := 10 }

theorem reachable_hiBefore (B : Build) {x : Byte} (hx : x = 0 ∨ x = 0x63) :
    Reachable B .liteEndian (hiBefore x) := by
  have hrun : run (callStep B .liteEndian) freshFour
      [.append ⟨[x, x, x], (by decide : 3 ≤ CharVector.maxSize)⟩, .discardAll,
        .append ⟨[0x68, 0x69], by decide⟩] = some (hiBefore x) := by
    rcases hx with rfl | rfl <;> cases B <;> decide +kernel
  exact (reachable_freshFour B .liteEndian).run hrun

theorem as_string_iff_hiBefore :
    ShowsReadable (hiBefore 0) ∧ ¬ (ShowsReadable (hiBefore 0) ∧ ShowsReadable (hiBefore 0x63)) := by
  have hzero := reachable_hiBefore .debug (Or.inl rfl)
  have hsame := (as_string_iff hzero hzero rfl).1
  have hother := (as_string_iff hzero (reachable_hiBefore .debug (Or.inr rfl)) rfl).1
  refine ⟨(hsame.mpr (by decide)).1, ?_⟩
  intro hshows
  exact absurd (hother.mp hshows) (by decide)

/-- "hi" is readable in both buffers; one of them shows a "c" that was discarded. -/
theorem as_string_shows_stale_byte :
    (hiBefore 0x63).content = (hiBefore 0).content ∧
      asString.run (hiBefore 0) = .ok [0x68, 0x69] (hiBefore 0) ∧
      asString.run (hiBefore 0x63) = .ok [0x68, 0x69, 0x63] (hiBefore 0x63) ∧
      ¬ ∀ (B : Build) (host : ByteOrder) (b₁ b₂ : ByteBuffer), Reachable B host b₁ →
        Reachable B host b₂ → b₂.content = b₁.content → b₂.byteorder = b₁.byteorder →
          ShowsReadable b₁ ∧ ShowsReadable b₂ := by
  have hstale : asString.run (hiBefore 0x63) = .ok [0x68, 0x69, 0x63] (hiBefore 0x63) := rfl
  refine ⟨rfl, rfl, hstale, ?_⟩
  intro h
  have hshows := (h .debug .liteEndian _ _ (reachable_hiBefore _ (Or.inl rfl))
    (reachable_hiBefore _ (Or.inr rfl)) rfl rfl).2
  obtain ⟨heq, -⟩ := EStateM.Result.ok.inj (hstale.symm.trans hshows)
  exact absurd heq (by decide)

/-! ## `append_str` and `retrieve_string` -/

/-- Append C strings one after the other; each ends with its NUL in the memory of the caller. -/
def appendStrs (B : Build) : List CString → Method ByteBuffer Unit
  | [] => pure ()
  | str :: strs => do
      let _ ← appendStr B (str.bytes ++ [0])
      appendStrs B strs

/-- Retrieve `k` strings. -/
def retrieveStrings (B : Build) : Nat → Method ByteBuffer (List (List Byte))
  | 0 => return []
  | k + 1 => do
      let str ← retrieveString B
      let strs ← retrieveStrings B k
      return str :: strs

/-- What is appended of a C string is the string without its NUL. -/
theorem appendStr_eq (str : CString) : appendStr B (str.bytes ++ [0]) = append B str.bytes := by
  have hbytes : (str.bytes ++ [0]).takeWhile (· ≠ 0) = str.bytes := by
    rw [List.takeWhile_append_of_pos]
    · simp
    · intro x hx
      have hne : x ≠ 0 := fun hzero => str.nulFree (hzero ▸ hx)
      simpa using hne
  rw [appendStr, hbytes]

/-- The strings are pushed without anything between them. -/
theorem Represents.appendStrs_spec (h : b.Represents q) {strs : List CString} {b' : ByteBuffer}
    (hrun : (appendStrs B strs).run b = .ok () b') :
    b'.Represents (q.push (strs.flatMap (·.bytes))) := by
  induction strs generalizing b q with
  | nil =>
      cases hrun
      simpa using h
  | cons str strs ih =>
      have hmax : str.bytes.length ≤ CharVector.maxSize := Nat.le_of_lt str.length_lt
      rw [appendStrs, appendStr_eq] at hrun
      rcases h.append_spec (B := B) hmax with ⟨b₁, hrun₁, hrep₁⟩ | ⟨hthrow, -⟩
      · rw [run_bind_ok hrun₁] at hrun
        have hrest := ih hrep₁ hrun
        rwa [ByteFifo.push_push] at hrest
      · rw [run_bind_error hthrow] at hrun
        cases hrun

/-- Without a NUL among the readable bytes nothing is retrieved, however often. -/
theorem Represents.retrieveStrings_spec (h : b.Represents q) (h0 : 0 ∉ q.content) (k : Nat) :
    (retrieveStrings B k).run b = .ok (List.replicate k []) b := by
  induction k with
  | zero => rfl
  | succ k ih =>
      rw [retrieveStrings, run_bind_ok (h.retrieveString_spec_of_notMem h0), run_bind_ok ih]
      rfl

/-- As many strings are retrieved as were appended: they are those that were appended, and the
buffer is empty behind them. -/
def RetrievesAll (B : Build) (strs : List CString) (b : ByteBuffer) : Prop :=
  ∃ b', (retrieveStrings B strs.length).run b = .ok (strs.map (·.bytes)) b' ∧ b'.content = []

/-- Strings that were appended to an empty buffer are retrieved exactly if all of them are empty. -/
theorem strings_round_trip_iff {strs : List CString} {b' : ByteBuffer} (h : Reachable B host b)
    (hempty : b.content = []) (hrun : (appendStrs B strs).run b = .ok () b') :
    RetrievesAll B strs b' ↔ ∀ str ∈ strs, str.bytes = [] := by
  have hrep : b'.Represents (b.toFifo.push (strs.flatMap (·.bytes))) :=
    h.inv.represents.appendStrs_spec hrun
  have hcontent : b'.content = strs.flatMap (·.bytes) := by
    rw [hrep.content_eq]
    show b.content ++ _ = _
    rw [hempty, List.nil_append]
  have h0 : 0 ∉ b'.content := by
    rw [hcontent, List.mem_flatMap]
    rintro ⟨str, -, hmem⟩
    exact str.nulFree hmem
  have hretrieve : (retrieveStrings B strs.length).run b' = .ok (List.replicate strs.length []) b' :=
    hrep.toInv.represents.retrieveStrings_spec h0 strs.length
  constructor
  · rintro ⟨b'', hrun', -⟩
    obtain ⟨hsame, -⟩ := EStateM.Result.ok.inj (hretrieve.symm.trans hrun')
    intro str hstr
    have hmem : str.bytes ∈ strs.map (·.bytes) := List.mem_map_of_mem hstr
    rw [← hsame] at hmem
    exact List.eq_of_mem_replicate hmem
  · intro hall
    refine ⟨b', ?_, ?_⟩
    · rw [hretrieve]
      have hmap : strs.map (·.bytes) = List.replicate strs.length [] := by
        rw [List.eq_replicate_iff, List.length_map]
        refine ⟨rfl, ?_⟩
        intro bytes hbytes
        rcases List.mem_map.mp hbytes with ⟨str, hstr, rfl⟩
        exact hall str hstr
      rw [hmap]
    · rw [hcontent, List.flatMap_eq_nil_iff]
      exact hall

/-- "hi" as a C string. -/
def hi : CString :=
  { bytes := [0x68, 0x69], nulFree := by decide, length_lt := by decide }

theorem strings_round_trip_iff_hi :
    ∃ b', (appendStrs .debug [hi]).run freshFour = .ok () b' ∧ ¬ RetrievesAll .debug [hi] b' := by
  have hrun : ∃ b', (appendStrs .debug [hi]).run freshFour = .ok () b' := ⟨_, rfl⟩
  rcases hrun with ⟨b', hrun⟩
  refine ⟨b', hrun, ?_⟩
  intro hall
  have hiff := strings_round_trip_iff (reachable_freshFour .debug .liteEndian) (by decide) hrun
  exact absurd (hiff.mp hall hi (by simp)) (by decide)

/-- "hi" is appended to a new buffer: an empty string is retrieved, and "hi" stays in the buffer. -/
theorem appended_string_is_not_retrieved :
    (∃ b', (appendStrs .debug [hi]).run freshFour = .ok () b' ∧
        (retrieveString .debug).run b' = .ok [] b' ∧ b'.content = [0x68, 0x69]) ∧
      ¬ ∀ (B : Build) (host : ByteOrder) (b b' : ByteBuffer) (strs : List CString),
        Reachable B host b → b.content = [] → (appendStrs B strs).run b = .ok () b' →
          RetrievesAll B strs b' := by
  have hrun : ∃ b', (appendStrs .debug [hi]).run freshFour = .ok () b' ∧
      (retrieveString .debug).run b' = .ok [] b' ∧ b'.content = [0x68, 0x69] :=
    ⟨_, rfl, rfl, rfl⟩
  refine ⟨hrun, ?_⟩
  intro h
  rcases hrun with ⟨b', happend, hretrieve, hcontent⟩
  rcases h .debug .liteEndian freshFour b' [hi] (reachable_freshFour _ _) (by decide) happend with
    ⟨b'', hrun', -⟩
  have hone : (retrieveStrings .debug [hi].length).run b' = .ok [[]] b' := by
    rw [show [hi].length = 0 + 1 from rfl, retrieveStrings, run_bind_ok hretrieve]
    rfl
  obtain ⟨heq, -⟩ := EStateM.Result.ok.inj (hone.symm.trans hrun')
  exact absurd heq (by decide)

end ByteBuffer

end Net
end Muradin
