import Muradin.Lib.BaseName
import Muradin.Lib.ByteOrder

/-!
# LogWarper — `file_base_name` of `base/log_warper.cpp`

A log record names its source file by the base name of `__FILE__`.  `file_base_name` looks for the
last `\`, and for the last `/` only if there is no `\` at all: a `/` behind the last `\` stays.

* `fileBaseName_cases` — it cuts at one of the two separators;
* `stripsDirectory_iff` — for which paths it strips every directory part;
* `isBaseName_fileBaseName_twice` — called on its own result it always does.
-/

namespace Muradin
namespace Base

open Lib

/-! ## `std::string` -/

namespace StdString

/-- `s.find_last_of(c)`; `npos` is `none`. -/
def findLastOf : List Byte → Byte → Option Nat
  | [], _ => none
  | x :: s, c =>
      match findLastOf s c with
      | some pos => some (pos + 1)
      | none => if x = c then some 0 else none

/-- `s.erase(pos, n)` within the string. -/
def erase (s : List Byte) (pos n : Nat) : List Byte :=
  s.take pos ++ s.drop (pos + n)

/-- `c` is nowhere in `s`, or the string is cut at the last one. -/
theorem findLastOf_cases (s : List Byte) (c : Byte) :
    c ∉ s ∧ findLastOf s c = none ∨
      ∃ dir rest, s = dir ++ c :: rest ∧ c ∉ rest ∧ findLastOf s c = some dir.length := by
  induction s with
  | nil => exact Or.inl ⟨List.not_mem_nil, rfl⟩
  | cons x s ih =>
      rcases ih with ⟨hnone, hpos⟩ | ⟨dir, rest, rfl, hrest, hpos⟩
      · by_cases hx : x = c
        · right
          refine ⟨[], s, by rw [hx, List.nil_append], hnone, ?_⟩
          rw [findLastOf, hpos]
          exact if_pos hx
        · left
          refine ⟨?_, ?_⟩
          · intro hmem
            rcases List.mem_cons.mp hmem with heq | hmem
            · exact hx heq.symm
            · exact hnone hmem
          · rw [findLastOf, hpos]
            exact if_neg hx
      · right
        refine ⟨x :: dir, rest, rfl, hrest, ?_⟩
        rw [findLastOf, hpos]
        rfl

/-- Erased up to its last `c` and with it, a path is cut down to the base name. -/
theorem isBaseName_erase {dir rest : List Byte} {c : Byte} (h : c ∉ rest) :
    IsBaseName (· = c) (dir ++ c :: rest) (erase (dir ++ c :: rest) 0 (dir.length + 1)) := by
  have herase : erase (dir ++ c :: rest) 0 (dir.length + 1) = rest := by simp [erase]
  rw [herase]
  exact isBaseName_append rfl fun x hx heq => h (heq ▸ hx)

end StdString

/-! ## `file_base_name` -/

open StdString

/-- `'\\'` -/
def slash1 : Byte := 0x5c

/-- `'/'` -/
def slash2 : Byte := 0x2f

def fileBaseName (fullFileName : List Byte) : List Byte :=
  let baseFile := fullFileName
  let pos :=
    match findLastOf baseFile slash1 with
    | some pos => some pos
    | none => findLastOf baseFile slash2
  match pos with
  | some pos => erase baseFile 0 (pos + 1)
  | none => baseFile

/-- Either of the two separators. -/
def IsSlash (c : Byte) : Prop :=
  c = slash1 ∨ c = slash2

/-- `file_base_name` strips every directory part of the path: it returns the longest suffix that
contains neither separator, which is the path or stands behind a separator. -/
structure StripsDirectory (path : List Byte) : Prop where
  longest : IsBaseName IsSlash path (fileBaseName path)
  noSlash1 : slash1 ∉ fileBaseName path
  noSlash2 : slash2 ∉ fileBaseName path
  cut : path = fileBaseName path ∨
    ∃ dir sep, IsSlash sep ∧ path = dir ++ sep :: fileBaseName path

/-- Every `/` that has a `\` before it has another one behind it. -/
def SlashesEnclosed (path : List Byte) : Prop :=
  ∀ dir rest, path = dir ++ slash2 :: rest → slash1 ∈ dir → slash1 ∈ rest

/-! ## Where it cuts -/

/-- With a `\` in the path only the last of these counts, and else the last `/`. -/
theorem fileBaseName_cases (path : List Byte) :
    slash1 ∈ path ∧ IsBaseName (· = slash1) path (fileBaseName path) ∨
      slash1 ∉ path ∧ IsBaseName (· = slash2) path (fileBaseName path) := by
  rcases findLastOf_cases path slash1 with ⟨hnone, hpos⟩ | ⟨dir, rest, rfl, hrest, hpos⟩
  · right
    refine ⟨hnone, ?_⟩
    rw [fileBaseName, hpos]
    rcases findLastOf_cases path slash2 with ⟨hnone', hpos'⟩ | ⟨dir, rest, rfl, hrest, hpos'⟩
    · rw [hpos']
      exact isBaseName_self fun c hc heq => hnone' (heq ▸ hc)
    · rw [hpos']
      exact isBaseName_erase hrest
  · left
    refine ⟨List.mem_append_right dir List.mem_cons_self, ?_⟩
    rw [fileBaseName, hpos]
    exact isBaseName_erase hrest

/-! ## Which paths it strips -/

variable {path base : List Byte}

theorem stripsDirectory_iff_isBaseName :
    StripsDirectory path ↔ IsBaseName IsSlash path (fileBaseName path) := by
  constructor
  · exact StripsDirectory.longest
  · intro h
    exact
      { longest := h
        noSlash1 := fun hmem => h.clean slash1 hmem (Or.inl rfl)
        noSlash2 := fun hmem => h.clean slash2 hmem (Or.inr rfl)
        cut := h.cut }

/-- Without a `\` the last `/` is the last separator. -/
theorem isBaseName_of_no_slash1 (h : IsBaseName (· = slash2) path base) (hnone : slash1 ∉ path) :
    IsBaseName IsSlash path base := by
  have hclean : ∀ c ∈ base, ¬ c = slash1 := fun c hc heq => hnone (heq ▸ h.suffix.mem hc)
  exact (h.or_iff.mpr hclean).congr fun c => or_comm

/-- What is left behind the last `\` has no `/` exactly if every `/` behind a `\` is before another
one. -/
theorem slash2_not_mem_iff (hmem : slash1 ∈ path) (h : IsBaseName (· = slash1) path base) :
    slash2 ∉ base ↔ SlashesEnclosed path := by
  have hne : slash2 ≠ slash1 := by decide
  have hbase : slash1 ∉ base := fun hin => h.clean slash1 hin rfl
  constructor
  · intro hnone dir rest hpath _
    by_contra hrest
    -- Otherwise this `/` would be behind the last `\`.
    have hclean : ∀ c ∈ slash2 :: rest, ¬ c = slash1 := by
      intro c hc
      rcases List.mem_cons.mp hc with rfl | hc
      · exact hne
      · exact fun heq => hrest (heq ▸ hc)
    have hsuffix : slash2 :: rest <:+ base := h.longest _ ⟨dir, hpath.symm⟩ hclean
    exact hnone (hsuffix.mem List.mem_cons_self)
  · intro henclosed hin
    rcases List.append_of_mem hin with ⟨front, rest, rfl⟩
    rcases h.cut with heq | ⟨dir, sep, rfl, rfl⟩
    · exact hbase (heq ▸ hmem)
    · have hrest : slash1 ∈ rest := by
        refine henclosed (dir ++ slash1 :: front) rest (by simp) ?_
        exact List.mem_append_right dir List.mem_cons_self
      exact hbase (List.mem_append_right front (List.mem_cons_of_mem slash2 hrest))

/-- `file_base_name` strips every directory part exactly of the paths in which every `/` behind a
`\` is before another one: in the others a `/` stands behind the last `\`, and stays. -/
theorem stripsDirectory_iff (path : List Byte) : StripsDirectory path ↔ SlashesEnclosed path := by
  rw [stripsDirectory_iff_isBaseName]
  rcases fileBaseName_cases path with ⟨hmem, h⟩ | ⟨hnone, h⟩
  · calc IsBaseName IsSlash path (fileBaseName path)
        ↔ ∀ c ∈ fileBaseName path, ¬ c = slash2 := h.or_iff
      _ ↔ slash2 ∉ fileBaseName path :=
          ⟨fun hclean hin => hclean slash2 hin rfl, fun hnot c hc heq => hnot (heq ▸ hc)⟩
      _ ↔ SlashesEnclosed path := slash2_not_mem_iff hmem h
  · refine iff_of_true (isBaseName_of_no_slash1 h hnone) ?_
    rintro dir rest rfl hdir
    exact absurd (List.mem_append_left _ hdir) hnone

/-- `src\a/b` keeps `a/`. -/
theorem mixed_path_keeps_directory : ¬ ∀ path, StripsDirectory path := by
  intro h
  have hkept : slash2 ∈ fileBaseName [0x73, 0x72, 0x63, 0x5c, 0x61, 0x2f, 0x62] := by decide
  exact (h _).noSlash2 hkept

/-- The second call finds no `\` any more, and cuts at the last `/`. -/
theorem isBaseName_fileBaseName_twice (path : List Byte) :
    IsBaseName IsSlash path (fileBaseName (fileBaseName path)) := by
  rcases fileBaseName_cases (fileBaseName path) with ⟨hmem', -⟩ | ⟨-, h'⟩
  · rcases fileBaseName_cases path with ⟨-, h⟩ | ⟨hnone, h⟩
    · exact absurd rfl (h.clean slash1 hmem')
    · exact absurd (h.suffix.mem hmem') hnone
  · rcases fileBaseName_cases path with ⟨-, h⟩ | ⟨hnone, h⟩
    · exact h.trans h'
    · exact isBaseName_of_no_slash1 ((h.trans h').congr fun c => or_self_iff) hnone

end Base
end Muradin
