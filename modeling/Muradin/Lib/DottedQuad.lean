import Muradin.Lib.Decimal

/-!
# DottedQuad — IPv4 addresses as text

The text of an address as `inet_ntop` writes it, and the scanner with which `inet_pton` reads one: it
goes through the text once, and gives up at a leading zero, a number above 255, a fifth number, or
anything else than a digit or a dot behind a digit.

* `scan_eq_some_iff` — what has been read is the text of the scanner's state;
* `parse_eq_some_iff` — the text of an address is accepted as this address, and no other text is.
-/

namespace Muradin
namespace Lib

/-- The four bytes of an address, in network order. -/
structure Quad where
  a : Byte
  b : Byte
  c : Byte
  d : Byte
  deriving DecidableEq, Repr

namespace Quad

/-- `'.'` -/
def dot : Byte := charByte '.'

/-- `inet_ntop(AF_INET, ..)` -/
def print (q : Quad) : List Byte :=
  decimal q.a.toNat ++ dot :: decimal q.b.toNat ++ dot :: decimal q.c.toNat ++
    dot :: decimal q.d.toNat

/-! ## The scanner -/

/-- What was read: the numbers with their dots, and the one that is being read. -/
structure Scan where
  done : List Nat
  cur : Nat
  sawDigit : Bool
  deriving DecidableEq, Repr

namespace Scan

def start : Scan :=
  { done := []
    cur := 0
    sawDigit := false }

/-- The next character of `inet_pton(AF_INET, ..)`. -/
def next (s : Scan) (ch : Byte) : Option Scan :=
  if IsDigit ch then
    let new := s.cur * 10 + digitVal ch
    if s.sawDigit ∧ s.cur = 0 then none
    else if 255 < new then none
    else if ¬ s.sawDigit ∧ 4 ≤ s.done.length then none
    else some { s with cur := new, sawDigit := true }
  else if ch = dot ∧ s.sawDigit then
    if s.done.length + 1 = 4 then none
    else some { done := s.done ++ [s.cur], cur := 0, sawDigit := false }
  else
    none

def scan (src : List Byte) : Option Scan :=
  src.foldlM next start

end Scan

/-- `inet_pton(AF_INET, src, ..)`: the address that it stores when it returns 1. -/
def parse (src : List Byte) : Option Quad :=
  match Scan.scan src with
  | some ⟨[a, b, c], d, true⟩ =>
      some
        { a := BitVec.ofNat 8 a
          b := BitVec.ofNat 8 b
          c := BitVec.ofNat 8 c
          d := BitVec.ofNat 8 d }
  | _ => none

/-! ## The text of a state -/

namespace Scan

/-- The numbers that were read, each with its dot. -/
def dotted (done : List Nat) : List Byte :=
  done.flatMap fun n => decimal n ++ [dot]

def text (s : Scan) : List Byte :=
  dotted s.done ++ if s.sawDigit then decimal s.cur else []

/-- The states that the scanner comes to. -/
structure Good (s : Scan) : Prop where
  done_le : ∀ n ∈ s.done, n ≤ 255
  cur_le : s.cur ≤ 255
  fresh : s.sawDigit = false → s.cur = 0
  length_le : s.done.length ≤ 3

variable {s s' : Scan} {ch : Byte} {src : List Byte}

theorem good_start : start.Good :=
  { done_le := nofun
    cur_le := Nat.zero_le 255
    fresh := fun _ => rfl
    length_le := Nat.zero_le 3 }

theorem not_isDigit_dot : ¬ IsDigit dot := by
  decide

theorem dotted_concat (done : List Nat) (n : Nat) :
    dotted (done ++ [n]) = dotted done ++ decimal n ++ [dot] := by
  simp [dotted]

/-- A character that is taken is appended to the text. -/
theorem Good.next (h : s.Good) (hnext : s.next ch = some s') :
    s'.Good ∧ s'.text = s.text ++ [ch] := by
  rw [Scan.next] at hnext
  split at hnext
  · next hdigit =>
      have hval := digitVal_lt hdigit
      dsimp only at hnext
      split at hnext
      · cases hnext
      · next hzero =>
          split at hnext
          · cases hnext
          · next hle =>
              split at hnext
              · cases hnext
              · cases hnext
                refine ⟨{ h with cur_le := Nat.le_of_not_lt hle, fresh := nofun }, ?_⟩
                cases hsaw : s.sawDigit with
                | false =>
                    -- The first digit of a number.
                    have hcur : s.cur = 0 := h.fresh hsaw
                    simp [text, hsaw, hcur, decimal_of_lt hval, digit_digitVal hdigit]
                | true =>
                    have hcur : s.cur ≠ 0 := fun hcur => hzero ⟨hsaw, hcur⟩
                    have hquot : (s.cur * 10 + digitVal ch) / 10 = s.cur := by omega
                    have hmod : (s.cur * 10 + digitVal ch) % 10 = digitVal ch := by omega
                    have hmore := decimal_of_le (n := s.cur * 10 + digitVal ch) (by omega)
                    rw [hquot, hmod, digit_digitVal hdigit] at hmore
                    simp [text, hsaw, hmore]
  · split at hnext
    · next hdot =>
        obtain ⟨rfl, hsaw⟩ := hdot
        split at hnext
        · cases hnext
        · next hmore =>
            cases hnext
            have hlength := h.length_le
            refine ⟨{ done_le := ?_, cur_le := Nat.zero_le 255, fresh := fun _ => rfl
                      length_le := ?_ }, ?_⟩
            · intro n hn
              rcases List.mem_append.mp hn with hold | hlast
              · exact h.done_le n hold
              · rw [List.mem_singleton.mp hlast]
                exact h.cur_le
            · show (s.done ++ [s.cur]).length ≤ 3
              rw [List.length_append, List.length_singleton]
              omega
            · simp [text, hsaw, dotted_concat]
    · cases hnext

/-- The text of a good state was read up to its last character by way of a good state. -/
theorem Good.exists_next (h : s'.Good) (htext : s'.text = src ++ [ch]) :
    ∃ s : Scan, s.Good ∧ s.text = src ∧ s.next ch = some s' := by
  obtain ⟨done, cur, sawDigit⟩ := s'
  have hlength : done.length ≤ 3 := h.length_le
  have hcur : cur ≤ 255 := h.cur_le
  cases sawDigit with
  | true =>
      have htext : dotted done ++ decimal cur = src ++ [ch] := htext
      by_cases hsmall : cur < 10
      · -- A single digit.
        rw [decimal_of_lt hsmall] at htext
        obtain ⟨rfl, hch⟩ := List.append_inj' htext rfl
        obtain rfl : digit cur = ch := List.singleton_inj.mp hch
        refine ⟨⟨done, 0, false⟩, ?_, by simp [text], ?_⟩
        · exact { done_le := h.done_le, cur_le := Nat.zero_le 255, fresh := fun _ => rfl
                  length_le := hlength }
        · have hle : ¬ 255 < cur := by omega
          have hfour : ¬ 4 ≤ done.length := by omega
          simp [Scan.next, isDigit_digit hsmall, digitVal_digit hsmall, hle, hfour]
      · have hten : 10 ≤ cur := Nat.le_of_not_lt hsmall
        rw [decimal_of_le hten, ← List.append_assoc] at htext
        obtain ⟨rfl, hch⟩ := List.append_inj' htext rfl
        obtain rfl : digit (cur % 10) = ch := List.singleton_inj.mp hch
        have hmod : cur % 10 < 10 := Nat.mod_lt cur (by decide)
        refine ⟨⟨done, cur / 10, true⟩, ?_, by simp [text], ?_⟩
        · refine { done_le := h.done_le, cur_le := ?_, fresh := nofun, length_le := hlength }
          show cur / 10 ≤ 255
          omega
        · have hquot : cur / 10 ≠ 0 := by omega
          have hwhole : cur / 10 * 10 + cur % 10 = cur := by omega
          have hle : ¬ 255 < cur := by omega
          simp [Scan.next, isDigit_digit hmod, digitVal_digit hmod, hquot, hwhole, hle]
  | false =>
      have hzero : cur = 0 := h.fresh rfl
      subst hzero
      have htext : dotted done = src ++ [ch] := by simpa [text] using htext
      rcases List.eq_nil_or_concat done with rfl | ⟨ds, n, rfl⟩
      · simp [dotted] at htext
      · rw [List.concat_eq_append, dotted_concat] at htext
        obtain ⟨rfl, hch⟩ := List.append_inj' htext rfl
        obtain rfl : dot = ch := List.singleton_inj.mp hch
        have hds : ds.length + 1 ≤ 3 := by simpa using hlength
        have hlength' : ds.length ≤ 3 := by omega
        refine ⟨⟨ds, n, true⟩, ?_, by simp [text], ?_⟩
        · exact
            { done_le := fun m hm => h.done_le m (by simp [hm])
              cur_le := h.done_le n (by simp)
              fresh := nofun
              length_le := hlength' }
        · have hmore : ¬ ds.length + 1 = 4 := by omega
          simp [Scan.next, not_isDigit_dot, hmore]

theorem Good.eq_start (h : s.Good) (htext : s.text = []) : s = start := by
  obtain ⟨done, cur, sawDigit⟩ := s
  obtain ⟨hdone, hcur⟩ := List.append_eq_nil_iff.mp htext
  have hnone : done = [] := by
    rcases List.eq_nil_or_concat done with rfl | ⟨ds, n, rfl⟩
    · rfl
    · simp [dotted] at hdone
  cases sawDigit with
  | true => exact absurd hcur (decimal_ne_nil cur)
  | false =>
      obtain rfl : cur = 0 := h.fresh rfl
      rw [hnone]
      rfl

/-- What was read is the text of the state, and every text of a good state can be read. -/
theorem scan_eq_some_iff : scan src = some s ↔ s.Good ∧ s.text = src := by
  -- On the text from its end: the last character is the last step of the scanner.
  induction src using List.reverseRecOn generalizing s with
  | nil =>
      constructor
      · intro hscan
        cases hscan
        exact ⟨good_start, rfl⟩
      · rintro ⟨hgood, htext⟩
        rw [hgood.eq_start htext]
        rfl
  | append_singleton src ch ih =>
      have hstep : scan (src ++ [ch]) = (scan src).bind fun t => t.next ch := by
        simp [scan, List.foldlM_append]
      rw [hstep, Option.bind_eq_some_iff]
      constructor
      · rintro ⟨t, hscan, hnext⟩
        obtain ⟨hgood, htext⟩ := ih.mp hscan
        obtain ⟨hgood', htext'⟩ := hgood.next hnext
        exact ⟨hgood', by rw [htext', htext]⟩
      · rintro ⟨hgood, htext⟩
        obtain ⟨t, hgood', htext', hnext⟩ := hgood.exists_next htext
        exact ⟨t, ih.mpr ⟨hgood', htext'⟩, hnext⟩

end Scan

/-! ## Addresses -/

/-- The state behind the text of an address. -/
def scanned (q : Quad) : Scan :=
  { done := [q.a.toNat, q.b.toNat, q.c.toNat]
    cur := q.d.toNat
    sawDigit := true }

theorem text_scanned (q : Quad) : q.scanned.text = q.print := by
  simp [Scan.text, scanned, Scan.dotted, print]

theorem good_scanned (q : Quad) : q.scanned.Good := by
  have hle : ∀ x : Byte, x.toNat ≤ 255 := fun x => Nat.le_of_lt_succ x.isLt
  refine { done_le := ?_, cur_le := hle q.d, fresh := nofun, length_le := Nat.le_refl 3 }
  intro n hn
  simp only [scanned, List.mem_cons, List.not_mem_nil, or_false] at hn
  rcases hn with rfl | rfl | rfl
  · exact hle q.a
  · exact hle q.b
  · exact hle q.c

/-- The text of an address is read as this address, and no other text is read as an address. -/
theorem parse_eq_some_iff {src : List Byte} {q : Quad} : parse src = some q ↔ src = q.print := by
  constructor
  · intro hparse
    rw [parse] at hparse
    split at hparse
    · next a b c d hscan =>
        cases hparse
        obtain ⟨hgood, rfl⟩ := Scan.scan_eq_some_iff.mp hscan
        have hmod : ∀ n ≤ 255, (BitVec.ofNat 8 n).toNat = n := by
          intro n hn
          rw [BitVec.toNat_ofNat]
          exact Nat.mod_eq_of_lt (by omega)
        have ha := hmod a (hgood.done_le a (by simp))
        have hb := hmod b (hgood.done_le b (by simp))
        have hc := hmod c (hgood.done_le c (by simp))
        have hd := hmod d hgood.cur_le
        simp [Scan.text, Scan.dotted, print, ha, hb, hc, hd]
    · cases hparse
  · rintro rfl
    have hscan : Scan.scan q.print = some q.scanned :=
      Scan.scan_eq_some_iff.mpr ⟨q.good_scanned, q.text_scanned⟩
    rw [parse, hscan]
    simp [scanned]

theorem print_ne_nil (q : Quad) : q.print ≠ [] := by
  simp [print]

/-- The text is a C string. -/
theorem zero_notMem_print (q : Quad) : (0 : Byte) ∉ q.print := by
  have hdigit : ∀ n, (0 : Byte) ∉ decimal n := by
    intro n hmem
    exact absurd (isDigit_of_mem_decimal hmem) (by decide)
  have hdot : (0 : Byte) ≠ dot := by decide
  simp only [print, List.mem_append, List.mem_cons, hdigit, hdot, or_self, not_false_iff]

end Quad

end Lib
end Muradin
