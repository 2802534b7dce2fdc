import Muradin.Net.TcpServer.Removal

/-!
# ConnMap — `tcp_server::m_conn_map`

The connections of a `tcp_server`, each a `System` of its own, and the map from descriptors to them.
The kernel gives out a descriptor again as soon as the destructor of its connection has closed it.

* An entry is that of an open descriptor, so an insertion finds none (`ConnMapInv`).
* `on_remove_conn` finds the entry of its connection, or none.
* It is called a second time exactly where a `handle_read` finds the end of the input behind
  `handle_close`: `start()` makes the channel readable on the acceptor's thread
  (`connMap_of_run`).
-/

namespace Muradin
namespace Net

open Lib Cpp Events

/-- A connection and its `fd()`. -/
structure Member (Tid : Type) where
  fd : Nat
  sys : System Tid

/-- A new connection in `on_new_conn`. -/
def Member.accept {Tid : Type} (fd : Nat) (io : IoService Tid Task) (acceptorTid : Tid)
    (mem : Nat → Byte) : Member Tid :=
  { fd
    sys := System.accept io acceptorTid mem }

/-- What was done to `m_conn_map` for a connection, and the connection whose entry was there. -/
inductive MapOp
  /-- `m_conn_map[fd] = new_conn` -/
  | insert (i : Nat) (found : Option Nat)
  /-- `m_conn_map.erase(conn->fd())` -/
  | erase (i : Nat) (found : Option Nat)
  deriving DecidableEq, Repr

/-- `on_remove_conn` was called for connection `i`. -/
def MapOp.IsErase (i : Nat) : MapOp → Bool
  | .erase j _ => j == i
  | .insert _ _ => false

/-- A `tcp_server`: its connections in the order of their accepts, also those that are destroyed. -/
structure TcpServer (Tid : Type) where
  conns : List (Member Tid)
  connMap : Nat → Option Nat
  history : List MapOp

namespace TcpServer

variable {Tid : Type}

inductive Act (Tid : Type)
  /-- `accept` returns `fd`; the connection is for a loop in state `io` -/
  | accept (fd : Nat) (io : IoService Tid Task) (acceptorTid : Tid) (mem : Nat → Byte)
  /-- a step of connection `i` -/
  | conn (i : Nat) (a : System.Act Tid)
  /-- the loop thread calls a member function of connection `i` outside its callbacks -/
  | visit (i : Nat) (op : UserOp)

/-- No connection has been accepted yet. -/
def ready : TcpServer Tid :=
  { conns := []
    connMap := fun _ => none
    history := [] }

/-- The descriptor is open: the destructor of a connection closes it. -/
def IsOpen (s : TcpServer Tid) (fd : Nat) : Prop :=
  ∃ m ∈ s.conns, m.fd = fd ∧ m.sys.destroyed = false

/-- The connection is for another thread than the acceptor's, and new to it. -/
def Acceptable (s : TcpServer Tid) (fd : Nat) (io : IoService Tid Task) (acceptorTid : Tid) : Prop :=
  ¬ s.IsOpen fd ∧ acceptorTid ≠ io.ownerTid ∧ ∀ x ∈ io.held, x.2 = .other

/-- The loop thread is in other callbacks or tasks, and holds the connection. -/
def Visitable [DecidableEq Tid] (s : System Tid) : Prop :=
  s.loop.fault = none ∧ s.loop.stack = [] ∧ s.io.loopPc.inCode = true ∧ s.io.LoopOutside ∧
    s.io.ownerTid ∈ s.holders

instance (s : TcpServer Tid) (fd : Nat) : Decidable (s.IsOpen fd) :=
  inferInstanceAs (Decidable (∃ m ∈ s.conns, _))

instance [DecidableEq Tid] (s : TcpServer Tid) (fd : Nat) (io : IoService Tid Task)
    (acceptorTid : Tid) : Decidable (s.Acceptable fd io acceptorTid) :=
  inferInstanceAs (Decidable (_ ∧ _))

instance [DecidableEq Tid] (s : System Tid) : Decidable (Visitable s) :=
  inferInstanceAs (Decidable (_ ∧ _))

/-! ## Steps -/

/-- The entry of connection `j` is replaced or erased for connection `i`. -/
def releaseEntry (conns : List (Member Tid)) (i : Nat) : Option Nat → List (Member Tid)
  | none => conns
  | some j =>
      if j = i then
        conns
      else
        conns.modify j fun m =>
          { m with
            sys := System.settle { m.sys with
              loop := { m.sys.loop with conn := { m.sys.loop.conn with inConnMap := false } } } }

/-- Connection `i` is now in state `sys`. -/
def setSys (s : TcpServer Tid) (i : Nat) (m : Member Tid) (sys : System Tid) : TcpServer Tid :=
  { s with conns := s.conns.set i { m with sys } }

/-- Behind step `a` of connection `i`, what it did to `m_conn_map`. -/
def mapNext (s : TcpServer Tid) (i : Nat) (m : Member Tid) (a : System.Act Tid) : TcpServer Tid :=
  if m.sys.Inserts a then
    { conns := releaseEntry s.conns i (s.connMap m.fd)
      connMap := Function.update s.connMap m.fd (some i)
      history := s.history ++ [.insert i (s.connMap m.fd)] }
  else if m.sys.Removes a then
    { conns := releaseEntry s.conns i (s.connMap m.fd)
      connMap := Function.update s.connMap m.fd none
      history := s.history ++ [.erase i (s.connMap m.fd)] }
  else
    s

variable [DecidableEq Tid]

def step (S : Setup) (s : TcpServer Tid) : Act Tid → Option (TcpServer Tid)
  | .accept fd io acceptorTid mem =>
      if s.Acceptable fd io acceptorTid then
        some { s with conns := s.conns ++ [Member.accept fd io acceptorTid mem] }
      else
        none
  | .conn i a => do
      let m ← s.conns[i]?
      let sys ← m.sys.step S a
      return (s.setSys i m sys).mapNext i m a
  | .visit i op => do
      let m ← s.conns[i]?
      if Visitable m.sys then
        return s.setSys i m { m.sys with loop := m.sys.loop.user S op }
      else
        none

/-! ## Properties -/

/-- Every entry `m_conn_map[fd]` is a connection whose `fd()` is `fd`. -/
def EntriesOwn (s : TcpServer Tid) : Prop :=
  ∀ fd i, s.connMap fd = some i → ∃ m, s.conns[i]? = some m ∧ m.fd = fd

/-- No insertion overwrote an entry. -/
def InsertsFree (s : TcpServer Tid) : Prop :=
  ∀ i found, .insert i found ∈ s.history → found = none

/-- An erasure that is not the connection's own finds nothing. -/
def ErasesNoOther (s : TcpServer Tid) : Prop :=
  ∀ i j, .erase i (some j) ∈ s.history → j = i

/-- `on_remove_conn` was called at most once for each connection, and erased its entry. -/
def RemovedOnce (s : TcpServer Tid) : Prop :=
  (∀ i, s.history.countP (MapOp.IsErase i) ≤ 1) ∧
    ∀ i found, .erase i found ∈ s.history → found = some i

/-- No `handle_read` finds the end of the input behind `handle_close`. -/
def EndsOpen (s : TcpServer Tid) : Act Tid → Prop
  | .conn i a => ∀ m ∈ s.conns[i]?, m.sys.EndsOpen a
  | _ => True

instance (s : TcpServer Tid) : (a : Act Tid) → Decidable (s.EndsOpen a)
  | .conn i _ => inferInstanceAs (Decidable (∀ m ∈ s.conns[i]?, _))
  | .accept _ _ _ _ | .visit _ _ => inferInstanceAs (Decidable True)

/-! ## The invariant -/

structure ConnMapInv (s : TcpServer Tid) : Prop where
  refs : ∀ (i : Nat) (m : Member Tid), s.conns[i]? = some m → m.sys.RefInv
  removal : ∀ (i : Nat) (m : Member Tid), s.conns[i]? = some m → m.sys.RemovalInv
  /-- two connections that are alive have different descriptors -/
  apart : ∀ (i j : Nat) (m m' : Member Tid), s.conns[i]? = some m → s.conns[j]? = some m' →
    m.fd = m'.fd → m.sys.destroyed = false → m'.sys.destroyed = false → i = j
  entry : ∀ fd i, s.connMap fd = some i ↔
    ∃ m : Member Tid, s.conns[i]? = some m ∧ m.fd = fd ∧ m.sys.loop.conn.inConnMap = true
  inserts : s.InsertsFree
  erases : s.ErasesNoOther
  counts : ∀ (i : Nat) (m : Member Tid), s.conns[i]? = some m →
    s.history.countP (MapOp.IsErase i) = m.sys.loop.conn.notes.count .close
  /-- there is no history of connections to come -/
  future : ∀ i : Nat, s.conns[i]? = none → s.history.countP (MapOp.IsErase i) = 0

/-- Every connection is in its phase, and every erasure found the connection's own entry. -/
structure Orderly (s : TcpServer Tid) : Prop where
  phase : ∀ (i : Nat) (m : Member Tid), s.conns[i]? = some m →
    ClosePhase m.sys.loop.path m.sys.loop.conn
  own : ∀ i found, .erase i found ∈ s.history → found = some i

variable {S : Setup} {s s' : TcpServer Tid} {a : Act Tid} {i : Nat} {m : Member Tid}
  {sys : System Tid} {b : System.Act Tid}

omit [DecidableEq Tid] in
theorem connMapInv_ready : (ready : TcpServer Tid).ConnMapInv := by
  refine { refs := ?_, removal := ?_, apart := ?_, entry := ?_, inserts := ?_, erases := ?_,
           counts := ?_, future := fun _ _ => rfl }
  all_goals simp [ready, InsertsFree, ErasesNoOther]

omit [DecidableEq Tid] in
theorem orderly_ready : (ready : TcpServer Tid).Orderly := by
  refine { phase := ?_, own := ?_ }
  all_goals simp [ready]

omit [DecidableEq Tid] in
/-- An entry keeps its connection alive. -/
theorem ConnMapInv.alive_of_entry (h : s.ConnMapInv) {fd : Nat} (hentry : s.connMap fd = some i) :
    ∃ m : Member Tid, s.conns[i]? = some m ∧ m.fd = fd ∧ m.sys.destroyed = false := by
  rcases (h.entry fd i).mp hentry with ⟨m, hm, hfd, hmap⟩
  refine ⟨m, hm, hfd, (h.refs i m hm).alive ?_⟩
  intro hun
  rw [hun.inConnMap] at hmap
  cases hmap

omit [DecidableEq Tid] in
/-- What a connection that is alive finds at its descriptor is its own. -/
theorem ConnMapInv.found_own (h : s.ConnMapInv) (hm : s.conns[i]? = some m)
    (halive : m.sys.destroyed = false) {j : Nat} (hfound : s.connMap m.fd = some j) : j = i := by
  rcases h.alive_of_entry hfound with ⟨m', hm', hfd, halive'⟩
  exact h.apart j i m' m hm' hm hfd halive' halive

omit [DecidableEq Tid] in
/-- So no other connection loses its entry. -/
theorem ConnMapInv.releaseEntry_found (h : s.ConnMapInv) (hm : s.conns[i]? = some m)
    (halive : m.sys.destroyed = false) (conns : List (Member Tid)) :
    releaseEntry conns i (s.connMap m.fd) = conns := by
  cases hfound : s.connMap m.fd with
  | none => rfl
  | some j => rw [releaseEntry, if_pos (h.found_own hm halive hfound)]

omit [DecidableEq Tid] in
theorem getElem?_set_conns (hm : s.conns[i]? = some m) (x : Member Tid) (j : Nat) :
    (s.conns.set i x)[j]? = if j = i then some x else s.conns[j]? := by
  rw [List.getElem?_set]
  have hi : i < s.conns.length := (List.getElem?_eq_some_iff.mp hm).1
  by_cases hj : j = i
  · subst hj
    simp [hi]
  · rw [if_neg (Ne.symm hj), if_neg hj]

omit [DecidableEq Tid] in
/-- Connection `i` makes a step, with what that does to the map and to the history. -/
theorem ConnMapInv.update (h : s.ConnMapInv) (hm : s.conns[i]? = some m)
    (hconns : s'.conns = s.conns.set i { m with sys })
    (hrefs : sys.RefInv) (hremoval : sys.RemovalInv)
    (hdead : m.sys.destroyed = true → sys.destroyed = true)
    (hentry : ∀ fd j, s'.connMap fd = some j ↔
      if j = i then m.fd = fd ∧ sys.loop.conn.inConnMap = true else s.connMap fd = some j)
    (hinserts : s'.InsertsFree) (herases : s'.ErasesNoOther)
    (hcounts : ∀ j, s'.history.countP (MapOp.IsErase j) =
      if j = i then sys.loop.conn.notes.count .close else s.history.countP (MapOp.IsErase j)) :
    s'.ConnMapInv := by
  have hget : ∀ j, s'.conns[j]? = if j = i then some { m with sys } else s.conns[j]? := by
    intro j
    rw [hconns]
    exact getElem?_set_conns hm _ j
  -- The connections of `s'`: the one that made the step, or one of the others.
  have hcases : ∀ (j : Nat) (m' : Member Tid), s'.conns[j]? = some m' →
      j = i ∧ m' = { m with sys } ∨ j ≠ i ∧ s.conns[j]? = some m' := by
    intro j m' hj
    rw [hget] at hj
    split at hj
    · exact Or.inl ⟨‹_›, (Option.some.inj hj).symm⟩
    · exact Or.inr ⟨‹_›, hj⟩
  -- A connection that is alive was alive before.
  have halive : ∀ (j : Nat) (m' : Member Tid), s'.conns[j]? = some m' → m'.sys.destroyed = false →
      ∃ m₀ : Member Tid, s.conns[j]? = some m₀ ∧ m₀.fd = m'.fd ∧ m₀.sys.destroyed = false := by
    intro j m' hj hopen
    rcases hcases j m' hj with ⟨rfl, rfl⟩ | ⟨-, hold⟩
    · refine ⟨m, hm, rfl, ?_⟩
      cases hdestroyed : m.sys.destroyed with
      | false => rfl
      | true => exact absurd ((hdead hdestroyed).symm.trans hopen) (by simp)
    · exact ⟨m', hold, rfl, hopen⟩
  refine { refs := ?_, removal := ?_, apart := ?_, entry := ?_, inserts := hinserts,
           erases := herases, counts := ?_, future := ?_ }
  · intro j m' hj
    rcases hcases j m' hj with ⟨-, rfl⟩ | ⟨-, hold⟩
    · exact hrefs
    · exact h.refs j m' hold
  · intro j m' hj
    rcases hcases j m' hj with ⟨-, rfl⟩ | ⟨-, hold⟩
    · exact hremoval
    · exact h.removal j m' hold
  · intro j k m₁ m₂ hj hk hfd hopen₁ hopen₂
    rcases halive j m₁ hj hopen₁ with ⟨m₃, hj', hfd₁, hopen₃⟩
    rcases halive k m₂ hk hopen₂ with ⟨m₄, hk', hfd₂, hopen₄⟩
    exact h.apart j k m₃ m₄ hj' hk' (by rw [hfd₁, hfd, hfd₂]) hopen₃ hopen₄
  · intro fd j
    rw [hentry, hget]
    split
    · simp
    · exact h.entry fd j
  · intro j m' hj
    rw [hcounts]
    rcases hcases j m' hj with ⟨rfl, rfl⟩ | ⟨hne, hold⟩
    · rw [if_pos rfl]
    · rw [if_neg hne]
      exact h.counts j m' hold
  · intro j hj
    have hne : j ≠ i := by
      rintro rfl
      rw [hget, if_pos rfl] at hj
      cases hj
    rw [hcounts, if_neg hne]
    rw [hget, if_neg hne] at hj
    exact h.future j hj

omit [DecidableEq Tid] in
theorem getElem?_concat_conns {x : Member Tid} {j : Nat} {m' : Member Tid}
    (hj : (s.conns ++ [x])[j]? = some m') :
    s.conns[j]? = some m' ∨ j = s.conns.length ∧ m' = x := by
  rw [List.getElem?_append] at hj
  split at hj
  · exact Or.inl hj
  · rw [List.getElem?_singleton] at hj
    split at hj
    · right
      refine ⟨?_, (Option.some.inj hj).symm⟩
      omega
    · cases hj

omit [DecidableEq Tid] in
/-- `on_new_conn` begins for a descriptor that is not open. -/
theorem ConnMapInv.accept (h : s.ConnMapInv) {fd : Nat} {io : IoService Tid Task}
    {acceptorTid : Tid} (mem : Nat → Byte) (hfree : s.Acceptable fd io acceptorTid) :
    { s with conns := s.conns ++ [Member.accept fd io acceptorTid mem] }.ConnMapInv := by
  have haccepted : (System.accept io acceptorTid mem).Accepted :=
    { new := rfl
      otherThread := hfree.2.1
      unrelated := hfree.2.2 }
  -- No connection that is alive has the new one's descriptor.
  have hother : ∀ (j : Nat) (m' : Member Tid), s.conns[j]? = some m' → m'.fd = fd →
      m'.sys.destroyed = false → False := fun j m' hj hfd hopen =>
    hfree.1 ⟨m', List.mem_of_getElem? hj, hfd, hopen⟩
  have hold : ∀ {j : Nat} {m' : Member Tid}, s.conns[j]? = some m' →
      (s.conns ++ [Member.accept fd io acceptorTid mem])[j]? = some m' := by
    intro j m' hj
    rw [List.getElem?_append_left (List.getElem?_eq_some_iff.mp hj).1]
    exact hj
  refine { refs := ?_, removal := ?_, apart := ?_, entry := ?_, inserts := h.inserts,
           erases := h.erases, counts := ?_, future := ?_ }
  · intro j m' hj
    rcases getElem?_concat_conns hj with hj | ⟨-, rfl⟩
    · exact h.refs j m' hj
    · exact (System.lifetimeInv_of_accepted haccepted).refInv
  · intro j m' hj
    rcases getElem?_concat_conns hj with hj | ⟨-, rfl⟩
    · exact h.removal j m' hj
    · exact System.removalInv_of_accepted haccepted
  · intro j k m₁ m₂ hj hk hfd hopen₁ hopen₂
    rcases getElem?_concat_conns hj with hj | ⟨hlast, rfl⟩
    · rcases getElem?_concat_conns hk with hk | ⟨-, rfl⟩
      · exact h.apart j k m₁ m₂ hj hk hfd hopen₁ hopen₂
      · exact (hother j m₁ hj hfd hopen₁).elim
    · rcases getElem?_concat_conns hk with hk | ⟨hlast', -⟩
      · exact (hother k m₂ hk hfd.symm hopen₂).elim
      · exact hlast.trans hlast'.symm
  · intro fd' j
    rw [show s.connMap fd' = some j ↔ _ from h.entry fd' j]
    constructor
    · rintro ⟨m', hj, hrest⟩
      exact ⟨m', hold hj, hrest⟩
    · rintro ⟨m', hj, hfd, hmap⟩
      rcases getElem?_concat_conns hj with hj | ⟨-, rfl⟩
      · exact ⟨m', hj, hfd, hmap⟩
      · cases hmap
  · intro j m' hj
    rcases getElem?_concat_conns hj with hj | ⟨rfl, rfl⟩
    · exact h.counts j m' hj
    · exact h.future _ (List.getElem?_eq_none (Nat.le_refl _))
  · intro j hj
    refine h.future j ?_
    cases hold' : s.conns[j]? with
    | none => rfl
    | some m' => cases (hold hold').symm.trans hj

theorem step_conn_eq_some :
    s.step S (.conn i b) = some s' ↔ ∃ m sys, s.conns[i]? = some m ∧ m.sys.step S b = some sys ∧
      (s.setSys i m sys).mapNext i m b = s' := by
  simp [step, Option.bind_eq_some_iff]

theorem step_visit_eq_some {op : UserOp} :
    s.step S (.visit i op) = some s' ↔ ∃ m, s.conns[i]? = some m ∧ Visitable m.sys ∧
      s.setSys i m { m.sys with loop := m.sys.loop.user S op } = s' := by
  simp [step, Option.bind_eq_some_iff]

/-- A connection that has been destroyed stays so. -/
theorem destroyed_step (hs : m.sys.step S b = some sys) (hdestroyed : m.sys.destroyed = true) :
    sys.destroyed = true := by
  rcases System.step_eq_some.mp hs with ⟨-, rfl⟩
  exact (System.destroyed_settle _).mpr
    (Or.inl ((System.destroyed_next S m.sys b).trans hdestroyed))

omit [DecidableEq Tid] in
theorem ConnMapInv.entry_iff (h : s.ConnMapInv) (hm : s.conns[i]? = some m) {fd : Nat} :
    s.connMap fd = some i ↔ m.fd = fd ∧ m.sys.loop.conn.inConnMap = true := by
  rw [h.entry]
  constructor
  · rintro ⟨m', hm', hrest⟩
    obtain rfl : m' = m := Option.some.inj (hm'.symm.trans hm)
    exact hrest
  · intro hrest
    exact ⟨m, hm, hrest⟩

omit [DecidableEq Tid] in
/-- Connection `i`, which is alive, sets the entry of its descriptor. -/
theorem ConnMapInv.entry_update (h : s.ConnMapInv) (hm : s.conns[i]? = some m)
    (halive : m.sys.destroyed = false) {v : Option Nat} {p : Prop}
    (hv : ∀ j, v = some j ↔ j = i ∧ p) (fd j : Nat) :
    Function.update s.connMap m.fd v fd = some j ↔
      if j = i then m.fd = fd ∧ p else s.connMap fd = some j := by
  by_cases hfd : fd = m.fd
  -- The entry of the descriptor itself: no other connection has it.
  · subst hfd
    rw [Function.update_self, hv]
    split
    · simp [*]
    · refine iff_of_false (fun hboth => ‹¬ _› hboth.1) ?_
      intro hfound
      exact absurd (h.found_own hm halive hfound) ‹_›
  · rw [Function.update_of_ne hfd]
    split
    · subst j
      refine iff_of_false ?_ (fun hboth => hfd hboth.1.symm)
      intro hfound
      exact hfd ((h.entry_iff hm).mp hfound).1.symm
    · exact Iff.rfl

omit [DecidableEq Tid] in
/-- An insertion is made by a connection that is alive, and finds nothing. -/
theorem ConnMapInv.of_inserts (h : s.ConnMapInv) (hm : s.conns[i]? = some m)
    (hinserts : m.sys.Inserts b = true) :
    m.sys.destroyed = false ∧ s.connMap m.fd = none := by
  have hpc : m.sys.startPc = .insertConn := by
    cases b with
    | start => simpa [System.Inserts] using hinserts
    | _ => cases hinserts
  have halive : m.sys.destroyed = false := by
    refine (h.refs i m hm).alive ?_
    intro hun
    exact absurd (hpc.symm.trans hun.started) (by simp)
  refine ⟨halive, ?_⟩
  cases hfound : s.connMap m.fd with
  | none => rfl
  | some j =>
      -- An own entry would have been made before.
      obtain rfl := h.found_own hm halive hfound
      rcases (h.entry m.fd j).mp hfound with ⟨m', hm', -, hmap⟩
      obtain rfl : m' = m := Option.some.inj (hm'.symm.trans hm)
      exact absurd hpc ((h.removal j m' hm).inConnMap.mp hmap).1

omit [DecidableEq Tid] in
theorem alive_of_removes (hremoves : m.sys.Removes b = true) : m.sys.destroyed = false := by
  cases b with
  | call env => simpa using (Bool.and_eq_true_iff.mp hremoves).2
  | _ => cases hremoves

omit [DecidableEq Tid] in
/-- What is left of a connection that has been destroyed still has its entry and its notes. -/
theorem settle_conn (s : System Tid) :
    s.settle.loop.conn.inConnMap = s.loop.conn.inConnMap ∧
      s.settle.loop.conn.notes = s.loop.conn.notes :=
  ⟨System.settle_of_same (f := fun s => s.loop.conn.inConnMap) (fun _ => rfl) s,
    System.settle_of_same (f := fun s => s.loop.conn.notes) (fun _ => rfl) s⟩

/-- `m_conn_map[fd] = new_conn`. -/
theorem ConnMapInv.insert (h : s.ConnMapInv) (hm : s.conns[i]? = some m)
    (hs : m.sys.step S b = some sys) (hinserts : m.sys.Inserts b = true) :
    ((s.setSys i m sys).mapNext i m b).ConnMapInv := by
  rcases h.of_inserts hm hinserts with ⟨halive, hnone⟩
  rcases System.inConnMap_next_of_inserts S hinserts with ⟨hmap, hnotes⟩
  -- The slot is free, so no reference is released.
  have hnext : (s.setSys i m sys).mapNext i m b =
      { conns := s.conns.set i { m with sys }
        connMap := Function.update s.connMap m.fd (some i)
        history := s.history ++ [.insert i none] } := by
    rw [mapNext, if_pos hinserts]
    show TcpServer.mk (releaseEntry _ i (s.connMap m.fd)) _
      (_ ++ [.insert i (s.connMap m.fd)]) = _
    rw [hnone]
    rfl
  have hrefs : sys.RefInv := (h.refs i m hm).step hs
  have hremoval : sys.RemovalInv := (h.removal i m hm).step hs
  rw [hnext]
  refine h.update hm rfl hrefs hremoval (destroyed_step hs) ?_ ?_ ?_ ?_
  -- What is left are the entry and the history behind the step.
  all_goals rcases System.step_eq_some.mp hs with ⟨-, rfl⟩
  · refine h.entry_update hm halive fun j => ?_
    rw [(settle_conn _).1, hmap, Option.some.injEq, and_iff_left rfl]
    exact eq_comm
  · intro j found hmem
    rcases List.mem_append.mp hmem with hold | hnew
    · exact h.inserts j found hold
    · cases List.mem_singleton.mp hnew
      rfl
  · intro j k hmem
    rcases List.mem_append.mp hmem with hold | hnew
    · exact h.erases j k hold
    · cases List.mem_singleton.mp hnew
  · intro j
    rw [List.countP_append]
    show _ + 0 = _
    by_cases hj : j = i
    · rw [if_pos hj, hj, (settle_conn _).2, hnotes]
      exact h.counts i m hm
    · rw [if_neg hj, Nat.add_zero]

/-- `m_conn_map.erase(conn->fd())`. -/
theorem ConnMapInv.remove (h : s.ConnMapInv) (hm : s.conns[i]? = some m)
    (hs : m.sys.step S b = some sys) (hinserts : m.sys.Inserts b = false)
    (hremoves : m.sys.Removes b = true) : ((s.setSys i m sys).mapNext i m b).ConnMapInv := by
  have halive : m.sys.destroyed = false := alive_of_removes hremoves
  rcases System.inConnMap_next_of_removes S hremoves with ⟨hmap, hnotes⟩
  -- Whatever the erasure finds is the own entry: no other reference is released.
  have hnext : (s.setSys i m sys).mapNext i m b =
      { conns := s.conns.set i { m with sys }
        connMap := Function.update s.connMap m.fd none
        history := s.history ++ [.erase i (s.connMap m.fd)] } := by
    rw [mapNext, if_neg (by simp [hinserts]), if_pos hremoves]
    show TcpServer.mk (releaseEntry _ i (s.connMap m.fd)) _ _ = _
    rw [h.releaseEntry_found hm halive]
    rfl
  have hrefs : sys.RefInv := (h.refs i m hm).step hs
  have hremoval : sys.RemovalInv := (h.removal i m hm).step hs
  rw [hnext]
  refine h.update hm rfl hrefs hremoval (destroyed_step hs) ?_ ?_ ?_ ?_
  all_goals rcases System.step_eq_some.mp hs with ⟨-, rfl⟩
  · refine h.entry_update hm halive fun j => ?_
    rw [(settle_conn _).1, hmap]
    simp
  · intro j found hmem
    rcases List.mem_append.mp hmem with hold | hnew
    · exact h.inserts j found hold
    · cases List.mem_singleton.mp hnew
  · intro j k hmem
    rcases List.mem_append.mp hmem with hold | hnew
    · exact h.erases j k hold
    · injection List.mem_singleton.mp hnew with hj hfound
      rw [hj]
      exact h.found_own hm halive hfound.symm
  · intro j
    rw [List.countP_append, List.countP_singleton, MapOp.IsErase]
    by_cases hj : j = i
    · rw [if_pos hj, hj, (settle_conn _).2, hnotes, h.counts i m hm]
      simp
    · rw [if_neg hj, if_neg (by simpa using Ne.symm hj), Nat.add_zero]

omit [DecidableEq Tid] in
/-- A step that does not touch `m_conn_map`. -/
theorem ConnMapInv.keep (h : s.ConnMapInv) (hm : s.conns[i]? = some m) (hrefs : sys.RefInv)
    (hremoval : sys.RemovalInv) (hdead : m.sys.destroyed = true → sys.destroyed = true)
    (hmap : sys.loop.conn.inConnMap = m.sys.loop.conn.inConnMap)
    (hnotes : sys.loop.conn.notes.count .close = m.sys.loop.conn.notes.count .close) :
    (s.setSys i m sys).ConnMapInv := by
  refine h.update hm rfl hrefs hremoval hdead ?_ h.inserts h.erases ?_
  · intro fd j
    by_cases hj : j = i
    · rw [if_pos hj, hj, hmap]
      exact h.entry_iff hm
    · rw [if_neg hj]
      exact Iff.rfl
  · intro j
    by_cases hj : j = i
    · rw [if_pos hj, hj, hnotes]
      exact h.counts i m hm
    · rw [if_neg hj]
      rfl

theorem ConnMapInv.conn (h : s.ConnMapInv) (hm : s.conns[i]? = some m)
    (hs : m.sys.step S b = some sys) : ((s.setSys i m sys).mapNext i m b).ConnMapInv := by
  cases hinserts : m.sys.Inserts b with
  | true => exact h.insert hm hs hinserts
  | false =>
      cases hremoves : m.sys.Removes b with
      | true => exact h.remove hm hs hinserts hremoves
      | false =>
          have hnext : (s.setSys i m sys).mapNext i m b = s.setSys i m sys := by
            rw [mapNext, if_neg (by simp [hinserts]), if_neg (by simp [hremoves])]
          rw [hnext]
          refine h.keep hm ((h.refs i m hm).step hs) ((h.removal i m hm).step hs)
            (destroyed_step hs) ?_ ?_
          all_goals
            rcases System.step_eq_some.mp hs with ⟨hen, rfl⟩
            rcases System.inConnMap_next S hen hinserts hremoves with ⟨hmap, hnotes⟩
          · rw [(settle_conn _).1, hmap]
          · rw [(settle_conn _).2, hnotes]

/-- A callback or a task of the loop thread calls a connection that it holds. -/
theorem ConnMapInv.visit (h : s.ConnMapInv) (hm : s.conns[i]? = some m) (op : UserOp)
    (hvisit : Visitable m.sys) :
    (s.setSys i m { m.sys with loop := m.sys.loop.user S op }).ConnMapInv := by
  rcases hvisit with ⟨hfault, hidle, hcode, -, hholds⟩
  have hrefs : System.RefInv { m.sys with loop := m.sys.loop.user S op } := by
    -- Who holds the connection keeps it alive.
    have halive : m.sys.destroyed = false := by
      refine (h.refs i m hm).alive ?_
      intro hun
      rw [hun.holders] at hholds
      cases hholds
    refine { destroyed_iff := iff_of_false (by simp [halive]) ?_
             shuttingDown := (h.refs i m hm).shuttingDown }
    intro hzero
    have hnone : m.sys.holders = [] := (System.refs_eq_zero.mp hzero).holders
    rw [hnone] at hholds
    cases hholds
  refine h.keep hm hrefs ((h.removal i m hm).user op hfault hcode (by simp [hidle])) id ?_ ?_
  · exact Loop.user_inConnMap S _ op
  · exact congrArg (List.count .close) (Loop.user_notes S _ op)

theorem ConnMapInv.step (h : s.ConnMapInv) (hs : s.step S a = some s') : s'.ConnMapInv := by
  cases a with
  | accept fd io acceptorTid mem =>
      rw [TcpServer.step] at hs
      split at hs
      · cases hs
        exact h.accept mem ‹_›
      · cases hs
  | conn i b =>
      rcases step_conn_eq_some.mp hs with ⟨m, sys, hm, hsys, rfl⟩
      exact h.conn hm hsys
  | visit i op =>
      rcases step_visit_eq_some.mp hs with ⟨m, hm, hvisit, rfl⟩
      exact h.visit hm op hvisit

/-! ## `on_remove_conn` -/

omit [DecidableEq Tid] in
/-- While a close callback is to be made for the first time, the entry is there. -/
theorem ConnMapInv.entry_of_removes (h : s.ConnMapInv) (hm : s.conns[i]? = some m)
    (hphase : ClosePhase m.sys.loop.path m.sys.loop.conn) (hremoves : m.sys.Removes b = true) :
    s.connMap m.fd = some i := by
  cases b with
  | call env =>
      rcases Bool.and_eq_true_iff.mp hremoves with ⟨htop, -⟩
      rcases List.head?_eq_some_iff.mp (beq_iff_eq.mp htop) with ⟨rest, hstack⟩
      have hpath := Loop.path_cons hstack rfl
      rw [hpath] at hphase
      refine (h.entry_iff hm).mpr ⟨rfl, (h.removal i m hm).inConnMap.mpr ⟨?_, ?_⟩⟩
      -- Before the insertion nothing is on the path to the close callback.
      · intro hpc
        have hnone := ((h.removal i m hm).unjoined_of_insertConn hpc).path
        rw [hpath] at hnone
        cases hnone
      · exact hphase.count_of_closeCb
  | _ => cases hremoves

omit [DecidableEq Tid] in
/-- Connection `i` makes a step; its erasures of that step find its entry. -/
theorem Orderly.update (ho : s.Orderly) (hm : s.conns[i]? = some m)
    (hphase : ClosePhase sys.loop.path sys.loop.conn)
    (hconns : s'.conns = s.conns.set i { m with sys })
    (hhistory : ∀ j found, .erase j found ∈ s'.history →
      .erase j found ∈ s.history ∨ j = i ∧ found = some i) : s'.Orderly := by
  refine { phase := ?_, own := ?_ }
  · intro j m' hj
    rw [hconns, getElem?_set_conns hm] at hj
    split at hj
    · cases hj
      exact hphase
    · exact ho.phase j m' hj
  · intro j found hmem
    rcases hhistory j found hmem with hold | ⟨rfl, rfl⟩
    · exact ho.own j found hold
    · rfl

theorem Orderly.conn (ho : s.Orderly) (h : s.ConnMapInv) (hm : s.conns[i]? = some m)
    (hs : m.sys.step S b = some sys) (hok : m.sys.EndsOpen b) :
    ((s.setSys i m sys).mapNext i m b).Orderly := by
  have hphase : ClosePhase sys.loop.path sys.loop.conn :=
    System.closePhase_step (h.removal i m hm) (ho.phase i m hm) hok hs
  unfold mapNext
  split
  · next hinserts =>
      refine ho.update hm hphase (h.releaseEntry_found hm (h.of_inserts hm hinserts).1 _) ?_
      intro j found hmem
      rcases List.mem_append.mp hmem with hold | hnew
      · exact Or.inl hold
      · cases List.mem_singleton.mp hnew
  · split
    · next hremoves =>
        refine ho.update hm hphase (h.releaseEntry_found hm (alive_of_removes hremoves) _) ?_
        intro j found hmem
        rcases List.mem_append.mp hmem with hold | hnew
        · exact Or.inl hold
        · right
          -- The erasure of a first close callback finds the entry.
          injection List.mem_singleton.mp hnew with hj hfound
          exact ⟨hj, hfound.trans (h.entry_of_removes hm (ho.phase i m hm) hremoves)⟩
    · exact ho.update hm hphase rfl fun _ _ hmem => Or.inl hmem

theorem Orderly.step (ho : s.Orderly) (h : s.ConnMapInv) (hok : s.EndsOpen a)
    (hs : s.step S a = some s') : s'.Orderly := by
  cases a with
  | accept fd io acceptorTid mem =>
      rw [TcpServer.step] at hs
      split at hs
      · next hfree =>
          cases hs
          refine { phase := ?_, own := ho.own }
          intro j m' hj
          rcases getElem?_concat_conns hj with hj | ⟨-, rfl⟩
          · exact ho.phase j m' hj
          · exact System.closePhase_of_accepted
              { new := rfl
                otherThread := hfree.2.1
                unrelated := hfree.2.2 }
      · cases hs
  | conn i b =>
      rcases step_conn_eq_some.mp hs with ⟨m, sys, hm, hsys, rfl⟩
      exact ho.conn h hm hsys (hok m hm)
  | visit i op =>
      rcases step_visit_eq_some.mp hs with ⟨m, hm, hvisit, rfl⟩
      refine ho.update hm ?_ rfl fun _ _ hmem => Or.inl hmem
      refine Loop.closePhase_user S (ho.phase i m hm) op ?_
      rw [hvisit.2.1]
      intro c hc
      cases hc

omit [DecidableEq Tid] in
theorem Orderly.removedOnce (ho : s.Orderly) (h : s.ConnMapInv) : s.RemovedOnce := by
  refine ⟨?_, ho.own⟩
  intro i
  cases hm : s.conns[i]? with
  | none =>
      rw [h.future i hm]
      exact Nat.zero_le 1
  | some m =>
      rw [h.counts i m hm]
      exact (ho.phase i m hm).count_le_one

omit [DecidableEq Tid] in
theorem ConnMapInv.entriesOwn (h : s.ConnMapInv) : s.EntriesOwn := by
  intro fd i hentry
  rcases h.alive_of_entry hentry with ⟨m, hm, hfd, -⟩
  exact ⟨m, hm, hfd⟩

/-! ## Runs -/

/-- In every run the entries are those of their connections, no insertion overwrites one, and no
erasure hits another connection's.  And `on_remove_conn` is called at most once for each connection,
and erases its entry, when no `handle_read` finds the end of the input behind `handle_close`. -/
theorem connMap_of_run {as : List (Act Tid)} (hrun : run (step S) ready as = some s) :
    s.EntriesOwn ∧ s.InsertsFree ∧ s.ErasesNoOther ∧
      (Along (step S) EndsOpen ready as → s.RemovedOnce) := by
  have hinv : s.ConnMapInv :=
    invariant_run (fun _ _ _ h hs => h.step hs) connMapInv_ready hrun
  refine ⟨hinv.entriesOwn, hinv.inserts, hinv.erases, ?_⟩
  intro halong
  -- The phases are carried beside the invariant of the map.
  have horderly : s.ConnMapInv ∧ s.Orderly :=
    invariant_along (I := fun s => s.ConnMapInv ∧ s.Orderly)
      (fun _ _ _ h hok hs => ⟨h.1.step hs, h.2.step h.1 hok hs⟩)
      ⟨connMapInv_ready, orderly_ready⟩ halong hrun
  exact horderly.2.removedOnce hinv

/-- Thread `true` accepts `fd` for a loop of thread `false`. -/
def acceptFd (fd : Nat) : Act Bool :=
  .accept fd (IoService.construct false) true fun _ => 0

/-- A connection is accepted and closed by its peer, and its descriptor is accepted again. -/
def reusedFd : List (Act Bool) :=
  acceptFd 7 ::
    (System.startSteps ++ System.startTasks ++ System.closeQuietly).map (Act.conn 0) ++
      [acceptFd 7, .conn 1 .start]

theorem connMap_of_run_reusedFd :
    ∃ s, run (step System.debugSetup) ready reusedFd = some s ∧
      s.history = [.insert 0 none, .erase 0 (some 0), .insert 1 none] ∧ s.connMap 7 = some 1 ∧
      s.EntriesOwn ∧ s.InsertsFree ∧ s.RemovedOnce := by
  -- One evaluation of the run serves both.
  obtain ⟨hany, halong⟩ :
      (run (step System.debugSetup) ready reusedFd).any (fun s =>
        decide (s.history = [.insert 0 none, .erase 0 (some 0), .insert 1 none] ∧
          s.connMap 7 = some 1)) = true ∧
      Along (step System.debugSetup) EndsOpen ready reusedFd := by
    decide +kernel
  rcases exists_run_of_any hany with ⟨s, hrun, hhistory, hentry⟩
  rcases connMap_of_run hrun with ⟨hown, hfree, -, honce⟩
  exact ⟨s, hrun, hhistory, hentry, hown, hfree, honce halong⟩

/-- The loop adds the channel before `start()` makes it readable, and a hang-up is reported.  Behind
the close callback `start()` goes on; the test for input comes to `handle_read`, and `recv` returns
0. -/
def readableTooLate : List (System.Act Bool) :=
  [.start, .start, .start, .io (.wakeMeUp true),
    .io .testQuit, .poll false none, .io .dispatched, .io .swapPending,
    .runNext, .call {}, .io .taskReturns, .io .batchDone,
    .io .testQuit, .poll false (some epollHup), .processWork, .call {}, .call {}, .call {},
    .user .returns, .call {}, .call {},
    .start, .call {}, .call { received := some [] }, .call {}, .user .returns, .call {}, .call {},
    .user .returns, .call {}]

theorem removed_twice :
    ¬ ∀ (as : List (Act Bool)) (s : TcpServer Bool),
      run (step System.debugSetup) ready as = some s →
        s.EntriesOwn ∧ s.InsertsFree ∧ s.RemovedOnce := by
  intro h
  have hany : (run (step System.debugSetup) ready
      (acceptFd 7 :: readableTooLate.map (Act.conn 0))).any (fun s =>
        decide (s.history = [.insert 0 none, .erase 0 (some 0), .erase 0 none])) = true := by
    decide +kernel
  rcases exists_run_of_any hany with ⟨s, hrun, hhistory⟩
  have honce := (h _ s hrun).2.2.1 0
  rw [hhistory] at honce
  exact absurd honce (by decide)

end TcpServer

end Net
end Muradin
