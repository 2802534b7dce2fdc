import Muradin.Net.Connection.Output

/-!
# Loop — a connection on its loop thread

The machine behind `evt_channel::process_work`: a stack of the calls that are still to be made, the
innermost first.  A step polls, starts a dispatch, makes the next call, or lets a callback of the
user do something; callbacks may write, shut down and read at any point.
-/

namespace Muradin
namespace Net

open Lib Cpp Events

/-- How the program is built, on which host it runs, and the callbacks that are set. -/
structure Setup where
  build : Build
  host : ByteOrder
  cbs : Callbacks

/-- A connection and the calls that its loop thread has still to make. -/
structure Loop where
  conn : Connection
  stack : List Call
  fault : Option Fault

/-- What a callback of the user does. -/
inductive UserOp
  | write (data : Block)
  | shutdown
  /-- a member function of `read_buffer()` -/
  | readBuffer (op : ByteBuffer.Op)
  | returns

namespace Loop

inductive Act
  /-- `save_evt_status(events)` -/
  | poll (events : Events)
  | processWork
  /-- `write` called on the loop thread outside a dispatch -/
  | writeInLoop (data : Block)
  /-- the next call is made -/
  | call (env : Env)
  /-- the running callback does this -/
  | user (op : UserOp)

/-! ## Steps -/

/-- The tests of `do_process_work`, in order. -/
def dispatchCalls : List Call :=
  [.testHup, .testErr, .testIn, .testOut]

theorem mem_dispatchCalls {c : Call} :
    c ∈ dispatchCalls ↔ c = .testHup ∨ c = .testErr ∨ c = .testIn ∨ c = .testOut := by
  simp [dispatchCalls]

/-- Behind a call: the calls that it makes go before the `rest`. -/
def ofResult (rest : List Call) : EStateM.Result Fault Connection (List Call) → Loop
  | .ok calls c => { conn := c, stack := calls ++ rest, fault := none }
  | .error e c => { conn := c, stack := rest, fault := some e }

def call (S : Setup) (mem : Nat → Byte) (env : Env) (s : Loop) : Loop :=
  match s.stack with
  | [] => s
  | c :: rest => ofResult rest ((Connection.exec S.build S.cbs env mem c).run s.conn)

def user (S : Setup) (s : Loop) : UserOp → Loop
  | .write data => { s with stack := .writeInLoop (.bytes data.1) :: s.stack }
  | .shutdown =>
      { s with
        conn := { s.conn with connStatus := .kInDisconnect }
        stack := .shutdownInLoop :: s.stack }
  | .readBuffer op =>
      match (Connection.onReadCache (op.exec S.build S.host)).run s.conn with
      | .ok _ c => { s with conn := c }
      | .error e c => { s with conn := c, fault := some e }
  | .returns => { s with stack := s.stack.tail }

/-- What the system calls of a call can answer. -/
def Answers (mem : Nat → Byte) (conn : Connection) (env : Env) : Call → Prop
  | .writeInLoop data => ∀ r ∈ env.sent, r ≤ (data.read mem).length
  | .handleWrite => ∀ r ∈ env.sent, r ≤ conn.writeCache.content.length
  | .handleRead => ∀ bytes ∈ env.received, bytes.length ≤ Connection.maxReadbytesOnce
  | _ => True

/-- The next call is not a callback of the user that is still running. -/
def Callable (mem : Nat → Byte) (s : Loop) (env : Env) : Prop :=
  ∃ c ∈ s.stack.head?, c ≠ .user ∧ Answers mem s.conn env c

def Enabled (mem : Nat → Byte) (s : Loop) : Act → Prop
  | .poll _ => s.fault = none ∧ s.stack = []
  | .processWork => s.fault = none ∧ s.stack = []
  | .writeInLoop _ => s.fault = none ∧ s.stack = []
  | .call env => s.fault = none ∧ s.Callable mem env
  | .user _ => s.fault = none ∧ s.stack.head? = some .user

def next (S : Setup) (mem : Nat → Byte) (s : Loop) : Act → Loop
  | .poll events => { s with conn := { s.conn with channle := s.conn.channle.saveEvtStatus events } }
  | .processWork => { s with stack := dispatchCalls }
  | .writeInLoop data => { s with stack := [.writeInLoop (.bytes data.1)] }
  | .call env => s.call S mem env
  | .user op => s.user S op

instance (mem : Nat → Byte) (conn : Connection) (env : Env) :
    (c : Call) → Decidable (Answers mem conn env c)
  | .writeInLoop _ => inferInstanceAs (Decidable (∀ r ∈ _, _))
  | .handleWrite => inferInstanceAs (Decidable (∀ r ∈ _, _))
  | .handleRead => inferInstanceAs (Decidable (∀ bytes ∈ _, _))
  | .testHup | .testErr | .testIn | .testOut | .handleError | .handleClose | .cacheOutput _ _
  | .shutdownInLoop | .addChannel | .updateChannel | .connCb | .readCb _ | .writeCb _ _ | .errCb _
  | .closeCb | .user => inferInstanceAs (Decidable True)

instance (mem : Nat → Byte) (s : Loop) (env : Env) : Decidable (s.Callable mem env) :=
  inferInstanceAs (Decidable (∃ c ∈ s.stack.head?, _))

instance (mem : Nat → Byte) (s : Loop) : (a : Act) → Decidable (s.Enabled mem a)
  | .poll _ => inferInstanceAs (Decidable (_ ∧ _))
  | .processWork => inferInstanceAs (Decidable (_ ∧ _))
  | .writeInLoop _ => inferInstanceAs (Decidable (_ ∧ _))
  | .call _ => inferInstanceAs (Decidable (_ ∧ _))
  | .user _ => inferInstanceAs (Decidable (_ ∧ _))

def step (S : Setup) (mem : Nat → Byte) (s : Loop) (a : Act) : Option Loop :=
  if s.Enabled mem a then some (s.next S mem a) else none

variable {S : Setup} {mem : Nat → Byte} {s s' : Loop} {a : Act} {env : Env}

theorem step_eq_some : s.step S mem a = some s' ↔ s.Enabled mem a ∧ s.next S mem a = s' := by
  simp [step]

/-! ## One call -/

theorem call_cons {c : Call} {rest : List Call} (h : s.stack = c :: rest) :
    s.call S mem env = ofResult rest ((Connection.exec S.build S.cbs env mem c).run s.conn) := by
  simp [call, h]

theorem conn_ofResult (rest : List Call) (r : EStateM.Result Fault Connection (List Call)) :
    (ofResult rest r).conn = stateOf r := by
  cases r <;> rfl

/-- The next call, for a step that makes one. -/
theorem Callable.exists_cons (h : s.Callable mem env) :
    ∃ c rest, s.stack = c :: rest ∧ c ≠ .user ∧ Answers mem s.conn env c := by
  rcases h with ⟨c, hc, hne, hanswers⟩
  rcases List.head?_eq_some_iff.mp hc with ⟨rest, hstack⟩
  exact ⟨c, rest, hstack, hne, hanswers⟩

/-- Behind a call the stack is the calls it makes and the rest. -/
theorem call_stack (S : Setup) (mem : Nat → Byte) (env : Env) {c : Call} {rest : List Call}
    (h : s.stack = c :: rest) :
    ∃ calls, (s.call S mem env).stack = calls ++ rest ∧ ∀ c' ∈ calls, c.MayMake c' := by
  rw [call_cons h]
  cases hrun : (Connection.exec S.build S.cbs env mem c).run s.conn with
  | ok calls conn =>
      exact ⟨calls, rfl, Connection.exec_mayMake c s.conn calls conn hrun⟩
  | error e conn => exact ⟨[], rfl, by simp⟩

/-- What a call keeps of the connection. -/
theorem call_keeps {ρ : Type} {f : Connection → ρ} {c : Call} {rest : List Call}
    (h : s.stack = c :: rest) (hkeeps : Keeps f (Connection.exec S.build S.cbs env mem c)) :
    f (s.call S mem env).conn = f s.conn := by
  rw [call_cons h, conn_ofResult]
  exact hkeeps s.conn

/-- A call notes its callback, or nothing. -/
theorem call_notes {c : Call} {rest : List Call} (h : s.stack = c :: rest) :
    (s.call S mem env).conn.notes = s.conn.notes ∨
      ∃ n, c.note s.conn = some n ∧ (s.call S mem env).conn.notes = s.conn.notes ++ [n] := by
  rw [call_cons h, conn_ofResult]
  exact Connection.exec_notes c s.conn

/-- A callback is noted, or it is not set and nothing changes. -/
theorem call_deliver (S : Setup) (mem : Nat → Byte) (env : Env) {c : Call} {rest : List Call}
    {isSet : Bool} {note : Connection → Note} (h : s.stack = c :: rest)
    (hexec : Connection.exec S.build S.cbs env mem c = Connection.deliver isSet note) :
    (s.call S mem env).conn =
      if isSet then { s.conn with notes := s.conn.notes ++ [note s.conn] } else s.conn := by
  rw [call_cons h, conn_ofResult, hexec]
  exact Connection.stateOf_deliver isSet note s.conn

/-- Reading changes the read cache and nothing else. -/
theorem user_readBuffer (S : Setup) (s : Loop) (op : ByteBuffer.Op) :
    ∃ b, (s.user S (.readBuffer op)).conn = { s.conn with readCache := b } ∧
      (s.user S (.readBuffer op)).stack = s.stack := by
  cases hrun : (op.exec S.build S.host).run s.conn.readCache with
  | ok out b =>
      have hcache : (Connection.onReadCache (op.exec S.build S.host)).run s.conn =
          .ok out { s.conn with readCache := b } := run_onField_ok hrun
      exact ⟨b, by simp [user, hcache], by simp [user, hcache]⟩
  | error e b =>
      have hcache : (Connection.onReadCache (op.exec S.build S.host)).run s.conn =
          .error e { s.conn with readCache := b } := run_onField_error hrun
      exact ⟨b, by simp [user, hcache], by simp [user, hcache]⟩

/-- A callback of the user leaves the connection as it is, changes the read cache, or changes the
status by `shutdown`. -/
theorem user_conn (op : UserOp) :
    (s.user S op).conn = s.conn ∨ (∃ b, (s.user S op).conn = { s.conn with readCache := b }) ∨
      (s.user S op).conn = { s.conn with connStatus := .kInDisconnect } := by
  cases op with
  | write data => exact Or.inl rfl
  | shutdown => exact Or.inr (Or.inr rfl)
  | readBuffer op =>
      rcases user_readBuffer S s op with ⟨b, hconn, -⟩
      exact Or.inr (Or.inl ⟨b, hconn⟩)
  | returns => exact Or.inl rfl

/-- What looks neither at the read cache nor at the status is kept. -/
theorem user_keeps {ρ : Type} {f : Connection → ρ} (hread : ∀ b c, f { c with readCache := b } = f c)
    (hstatus : ∀ c, f { c with connStatus := .kInDisconnect } = f c) (op : UserOp) :
    f (s.user S op).conn = f s.conn := by
  rcases user_conn (S := S) (s := s) op with hconn | ⟨b, hconn⟩ | hconn
  · rw [hconn]
  · rw [hconn, hread]
  · rw [hconn, hstatus]

theorem user_closed (S : Setup) (s : Loop) (op : UserOp) :
    (s.user S op).conn.closed = s.conn.closed :=
  user_keeps (f := fun c => c.closed) (fun _ _ => rfl) (fun _ => rfl) op

theorem user_notes (S : Setup) (s : Loop) (op : UserOp) :
    (s.user S op).conn.notes = s.conn.notes :=
  user_keeps (f := fun c => c.notes) (fun _ _ => rfl) (fun _ => rfl) op

theorem user_poller (S : Setup) (s : Loop) (op : UserOp) :
    (s.user S op).conn.poller = s.conn.poller :=
  user_keeps (f := fun c => c.poller) (fun _ _ => rfl) (fun _ => rfl) op

theorem user_channle (S : Setup) (s : Loop) (op : UserOp) :
    (s.user S op).conn.channle = s.conn.channle :=
  user_keeps (f := fun c => c.channle) (fun _ _ => rfl) (fun _ => rfl) op

theorem user_inConnMap (S : Setup) (s : Loop) (op : UserOp) :
    (s.user S op).conn.inConnMap = s.conn.inConnMap :=
  user_keeps (f := fun c => c.inConnMap) (fun _ _ => rfl) (fun _ => rfl) op

/-- Reading does not touch the status. -/
theorem readBuffer_status (S : Setup) (s : Loop) (op : ByteBuffer.Op) :
    (s.user S (.readBuffer op)).conn.connStatus = s.conn.connStatus ∧
      (s.user S (.readBuffer op)).conn.closed = s.conn.closed := by
  rcases user_readBuffer S s op with ⟨b, hconn, -⟩
  rw [hconn]
  exact ⟨rfl, rfl⟩

theorem user_status (op : UserOp) :
    (s.user S op).conn.connStatus = s.conn.connStatus ∨
      (s.user S op).conn.connStatus = .kInDisconnect := by
  rcases user_conn (S := S) (s := s) op with hconn | ⟨b, hconn⟩ | hconn
  · exact Or.inl (by rw [hconn])
  · exact Or.inl (by rw [hconn])
  · exact Or.inr (by rw [hconn])

/-- The stack behind a step of a callback: a call on top, or the callback gone. -/
theorem user_stack (op : UserOp) :
    (∃ data : Block, (s.user S op).stack = .writeInLoop (.bytes data.1) :: s.stack) ∨
      (s.user S op).stack = .shutdownInLoop :: s.stack ∨ (s.user S op).stack = s.stack ∨
      (s.user S op).stack = s.stack.tail := by
  cases op with
  -- `write` and `shutdown` call their `_in_loop` function at once on the loop thread.
  | write data => exact Or.inl ⟨data, rfl⟩
  | shutdown => exact Or.inr (Or.inl rfl)
  | readBuffer op =>
      rcases user_readBuffer S s op with ⟨b, -, hstack⟩
      exact Or.inr (Or.inr (Or.inl hstack))
  | returns => exact Or.inr (Or.inr (Or.inr rfl))

/-! ## The end of the connection -/

/-- A close callback that is still to be made belongs to a `handle_close` that has run. -/
def Closing (s : Loop) : Prop :=
  .closeCb ∈ s.stack → s.conn.closed = true

theorem call_handleClose {rest : List Call} (h : s.stack = .handleClose :: rest) :
    (s.call S mem env).conn.closed = true ∧
      (s.call S mem env).conn.connStatus = .kDisconnect := by
  rcases Connection.run_handleClose s.conn with ⟨ch, p, hrun⟩
  rw [call_cons h, conn_ofResult, Connection.exec, hrun]
  exact ⟨rfl, rfl⟩

/-- Every other call leaves the status and the history of `handle_close` alone. -/
theorem call_status {c : Call} {rest : List Call} (h : s.stack = c :: rest)
    (hc : c ≠ .handleClose) :
    (s.call S mem env).conn.connStatus = s.conn.connStatus ∧
      (s.call S mem env).conn.closed = s.conn.closed := by
  exact Prod.mk.inj (call_keeps h (Connection.exec_keeps_status hc))

theorem call_closed {c : Call} {rest : List Call} (h : s.stack = c :: rest)
    (hclosed : s.conn.closed = true) : (s.call S mem env).conn.closed = true := by
  by_cases hc : c = .handleClose
  · subst hc
    exact (call_handleClose h).1
  · rw [(call_status h hc).2, hclosed]

theorem Closing.call {c : Call} {rest : List Call} (hclosing : s.Closing)
    (h : s.stack = c :: rest) : (s.call S mem env).Closing := by
  intro hmem
  rcases call_stack S mem env h with ⟨calls, hstack, hmake⟩
  rw [hstack] at hmem
  rcases List.mem_append.mp hmem with hnew | hold
  · have hc := (hmake _ hnew).eq_handleClose
    subst hc
    exact (call_handleClose h).1
  · refine call_closed h (hclosing ?_)
    rw [h]
    exact List.mem_cons_of_mem c hold

theorem Closing.user (hclosing : s.Closing) (op : UserOp) : (s.user S op).Closing := by
  intro hmem
  rw [user_closed]
  apply hclosing
  rcases user_stack (S := S) (s := s) op with ⟨data, hstack⟩ | hstack | hstack | hstack
  · rw [hstack] at hmem
    simpa using hmem
  · rw [hstack] at hmem
    simpa using hmem
  · rwa [hstack] at hmem
  · rw [hstack] at hmem
    exact List.mem_of_mem_tail hmem

end Loop

end Net
end Muradin
