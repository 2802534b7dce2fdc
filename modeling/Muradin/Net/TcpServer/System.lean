import Muradin.Net.Connection.Loop
import Muradin.Net.IoService.TaskQueue

/-!
# System — one connection of a `tcp_server` among threads

A connection, the `io_service` it belongs to, the acceptor's thread executing
`tcp_server::on_new_conn` and `connection::start`, and any number of threads that hold a
`connection_ptr`.

* the loop thread goes through `io_service::run`; inside it, `Loop` makes the calls;
* what a queued task is bound to is part of the task: `write` and `shutdown` bind the raw `this`,
  `start` binds `shared_from_this()` to the connection callback;
* the connection is destroyed in the step that leaves no reference to it;
* a queued write carries what its memory held when `write` was called, which no function reads.
-/

namespace Muradin
namespace Net

open Lib Cpp Events

/-! ## Tasks -/

/-- What is bound into a task of the queue. -/
inductive Task
  /-- `add_channel_in_loop(channel)` -/
  | addChannel
  /-- `update_channel_in_loop(channel)` -/
  | updateChannel
  /-- `m_conn_cb(shared_from_this())` -/
  | connCb
  /-- `write_in_loop(data, size)` on `this` -/
  | writeInLoop (data : Source)
  /-- `shutdown_in_loop()` on `this` -/
  | shutdownInLoop
  /-- a task that is none of the connection's business -/
  | other
  deriving DecidableEq

namespace Task

def calls : Task → List Call
  | .addChannel => [.addChannel]
  | .updateChannel => [.updateChannel]
  | .connCb => [.connCb]
  | .writeInLoop data => [.writeInLoop data]
  | .shutdownInLoop => [.shutdownInLoop]
  | .other => []

/-- The task was queued by `write` or `shutdown` and is bound to the raw `this`. -/
def BindsThis : Task → Bool
  | .writeInLoop _ => true
  | .shutdownInLoop => true
  | _ => false

end Task

/-- Where the acceptor's thread is in `on_new_conn`. -/
inductive StartPc
  /-- before `m_conn_map[fd] = new_conn` -/
  | insertConn
  /-- in `start()` -/
  | tie
  | joinToService
  | enableRead
  | updateChannel
  | setConnected
  | runConnCb
  /-- before `new_conn` goes out of scope -/
  | leave
  | done
  deriving DecidableEq, Repr

/-- What the bytes of a write were when `write` was called. -/
def Source.expected : Source → List Byte
  | .bytes data => data
  | .memory _ _ snapshot => snapshot

structure System (Tid : Type) where
  io : IoService Tid Task
  loop : Loop
  mem : Nat → Byte
  acceptorTid : Tid
  startPc : StartPc
  /-- the threads that hold a `connection_ptr`, once for each copy -/
  holders : List Tid
  /-- the thread is in `shutdown()`, behind its assignment to `m_conn_status` -/
  shuttingDown : Tid → Bool
  /-- the channel is in `active_channels` and was not processed yet -/
  active : Bool
  /-- `process_work` holds the connection -/
  locked : Bool
  destroyed : Bool
  /-- what was read for a send or an append, each with what `write` was given -/
  handed : List (List Byte × List Byte)

namespace System

variable {Tid : Type}

/-- A new connection in `on_new_conn`, on a thread that is not the loop's. -/
def accept (io : IoService Tid Task) (acceptorTid : Tid) (mem : Nat → Byte) : System Tid :=
  { io
    loop := { conn := Connection.newConnection, stack := [], fault := none }
    mem
    acceptorTid
    startPc := .insertConn
    holders := []
    shuttingDown := fun _ => false
    active := false
    locked := false
    destroyed := false
    handed := [] }

inductive Act (Tid : Type)
  /-- a step of the `io_service` alone -/
  | io (a : IoService.Act Tid Task)
  /-- the next step of `on_new_conn` and `start` -/
  | start
  /-- `epoll_wait` returns, with these events for the channel or none -/
  | poll (selfReady : Bool) (events : Option Events)
  | processWork
  | workDone
  | runNext
  | call (env : Env)
  | user (op : UserOp)
  /-- the running callback stores a copy of its `connection_ptr` for thread `t` -/
  | copy (t : Tid)
  /-- thread `t` passes a copy to thread `t'` -/
  | give (t t' : Tid)
  | release (t : Tid)
  /-- `write(buffer(ptr, len))` on thread `t` -/
  | write (t : Tid) (ptr len : Nat)
  /-- `shutdown()` on thread `t`: `m_conn_status = kInDisconnect` -/
  | shutdownMark (t : Tid)
  /-- and its `run_task` -/
  | shutdownQueue (t : Tid)
  /-- a thread stores to its memory -/
  | poke (addr : Nat) (val : Byte)

/-! ## References -/

/-- The references to the connection: the entry of `m_conn_map`, the copies of the threads, the
local variable of `on_new_conn`, the lock of `process_work`, the callbacks that are running, and the
connection callbacks bound in tasks that still exist. -/
def refs (s : System Tid) : Nat :=
  s.loop.conn.inConnMap.toNat + s.holders.length + (if s.startPc = .done then 0 else 1) +
    s.locked.toNat + s.loop.stack.count .user +
    s.io.held.countP (·.2 = .connCb)

/-- The destructor closes the socket, which takes the descriptor out of `epoll`. -/
def destroy (s : System Tid) : System Tid :=
  { s with
    destroyed := true
    loop :=
      { s.loop with
        conn := { s.loop.conn with poller := { s.loop.conn.poller with registered := none } } } }

/-- Behind a step: without references the connection is destroyed. -/
def settle (s : System Tid) : System Tid :=
  if s.refs = 0 then s.destroy else s

/-- What does not depend on the connection's life is the same behind a step. -/
theorem settle_of_same {ρ : Type} {f : System Tid → ρ} (h : ∀ s, f s.destroy = f s)
    (s : System Tid) : f s.settle = f s := by
  unfold settle
  split
  · exact h s
  · rfl

/-- A member function of the destroyed connection is called. -/
def dangling (s : System Tid) : System Tid :=
  { s with loop := { s.loop with fault := some .dangling } }

variable [DecidableEq Tid]

/-! ## `on_new_conn` and `start` -/

/-- `m_service.run_task(func)` or `update_channel`, on another thread than the loop's. -/
def queue (s : System Tid) (t : Tid) (func : Task) : System Tid :=
  { s with io := s.io.runTask t func }

def setChannle (s : System Tid) (ch : EvtChannel) : System Tid :=
  { s with loop := { s.loop with conn := { s.loop.conn with channle := ch } } }

def setConnStatus (s : System Tid) (st : ConnStat) : System Tid :=
  { s with loop := { s.loop with conn := { s.loop.conn with connStatus := st } } }

def startNext (s : System Tid) : System Tid :=
  match s.startPc with
  | .insertConn =>
      { s with
        startPc := .tie
        loop := { s.loop with conn := { s.loop.conn with inConnMap := true } } }
  | .tie =>
      { s.setChannle { s.loop.conn.channle with tied := true } with startPc := .joinToService }
  | .joinToService => { s.queue s.acceptorTid .addChannel with startPc := .enableRead }
  | .enableRead =>
      let interest := s.loop.conn.channle.readInterest true
      { s.setChannle { s.loop.conn.channle with lastEvtStatus := interest } with
        startPc := .updateChannel }
  | .updateChannel => { s.queue s.acceptorTid .updateChannel with startPc := .setConnected }
  | .setConnected => { s.setConnStatus .kConnected with startPc := .runConnCb }
  | .runConnCb => { s.queue s.acceptorTid .connCb with startPc := .leave }
  | .leave => { s with startPc := .done }
  | .done => s

/-! ## The loop thread -/

/-- What the next call reads of the memory of a write, with what `write` was given. -/
def handing (s : System Tid) : List (List Byte × List Byte) :=
  match s.loop.stack with
  | .writeInLoop data :: _ =>
      -- Behind unsent bytes nothing is sent, and nothing is read yet.
      if s.loop.conn.writeCache.content = [] then [(data.expected, data.read s.mem)] else []
  | .cacheOutput data n :: _ => [(data.expected.take n, (data.read s.mem).take n)]
  | _ => []

/-- The steps that the `io_service` takes without the connection. -/
def IoAlone (s : System Tid) : IoService.Act Tid Task → Prop
  | .runTask _ task => task = .other
  | .pollReturns _ => False
  | .runNext => False
  | .onRead => s.loop.stack = []
  | .dispatched => s.loop.stack = [] ∧ s.active = false ∧ s.locked = false
  | .taskReturns => s.loop.stack = []
  | _ => True

/-- The task that `to_run[i]()` calls. -/
def nextTask (s : System Tid) : Task :=
  ((s.io.toRun[s.io.i]?).map (·.2)).getD .other

/-! ## Steps -/

/-- Thread `t` is another thread than the loop's, holds the connection and can call it. -/
def Holds (s : System Tid) (t : Tid) : Prop :=
  t ∈ s.holders ∧ t ≠ s.io.ownerTid ∧ s.io.MayCall t ∧ s.shuttingDown t = false

def Guard (s : System Tid) : Act Tid → Prop
  | .io a => s.IoAlone a ∧ s.io.Enabled a
  | .start => s.startPc ≠ .done ∧ s.acceptorTid ≠ s.io.ownerTid ∧ s.io.MayCall s.acceptorTid
  | .poll selfReady events =>
      s.io.Enabled (.pollReturns selfReady) ∧
        (events.isSome → s.loop.conn.poller.registered.isSome)
  | .processWork => s.active = true ∧ s.loop.stack = []
  | .workDone => s.locked = true ∧ s.loop.stack = []
  | .runNext => s.io.Enabled .runNext
  | .call env => s.loop.Callable s.mem env ∧ s.io.LoopOutside
  | .user _ => s.loop.stack.head? = some .user ∧ s.io.LoopOutside
  | .copy _ => s.loop.stack.head? = some .user ∧ s.io.LoopOutside
  | .give t _ => t ∈ s.holders
  | .release t => t ∈ s.holders ∧ s.io.caller t = .outside ∧ s.shuttingDown t = false
  | .write t _ _ => s.Holds t
  | .shutdownMark t => s.Holds t
  | .shutdownQueue t => s.shuttingDown t = true ∧ t ≠ s.io.ownerTid ∧ s.io.MayCall t
  | .poke _ _ => True

/-- No step is taken behind a fault. -/
def Enabled (s : System Tid) (a : Act Tid) : Prop :=
  s.loop.fault = none ∧ s.Guard a

def next (S : Setup) (s : System Tid) : Act Tid → System Tid
  | .io a => { s with io := s.io.next a }
  | .start => s.startNext
  | .poll selfReady events =>
      let s := { s with io := s.io.next (.pollReturns selfReady), active := events.isSome }
      match events with
      | some events => s.setChannle (s.loop.conn.channle.saveEvtStatus events)
      | none => s
  | .processWork =>
      if s.destroyed then
        s.dangling
      else
        { s with
          active := false
          locked := s.loop.conn.channle.tied
          loop := { s.loop with stack := Loop.dispatchCalls } }
  | .workDone => { s with locked := false }
  | .runNext =>
      { s with
        io := s.io.next .runNext
        loop := { s.loop with stack := s.nextTask.calls } }
  | .call env =>
      if s.destroyed then
        s.dangling
      else
        { s with loop := s.loop.call S s.mem env, handed := s.handed ++ s.handing }
  | .user op => { s with loop := s.loop.user S op }
  | .copy t => { s with holders := t :: s.holders }
  | .give _ t' => { s with holders := t' :: s.holders }
  | .release t => { s with holders := s.holders.erase t }
  | .write t ptr len => s.queue t (.writeInLoop (.memory ptr len (loadMemory s.mem ptr len)))
  | .shutdownMark t =>
      { s.setConnStatus .kInDisconnect with shuttingDown := Function.update s.shuttingDown t true }
  | .shutdownQueue t =>
      { s.queue t .shutdownInLoop with shuttingDown := Function.update s.shuttingDown t false }
  | .poke addr val => { s with mem := Function.update s.mem addr val }

instance (s : System Tid) : (a : IoService.Act Tid Task) → Decidable (s.IoAlone a)
  | .runTask _ task => inferInstanceAs (Decidable (task = .other))
  | .pollReturns _ | .runNext => inferInstanceAs (Decidable False)
  | .onRead | .taskReturns => inferInstanceAs (Decidable (s.loop.stack = []))
  | .dispatched => inferInstanceAs (Decidable (_ ∧ _))
  | .setQuit _ | .wakeMeUp _ | .testQuit | .swapPending | .batchDone =>
      inferInstanceAs (Decidable True)

instance (s : System Tid) (t : Tid) : Decidable (s.Holds t) :=
  inferInstanceAs (Decidable (_ ∧ _))

instance (s : System Tid) : (a : Act Tid) → Decidable (s.Guard a)
  | .io _ => inferInstanceAs (Decidable (_ ∧ _))
  | .start => inferInstanceAs (Decidable (_ ∧ _))
  | .poll _ _ => inferInstanceAs (Decidable (_ ∧ (_ → _)))
  | .processWork => inferInstanceAs (Decidable (_ ∧ _))
  | .workDone => inferInstanceAs (Decidable (_ ∧ _))
  | .runNext => inferInstanceAs (Decidable (s.io.Enabled .runNext))
  | .call _ => inferInstanceAs (Decidable (_ ∧ _))
  | .user _ => inferInstanceAs (Decidable (_ ∧ _))
  | .copy _ => inferInstanceAs (Decidable (_ ∧ _))
  | .give _ _ => inferInstanceAs (Decidable (_ ∈ _))
  | .release _ => inferInstanceAs (Decidable (_ ∧ _))
  | .write t _ _ => inferInstanceAs (Decidable (s.Holds t))
  | .shutdownMark t => inferInstanceAs (Decidable (s.Holds t))
  | .shutdownQueue _ => inferInstanceAs (Decidable (_ ∧ _))
  | .poke _ _ => inferInstanceAs (Decidable True)

instance (s : System Tid) (a : Act Tid) : Decidable (s.Enabled a) :=
  inferInstanceAs (Decidable (_ ∧ _))

def step (S : Setup) (s : System Tid) (a : Act Tid) : Option (System Tid) :=
  if s.Enabled a then some (s.next S a).settle else none

variable {S : Setup} {s s' : System Tid} {a : Act Tid}

theorem step_eq_some : s.step S a = some s' ↔ s.Enabled a ∧ (s.next S a).settle = s' := by
  simp [step]

theorem next_processWork_of_destroyed (S : Setup) (h : s.destroyed = true) :
    s.next S .processWork = s.dangling := by
  rw [next, if_pos h]

theorem next_processWork_of_alive (S : Setup) (h : s.destroyed = false) :
    s.next S .processWork =
      { s with
        active := false
        locked := s.loop.conn.channle.tied
        loop := { s.loop with stack := Loop.dispatchCalls } } := by
  simp [next, h]

theorem next_call_of_destroyed (S : Setup) (env : Env) (h : s.destroyed = true) :
    s.next S (.call env) = s.dangling := by
  rw [next, if_pos h]

theorem next_call_of_alive (S : Setup) (env : Env) (h : s.destroyed = false) :
    s.next S (.call env) =
      { s with loop := s.loop.call S s.mem env, handed := s.handed ++ s.handing } := by
  simp [next, h]

/-! ## Runs -/

/-- A connection that a `tcp_server` has just accepted for a loop whose queue holds other work. -/
structure Accepted (s : System Tid) : Prop where
  new : s = accept s.io s.acceptorTid s.mem
  otherThread : s.acceptorTid ≠ s.io.ownerTid
  unrelated : ∀ x ∈ s.io.held, x.2 = .other

/-- A connection accepted by thread `true` for the loop of thread `false`. -/
def acceptedByOther : System Bool :=
  accept (IoService.construct false) true fun _ => 0

theorem accepted_acceptedByOther : acceptedByOther.Accepted :=
  { new := rfl
    otherThread := by decide
    unrelated := by simp [acceptedByOther, accept, IoService.construct, IoService.held] }

/-- A Debug build with every callback set. -/
def debugSetup : Setup :=
  { build := .debug
    host := .liteEndian
    cbs := { conn := true, read := true, write := true, error := true } }

/-- `on_new_conn`, to its end. -/
def startSteps : List (Act Bool) :=
  [.start, .start, .start, .io (.wakeMeUp true), .start, .start, .io (.wakeMeUp true), .start,
    .start, .io (.wakeMeUp true), .start]

/-- The loop runs the three tasks of `start()`; the connection callback does `acts` and returns. -/
def startTasksDoing (acts : List (Act Bool)) : List (Act Bool) :=
  [.io .testQuit, .poll false none, .io .dispatched, .io .swapPending,
    .runNext, .call {}, .io .taskReturns, .runNext, .call {}, .io .taskReturns,
    .runNext, .call {}] ++ acts ++ [.user .returns, .io .taskReturns, .io .batchDone]

def startTasks : List (Act Bool) :=
  startTasksDoing []

/-- The peer closes: `recv` returns 0, the connection callback is called twice, and the loop comes
to the close callback. -/
def peerCloses : List (Act Bool) :=
  [.io .testQuit, .poll false (some epollIn), .processWork, .call {}, .call {}, .call {},
    .call { received := some [] }, .call {}, .user .returns, .call {}, .call {}]

/-- The peer closes, and the close callback and `process_work` return. -/
def closeQuietly : List (Act Bool) :=
  peerCloses ++ [.user .returns, .call {}, .call {}, .workDone]

end System

end Net
end Muradin
