import Muradin.Net.ByteBuffer.Refinement
import Muradin.Net.EvtChannel

/-!
# Connection — `net/connection.h`, `net/connection.cpp` and the dispatch of its channel

The member functions of `connection` that run on its loop thread, `evt_channel::do_process_work`
and `tcp_server::on_remove_conn`.  A function that invokes callbacks, or hands work to `run_task` on
the loop thread, which runs it at once, returns the list of the `Call`s it makes next, in order.

What the system calls answer, and what a caller's memory holds, are inputs: `Env` and `mem`.
`written`, `accepted`, `notes` and `closed` are histories.
-/

namespace Muradin
namespace Net

open Lib Cpp Events

/-! ## The environment -/

/-- The errors that the code tells apart are `EAGAIN` and the others. -/
def eagain : Nat := 11

/-- What the system calls of one function answer. -/
structure Env where
  /-- `::send` accepted so many bytes, or returned -1 -/
  sent : Option Nat := some 0
  /-- `::recv` stored these bytes, or returned -1 -/
  received : Option (List Byte) := some []
  /-- `errno` behind the call -/
  errno : Nat := 0
  /-- `SO_ERROR` -/
  soError : Nat := 0
  deriving DecidableEq, Repr

/-- A `ssize_t` result in an `int`. -/
def cInt (n : Nat) : Int :=
  (BitVec.ofNat 32 n).toInt

/-- `int ret = m_socket.send(..)`. -/
def Env.sendRet (env : Env) : Int :=
  match env.sent with
  | some r => cInt r
  | none => -1

/-- The memory that a pointer and a size describe. -/
inductive Source
  /-- memory of the caller that nobody changes before the call returns -/
  | bytes (data : List Byte)
  /-- memory of another thread; `snapshot` is what it held when `write` was called -/
  | memory (ptr len : Nat) (snapshot : List Byte)
  deriving DecidableEq, Repr

/-- The bytes of `len` addresses. -/
def loadMemory (mem : Nat → Byte) (ptr len : Nat) : List Byte :=
  (List.range len).map fun k => mem (ptr + k)

def Source.read (mem : Nat → Byte) : Source → List Byte
  | .bytes data => data
  | .memory ptr len _ => loadMemory mem ptr len

/-! ## The object -/

/-- `connection::conn_stat`. -/
inductive ConnStat
  | kDisconnect
  | kConnected
  | kInConnec
  | kInDisconnect
  deriving DecidableEq, Repr

/-- A callback that was delivered, with its arguments. -/
inductive Note
  | conn (connected : Bool)
  | read (err : Nat)
  | write (err : Nat) (bytes : Nat)
  | close
  | error (err : Nat)
  deriving DecidableEq, Repr

/-- Which of the user's callbacks are set; `tcp_server` sets the close callback itself. -/
structure Callbacks where
  conn : Bool
  read : Bool
  write : Bool
  error : Bool
  deriving DecidableEq, Repr

structure Connection where
  connStatus : ConnStat
  channle : EvtChannel
  writeCache : ByteBuffer
  readCache : ByteBuffer
  poller : EpPoller
  /-- the connection has its entry of `tcp_server::m_conn_map` -/
  inConnMap : Bool
  /-- `::shutdown(fd, SHUT_WR)` was called -/
  writeShutdown : Bool
  /-- the bytes that `::send` accepted -/
  accepted : List Byte
  /-- the bytes that were passed to `write_in_loop` -/
  written : List Byte
  notes : List Note
  /-- `handle_close` has run -/
  closed : Bool
  deriving DecidableEq

/-- What the loop thread executes next, or is executing. -/
inductive Call
  /-- the tests of `do_process_work` -/
  | testHup
  | testErr
  | testIn
  | testOut
  | handleRead
  | handleWrite
  | handleError
  | handleClose
  | writeInLoop (data : Source)
  /-- `write_in_loop` from its `m_write_cache.append(data, n)` on -/
  | cacheOutput (data : Source) (n : Nat)
  | shutdownInLoop
  | addChannel
  | updateChannel
  | connCb
  | readCb (err : Nat)
  | writeCb (err : Nat) (bytes : Nat)
  | errCb (err : Nat)
  /-- `m_close_cb`, which is `tcp_server::on_remove_conn` -/
  | closeCb
  /-- a callback of the user is running -/
  | user
  deriving DecidableEq, Repr

namespace Connection

def connected (c : Connection) : Bool :=
  c.connStatus == .kConnected

/-- The constructor. -/
def construct : Except Fault Connection := do
  let writeCache ← ByteBuffer.construct .liteEndian 2048
  let readCache ← ByteBuffer.construct .liteEndian 2048
  return {
    connStatus := .kDisconnect
    channle := EvtChannel.construct
    writeCache
    readCache
    poller := { inChannelMap := false, registered := none }
    inConnMap := false
    writeShutdown := false
    accepted := []
    written := []
    notes := []
    closed := false }

/-- The caches that the constructor builds. -/
def newCache : ByteBuffer :=
  { byteorder := .liteEndian
    contianer :=
      { elems := List.replicate 2056 0
        capacity := 2056
        length_le_capacity := Nat.le_of_eq List.length_replicate
        capacity_le_max := by decide }
    rdIndex := 8
    wtIndex := 8 }

def newConnection : Connection :=
  { connStatus := .kDisconnect
    channle := EvtChannel.construct
    writeCache := newCache
    readCache := newCache
    poller := { inChannelMap := false, registered := none }
    inConnMap := false
    writeShutdown := false
    accepted := []
    written := []
    notes := []
    closed := false }

theorem construct_eq : construct = .ok newConnection := rfl

variable (B : Build) (cbs : Callbacks) (env : Env)

/-- Call a member function of `m_write_cache`. -/
def onWriteCache {α : Type} (m : Method ByteBuffer α) : Method Connection α :=
  onField (·.writeCache) (fun b c => { c with writeCache := b }) m

/-- Call a member function of `m_read_cache`. -/
def onReadCache {α : Type} (m : Method ByteBuffer α) : Method Connection α :=
  onField (·.readCache) (fun b c => { c with readCache := b }) m

/-! ## The channel on its loop thread -/

def updateChannel : Method Connection Unit :=
  modify fun c => { c with poller := c.poller.updateEvtCode c.channle.lastEvtStatus }

/-- `m_channle.enable_read(enable)`. -/
def enableRead (enable : Bool) : Method Connection Unit := do
  modify fun c =>
    { c with channle := { c.channle with lastEvtStatus := c.channle.readInterest enable } }
  updateChannel

/-- `m_channle.enable_write(enable)`. -/
def enableWrite (enable : Bool) : Method Connection Unit := do
  let c ← get
  if enable ∧ c.channle.progressInWrite then
    return
  modify fun c =>
    { c with channle := { c.channle with lastEvtStatus := c.channle.writeInterest enable } }
  updateChannel
  modify fun c => { c with channle := { c.channle with progressInWrite := enable } }

/-! ## Output -/

/-- `m_socket.send(data)`. -/
def send (data : List Byte) : Method Connection Int := do
  modify fun c => { c with accepted := c.accepted ++ data.take (env.sent.getD 0) }
  return env.sendRet

/-- `m_write_cache.append(data, size)`, then `m_channle.enable_write(true)`. -/
def cacheOutput (data : List Byte) : Method Connection Unit := do
  let _ ← onWriteCache (ByteBuffer.append B data)
  enableWrite true

/-- `write_in_loop` without its `cacheOutput`: how many bytes that has to append, and the callbacks
behind it. -/
def sendDirectly (data : List Byte) : Method Connection (Option Nat × List Call) := do
  modify fun c => { c with written := c.written ++ data }
  let readable ← onWriteCache (ByteBuffer.readableBytes B)
  if 0 < readable then
    return (some data.length, [])
  let ret ← send env data
  if ret < 0 then
    if env.errno = eagain then
      return (some data.length, [])
    else
      return (none, [.writeCb env.errno 0])
  else
    let left := if ret.toNat < data.length then some (data.length - ret.toNat) else none
    return (left, if 0 < ret then [.writeCb 0 ret.toNat] else [])

/-- `write_in_loop(data, len)` on memory that does not change meanwhile. -/
def writeInLoop (data : List Byte) : Method Connection (List Call) := do
  let (left, calls) ← sendDirectly B env data
  match left with
  | some n => cacheOutput B (data.take n)
  | none => pure ()
  return calls

def handleWrite : Method Connection (List Call) := do
  let readable ← onWriteCache (ByteBuffer.readableBytes B)
  let c ← get
  let data ← orThrow (c.writeCache.contianer.load c.writeCache.rdIndex
    (c.writeCache.rdIndex + readable))
  let ret ← send env data
  if ret < 0 then
    if env.errno = eagain then
      enableWrite true
      return []
    else
      return [.writeCb env.errno 0]
  else
    let _ ← onWriteCache (ByteBuffer.discard B ret.toNat)
    let left ← onWriteCache (ByteBuffer.readableBytes B)
    if 0 < left then
      enableWrite true
    if 0 < ret then
      -- The same bytes are discarded once more.
      let _ ← onWriteCache (ByteBuffer.discard B ret.toNat)
      return [.writeCb 0 ret.toNat]
    else
      return []

def shutdownInLoop : Method Connection Unit :=
  modify fun c => { c with writeShutdown := true }

/-! ## Input -/

/-- `max_readbytes_once`. -/
def maxReadbytesOnce : Nat := 1024 * 32

def handleRead : Method Connection (List Call) := do
  onReadCache (ByteBuffer.ensureWriteSpace B maxReadbytesOnce)
  match env.received with
  | none => return [.readCb env.errno]
  | some bytes =>
      onReadCache (ByteBuffer.storeAtWtPtr bytes)
      if bytes.length = 0 then
        -- peer shutdown
        return [.connCb, .handleClose]
      else
        let _ ← onReadCache (ByteBuffer.hasWritten B bytes.length)
        return [.readCb 0]

/-! ## Errors and the end of the connection -/

def handleError : Method Connection (List Call) :=
  return if cbs.error then [.errCb env.soError] else []

def handleClose : Method Connection (List Call) := do
  modify fun c => { c with connStatus := .kDisconnect, closed := true }
  enableRead false
  enableWrite false
  return [.connCb, .closeCb]

def finalDestory : Method Connection Unit := do
  let c ← get
  cassert B (c.connStatus = .kDisconnect)
  modify fun c => { c with poller := c.poller.delChannel }

/-- `tcp_server::on_remove_conn(conn)`. -/
def onRemoveConn : Method Connection Unit := do
  modify fun c => { c with inConnMap := false }
  finalDestory B

/-! ## Dispatch -/

/-- One test of `do_process_work`: `m_last_evt_status` is read again at each of them. -/
def test (cond : Events → Bool) (handler : Call) : Method Connection (List Call) := do
  let c ← get
  return if cond c.channle.lastEvtStatus then [handler] else []

/-- Deliver a callback of the user: an empty `boost::function` throws. -/
def deliver (isSet : Bool) (note : Connection → Note) : Method Connection (List Call) := do
  if isSet then
    modify fun c => { c with notes := c.notes ++ [note c] }
    return [.user]
  else
    throw .badFunctionCall

/-- One call on the loop thread: what it does up to the calls it makes next. -/
def exec (mem : Nat → Byte) : Call → Method Connection (List Call)
  | .testHup => test (fun st => meets st epollHup && !meets st epollIn) .handleClose
  | .testErr => test (meets · epollErr) .handleError
  | .testIn => test (meets · (epollIn ||| epollPri ||| epollRdhup)) .handleRead
  | .testOut => do
      let c ← get
      if meets c.channle.lastEvtStatus epollOut then
        modify fun c => { c with channle := { c.channle with progressInWrite := false } }
        return [.handleWrite]
      else
        return []
  | .handleRead => handleRead B env
  | .handleWrite => handleWrite B env
  | .handleError => handleError cbs env
  | .handleClose => handleClose
  | .writeInLoop data => do
      let (left, calls) ← sendDirectly B env (data.read mem)
      return (left.map fun n => Call.cacheOutput data n).toList ++ calls
  | .cacheOutput data n => do
      cacheOutput B ((data.read mem).take n)
      return []
  | .shutdownInLoop => do
      shutdownInLoop
      return []
  | .addChannel => do
      modify fun c => { c with poller := c.poller.addChannel c.channle.lastEvtStatus (env.errno = 0) }
      return []
  | .updateChannel => do
      updateChannel
      return []
  | .connCb => deliver cbs.conn fun c => .conn c.connected
  | .readCb err => deliver cbs.read fun _ => .read err
  | .writeCb err bytes => deliver cbs.write fun _ => .write err bytes
  | .errCb err => deliver cbs.error fun _ => .error err
  | .closeCb => do
      modify fun c => { c with notes := c.notes ++ [.close] }
      onRemoveConn B
      return []
  | .user => return []

end Connection

end Net
end Muradin
