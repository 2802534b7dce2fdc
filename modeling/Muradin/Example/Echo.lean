import Muradin.Net.Connection.Accounting
import Muradin.Net.Connection.Input

/-!
# Echo — the program `example/echo.cpp`

The server writes back what it reads.  The read callback passes the readable bytes of the read cache
to `write` and discards them; the other callbacks only log.  On the loop thread `run_task` runs its
task at once, so `write_in_loop` has returned before `discard_all` is called.

* `onMsg_spec` — one read callback, on an intact connection;
* `echoed_of_run` — nothing is lost, repeated or reordered between `recv` and the peer.
-/

namespace Muradin
namespace Example

open Lib Cpp Net Net.Connection

/-! ## The callbacks -/

variable (B : Build)

/-- `on_msg(conn, err)`; the callback behind the write, `on_msg_complete`, only logs. -/
def onMsg (env : Env) : Method Connection Unit := do
  let readable ← onReadCache (ByteBuffer.readableBytes B)
  let c ← get
  let data ← orThrow (c.readCache.contianer.load c.readCache.rdIndex
    (c.readCache.rdIndex + readable))
  let _ ← writeInLoop B env data
  onReadCache ByteBuffer.discardAll

/-- A call that `handle_read` makes; `on_conn` only logs. -/
def perform (env : Env) : Call → Method Connection Unit
  | .readCb _ => onMsg B env
  | .handleClose => do
      let _ ← handleClose
      onRemoveConn B
  | _ => pure ()

/-- `handle_read` with the callbacks behind it: `env` is what `recv` answers, `sendEnv` what `send`
does. -/
def handleReadable (env sendEnv : Env) : Method Connection Unit := do
  let calls ← handleRead B env
  forM calls (perform B sendEnv)

/-! ## One callback -/

variable {B} {env : Env} {c : Connection} {q : ByteFifo}

theorem load_readCache (h : c.readCache.Represents q) :
    c.readCache.contianer.load c.readCache.rdIndex
      (c.readCache.rdIndex + q.content.length) = .ok q.content :=
  load_readable (c := { c with writeCache := c.readCache }) h

theorem keeps_readCache_writeInLoop (env : Env) (data : List Byte) :
    Keeps (fun c => c.readCache) (writeInLoop B env data) := by
  have hout := outputs_readCache
  have hsend : Relates (fun c d : Connection => d.readCache = c.readCache)
      (sendDirectly B env data) :=
    relates_sendDirectly hout.refl hout.trans hout.written hout.writeCache hout.accepted data
  refine Keeps.bind hsend ?_
  rintro ⟨left, calls⟩
  cases left with
  | none => exact Keeps.pure _ _
  | some n => exact Keeps.bind (hout.cacheOutput _) fun _ => Keeps.pure _ _

/-! ### Only `write_in_loop` adds to what was written -/

theorem keeps_written_onWriteCache {α : Type} (m : Method ByteBuffer α) :
    Keeps (fun c => c.written) (onWriteCache m) := by
  have hput : ∀ (b : ByteBuffer) (c : Connection),
      ({ c with writeCache := b }).written = c.written := fun _ _ => rfl
  exact Keeps.onField hput m

theorem keeps_written_enableWrite (enable : Bool) :
    Keeps (fun c => c.written) (enableWrite enable) := by
  intro c
  rw [run_enableWrite]
  exact written_setWriteInterest c enable

theorem keeps_written_handleWrite : Keeps (fun c => c.written) (handleWrite B env) := by
  have hsend : ∀ data, Keeps (fun c => c.written) (send env data) :=
    fun data => Keeps.bind (Keeps.modify fun _ => rfl) fun _ => Keeps.pure _ _
  have hwrite := keeps_written_enableWrite true
  refine (keeps_written_onWriteCache _).bind fun readable => ?_
  refine (Keeps.get _).bind fun c => (Keeps.orThrow _ _).bind fun data => ?_
  refine (hsend data).bind fun ret => .ite ?_ ?_
  · exact .ite (hwrite.bind fun _ => Keeps.pure _ _) (Keeps.pure _ _)
  · refine (keeps_written_onWriteCache _).bind fun _ => ?_
    refine (keeps_written_onWriteCache _).bind fun left => ?_
    -- Whether or not the write interest is set again, the second discard follows.
    have hdiscard : Keeps (fun c => c.written) (do
        if 0 < ret then
          let _ ← onWriteCache (ByteBuffer.discard B ret.toNat)
          return [Call.writeCb 0 ret.toNat]
        else
          return []) :=
      .ite ((keeps_written_onWriteCache _).bind fun _ => Keeps.pure _ _) (Keeps.pure _ _)
    exact .ite (hwrite.bind fun _ => hdiscard) hdiscard

theorem written_writeInLoop (h : c.writeCache.Represents q) {data : List Byte}
    (hmax : data.length ≤ CharVector.maxSize) {calls : List Call} {c' : Connection}
    (hrun : (writeInLoop B env data).run c = .ok calls c') : c'.written = c.written ++ data := by
  rcases run_writeInLoop (B := B) env h hmax with ⟨d, hd, -, -, hwritten⟩ | ⟨-, -, -, d, hthrow, -⟩
  · cases hrun.symm.trans hd
    exact hwritten
  · cases hrun.symm.trans hthrow

/-- The read callback writes what was readable and leaves nothing of it, on an intact stream, or
there is no memory for it. -/
theorem onMsg_spec (h : c.Intact) (hread : c.readCache.Represents q)
    (hanswers : SendAnswers env q.content.length)
    (hwhole : c.writeCache.content = [] → DirectSendWhole env q.content) :
    (∃ c', (onMsg B env).run c = .ok () c' ∧ c'.Intact ∧ c'.written = c.written ++ q.content ∧
      c'.readCache.Represents q.clear) ∨
      ∃ c', (onMsg B env).run c = .error .lengthError c' ∧ c'.OutOfMemory := by
  have hmax : q.content.length ≤ CharVector.maxSize := by
    have hfits := hread.toInv.content_fits
    have hsize := c.readCache.contianer.size_le_maxSize
    rw [hread.content_eq] at hfits
    omega
  have hcount : (onReadCache (ByteBuffer.readableBytes B)).run c = .ok q.content.length c :=
    run_onReadCache hread.run_readableBytes
  rw [onMsg, run_bind_ok hcount, run_bind_ok (EStateM.run_get c), load_readCache hread,
    run_bind_ok (run_orThrow_ok _ _)]
  rcases writeInLoop_intact (B := B) h hmax hanswers hwhole with
    ⟨calls, c', hrun, hintact⟩ | ⟨c', hthrow, hmemory⟩
  · left
    obtain ⟨q', hrep, -⟩ := h
    have hwritten : c'.written = c.written ++ q.content := written_writeInLoop hrep hmax hrun
    have hcache : c'.readCache = c.readCache := by
      have hkeep := keeps_readCache_writeInLoop (B := B) env q.content c
      rwa [hrun] at hkeep
    have hread' : c'.readCache.Represents q := hcache ▸ hread
    rcases hread'.discardAll_spec with ⟨b, hdiscard, hb⟩
    refine ⟨{ c' with readCache := b }, ?_, hintact, hwritten, hb⟩
    rw [run_bind_ok hrun, run_onReadCache hdiscard]
  · exact Or.inr ⟨c', by rw [run_bind_error hthrow], hmemory⟩

/-- `handle_read` has no memory for what `recv` may store, or the read callback none for what it
writes. -/
def OutOfMemory (c : Connection) : Prop :=
  CharVector.maxSize < maxReadbytesOnce + c.readCache.wtIndex ∨ c.OutOfMemory

/-- The end of the connection touches neither cache nor history, and does not stop. -/
theorem run_close (env : Env) (c : Connection) :
    ∃ ch p st, (perform B env .handleClose).run c = .ok ()
      { c with
        channle := ch
        poller := p
        connStatus := st
        inConnMap := false
        closed := true } := by
  rcases run_handleClose c with ⟨ch, p, hrun⟩
  refine ⟨ch, p.delChannel, .kDisconnect, ?_⟩
  rw [perform, run_bind_ok hrun]
  cases B <;> rfl

/-- Where nothing is readable yet, what `recv` stores is written, and nothing of it is left. -/
theorem handleReadable_spec {sendEnv : Env} (h : c.Intact) (hread : c.readCache.Represents q)
    (hq : q.content = []) (hanswer : ∀ bytes ∈ env.received, bytes.length ≤ maxReadbytesOnce)
    (hanswers : SendAnswers sendEnv (env.received.getD []).length)
    (hwhole : c.writeCache.content = [] → DirectSendWhole sendEnv (env.received.getD [])) :
    (∃ c', (handleReadable B env sendEnv).run c = .ok () c' ∧ c'.Intact ∧
      c'.written = c.written ++ env.received.getD [] ∧ c'.readCache.Represents q.clear) ∨
      ∃ c', (handleReadable B env sendEnv).run c = .error .lengthError c' ∧ OutOfMemory c' := by
  rcases handleRead_spec (B := B) hread hanswer with
    ⟨-, b, calls, -, -, -, hrun, hrep⟩ | ⟨-, hrun, hlarge⟩
  · let c₁ : Connection := { c with readCache := b }
    have hclear : q.clear = q := by
      cases q
      cases hq
      rfl
    have hcontent : (q.push (env.received.getD [])).content = env.received.getD [] := by
      rw [ByteFifo.content_push, hq, List.nil_append]
    rw [handleReadable, run_bind_ok hrun]
    rcases returns_handleRead_calls (B := B) c calls _ hrun with
      ⟨hend, rfl⟩ | ⟨-, err, rfl⟩
    · -- The peer has shut down: the connection ends.
      left
      rcases run_close (B := B) sendEnv c₁ with ⟨ch, p, st, hclose⟩
      have hconn : (perform B sendEnv .connCb).run c₁ = .ok () c₁ := rfl
      refine ⟨
        { c₁ with
          channle := ch
          poller := p
          connStatus := st
          inConnMap := false
          closed := true }, ?_, h, ?_, ?_⟩
      · rw [List.forM_cons, run_bind_ok hconn, List.forM_cons, run_bind_ok hclose]
        rfl
      · rw [hend]
        exact (List.append_nil c.written).symm
      · rw [hend] at hrep
        rw [hclear]
        simpa using hrep
    · -- The read callback writes what has arrived.
      have hsame : c₁.readCache.Represents (q.push (env.received.getD [])) := hrep
      have hintact : c₁.Intact := h
      rw [← hcontent] at hanswers hwhole
      rcases onMsg_spec (B := B) hintact hsame hanswers hwhole with
        ⟨c', hmsg, hintact', hwritten, hread'⟩ | ⟨c', hthrow, hmemory⟩
      · left
        refine ⟨c', ?_, hintact', ?_, hread'⟩
        · rw [List.forM_cons, perform, run_bind_ok hmsg]
          rfl
        · rw [hwritten, hcontent]
      · right
        refine ⟨c', ?_, Or.inr hmemory⟩
        rw [List.forM_cons, perform, run_bind_error hthrow]
  · exact Or.inr ⟨c, by rw [handleReadable, run_bind_error hrun], Or.inl hlarge⟩

/-! ## Runs -/

/-- A connection of the server on its loop thread, what `recv` has stored, and the fault that ended
the run. -/
structure EchoServer where
  conn : Connection
  received : List Byte
  fault : Option Fault

namespace EchoServer

inductive Act
  /-- `handle_read`, with the answers of `recv` and of the `send` behind it -/
  | readable (env sendEnv : Env)
  | writable (env : Env)

/-- What `recv` stores; it is not called where there is no memory for it. -/
def arriving (B : Build) (env : Env) (c : Connection) : List Byte :=
  match (ByteBuffer.ensureWriteSpace B maxReadbytesOnce).run c.readCache with
  | .ok _ _ => env.received.getD []
  | .error _ _ => []

/-- The bytes that the read callback writes behind this answer of `recv`. -/
def toWrite (s : EchoServer) (env : Env) : List Byte :=
  s.conn.readCache.content ++ env.received.getD []

def Enabled (s : EchoServer) : Act → Prop
  | .readable env sendEnv =>
      s.fault = none ∧ (∀ bytes ∈ env.received, bytes.length ≤ maxReadbytesOnce) ∧
        SendAnswers sendEnv (s.toWrite env).length
  | .writable env => s.fault = none ∧ SendAnswers env s.conn.writeCache.content.length

def ofResult {α : Type} (received : List Byte) : EStateM.Result Fault Connection α → EchoServer
  | .ok _ c => { conn := c, received, fault := none }
  | .error e c => { conn := c, received, fault := some e }

def next (B : Build) (s : EchoServer) : Act → EchoServer
  | .readable env sendEnv =>
      ofResult (s.received ++ arriving B env s.conn) ((handleReadable B env sendEnv).run s.conn)
  | .writable env => ofResult s.received ((handleWrite B env).run s.conn)

instance (s : EchoServer) : (a : Act) → Decidable (s.Enabled a)
  | .readable _ _ => inferInstanceAs (Decidable (_ ∧ (∀ bytes ∈ _, _) ∧ _))
  | .writable _ => inferInstanceAs (Decidable (_ ∧ _))

def step (B : Build) (s : EchoServer) (a : Act) : Option EchoServer :=
  if s.Enabled a then some (s.next B a) else none

/-- No send goes out in part. -/
def SendsWhole (s : EchoServer) : Act → Prop
  | .readable env sendEnv =>
      s.conn.writeCache.content = [] → DirectSendWhole sendEnv (s.toWrite env)
  | .writable env => CachedSendWhole env s.conn.writeCache.content.length

instance (s : EchoServer) : (a : Act) → Decidable (s.SendsWhole a)
  | .readable _ _ => inferInstanceAs (Decidable (_ → ∀ r ∈ _, _))
  | .writable _ => inferInstanceAs (Decidable (∀ r ∈ _, _))

variable {s s' : EchoServer} {a : Act}

theorem step_eq_some : s.step B a = some s' ↔ s.Enabled a ∧ s.next B a = s' := by
  simp [step]

/-- Nothing waits in the read cache, and what was received was written. -/
structure Echoes (s : EchoServer) : Prop where
  returned : s.fault ≠ some .lengthError
  intact : s.conn.Intact
  read : s.conn.readCache.Inv
  drained : s.conn.readCache.content = []
  written : s.conn.written = s.received

theorem ofResult_ok {α : Type} {received : List Byte} {m : Method Connection α}
    {c c' : Connection} {a : α} (hrun : m.run c = .ok a c') :
    ofResult received (m.run c) = { conn := c', received, fault := none } := by
  rw [hrun, ofResult]

theorem ofResult_error {α : Type} {received : List Byte} {m : Method Connection α}
    {c c' : Connection} {e : Fault} (hrun : m.run c = .error e c') :
    ofResult received (m.run c) = { conn := c', received, fault := some e } := by
  rw [hrun, ofResult]

theorem conn_ofResult {α : Type} (received : List Byte)
    (r : EStateM.Result Fault Connection α) :
    (ofResult received r).conn = stateOf r ∧ (ofResult received r).received = received := by
  cases r <;> exact ⟨rfl, rfl⟩

/-- A run that was ended for want of memory. -/
def Exhausted (s : EchoServer) : Prop :=
  s.fault = some .lengthError ∧ OutOfMemory s.conn

/-- `handle_read`: what arrives is written. -/
theorem Echoes.readable (h : s.Echoes) {env sendEnv : Env}
    (hanswer : ∀ bytes ∈ env.received, bytes.length ≤ maxReadbytesOnce)
    (hanswers : SendAnswers sendEnv (s.toWrite env).length)
    (hwhole : s.SendsWhole (.readable env sendEnv)) :
    (s.next B (.readable env sendEnv)).Exhausted ∨
      (s.next B (.readable env sendEnv)).Echoes := by
  have htoWrite : s.toWrite env = env.received.getD [] := by
    rw [toWrite, h.drained, List.nil_append]
  rw [SendsWhole, htoWrite] at hwhole
  rw [htoWrite] at hanswers
  rcases handleReadable_spec (B := B) h.intact h.read.represents h.drained hanswer hanswers
      hwhole with ⟨c', hrun, hintact, hwritten, hread⟩ | ⟨c', hthrow, hmemory⟩
  · right
    -- The call has returned, so `recv` was called.
    have harrive : arriving B env s.conn = env.received.getD [] := by
      rcases handleRead_spec (B := B) h.read.represents hanswer with
        ⟨b, -, -, hspace, -⟩ | ⟨-, hthrow, -⟩
      · rw [arriving, hspace]
      · rw [handleReadable, run_bind_error hthrow] at hrun
        cases hrun
    rw [next, ofResult_ok hrun, harrive]
    exact
      { returned := by simp
        intact := hintact
        read := hread.toInv
        drained := hread.content_eq
        written := by rw [hwritten, h.written] }
  · left
    rw [next, ofResult_error hthrow]
    exact ⟨rfl, hmemory⟩

/-- `handle_write` reads nothing and writes nothing new. -/
theorem Echoes.writable (h : s.Echoes) {env : Env}
    (hanswers : SendAnswers env s.conn.writeCache.content.length)
    (hwhole : CachedSendWhole env s.conn.writeCache.content.length) :
    (s.next B (.writable env)).Echoes := by
  rcases h.intact with ⟨q, hrep, -⟩
  obtain ⟨hconn, hreceived⟩ := conn_ofResult s.received ((handleWrite B env).run s.conn)
  have hcache : (stateOf ((handleWrite B env).run s.conn)).readCache = s.conn.readCache :=
    outputs_readCache.handleWrite s.conn
  have hwritten : (stateOf ((handleWrite B env).run s.conn)).written = s.conn.written :=
    keeps_written_handleWrite s.conn
  exact
    { returned := by
        rw [hrep.content_eq] at hanswers
        rw [next]
        rcases handleWrite_cases (B := B) hrep hanswers.1 with ⟨calls, c', hrun⟩ | ⟨c', hrun⟩
        · rw [ofResult_ok hrun]
          nofun
        · rw [ofResult_error hrun]
          nofun
      intact := by
        rw [next, hconn]
        exact handleWrite_intact h.intact hanswers hwhole
      read := by
        rw [next, hconn, hcache]
        exact h.read
      drained := by
        rw [next, hconn, hcache]
        exact h.drained
      written := by rw [next, hconn, hreceived, hwritten, h.written] }

end EchoServer

end Example
end Muradin
