import Muradin.Net.Connection.Closing

/-!
# Notify — the connection callback and the close callback over the life of a connection

A connection that is started on its loop thread tells its user that it is connected, and later that
it is not, and its server that it is closed.  `pending` are the notifications that the calls on the
stack still owe; with those that were made they are at every point the ones expected
(`LifeInv.told`).

A hang-up is told once.  The end of the input is not: `handle_read` makes the connection callback,
and `handle_close` makes it again (`notified_iff`).
-/

namespace Muradin
namespace Net

open Lib Cpp Events

namespace Connection

/-- `start()` on the loop thread, which runs the tasks of it at once. -/
def start (B : Build) (env : Env) : Method Connection (List Call) := do
  let c ← get
  cassert B (c.channle.tied = false)
  modify fun c => { c with channle := { c.channle with tied := true } }
  modify fun c => { c with poller := c.poller.addChannel c.channle.lastEvtStatus (env.errno = 0) }
  enableRead true
  modify fun c => { c with connStatus := .kConnected }
  return [.connCb]

end Connection

namespace Note

/-- The connection callback and the close callback. -/
def OfLife : Note → Bool
  | .conn _ | .close => true
  | _ => false

end Note

def UserOp.IsShutdown : UserOp → Bool
  | .shutdown => true
  | _ => false

/-- A connection on its loop thread, from its constructor on. -/
structure Notify where
  loop : Loop
  started : Bool
  /-- the poller has reported events, and `process_work` was not called yet -/
  active : Bool
  /-- a `handle_read` has come to the end of the input -/
  ended : Bool

namespace Notify

open Connection

inductive Act
  /-- `start()` -/
  | start (env : Env)
  | poll (events : Events)
  | processWork
  /-- `write` called on the loop thread outside a dispatch -/
  | writeInLoop (data : Block)
  | call (env : Env)
  | user (op : UserOp)

/-- No callback calls `shutdown()`; epoll reports registered descriptors only. -/
def Enabled (mem : Nat → Byte) (s : Notify) : Act → Prop
  | .start _ => s.started = false
  | .poll _ =>
      s.started = true ∧ s.loop.fault = none ∧ s.loop.stack = [] ∧
        s.loop.conn.poller.registered.isSome = true
  | .processWork => s.loop.fault = none ∧ s.loop.stack = [] ∧ s.active = true
  | .writeInLoop _ => s.started = true ∧ s.loop.fault = none ∧ s.loop.stack = []
  | .call env => s.loop.fault = none ∧ s.loop.Callable mem env
  | .user op => s.loop.fault = none ∧ s.loop.stack.head? = some .user ∧ op.IsShutdown = false

/-- The next call is a `handle_read` that finds the end of the input. -/
def EndsInput (s : Notify) (env : Env) : Prop :=
  s.loop.stack.head? = some .handleRead ∧ env.received = some []

instance (s : Notify) (env : Env) : Decidable (s.EndsInput env) :=
  inferInstanceAs (Decidable (_ ∧ _))

def next (S : Setup) (mem : Nat → Byte) (s : Notify) : Act → Notify
  | .start env =>
      { s with
        loop := Loop.ofResult [] ((Connection.start S.build env).run s.loop.conn)
        started := true }
  | .poll events => { s with loop := s.loop.next S mem (.poll events), active := true }
  | .processWork => { s with loop := s.loop.next S mem .processWork, active := false }
  | .writeInLoop data => { s with loop := s.loop.next S mem (.writeInLoop data) }
  | .call env =>
      { s with
        loop := s.loop.next S mem (.call env)
        ended := s.ended || decide (s.EndsInput env) }
  | .user op => { s with loop := s.loop.next S mem (.user op) }

instance (mem : Nat → Byte) (s : Notify) : (a : Act) → Decidable (s.Enabled mem a)
  | .start _ => inferInstanceAs (Decidable (_ = _))
  | .poll _ | .processWork | .writeInLoop _ | .call _ | .user _ =>
      inferInstanceAs (Decidable (_ ∧ _))

def step (S : Setup) (mem : Nat → Byte) (s : Notify) (a : Act) : Option Notify :=
  if s.Enabled mem a then some (s.next S mem a) else none

/-- `on_new_conn` is about to call `start()`. -/
def unstarted : Notify :=
  { loop := { conn := { newConnection with inConnMap := true }, stack := [], fault := none }
    started := false
    active := false
    ended := false }

/-- No `recv` returns 0. -/
def NoEnd (s : Notify) : Act → Prop
  | .call env => ¬ s.EndsInput env
  | _ => True

instance (s : Notify) : (a : Act) → Decidable (s.NoEnd a)
  | .call env => inferInstanceAs (Decidable (¬ s.EndsInput env))
  | .start _ | .poll _ | .processWork | .writeInLoop _ | .user _ =>
      inferInstanceAs (Decidable True)

/-! ## What was told and what is still to be told -/

/-- The connection callbacks and the close callbacks so far, in order. -/
def told (conn : Connection) : List Note :=
  conn.notes.filter Note.OfLife

/-- What the calls on the stack will tell. -/
def pending : Bool → List Call → List Note
  | _, [] => []
  | closed, .connCb :: rest => .conn (!closed) :: pending closed rest
  | _, .handleClose :: rest => .conn false :: .close :: pending true rest
  | closed, .closeCb :: rest => .close :: pending closed rest
  | closed, _ :: rest => pending closed rest

/-- The life of a connection as its user and its server are told of it. -/
def lifeNotes : List Note :=
  [.conn true, .conn false, .close]

/-- The connection is closed, or is about to be. -/
def Ending (s : Loop) : Prop :=
  s.conn.closed = true ∨ .handleClose ∈ s.stack

instance (s : Loop) : Decidable (Ending s) :=
  inferInstanceAs (Decidable (_ ∨ _))

/-- What is told behind the first callback, with one more connection callback behind the end of the
input. -/
def expected (s : Notify) : List Note :=
  .conn true ::
    if Ending s.loop then (if s.ended then [.conn true] else []) ++ [.conn false, .close] else []

/-- Each notification is made once and in order, and at rest none is missing. -/
structure Notified (s : Notify) : Prop where
  order : told s.loop.conn <+: lifeNotes
  complete : s.started = true → s.loop.stack = [] → s.loop.fault = none →
    told s.loop.conn = if s.loop.conn.closed then lifeNotes else [.conn true]

/-- The tests of a dispatch and `handle_read`, which come before every connection callback that they
lead to. -/
def Early : Call → Bool
  | .testHup | .testErr | .testIn | .testOut | .handleRead => true
  | _ => false

/-- What was told, and what the calls on the stack will tell, is what is expected. -/
structure Telling (s : Notify) : Prop where
  prefixed : told s.loop.conn <+: s.expected
  ending : s.loop.fault = none → s.ended = true → Ending s.loop
  told : s.loop.fault = none →
    told s.loop.conn ++ pending s.loop.conn.closed s.loop.stack = s.expected

/-- Behind `handle_close` nothing is read. -/
def Unread (s : Loop) : Prop :=
  s.conn.closed = true →
    .handleRead ∉ s.stack ∧
      (.testIn ∈ s.stack → Call.due s.conn.evtStatus .handleRead = false)

structure LifeInv (s : Notify) : Prop extends Telling s where
  phase : ClosePhase s.loop.path s.loop.conn
  unread : Unread s.loop
  early : s.loop.stack.Pairwise fun c c' => Early c = true → c' ≠ .connCb
  joined : .addChannel ∉ s.loop.stack
  status : s.loop.conn.connStatus = if s.loop.conn.closed then .kDisconnect else .kConnected
  registered : s.loop.fault = none → s.loop.conn.poller.registered.isSome = true →
    s.loop.conn.closed = true → .closeCb ∈ s.loop.stack
  active : s.active = true → s.loop.path = [] ∧ s.loop.conn.closed = false

variable {S : Setup} {mem : Nat → Byte} {s s' : Notify} {a : Act} {env : Env} {c : Call}
  {rest : List Call}

theorem step_eq_some : s.step S mem a = some s' ↔ s.Enabled mem a ∧ s.next S mem a = s' := by
  simp [step]

/-! ## Pending notifications -/

/-- The calls that tell something, now or when they have made their calls. -/
def Tells : Call → Bool
  | .connCb | .handleClose | .closeCb => true
  | _ => false

theorem pending_cons_other (closed : Bool) (h : Tells c = false) (rest : List Call) :
    pending closed (c :: rest) = pending closed rest := by
  cases c with
  | connCb => cases h
  | handleClose => cases h
  | closeCb => cases h
  | _ => rfl

theorem pending_append_other (closed : Bool) {calls : List Call}
    (h : ∀ c ∈ calls, Tells c = false) (rest : List Call) :
    pending closed (calls ++ rest) = pending closed rest := by
  induction calls with
  | nil => rfl
  | cons c calls ih =>
      rw [List.cons_append, pending_cons_other closed (h c List.mem_cons_self)]
      exact ih fun c' hc' => h c' (List.mem_cons_of_mem c hc')

theorem pending_eq_nil (closed : Bool) {calls : List Call} (h : ∀ c ∈ calls, Tells c = false) :
    pending closed calls = [] := by
  have happend := pending_append_other closed h []
  rwa [List.append_nil] at happend

theorem pending_append_quiet (closed : Bool) (calls : List Call)
    (h : ∀ c ∈ rest, Tells c = false) : pending closed (calls ++ rest) = pending closed calls := by
  induction calls generalizing closed with
  | nil => exact pending_eq_nil closed h
  | cons c calls ih => cases c <;> simp [pending, ih]

/-! ## One call -/

/-- Three calls make calls that tell something. -/
theorem tells_of_mayMake {c' : Call} (h : c.MayMake c') (htells : Tells c' = true) :
    c = .testHup ∨ c = .handleRead ∨ c = .handleClose := by
  cases c with
  | testHup => exact Or.inl rfl
  | handleRead => exact Or.inr (Or.inl rfl)
  | handleClose => exact Or.inr (Or.inr rfl)
  | handleWrite =>
      rcases h with ⟨err, bytes, rfl⟩
      cases htells
  | handleError =>
      rcases h with ⟨err, rfl⟩
      cases htells
  | writeInLoop data => rcases h with ⟨n, rfl⟩ | ⟨err, bytes, rfl⟩ <;> cases htells
  | testErr | testIn | testOut | connCb | readCb _ | writeCb _ _ | errCb _ =>
      cases h
      cases htells
  | _ => cases h

/-- Only the test for input makes an early call. -/
theorem eq_testIn_of_early {c' : Call} (h : c.MayMake c') (hearly : Early c' = true) :
    c = .testIn := by
  cases c with
  | testIn => rfl
  | handleRead => rcases h with rfl | rfl | ⟨err, rfl⟩ <;> cases hearly
  | handleWrite =>
      rcases h with ⟨err, bytes, rfl⟩
      cases hearly
  | handleError =>
      rcases h with ⟨err, rfl⟩
      cases hearly
  | handleClose => rcases h with rfl | rfl <;> cases hearly
  | writeInLoop data => rcases h with ⟨n, rfl⟩ | ⟨err, bytes, rfl⟩ <;> cases hearly
  | testHup | testErr | testOut | connCb | readCb _ | writeCb _ _ | errCb _ =>
      cases h
      cases hearly
  | _ => cases h

/-- The calls that are not callbacks of its life leave alone what was told. -/
theorem told_call {s : Loop} (hstack : s.stack = c :: rest) (hconn : c ≠ .connCb)
    (hclose : c ≠ .closeCb) : told (s.call S mem env).conn = told s.conn := by
  rcases @Loop.call_notes S mem s env c rest hstack with hsame | ⟨n, hn, hnew⟩
  · rw [told, hsame, told]
  -- A callback of the data is noted, but tells nothing of the life.
  · have hother : n.OfLife = false := by
      cases c with
      | connCb => contradiction
      | closeCb => contradiction
      | readCb err =>
          cases hn
          rfl
      | writeCb err bytes =>
          cases hn
          rfl
      | errCb err =>
          cases hn
          rfl
      | _ => cases hn
    rw [told, hnew, List.filter_append, List.filter_cons_of_neg (by simp [hother])]
    exact List.append_nil _

theorem EndsInput.eq_handleRead (h : s.EndsInput env) (hstack : s.loop.stack = c :: rest) :
    c = .handleRead := by
  have htop := h.1
  rw [hstack] at htop
  exact Option.some.inj htop

/-- The flag behind a call. -/
theorem ended_call (hstack : s.loop.stack = c :: rest) (hc : c ≠ .handleRead) :
    (s.next S mem (.call env)).ended = s.ended := by
  have hnot : ¬ s.EndsInput env := fun hends => hc (hends.eq_handleRead hstack)
  show (s.ended || decide (s.EndsInput env)) = s.ended
  simp [hnot]

/-- The calls that make no `handle_close` leave it open whether the connection ends. -/
theorem ending_call {s : Loop} (hstack : s.stack = c :: rest) (hhup : c ≠ .testHup)
    (hread : c ≠ .handleRead) (hclose : c ≠ .handleClose) :
    Ending (s.call S mem env) ↔ Ending s := by
  rcases Loop.call_stack S mem env hstack with ⟨calls, hcalls, hmake⟩
  have hnew : .handleClose ∉ calls := by
    intro hmem
    rcases tells_of_mayMake (hmake _ hmem) rfl with h | h | h
    · exact hhup h
    · exact hread h
    · exact hclose h
  rw [Ending, Ending, (Loop.call_status hstack hclose).2, hcalls, hstack, List.mem_append,
    List.mem_cons]
  simp [hnew, Ne.symm hclose]

/-- What is expected depends on two flags. -/
theorem expected_congr (hended : s'.ended = s.ended) (hending : Ending s'.loop ↔ Ending s.loop) :
    s'.expected = s.expected := by
  simp only [expected, hended, hending]

/-- Nothing is pending below the calls that lead to `handle_close`. -/
theorem LifeInv.quiet_below (h : s.LifeInv) (hstack : s.loop.stack = c :: rest)
    (hc : c = .testHup ∨ c = .handleRead) :
    s.loop.conn.closed = false ∧ ∀ c' ∈ rest, Tells c' = false := by
  have hphase := h.phase
  have hleads : c.Leads = true := by rcases hc with rfl | rfl <;> rfl
  have hearly : Early c = true := by rcases hc with rfl | rfl <;> rfl
  rw [Loop.path_cons hstack hleads] at hphase
  -- The phase names the calls on the path; the rest of the stack is early enough.
  have hbelow : s.loop.conn.closed = false ∧ ∀ c' ∈ rest.filter Call.Leads, c' = .testIn := by
    cases hphase with
    | opened hpath hopen _ =>
        refine ⟨hopen, ?_⟩
        rcases hc with rfl | rfl
        · have htests : rest.filter Call.Leads = [.testIn] := by
            simpa [List.suffix_cons_iff] using hpath
          simp [htests]
        · simp [List.suffix_cons_iff] at hpath
    | reading hpath hopen _ =>
        refine ⟨hopen, ?_⟩
        have htests : rest.filter Call.Leads = [] := (List.cons.inj hpath).2
        simp [htests]
    | closing _ hpath => rcases hc with rfl | rfl <;> cases hpath
    | closed _ hpath => rcases hc with rfl | rfl <;> cases hpath
    | removed hpath => rcases hc with rfl | rfl <;> simp [List.suffix_cons_iff] at hpath
    | readingLate hpath hclosed =>
        have hmem : .handleRead ∈ s.loop.stack := by
          rw [hstack, (List.cons.inj hpath).1]
          exact List.mem_cons_self
        exact absurd hmem (h.unread hclosed).1
  refine ⟨hbelow.1, ?_⟩
  intro c' hc'
  have hpairs := h.early
  rw [hstack, List.pairwise_cons] at hpairs
  cases c' with
  | connCb => exact absurd rfl (hpairs.1 _ hc' hearly)
  | handleClose => cases hbelow.2 _ (List.mem_filter.mpr ⟨hc', rfl⟩)
  | closeCb => cases hbelow.2 _ (List.mem_filter.mpr ⟨hc', rfl⟩)
  | _ => rfl

/-- Without a fault what was told is a prefix of what is expected. -/
theorem telling_of_eq (hending : s.ended = true → Ending s.loop)
    (htold : Notify.told s.loop.conn ++ pending s.loop.conn.closed s.loop.stack = s.expected) :
    s.Telling :=
  { prefixed := ⟨_, htold⟩
    ending := fun _ => hending
    told := fun _ => htold }

/-- A step that moves notifications from the stack to the notes. -/
theorem Telling.moves (h : s.Telling) (hfault : s.loop.fault = none) (hended : s'.ended = s.ended)
    (hending : Ending s'.loop ↔ Ending s.loop)
    (hsum : Notify.told s'.loop.conn ++ pending s'.loop.conn.closed s'.loop.stack =
      Notify.told s.loop.conn ++ pending s.loop.conn.closed s.loop.stack) : s'.Telling := by
  refine telling_of_eq ?_ ?_
  · rw [hended, hending]
    exact h.ending hfault
  · rw [hsum, expected_congr hended hending]
    exact h.told hfault

/-- A step that ends the run and tells nothing. -/
theorem Telling.stops (h : s.Telling) (htold : Notify.told s'.loop.conn = Notify.told s.loop.conn)
    (hexpected : s'.expected = s.expected) (hfault : s'.loop.fault ≠ none) : s'.Telling :=
  { prefixed := by
      rw [htold, hexpected]
      exact h.prefixed
    ending := fun hnone => absurd hnone hfault
    told := fun hnone => absurd hnone hfault }

/-- Before the connection ends, the first callback is all there is to tell. -/
theorem Telling.before_ending (h : s.Telling) (hfault : s.loop.fault = none)
    (hopen : ¬ Ending s.loop) : s.ended = false ∧ s.expected = [.conn true] := by
  have hended : s.ended = false := by
    cases hflag : s.ended with
    | false => rfl
    | true => exact absurd (h.ending hfault hflag) hopen
  refine ⟨hended, ?_⟩
  rw [expected, if_neg hopen]

theorem LifeInv.not_ending (hstack : s.loop.stack = c :: rest) (hc : c ≠ .handleClose)
    (hquiet : s.loop.conn.closed = false ∧ ∀ c' ∈ rest, Tells c' = false) : ¬ Ending s.loop := by
  rintro (hclosed | hmem)
  · rw [hquiet.1] at hclosed
    cases hclosed
  · rw [hstack] at hmem
    rcases List.mem_cons.mp hmem with heq | hmem
    · exact hc heq.symm
    · cases hquiet.2 _ hmem

/-- What is told is the first callback, before and behind a call that can lead to `handle_close`. -/
theorem LifeInv.told_lead (S : Setup) (mem : Nat → Byte) (env : Env) (h : s.LifeInv)
    (hfault : s.loop.fault = none) (hstack : s.loop.stack = c :: rest)
    (hc : c = .testHup ∨ c = .handleRead) :
    Notify.told s.loop.conn = [.conn true] ∧
      Notify.told (s.loop.call S mem env).conn = [.conn true] ∧
      (s.loop.call S mem env).conn.closed = false := by
  have hquiet := h.quiet_below hstack hc
  have hclose : c ≠ .handleClose := by rcases hc with rfl | rfl <;> simp
  have htells : Tells c = false := by rcases hc with rfl | rfl <;> rfl
  have hexpected := (h.toTelling.before_ending hfault
    (LifeInv.not_ending hstack hclose hquiet)).2
  have htold : Notify.told s.loop.conn = [.conn true] := by
    have hsum := h.told hfault
    rw [hstack, pending_cons_other _ htells, pending_eq_nil _ hquiet.2, hexpected] at hsum
    rwa [List.append_nil] at hsum
  refine ⟨htold, ?_, (Loop.call_status hstack hclose).2.trans hquiet.1⟩
  rw [told_call hstack, htold]
  · rintro rfl
    cases htells
  · rintro rfl
    cases htells

/-- Behind such a call `handle_close` is among the calls on top, with everything that is to be told,
or the connection goes on. -/
theorem telling_of_lead {calls : List Call} (hquiet : ∀ c' ∈ rest, Tells c' = false)
    (htold : Notify.told s.loop.conn = [.conn true]) (hclosed : s.loop.conn.closed = false)
    (hstack : s.loop.stack = calls ++ rest) (hended : s.ended = true → .handleClose ∈ calls)
    (hpending : pending false calls =
      if .handleClose ∈ calls then (if s.ended then [.conn true] else []) ++ [.conn false, .close]
      else []) : s.Telling := by
  have hending : Ending s.loop ↔ .handleClose ∈ calls := by
    rw [Ending, hclosed, hstack, List.mem_append]
    constructor
    · rintro (hdone | hmem | hmem)
      · cases hdone
      · exact hmem
      · cases hquiet _ hmem
    · exact fun hmem => Or.inr (Or.inl hmem)
  refine telling_of_eq (fun hflag => hending.mpr (hended hflag)) ?_
  rw [htold, hclosed, hstack, pending_append_quiet false calls hquiet, hpending, expected]
  simp only [hending]
  rfl

/-- The test for a hang-up. -/
theorem LifeInv.telling_testHup (h : s.LifeInv) (hfault : s.loop.fault = none)
    (hstack : s.loop.stack = .testHup :: rest) : (s.next S mem (.call env)).Telling := by
  have hquiet := h.quiet_below hstack (Or.inl rfl)
  rcases h.told_lead S mem env hfault hstack (Or.inl rfl) with ⟨-, htold, hclosed⟩
  have hended : (s.next S mem (.call env)).ended = false :=
    (ended_call hstack (by simp)).trans
      (h.toTelling.before_ending hfault (LifeInv.not_ending hstack (by simp) hquiet)).1
  rcases @run_test S.build S.cbs env mem .testHup .handleClose rfl s.loop.conn with ⟨conn', hrun⟩
  have hcall : (s.loop.call S mem env).stack =
      (if Call.due s.loop.conn.evtStatus .handleClose = true then [Call.handleClose] else []) ++
        rest := by
    rw [Loop.call_cons hstack, hrun]
    rfl
  refine telling_of_lead hquiet.2 htold hclosed hcall ?_ ?_
  · rw [hended]
    exact Bool.noConfusion
  · rw [hended]
    split <;> simp [pending]

/-- `handle_read`: at the end of the input the connection callback is made once more. -/
theorem LifeInv.telling_handleRead (h : s.LifeInv) (hfault : s.loop.fault = none)
    (hstack : s.loop.stack = .handleRead :: rest) : (s.next S mem (.call env)).Telling := by
  have hquiet := h.quiet_below hstack (Or.inr rfl)
  rcases h.told_lead S mem env hfault hstack (Or.inr rfl) with ⟨htold, htold', hclosed⟩
  rcases h.toTelling.before_ending hfault (LifeInv.not_ending hstack (by simp) hquiet) with
    ⟨hended, hexpected⟩
  cases hrun : (Connection.exec S.build S.cbs env mem .handleRead).run s.loop.conn with
  | error e conn' =>
      have hcall : (s.loop.call S mem env).stack = rest := by
        rw [Loop.call_cons hstack, hrun]
        rfl
      have hfault' : (s.loop.call S mem env).fault = some e := by
        rw [Loop.call_cons hstack, hrun]
        rfl
      have hopen : ¬ Ending (s.loop.call S mem env) := by
        rw [Ending, hclosed, hcall]
        rintro (hdone | hmem)
        · cases hdone
        · cases hquiet.2 _ hmem
      refine h.toTelling.stops (htold'.trans htold.symm) ?_ ?_
      · show Note.conn true :: (if Ending (s.loop.call S mem env) then _ else _) = _
        rw [if_neg hopen, hexpected]
      · show (s.loop.call S mem env).fault ≠ none
        rw [hfault']
        simp
  | ok calls conn' =>
      have hcall : (s.loop.call S mem env).stack = calls ++ rest := by
        rw [Loop.call_cons hstack, hrun]
        rfl
      rcases returns_handleRead_calls _ _ _ hrun with ⟨hempty, rfl⟩ | ⟨hmore, err, rfl⟩
      · -- The end of the input.
        have hends : s.EndsInput env := ⟨by rw [hstack]; rfl, hempty⟩
        have hended' : (s.next S mem (.call env)).ended = true := by
          show (s.ended || decide (s.EndsInput env)) = true
          simp [hends]
        refine telling_of_lead hquiet.2 htold' hclosed hcall (by simp) ?_
        rw [hended']
        simp [pending]
      · have hended' : (s.next S mem (.call env)).ended = false := by
          show (s.ended || decide (s.EndsInput env)) = false
          have hnot : ¬ s.EndsInput env := fun hends => hmore hends.2
          simp [hended, hnot]
        refine telling_of_lead hquiet.2 htold' hclosed hcall ?_ ?_
        · rw [hended']
          exact Bool.noConfusion
        · simp [pending]

/-- The connection callback is made, or it is not set and the run ends. -/
theorem LifeInv.telling_connCb (h : s.LifeInv) (hfault : s.loop.fault = none)
    (hstack : s.loop.stack = .connCb :: rest) : (s.next S mem (.call env)).Telling := by
  have hended : (s.next S mem (.call env)).ended = s.ended := ended_call hstack (by simp)
  have hending : Ending (s.next S mem (.call env)).loop ↔ Ending s.loop :=
    ending_call hstack (by simp) (by simp) (by simp)
  have hconn : (s.loop.call S mem env).conn =
      if S.cbs.conn then
        { s.loop.conn with notes := s.loop.conn.notes ++ [.conn s.loop.conn.connected] }
      else s.loop.conn :=
    Loop.call_deliver S mem env hstack rfl
  have hcall : s.loop.call S mem env =
      Loop.ofResult rest ((deliver S.cbs.conn fun c => .conn c.connected).run s.loop.conn) :=
    Loop.call_cons hstack
  cases hset : S.cbs.conn with
  | false =>
      refine h.toTelling.stops ?_ (expected_congr hended hending) ?_
      · show Notify.told (s.loop.call S mem env).conn = _
        rw [hconn, hset]
        rfl
      · show (s.loop.call S mem env).fault ≠ none
        rw [hcall, hset]
        exact (nomatch ·)
  | true =>
      -- What the callback tells is whether the connection is open.
      have hconnected : s.loop.conn.connected = !s.loop.conn.closed := by
        have hstatus := h.status
        cases hclosed : s.loop.conn.closed <;> simp [connected, hstatus, hclosed]
      refine h.toTelling.moves hfault hended hending ?_
      show Notify.told (s.loop.call S mem env).conn ++
        pending (s.loop.call S mem env).conn.closed (s.loop.call S mem env).stack = _
      have hstack' : (s.loop.call S mem env).stack = .user :: rest := by
        rw [hcall, hset]
        rfl
      rw [hstack', hconn, hset, if_pos rfl, hstack, pending_cons_other _ rfl, Notify.told,
        List.filter_append, hconnected, List.append_assoc]
      rfl

/-- `handle_close` owes the two last notifications already when it is called. -/
theorem LifeInv.telling_handleClose (h : s.LifeInv) (hfault : s.loop.fault = none)
    (hstack : s.loop.stack = .handleClose :: rest) : (s.next S mem (.call env)).Telling := by
  have hended : (s.next S mem (.call env)).ended = s.ended := ended_call hstack (by simp)
  rcases run_handleClose s.loop.conn with ⟨ch, p, hrun⟩
  have hcall : s.loop.call S mem env =
      Loop.ofResult rest (.ok [.connCb, .closeCb]
        { s.loop.conn with connStatus := .kDisconnect, closed := true, channle := ch,
                           poller := p }) := by
    rw [Loop.call_cons hstack, Connection.exec, hrun]
  refine h.toTelling.moves hfault hended ?_ ?_
  · show Ending (s.loop.call S mem env) ↔ Ending s.loop
    rw [hcall]
    exact iff_of_true (Or.inl rfl) (Or.inr (by simp [hstack]))
  · show Notify.told (s.loop.call S mem env).conn ++
      pending (s.loop.call S mem env).conn.closed (s.loop.call S mem env).stack = _
    rw [hcall, hstack]
    rfl

/-- The close callback, whether or not `final_destory` finds the status that it asserts. -/
theorem LifeInv.telling_closeCb (h : s.LifeInv) (hfault : s.loop.fault = none)
    (hstack : s.loop.stack = .closeCb :: rest) : (s.next S mem (.call env)).Telling := by
  have hended : (s.next S mem (.call env)).ended = s.ended := ended_call hstack (by simp)
  refine h.toTelling.moves hfault hended (ending_call hstack (by simp) (by simp) (by simp)) ?_
  show Notify.told (s.loop.call S mem env).conn ++
    pending (s.loop.call S mem env).conn.closed (s.loop.call S mem env).stack = _
  have hstack' : (s.loop.call S mem env).stack = rest := by
    rcases Loop.call_stack S mem env hstack with ⟨calls, hcalls, hmake⟩
    cases calls with
    | nil => rw [hcalls, List.nil_append]
    | cons c' calls => exact (hmake c' List.mem_cons_self).elim
  have hnotes : (s.loop.call S mem env).conn.notes = s.loop.conn.notes ++ [.close] := by
    rw [Loop.call_cons hstack, Loop.conn_ofResult]
    exact notes_closeCb s.loop.conn
  rw [hstack', hstack, (Loop.call_status hstack (by simp)).2, Notify.told, hnotes,
    List.filter_append, List.append_assoc]
  rfl

/-- The other calls tell nothing and make no call that does. -/
theorem LifeInv.telling_other (h : s.LifeInv) (hfault : s.loop.fault = none)
    (hstack : s.loop.stack = c :: rest) (htells : Tells c = false) (hhup : c ≠ .testHup)
    (hread : c ≠ .handleRead) : (s.next S mem (.call env)).Telling := by
  have hclose : c ≠ .handleClose := by
    rintro rfl
    cases htells
  have hended : (s.next S mem (.call env)).ended = s.ended := ended_call hstack hread
  refine h.toTelling.moves hfault hended (ending_call hstack hhup hread hclose) ?_
  show Notify.told (s.loop.call S mem env).conn ++
    pending (s.loop.call S mem env).conn.closed (s.loop.call S mem env).stack = _
  rcases Loop.call_stack S mem env hstack with ⟨calls, hcalls, hmake⟩
  -- The three calls that make telling ones are excluded.
  have hquiet : ∀ c' ∈ calls, Tells c' = false := by
    intro c' hc'
    cases htells' : Tells c' with
    | false => rfl
    | true =>
        rcases tells_of_mayMake (hmake c' hc') htells' with h | h | h
        · exact absurd h hhup
        · exact absurd h hread
        · exact absurd h hclose
  have htold : Notify.told (s.loop.call S mem env).conn = Notify.told s.loop.conn := by
    refine told_call hstack ?_ ?_
    · rintro rfl
      cases htells
    · rintro rfl
      cases htells
  rw [htold, (Loop.call_status hstack hclose).2, hcalls, pending_append_other _ hquiet, hstack,
    pending_cons_other _ htells]

theorem LifeInv.telling_call (h : s.LifeInv) (hfault : s.loop.fault = none)
    (hstack : s.loop.stack = c :: rest) : (s.next S mem (.call env)).Telling := by
  by_cases hhup : c = .testHup
  · subst hhup
    exact h.telling_testHup hfault hstack
  · by_cases hread : c = .handleRead
    · subst hread
      exact h.telling_handleRead hfault hstack
    · cases htells : Tells c with
      | false => exact h.telling_other hfault hstack htells hhup hread
      | true =>
          cases c with
          | connCb => exact h.telling_connCb hfault hstack
          | handleClose => exact h.telling_handleClose hfault hstack
          | closeCb => exact h.telling_closeCb hfault hstack
          | _ => cases htells

/-! ## Steps -/

/-- What the mask does not make due for reading, a set write interest does not either. -/
theorem not_due_read_of_addsOut {conn conn' : Connection} (h : conn.AddsOut conn')
    (hdue : Call.due conn.evtStatus .handleRead = false) :
    Call.due conn'.evtStatus .handleRead = false := by
  rcases h with hsame | hout
  · rwa [hsame]
  · rwa [hout, Call.due_or_out (by simp)]

theorem Unread.call {s : Loop} (h : Unread s) (hphase : ClosePhase s.path s.conn)
    (hstack : s.stack = c :: rest) : Unread (s.call S mem env) := by
  rcases Loop.call_stack S mem env hstack with ⟨calls, hcalls, hmake⟩
  -- A test was on the stack before.
  have htest : .testIn ∈ (s.call S mem env).stack → .testIn ∈ rest := by
    intro hmem
    rw [hcalls] at hmem
    refine (List.mem_append.mp hmem).resolve_left ?_
    intro hnew
    cases (hmake _ hnew).isTest_eq_false
  by_cases hclose : c = .handleClose
  · subst hclose
    have hzero : (s.call S mem env).conn.evtStatus = 0 := by
      rw [Loop.call_cons hstack, Loop.conn_ofResult]
      exact evtStatus_handleClose s.conn
    refine fun _ => ⟨?_, fun _ => by rw [hzero, Call.due_zero]⟩
    rw [hcalls]
    intro hmem
    rcases List.mem_append.mp hmem with hnew | hold
    · rcases hmake _ hnew with heq | heq <;> cases heq
    · -- Below `handle_close` there is only a test.
      rw [Loop.path_cons hstack rfl] at hphase
      have hpath : .handleRead ∈ rest.filter Call.Leads := List.mem_filter.mpr ⟨hold, rfl⟩
      cases hphase with
      | opened hpath' => simp [List.suffix_cons_iff] at hpath'
      | reading hpath' => cases hpath'
      | closing tests hpath' htests =>
          rw [(List.cons.inj hpath').2] at hpath
          have hin := htests.mem hpath
          exact absurd hin (by simp)
      | closed _ hpath' => cases hpath'
      | removed hpath' => simp [List.suffix_cons_iff] at hpath'
      | readingLate hpath' => cases hpath'
  · intro hclosed
    have hold := h ((Loop.call_status hstack hclose).2.symm.trans hclosed)
    rw [hstack] at hold
    refine ⟨?_, ?_⟩
    · rw [hcalls]
      intro hmem
      rcases List.mem_append.mp hmem with hnew | hmem
      · -- The test for input found nothing to read.
        have hc : c = .testIn := eq_testIn_of_early (hmake _ hnew) rfl
        subst hc
        rcases @run_test S.build S.cbs env mem .testIn .handleRead rfl s.conn with ⟨conn', hrun⟩
        have hnone : (s.call S mem env).stack = rest := by
          rw [Loop.call_cons hstack, hrun, hold.2 List.mem_cons_self]
          rfl
        have hempty : calls = [] := by
          rw [hcalls] at hnone
          simpa using hnone
        rw [hempty] at hnew
        cases hnew
      · exact hold.1 (List.mem_cons_of_mem c hmem)
    · intro hmem
      refine not_due_read_of_addsOut ?_ (hold.2 (List.mem_cons_of_mem c (htest hmem)))
      rw [Loop.call_cons hstack, Loop.conn_ofResult]
      exact exec_addsOut hclose s.conn

theorem LifeInv.call (h : s.LifeInv) (hfault : s.loop.fault = none)
    (hstack : s.loop.stack = c :: rest) : (s.next S mem (.call env)).LifeInv := by
  rcases Loop.call_stack S mem env hstack with ⟨calls, hcalls, hmake⟩
  have hjoined : c ≠ .addChannel := by
    rintro rfl
    exact h.joined (hstack ▸ List.mem_cons_self)
  have hpairs := h.early
  rw [hstack, List.pairwise_cons] at hpairs
  refine { h.telling_call hfault hstack with
           phase := Loop.closePhase_call S mem env h.phase hstack ?_,
           unread := h.unread.call h.phase hstack, early := ?_, joined := ?_, status := ?_,
           registered := ?_, active := ?_ }
  -- Behind `handle_close` no `handle_read` comes.
  · rintro rfl _
    cases hclosed : s.loop.conn.closed with
    | false => rfl
    | true => exact absurd (hstack ▸ List.mem_cons_self) (h.unread hclosed).1
  · show (s.loop.call S mem env).stack.Pairwise _
    rw [hcalls, List.pairwise_append]
    refine ⟨?_, hpairs.2, ?_⟩
    · -- A call that makes an early one makes no other.
      apply List.pairwise_of_forall_mem_list
      intro c' hc' d hd hearly
      have hc : c = .testIn := eq_testIn_of_early (hmake c' hc') hearly
      subst hc
      cases hmake d hd
      simp
    · intro c' hc' d hd hearly
      have hc : c = .testIn := eq_testIn_of_early (hmake c' hc') hearly
      subst hc
      exact hpairs.1 d hd rfl
  · show .addChannel ∉ (s.loop.call S mem env).stack
    rw [hcalls]
    intro hmem
    rcases List.mem_append.mp hmem with hnew | hold
    · exact (hmake _ hnew).ne_addChannel rfl
    · exact h.joined (hstack ▸ List.mem_cons_of_mem c hold)
  · show (s.loop.call S mem env).conn.connStatus =
      if (s.loop.call S mem env).conn.closed then _ else _
    by_cases hclose : c = .handleClose
    · subst hclose
      rcases @Loop.call_handleClose S mem s.loop env rest hstack with
        ⟨hclosed, hstatus⟩
      rw [hclosed, hstatus, if_pos rfl]
    · rcases @Loop.call_status S mem s.loop env c rest hstack hclose with
        ⟨hstatus, hclosed⟩
      rw [hclosed, hstatus]
      exact h.status
  · exact Loop.registered_call S mem env (h.registered hfault) hstack
      fun heq => absurd heq hjoined
  · intro hactive
    rcases h.active hactive with ⟨hpath, hopen⟩
    cases hleads : c.Leads with
    | true =>
        rw [Loop.path_cons hstack hleads] at hpath
        cases hpath
    | false =>
        have hclose : c ≠ .handleClose := by
          rintro rfl
          cases hleads
        exact ⟨(Loop.call_path S mem env hstack hleads).trans hpath,
          (Loop.call_status hstack hclose).2.trans hopen⟩

/-- The calls that the invariant speaks of. -/
def Vital (c : Call) : Bool :=
  c.Leads || Early c || Tells c || c == .addChannel

theorem mem_of_vital (hc : Vital c = true) {calls calls' : List Call}
    (h : calls'.filter Vital = calls.filter Vital) : c ∈ calls' ↔ c ∈ calls := by
  have hmem : c ∈ calls'.filter Vital ↔ c ∈ calls.filter Vital := by rw [h]
  simpa [List.mem_filter, hc] using hmem

theorem pending_of_vital (closed : Bool) {calls calls' : List Call}
    (h : calls'.filter Vital = calls.filter Vital) :
    pending closed calls' = pending closed calls := by
  -- Leaving out the other calls changes nothing that is pending.
  have hvital : ∀ (calls : List Call) (closed : Bool),
      pending closed (calls.filter Vital) = pending closed calls := by
    intro calls
    induction calls with
    | nil => intro closed; rfl
    | cons c calls ih =>
        intro closed
        cases hc : Vital c with
        | true =>
            rw [List.filter_cons_of_pos hc]
            cases c with
            | connCb => rw [pending, pending, ih]
            | handleClose => rw [pending, pending, ih]
            | closeCb => rw [pending, pending, ih]
            | _ => rw [pending_cons_other _ rfl, pending_cons_other _ rfl, ih]
        | false =>
            have htells : Tells c = false := by
              simp only [Vital, Bool.or_eq_false_iff] at hc
              exact hc.1.2
            rw [List.filter_cons_of_neg (by simp [hc]), pending_cons_other _ htells, ih]
  rw [← hvital calls', h, hvital calls]

theorem early_of_vital {calls calls' : List Call}
    (h : calls'.filter Vital = calls.filter Vital)
    (hearly : calls.Pairwise fun c c' => Early c = true → c' ≠ .connCb) :
    calls'.Pairwise fun c c' => Early c = true → c' ≠ .connCb := by
  have hfilter := hearly.filter Vital
  rw [← h, List.pairwise_filter] at hfilter
  refine hfilter.imp ?_
  intro c c' hcc hc heq
  refine hcc (by simp [Vital, hc]) ?_ hc heq
  rw [heq]
  rfl

/-- A step that leaves these calls alone, and of the connection what the invariant speaks of. -/
theorem LifeInv.congr (h : s.LifeInv) (hfault : s.loop.fault = none)
    (hvital : s'.loop.stack.filter Vital = s.loop.stack.filter Vital)
    (hnotes : s'.loop.conn.notes = s.loop.conn.notes)
    (hstatus : s'.loop.conn.connStatus = s.loop.conn.connStatus)
    (hclosed : s'.loop.conn.closed = s.loop.conn.closed)
    (hpoller : s'.loop.conn.poller = s.loop.conn.poller) (hended : s'.ended = s.ended)
    (hphase : ClosePhase s'.loop.path s'.loop.conn) (hunread : Unread s'.loop)
    (hactive : s'.active = true → s'.loop.path = [] ∧ s'.loop.conn.closed = false) :
    s'.LifeInv := by
  have hending : Ending s'.loop ↔ Ending s.loop := by
    rw [Ending, Ending, hclosed, mem_of_vital rfl hvital]
  refine { h.toTelling.moves hfault hended hending ?_ with
           phase := hphase, unread := hunread, early := early_of_vital hvital h.early, joined := ?_, status := ?_,
           registered := ?_, active := hactive }
  · rw [hclosed, pending_of_vital _ hvital, Notify.told, hnotes, Notify.told]
  · rw [mem_of_vital rfl hvital]
    exact h.joined
  · rw [hstatus, hclosed]
    exact h.status
  · rw [hpoller, hclosed, mem_of_vital rfl hvital]
    exact fun _ => h.registered hfault

/-- At rest a registered connection is open. -/
theorem LifeInv.open_of_registered (h : s.LifeInv) (hfault : s.loop.fault = none)
    (hidle : s.loop.stack = []) (hregistered : s.loop.conn.poller.registered.isSome = true) :
    s.loop.conn.closed = false :=
  Loop.open_of_registered (h.registered hfault) hidle hregistered

theorem LifeInv.poll (h : s.LifeInv) {events : Events} (hfault : s.loop.fault = none)
    (hidle : s.loop.stack = []) (hregistered : s.loop.conn.poller.registered.isSome = true) :
    (s.next S mem (.poll events)).LifeInv := by
  have hpath : s.loop.path = [] := by rw [Loop.path, hidle, List.filter_nil]
  have hunread : Unread (s.next S mem (.poll events)).loop := by
    intro _
    show _ ∉ s.loop.stack ∧ (_ ∈ s.loop.stack → _)
    simp [hidle]
  exact h.congr hfault rfl rfl rfl rfl rfl rfl (h.phase.congr rfl rfl) hunread
    fun _ => ⟨hpath, h.open_of_registered hfault hidle hregistered⟩

theorem LifeInv.processWork (h : s.LifeInv) (hfault : s.loop.fault = none)
    (hidle : s.loop.stack = []) (hactive : s.active = true) :
    (s.next S mem .processWork).LifeInv := by
  rcases h.active hactive with ⟨hpath, hopen⟩
  -- None of the four tests tells anything itself.
  have htelling : (s.next S mem .processWork).Telling := by
    refine h.toTelling.moves hfault rfl ?_ ?_
    · show s.loop.conn.closed = true ∨ .handleClose ∈ Loop.dispatchCalls ↔ Ending s.loop
      rw [Ending, hidle]
      simp [Loop.dispatchCalls]
    · rw [hidle]
      rfl
  refine { htelling with
           phase := ?_, unread := ?_, early := ?_, joined := ?_, status := h.status,
           registered := ?_, active := ?_ }
  · have hphase := h.phase
    rw [hpath] at hphase
    exact hphase.of_nil hopen
  · intro hclosed
    exact absurd (hopen.symm.trans hclosed) (by simp)
  · show Loop.dispatchCalls.Pairwise _
    decide
  · show .addChannel ∉ Loop.dispatchCalls
    decide
  · intro _ _ hclosed
    exact absurd (hopen.symm.trans hclosed) (by simp)
  · exact Bool.noConfusion

theorem LifeInv.writeInLoop (h : s.LifeInv) {data : Block} (hfault : s.loop.fault = none)
    (hidle : s.loop.stack = []) : (s.next S mem (.writeInLoop data)).LifeInv := by
  have hpath : (s.next S mem (.writeInLoop data)).loop.path = s.loop.path := by
    rw [Loop.path, Loop.path, hidle]
    rfl
  refine h.congr hfault ?_ rfl rfl rfl rfl rfl ?_ ?_ ?_
  · rw [hidle]
    rfl
  · rw [hpath]
    exact h.phase
  · intro _
    show _ ∉ [Call.writeInLoop _] ∧ (_ ∈ [Call.writeInLoop _] → _)
    simp
  · rw [hpath]
    exact h.active

theorem LifeInv.user (h : s.LifeInv) {op : UserOp} (hfault : s.loop.fault = none)
    (htop : s.loop.stack.head? = some .user) (hop : op.IsShutdown = false) :
    (s.next S mem (.user op)).LifeInv := by
  rcases List.head?_eq_some_iff.mp htop with ⟨rest, hstack⟩
  have hvital : (s.loop.user S op).stack.filter Vital = s.loop.stack.filter Vital := by
    rcases Loop.user_stack (S := S) (s := s.loop) op with ⟨data, hnew⟩ | hnew | hnew | hnew
    · rw [hnew]
      rfl
    · rw [hnew]
      rfl
    · rw [hnew]
    · rw [hnew, hstack]
      rfl
  have huser : ∀ c ∈ s.loop.stack.head?, c.Leads = false := by
    rw [hstack]
    rintro c' ⟨rfl⟩
    rfl
  have hpath : (s.loop.user S op).path = s.loop.path := Loop.user_path S op huser
  have hstatus : (s.loop.user S op).conn.connStatus = s.loop.conn.connStatus := by
    cases op with
    | shutdown => cases hop
    | readBuffer op => exact (Loop.readBuffer_status S s.loop op).1
    | write data => rfl
    | returns => rfl
  have hclosed : (s.loop.user S op).conn.closed = s.loop.conn.closed :=
    Loop.user_closed S _ op
  have hmask : (s.loop.user S op).conn.evtStatus = s.loop.conn.evtStatus :=
    congrArg EvtChannel.lastEvtStatus (Loop.user_channle S _ op)
  refine h.congr hfault hvital ?_ hstatus hclosed ?_ rfl (Loop.closePhase_user S h.phase op huser)
    ?_ ?_
  · exact Loop.user_notes S _ op
  · exact Loop.user_poller S _ op
  · show Unread (s.loop.user S op)
    rw [Unread, hclosed, hmask, mem_of_vital rfl hvital, mem_of_vital rfl hvital]
    exact h.unread
  · show s.active = true → (s.loop.user S op).path = [] ∧ (s.loop.user S op).conn.closed = false
    rw [hpath, hclosed]
    exact h.active

/-- `start()` registers the channel and leaves the first callback to be made. -/
theorem run_start (B : Build) (env : Env) :
    ∃ p ch, (Connection.start B env).run unstarted.loop.conn =
      .ok [.connCb]
        { unstarted.loop.conn with connStatus := .kConnected, channle := ch, poller := p } := by
  have htied : unstarted.loop.conn.channle.tied = false := rfl
  refine ⟨(unstarted.loop.conn.poller.addChannel 0 (env.errno = 0)).updateEvtCode
      (EvtChannel.construct.readInterest true),
    { tied := true, lastEvtStatus := EvtChannel.construct.readInterest true,
      progressInWrite := false }, ?_⟩
  rw [Connection.start, run_bind_ok (EStateM.run_get _), run_bind_ok (run_cassert_of htied _)]
  rfl

theorem lifeInv_start (S : Setup) (mem : Nat → Byte) (env : Env) :
    (unstarted.next S mem (.start env)).LifeInv := by
  rcases run_start S.build env with ⟨p, ch, hrun⟩
  have hloop : (unstarted.next S mem (.start env)).loop =
      { conn := { unstarted.loop.conn with connStatus := .kConnected, channle := ch, poller := p }
        stack := [.connCb]
        fault := none } := by
    show Loop.ofResult [] _ = _
    rw [hrun]
    rfl
  have hopen : ¬ Ending (unstarted.next S mem (.start env)).loop := by
    rw [hloop]
    rintro (hclosed | hmem)
    · cases hclosed
    · exact absurd hmem (by simp)
  -- The first callback is pending, and nothing else.
  have htelling : (unstarted.next S mem (.start env)).Telling := by
    refine telling_of_eq (nomatch ·) ?_
    rw [expected, if_neg hopen, hloop]
    rfl
  refine { htelling with phase := ?_, unread := ?_, early := ?_, joined := ?_, status := ?_,
                         registered := ?_, active := Bool.noConfusion }
  · rw [hloop]
    exact .opened List.nil_suffix rfl rfl
  · rw [hloop]
    exact (nomatch ·)
  · rw [hloop]
    exact List.pairwise_singleton _ _
  · rw [hloop]
    simp
  · rw [hloop]
    rfl
  · rw [hloop]
    intro _ _ hclosed
    cases hclosed

/-- The states of a run: the connection is not started yet, or the invariant holds. -/
def Living (s : Notify) : Prop :=
  s = unstarted ∨ s.started = true ∧ s.LifeInv

/-- The step lemma. -/
theorem living_step (h : s.Living) (hs : s.step S mem a = some s') : s'.Living := by
  rcases step_eq_some.mp hs with ⟨hen, rfl⟩
  rcases h with rfl | ⟨hstarted, h⟩
  · -- Before `start()` nothing else happens.
    cases a with
    | start env => exact Or.inr ⟨rfl, lifeInv_start S mem env⟩
    | poll events => cases hen.1
    | processWork => cases hen.2.2
    | writeInLoop data => cases hen.1
    | call env =>
        rcases hen.2.exists_cons with ⟨c, rest, hstack, -⟩
        cases hstack
    | user op => cases hen.2.1
  · right
    cases a with
    | start env => exact absurd (hstarted.symm.trans hen) (by simp)
    | poll events => exact ⟨hstarted, h.poll hen.2.1 hen.2.2.1 hen.2.2.2⟩
    | processWork => exact ⟨hstarted, h.processWork hen.1 hen.2.1 hen.2.2⟩
    | writeInLoop data => exact ⟨hstarted, h.writeInLoop hen.2.1 hen.2.2⟩
    | call env =>
        rcases hen.2.exists_cons with ⟨c, rest, hstack, -⟩
        exact ⟨hstarted, h.call hen.1 hstack⟩
    | user op => exact ⟨hstarted, h.user hen.1 hen.2.1 hen.2.2⟩

/-- A step ends the input exactly where a `recv` returns 0. -/
theorem ended_step (hs : s.step S mem a = some s') :
    s'.ended = false ↔ s.ended = false ∧ s.NoEnd a := by
  rcases step_eq_some.mp hs with ⟨-, rfl⟩
  cases a with
  | call env =>
      show (s.ended || decide (s.EndsInput env)) = false ↔ _
      rw [Bool.or_eq_false_iff, decide_eq_false_iff_not]
      exact Iff.rfl
  | _ => exact (and_iff_left trivial).symm

/-- At rest everything that is expected was told. -/
theorem LifeInv.told_idle (h : s.LifeInv) (hidle : s.loop.stack = [])
    (hfault : s.loop.fault = none) : Notify.told s.loop.conn = s.expected := by
  have hsum := h.told hfault
  rwa [hidle, pending, List.append_nil] at hsum

/-- At rest a connection that ends is closed. -/
theorem ending_idle {s : Loop} (hidle : s.stack = []) : Ending s ↔ s.conn.closed = true := by
  rw [Ending, hidle]
  simp

/-- As long as the input has not ended, every notification is made once. -/
theorem LifeInv.notified (h : s.LifeInv) (hended : s.ended = false) : s.Notified := by
  have hexpected : s.expected =
      .conn true :: if Ending s.loop then [.conn false, .close] else [] := by
    rw [expected, hended]
    rfl
  refine { order := ?_, complete := ?_ }
  · refine h.prefixed.trans ?_
    rw [hexpected]
    split
    · exact List.prefix_refl _
    · exact ⟨_, rfl⟩
  · intro _ hidle hfault
    rw [h.told_idle hidle hfault, hexpected]
    cases hclosed : s.loop.conn.closed with
    | true =>
        rw [if_pos ((ending_idle hidle).mpr hclosed)]
        rfl
    | false =>
        rw [if_neg fun hending => by simp [(ending_idle hidle).mp hending] at hclosed]
        rfl

/-- The end of the input is told once too often. -/
theorem LifeInv.ended_of_notified (h : s.LifeInv) (hstarted : s.started = true)
    (hidle : s.loop.stack = []) (hfault : s.loop.fault = none) (hnotified : s.Notified) :
    s.ended = false := by
  cases hended : s.ended with
  | false => rfl
  | true =>
      have hending : Ending s.loop := h.ending hfault hended
      have htold := hnotified.complete hstarted hidle hfault
      rw [h.told_idle hidle hfault, expected, hended, if_pos hending,
        (ending_idle hidle).mp hending] at htold
      cases htold

/-- A connection is told of once from its start to its end if no `recv` returns 0; and a run that
comes to rest without a fault tells it once only then. -/
theorem notified_iff {as : List Act} (hrun : run (step S mem) unstarted as = some s) :
    (Along (step S mem) NoEnd unstarted as → s.Notified) ∧
      (s.loop.stack = [] → s.loop.fault = none → s.Notified →
        Along (step S mem) NoEnd unstarted as) := by
  have hliving : s.Living :=
    invariant_run (fun _ _ _ h hs => living_step h hs) (Or.inl rfl) hrun
  have hflag : s.ended = false ↔
      unstarted.ended = false ∧ Along (step S mem) NoEnd unstarted as :=
    along_iff_flag (fun _ _ _ hs => ended_step hs) hrun
  rw [and_iff_right (show unstarted.ended = false from rfl)] at hflag
  rw [← hflag]
  rcases hliving with rfl | ⟨hstarted, h⟩
  · refine ⟨fun _ => { order := List.nil_prefix, complete := (nomatch ·) }, fun _ _ _ => rfl⟩
  · exact ⟨h.notified, h.ended_of_notified hstarted⟩

/-- The connection reads once, and the next report is a hang-up. -/
def hungUp : List Act :=
  [.start {}, .call {}, .user .returns,
    .poll epollIn, .processWork, .call {}, .call {}, .call {}, .call { received := some [66] },
    .call {}, .user .returns, .call {},
    .poll epollHup, .processWork, .call {}, .call {}, .call {}, .user .returns, .call {}, .call {},
    .call {}, .call {}]

theorem notified_iff_hungUp :
    ∃ s, run (step Loop.debugSetup fun _ => 0) unstarted hungUp = some s ∧
      s.loop.conn.closed = true ∧ s.loop.conn.notes = [.conn true, .read 0, .conn false, .close] ∧
      s.Notified := by
  -- One evaluation of the run serves both.
  obtain ⟨hany, hno⟩ :
      (run (step Loop.debugSetup fun _ => 0) unstarted hungUp).any (fun s =>
        decide (s.loop.conn.closed = true ∧
          s.loop.conn.notes = [.conn true, .read 0, .conn false, .close])) = true ∧
      Along (step Loop.debugSetup fun _ => 0) NoEnd unstarted hungUp := by
    decide +kernel
  rcases exists_run_of_any hany with ⟨s, hrun, hclosed, hnotes⟩
  exact ⟨s, hrun, hclosed, hnotes, (notified_iff hrun).1 hno⟩

/-- The peer closes: `recv` returns 0, and the connection callback is made twice. -/
theorem end_of_input_told_twice :
    ¬ ∀ (as : List Act) (s : Notify),
      run (step Loop.debugSetup fun _ => 0) unstarted as = some s → s.Notified := by
  intro h
  have hany : (run (step Loop.debugSetup fun _ => 0) unstarted
      [.start {}, .call {}, .user .returns, .poll epollIn, .processWork, .call {}, .call {},
        .call {}, .call { received := some [] }, .call {}, .user .returns, .call {}, .call {},
        .user .returns, .call {}, .call {}]).any (fun s =>
          decide (told s.loop.conn = [.conn true, .conn true, .conn false, .close])) = true := by
    decide +kernel
  rcases exists_run_of_any hany with ⟨s, hrun, htold⟩
  have horder := (h _ s hrun).order
  rw [htold] at horder
  exact absurd horder (by decide)

end Notify

end Net
end Muradin
