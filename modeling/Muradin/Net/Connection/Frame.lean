import Muradin.Net.Connection.Defs

/-!
# Frame — what the calls of the loop thread leave alone

* `Works.exec` — a relation that holds across the small updates holds across a call;
* `exec_keeps_status` — only `handle_close` writes `m_conn_status` on the loop thread;
* `exec_keeps_notes` — only the callbacks are noted;
* `exec_keeps_readCache` — only `handle_read` receives;
* `exec_keeps_inConnMap` — only the close callback erases the entry of `m_conn_map`;
* `exec_mayMake` — which calls a call can make next.
-/

namespace Muradin
namespace Net

open Lib Cpp Events

/-! ## The calls behind a call -/

namespace Call

/-- The calls that a call can make next. -/
def MayMake : Call → Call → Prop
  | .testHup, c => c = .handleClose
  | .testErr, c => c = .handleError
  | .testIn, c => c = .handleRead
  | .testOut, c => c = .handleWrite
  | .handleRead, c => c = .connCb ∨ c = .handleClose ∨ ∃ err, c = .readCb err
  | .handleWrite, c => ∃ err bytes, c = .writeCb err bytes
  | .handleError, c => ∃ err, c = .errCb err
  | .handleClose, c => c = .connCb ∨ c = .closeCb
  | .writeInLoop data, c => (∃ n, c = .cacheOutput data n) ∨ ∃ err bytes, c = .writeCb err bytes
  | .connCb, c => c = .user
  | .readCb _, c => c = .user
  | .writeCb _ _, c => c = .user
  | .errCb _, c => c = .user
  | _, _ => False

/-- Only `handle_close` invokes the close callback. -/
theorem MayMake.eq_handleClose {c : Call} (h : c.MayMake .closeCb) : c = .handleClose := by
  cases c with
  | handleClose => rfl
  | _ => simp [MayMake] at h

/-- The calls that deliver a callback. -/
def IsCallback : Call → Bool
  | .connCb | .readCb _ | .writeCb _ _ | .errCb _ | .closeCb => true
  | _ => false

/-- What a call notes when its callback is set. -/
def note (conn : Connection) : Call → Option Note
  | .connCb => some (.conn conn.connected)
  | .readCb err => some (.read err)
  | .writeCb err bytes => some (.write err bytes)
  | .errCb err => some (.error err)
  | .closeCb => some .close
  | _ => none

/-- The connection callback tells the status of the connection. -/
theorem note_conn {conn : Connection} {c : Call} (h : c.note conn = some (.conn true)) :
    conn.connStatus = .kConnected := by
  cases c with
  | connCb => simpa [note, Connection.connected] using h
  | _ => simp [note] at h

theorem note_close {conn : Connection} {c : Call} (h : c.note conn = some .close) :
    c = .closeCb := by
  cases c with
  | closeCb => rfl
  | _ => simp [note] at h

/-- The calls that register the channel, take it out or end the connection. -/
def Registers : Call → Bool
  | .addChannel | .updateChannel | .handleClose | .closeCb => true
  | _ => false

end Call

namespace Connection

variable {B : Build} {cbs : Callbacks} {env : Env} {mem : Nat → Byte} {ρ : Type}
  {R : Connection → Connection → Prop}

/-! ## The write interest -/

/-- What `enable_write(enable)` leaves. -/
def setWriteInterest (c : Connection) (enable : Bool) : Connection :=
  if enable ∧ c.channle.progressInWrite then
    c
  else
    { c with
      channle :=
        { c.channle with
          lastEvtStatus := c.channle.writeInterest enable
          progressInWrite := enable }
      poller := c.poller.updateEvtCode (c.channle.writeInterest enable) }

theorem run_enableWrite (c : Connection) (enable : Bool) :
    (enableWrite enable).run c = .ok () (c.setWriteInterest enable) := by
  unfold enableWrite setWriteInterest
  simp only [EStateM.run_bind, EStateM.run_get]
  split <;> rfl

@[simp] theorem writeCache_setWriteInterest (c : Connection) (enable : Bool) :
    (c.setWriteInterest enable).writeCache = c.writeCache := by
  unfold setWriteInterest
  split <;> rfl

@[simp] theorem accepted_setWriteInterest (c : Connection) (enable : Bool) :
    (c.setWriteInterest enable).accepted = c.accepted := by
  unfold setWriteInterest
  split <;> rfl

@[simp] theorem written_setWriteInterest (c : Connection) (enable : Bool) :
    (c.setWriteInterest enable).written = c.written := by
  unfold setWriteInterest
  split <;> rfl

@[simp] theorem closed_setWriteInterest (c : Connection) (enable : Bool) :
    (c.setWriteInterest enable).closed = c.closed := by
  unfold setWriteInterest
  split <;> rfl

/-- The write interest and the other fields are set independently. -/
theorem setWriteInterest_accepted (c : Connection) (enable : Bool) (bytes : List Byte) :
    ({ c with accepted := bytes }).setWriteInterest enable =
      { c.setWriteInterest enable with accepted := bytes } := by
  unfold setWriteInterest
  split <;> rfl

theorem setWriteInterest_writeCache (c : Connection) (enable : Bool) (b : ByteBuffer) :
    ({ c with writeCache := b }).setWriteInterest enable =
      { c.setWriteInterest enable with writeCache := b } := by
  unfold setWriteInterest
  split <;> rfl

/-! ## The work on the caches and the channel -/

/-- A preorder that holds across each of the small updates that the calls other than `handle_read`
are made of. -/
structure Outputs (R : Connection → Connection → Prop) : Prop where
  refl : ∀ c, R c c
  trans : ∀ c d e, R c d → R d e → R c e
  writeCache : ∀ c b, R c { c with writeCache := b }
  accepted : ∀ c bytes, R c { c with accepted := bytes }
  written : ∀ c bytes, R c { c with written := bytes }
  writeShutdown : ∀ c w, R c { c with writeShutdown := w }
  progress : ∀ c : Connection, R c { c with channle := { c.channle with progressInWrite := false } }
  interest : ∀ c : Connection, R c (c.setWriteInterest true)

/-- The same with the updates of `handle_read`. -/
structure Works (R : Connection → Connection → Prop) : Prop extends Outputs R where
  readCache : ∀ c b, R c { c with readCache := b }

theorem keeps_test (f : Connection → ρ) (cond : Events → Bool) (handler : Call) :
    Keeps f (test cond handler) :=
  (Keeps.get f).bind fun _ => Keeps.pure f _

/-- `handle_read` only writes the read cache. -/
theorem relates_handleRead (hrefl : ∀ c, R c c) (htrans : ∀ c d e, R c d → R d e → R c e)
    (hread : ∀ c b, R c { c with readCache := b }) : Relates R (handleRead B env) := by
  have hcache : ∀ {α : Type} (m : Method ByteBuffer α), Relates R (onReadCache m) :=
    fun m => .onField hread m
  have hpure : ∀ calls : List Call, Relates R (pure calls : Method Connection (List Call)) :=
    fun calls => .of_same hrefl (Keeps.pure _ calls)
  refine .bind htrans (hcache _) fun _ => ?_
  cases env.received with
  | none => exact hpure _
  | some bytes =>
      refine .bind htrans (hcache _) fun _ => .ite (hpure _) ?_
      exact .bind htrans (hcache _) fun _ => hpure _

theorem relates_send (hrefl : ∀ c, R c c) (htrans : ∀ c d e, R c d → R d e → R c e)
    (haccepted : ∀ c bytes, R c { c with accepted := bytes }) (data : List Byte) :
    Relates R (send env data) :=
  .bind htrans (.modify fun c => haccepted c _) fun _ => .of_same hrefl (Keeps.pure _ _)

/-- The direct send does not touch the channel, and only looks at the cache. -/
theorem relates_sendDirectly (hrefl : ∀ c, R c c) (htrans : ∀ c d e, R c d → R d e → R c e)
    (hwritten : ∀ c bytes, R c { c with written := bytes })
    (hcache : ∀ c b, R c { c with writeCache := b })
    (haccepted : ∀ c bytes, R c { c with accepted := bytes }) (data : List Byte) :
    Relates R (sendDirectly B env data) := by
  have hpure : ∀ out : Option Nat × List Call,
      Relates R (pure out : Method Connection (Option Nat × List Call)) :=
    fun out => .of_same hrefl (Keeps.pure _ out)
  refine .bind htrans (.modify fun c => hwritten c _) fun _ => ?_
  refine .bind htrans (.onField hcache _) fun readable => .ite (hpure _) ?_
  refine .bind htrans (relates_send hrefl htrans haccepted data) fun ret => .ite ?_ (hpure _)
  exact .ite (hpure _) (hpure _)

namespace Outputs

theorem bind (h : Outputs R) {α β : Type} {m : Method Connection α}
    {k : α → Method Connection β} (hm : Relates R m) (hk : ∀ a, Relates R (k a)) :
    Relates R (m >>= k) :=
  Relates.bind h.trans hm hk

theorem pure (h : Outputs R) {α : Type} (a : α) : Relates R (Pure.pure a : Method Connection α) :=
  .of_same h.refl (Keeps.pure _ a)

theorem get (h : Outputs R) : Relates R (MonadState.get : Method Connection Connection) :=
  .of_same h.refl (Keeps.get _)

theorem onWriteCache (h : Outputs R) {α : Type} (m : Method ByteBuffer α) :
    Relates R (onWriteCache m) :=
  .onField h.writeCache m

theorem enableWrite (h : Outputs R) : Relates R (enableWrite true) := by
  intro c
  rw [run_enableWrite]
  exact h.interest c

theorem cacheOutput (h : Outputs R) (data : List Byte) : Relates R (cacheOutput B data) :=
  h.bind (h.onWriteCache _) fun _ => h.enableWrite

theorem handleWrite (h : Outputs R) : Relates R (handleWrite B env) := by
  refine h.bind (h.onWriteCache _) fun readable => ?_
  refine h.bind h.get fun c => ?_
  refine h.bind (.of_same h.refl (Keeps.orThrow _ _)) fun data => ?_
  refine h.bind (relates_send h.refl h.trans h.accepted data) fun ret => .ite ?_ ?_
  · exact .ite (h.bind h.enableWrite fun _ => h.pure _) (h.pure _)
  · refine h.bind (h.onWriteCache _) fun _ => h.bind (h.onWriteCache _) fun left => ?_
    -- Whether or not the write interest is set again, the second discard follows.
    have hdiscard : Relates R (do
        if 0 < ret then
          let _ ← Connection.onWriteCache (ByteBuffer.discard B ret.toNat)
          return [Call.writeCb 0 ret.toNat]
        else
          return []) :=
      .ite (h.bind (h.onWriteCache _) fun _ => h.pure _) (h.pure _)
    exact .ite (h.bind h.enableWrite fun _ => hdiscard) hdiscard

/-- The calls that neither read, register the channel nor end the connection, the callbacks
apart. -/
theorem exec (h : Outputs R) {c : Call} (hread : c ≠ .handleRead) (hc : c.Registers = false)
    (hcb : c.IsCallback = false) : Relates R (exec B cbs env mem c) := by
  cases c with
  | testHup =>
      rw [Connection.exec]
      exact .of_same h.refl (keeps_test _ _ _)
  | testErr =>
      rw [Connection.exec]
      exact .of_same h.refl (keeps_test _ _ _)
  | testIn =>
      rw [Connection.exec]
      exact .of_same h.refl (keeps_test _ _ _)
  | testOut =>
      refine h.bind h.get fun c => .ite ?_ (h.pure _)
      exact h.bind (.modify h.progress) fun _ => h.pure _
  | handleRead => contradiction
  | handleWrite => exact h.handleWrite
  | handleError => exact h.pure _
  | writeInLoop data =>
      refine h.bind ?_ fun _ => h.pure _
      exact relates_sendDirectly h.refl h.trans h.written h.writeCache h.accepted _
  | cacheOutput data n => exact h.bind (h.cacheOutput _) fun _ => h.pure _
  | shutdownInLoop => exact h.bind (.modify fun c => h.writeShutdown c _) fun _ => h.pure _
  | user => exact h.pure _
  | connCb => cases hcb
  | readCb err => cases hcb
  | writeCb err bytes => cases hcb
  | errCb err => cases hcb
  | _ => cases hc

end Outputs

/-- The calls that neither register the channel nor end the connection, the callbacks apart. -/
theorem Works.exec (h : Works R) {c : Call} (hc : c.Registers = false)
    (hcb : c.IsCallback = false) : Relates R (exec B cbs env mem c) := by
  by_cases hread : c = .handleRead
  · subst hread
    exact relates_handleRead h.refl h.trans h.readCache
  · exact h.toOutputs.exec hread hc hcb

/-! ## The part of a connection that only its callbacks and its end change -/

/-- `f` does not look at the caches, the channel, the poller and the socket. -/
structure OffWork (f : Connection → ρ) : Prop where
  channle : ∀ c ch, f { c with channle := ch } = f c
  poller : ∀ c p, f { c with poller := p } = f c
  writeCache : ∀ b c, f { c with writeCache := b } = f c
  readCache : ∀ b c, f { c with readCache := b } = f c
  writeShutdown : ∀ c w, f { c with writeShutdown := w } = f c
  accepted : ∀ c bytes, f { c with accepted := bytes } = f c
  written : ∀ c bytes, f { c with written := bytes } = f c

theorem offWork_connStatus : OffWork fun c => (c.connStatus, c.closed) := by
  constructor <;> intros <;> rfl

theorem offWork_inConnMap : OffWork fun c => c.inConnMap := by
  constructor <;> intros <;> rfl

theorem offWork_notes : OffWork fun c => c.notes := by
  constructor <;> intros <;> rfl

namespace OffWork

variable {f : Connection → ρ}

theorem channle_poller (h : OffWork f) (c : Connection) (ch : EvtChannel) (p : EpPoller) :
    f { c with channle := ch, poller := p } = f c :=
  (h.poller { c with channle := ch } p).trans (h.channle c ch)

/-- The work on the caches and the channel does not change `f`. -/
theorem works (h : OffWork f) : Works fun c d => f d = f c :=
  { refl := fun _ => rfl
    trans := fun _ _ _ hcd hde => hde.trans hcd
    readCache := fun c b => h.readCache b c
    writeCache := fun c b => h.writeCache b c
    accepted := h.accepted
    written := h.written
    writeShutdown := h.writeShutdown
    progress := fun c => h.channle c _
    interest := by
      intro c
      rw [setWriteInterest]
      split
      · rfl
      · exact h.channle_poller c _ _ }

theorem keeps_handleWrite (h : OffWork f) : Keeps f (handleWrite B env) :=
  h.works.handleWrite

/-- The calls that are neither the end of the connection nor a callback. -/
theorem keeps_exec (h : OffWork f) {c : Call} (hclose : c ≠ .handleClose)
    (hcb : c.IsCallback = false) : Keeps f (exec B cbs env mem c) := by
  cases hregisters : c.Registers with
  | false => exact h.works.exec hregisters hcb
  | true =>
      cases c with
      | addChannel => exact (Keeps.modify fun c => h.poller c _).bind fun _ => Keeps.pure f _
      | updateChannel => exact (Keeps.modify fun c => h.poller c _).bind fun _ => Keeps.pure f _
      | handleClose => contradiction
      | closeCb => cases hcb
      | _ => cases hregisters

end OffWork

/-! ## Callbacks and the end of the connection -/

/-- A callback of the user changes nothing but the notes. -/
theorem keeps_deliver {f : Connection → ρ} (h : ∀ c notes, f { c with notes := notes } = f c)
    (isSet : Bool) (note : Connection → Note) : Keeps f (deliver isSet note) :=
  Keeps.ite ((Keeps.modify fun c => h c _).bind fun _ => Keeps.pure f _) (Keeps.throw f _)

theorem keeps_finalDestory {f : Connection → ρ} (hpoller : ∀ c p, f { c with poller := p } = f c) :
    Keeps f (finalDestory B) := by
  refine (Keeps.get f).bind fun c => ?_
  exact (Keeps.cassert f B _).bind fun _ => Keeps.modify fun c => hpoller c _

theorem keeps_onRemoveConn {f : Connection → ρ} (hmap : ∀ c b, f { c with inConnMap := b } = f c)
    (hpoller : ∀ c p, f { c with poller := p } = f c) : Keeps f (onRemoveConn B) :=
  (Keeps.modify fun c => hmap c _).bind fun _ => keeps_finalDestory hpoller

/-- The close callback changes the notes, `m_conn_map` and the registration. -/
theorem keeps_closeCb {f : Connection → ρ} (hnotes : ∀ c notes, f { c with notes := notes } = f c)
    (hmap : ∀ c b, f { c with inConnMap := b } = f c)
    (hpoller : ∀ c p, f { c with poller := p } = f c) :
    Keeps f (exec B cbs env mem .closeCb) := by
  refine (Keeps.modify fun c => hnotes c _).bind fun _ => ?_
  exact (keeps_onRemoveConn hmap hpoller).bind fun _ => Keeps.pure f _

/-- Only `handle_close` writes `m_conn_status`. -/
theorem exec_keeps_status {c : Call} (hclose : c ≠ .handleClose) :
    Keeps (fun c => (c.connStatus, c.closed)) (exec B cbs env mem c) := by
  by_cases hcb : c.IsCallback = false
  · exact offWork_connStatus.keeps_exec hclose hcb
  · cases c with
    | connCb => exact keeps_deliver (fun _ _ => rfl) _ _
    | readCb err => exact keeps_deliver (fun _ _ => rfl) _ _
    | writeCb err bytes => exact keeps_deliver (fun _ _ => rfl) _ _
    | errCb err => exact keeps_deliver (fun _ _ => rfl) _ _
    | closeCb => exact keeps_closeCb (fun _ _ => rfl) (fun _ _ => rfl) fun _ _ => rfl
    | _ => exact absurd rfl hcb

/-- `handle_close` ends the connection, whatever state it is in. -/
theorem run_handleClose (c : Connection) :
    ∃ ch p, (handleClose).run c = .ok [.connCb, .closeCb]
      { c with connStatus := .kDisconnect, closed := true, channle := ch, poller := p } :=
  ⟨_, _, rfl⟩

theorem keeps_handleClose {f : Connection → ρ} (h : OffWork f)
    (hstatus : ∀ c st cl, f { c with connStatus := st, closed := cl } = f c) :
    Keeps f handleClose := by
  intro c
  rcases run_handleClose c with ⟨ch, p, hrun⟩
  rw [hrun]
  calc f { c with connStatus := .kDisconnect, closed := true, channle := ch, poller := p }
      = f { c with connStatus := .kDisconnect, closed := true } :=
        h.channle_poller { c with connStatus := .kDisconnect, closed := true } ch p
    _ = f c := hstatus c _ _

/-- Only the close callback erases the entry of `m_conn_map`. -/
theorem exec_keeps_inConnMap {c : Call} (hclose : c ≠ .closeCb) :
    Keeps (fun c => c.inConnMap) (exec B cbs env mem c) := by
  cases c with
  | handleClose => exact keeps_handleClose offWork_inConnMap fun _ _ _ => rfl
  | connCb => exact keeps_deliver (fun _ _ => rfl) _ _
  | readCb err => exact keeps_deliver (fun _ _ => rfl) _ _
  | writeCb err bytes => exact keeps_deliver (fun _ _ => rfl) _ _
  | errCb err => exact keeps_deliver (fun _ _ => rfl) _ _
  | closeCb => contradiction
  | _ => exact offWork_inConnMap.keeps_exec (by simp) rfl

/-- Only the callbacks are noted. -/
theorem exec_keeps_notes {c : Call} (hcb : c.IsCallback = false) :
    Keeps (fun c => c.notes) (exec B cbs env mem c) := by
  by_cases hclose : c = .handleClose
  · subst hclose
    exact keeps_handleClose offWork_notes fun _ _ _ => rfl
  · exact offWork_notes.keeps_exec hclose hcb

/-- The other calls leave the read cache alone. -/
theorem outputs_readCache : Outputs fun c d => d.readCache = c.readCache :=
  { refl := fun _ => rfl
    trans := fun _ _ _ hcd hde => hde.trans hcd
    writeCache := fun _ _ => rfl
    accepted := fun _ _ => rfl
    written := fun _ _ => rfl
    writeShutdown := fun _ _ => rfl
    progress := fun _ => rfl
    interest := by
      intro c
      rw [setWriteInterest]
      split <;> rfl }

/-- Only `handle_read` receives. -/
theorem exec_keeps_readCache {c : Call} (hread : c ≠ .handleRead) :
    Keeps (fun c => c.readCache) (exec B cbs env mem c) := by
  have hpoller : ∀ (c : Connection) p, ({ c with poller := p }).readCache = c.readCache :=
    fun _ _ => rfl
  cases c with
  | handleRead => contradiction
  | addChannel => exact (Keeps.modify fun c => hpoller c _).bind fun _ => Keeps.pure _ _
  | updateChannel => exact (Keeps.modify fun c => hpoller c _).bind fun _ => Keeps.pure _ _
  | handleClose =>
      intro c
      rcases run_handleClose c with ⟨ch, p, hrun⟩
      rw [exec, hrun]
      rfl
  | connCb => exact keeps_deliver (fun _ _ => rfl) _ _
  | readCb err => exact keeps_deliver (fun _ _ => rfl) _ _
  | writeCb err bytes => exact keeps_deliver (fun _ _ => rfl) _ _
  | errCb err => exact keeps_deliver (fun _ _ => rfl) _ _
  | closeCb => exact keeps_closeCb (fun _ _ => rfl) (fun _ _ => rfl) fun _ _ => rfl
  | _ => exact outputs_readCache.exec (by simp) rfl rfl

theorem stateOf_deliver (isSet : Bool) (note : Connection → Note) (c : Connection) :
    stateOf ((deliver isSet note).run c) =
      if isSet then { c with notes := c.notes ++ [note c] } else c := by
  cases isSet <;> rfl

/-- The close callback is noted before anything else is done. -/
theorem notes_closeCb (conn : Connection) :
    (stateOf ((exec B cbs env mem .closeCb).run conn)).notes = conn.notes ++ [.close] := by
  have hremove : Keeps (fun c : Connection => c.notes) (onRemoveConn B) :=
    keeps_onRemoveConn (fun _ _ => rfl) fun _ _ => rfl
  exact hremove.bind (fun _ => Keeps.pure _ ([] : List Call))
    { conn with notes := conn.notes ++ [.close] }

/-- A call notes its callback, or nothing. -/
theorem exec_notes (c : Call) (conn : Connection) :
    (stateOf ((exec B cbs env mem c).run conn)).notes = conn.notes ∨
      ∃ n, c.note conn = some n ∧
        (stateOf ((exec B cbs env mem c).run conn)).notes = conn.notes ++ [n] := by
  -- A callback that is not set throws before it is noted.
  have hdeliver : ∀ (isSet : Bool) (note : Connection → Note),
      (stateOf ((deliver isSet note).run conn)).notes = conn.notes ∨
        (stateOf ((deliver isSet note).run conn)).notes = conn.notes ++ [note conn] := by
    intro isSet note
    rw [stateOf_deliver]
    cases isSet
    · exact Or.inl rfl
    · exact Or.inr rfl
  cases hcb : c.IsCallback with
  | false => exact Or.inl (exec_keeps_notes hcb conn)
  | true =>
      cases c with
      | connCb => exact (hdeliver _ _).imp_right fun hnotes => ⟨_, rfl, hnotes⟩
      | readCb err => exact (hdeliver _ _).imp_right fun hnotes => ⟨_, rfl, hnotes⟩
      | writeCb err bytes => exact (hdeliver _ _).imp_right fun hnotes => ⟨_, rfl, hnotes⟩
      | errCb err => exact (hdeliver _ _).imp_right fun hnotes => ⟨_, rfl, hnotes⟩
      | closeCb =>
          -- The removal from the map notes nothing more.
          exact Or.inr ⟨_, rfl, notes_closeCb conn⟩
      | _ => cases hcb

/-! ## The calls made next -/

theorem returns_deliver (isSet : Bool) (note : Connection → Note) :
    Returns (fun calls => ∀ c ∈ calls, c = Call.user) (deliver isSet note) :=
  Returns.ite (Returns.bind fun _ => Returns.pure (by simp)) (Returns.throw _ _)

theorem returns_test {P : Call → Prop} {handler : Call} (h : P handler) (cond : Events → Bool) :
    Returns (fun calls => ∀ c ∈ calls, P c) (test cond handler) := by
  refine Returns.bind fun c => Returns.pure ?_
  split
  · simpa using h
  · simp

theorem returns_sendDirectly (data : List Byte) :
    Returns (fun out : Option Nat × List Call => ∀ c ∈ out.2, ∃ err bytes, c = .writeCb err bytes)
      (sendDirectly B env data) := by
  refine Returns.bind fun _ => Returns.bind fun readable => ?_
  refine Returns.ite (Returns.pure (by simp)) ?_
  refine Returns.bind fun ret => ?_
  refine Returns.ite ?_ (Returns.pure ?_)
  · exact Returns.ite (Returns.pure (by simp)) (Returns.pure (by simp))
  · split <;> simp

theorem returns_handleWrite :
    Returns (fun calls => ∀ c ∈ calls, ∃ err bytes, c = .writeCb err bytes)
      (handleWrite B env) := by
  refine Returns.bind fun readable => Returns.bind fun c => Returns.bind fun data => ?_
  refine Returns.bind fun ret => ?_
  refine Returns.ite ?_ ?_
  · refine Returns.ite ?_ (Returns.pure (by simp))
    exact Returns.bind fun _ => Returns.pure (by simp)
  · refine Returns.bind fun _ => Returns.bind fun left => ?_
    have hdiscard : Returns (fun calls => ∀ c ∈ calls, ∃ err bytes, c = Call.writeCb err bytes) (do
        if 0 < ret then
          let _ ← onWriteCache (ByteBuffer.discard B ret.toNat)
          return [Call.writeCb 0 ret.toNat]
        else
          return []) :=
      Returns.ite (Returns.bind fun _ => Returns.pure (by simp)) (Returns.pure (by simp))
    exact Returns.ite (Returns.bind fun _ => hdiscard) hdiscard

/-- The calls of `handle_read`: at the end of the input the connection callback and `handle_close`,
else the read callback. -/
theorem returns_handleRead_calls :
    Returns (fun calls => env.received = some [] ∧ calls = [.connCb, .handleClose] ∨
      env.received ≠ some [] ∧ ∃ err, calls = [.readCb err]) (handleRead B env) := by
  refine Returns.bind fun _ => ?_
  cases hreceived : env.received with
  | none => exact Returns.pure (Or.inr ⟨by simp, _, rfl⟩)
  | some bytes =>
      refine Returns.bind fun _ => Returns.ite_of (fun hempty => ?_) fun hne => ?_
      · have hnil : bytes = [] := List.length_eq_zero_iff.mp hempty
        exact Returns.pure (Or.inl ⟨by rw [hnil], rfl⟩)
      · refine Returns.bind fun _ => Returns.pure (Or.inr ⟨?_, 0, rfl⟩)
        intro hnil
        rw [Option.some.inj hnil] at hne
        exact hne rfl

/-- `handle_write` makes no callback where `::send` takes nothing or would block. -/
theorem returns_handleWrite_nil (h : env.sendRet = 0 ∨ env.sendRet < 0 ∧ env.errno = eagain) :
    Returns (fun calls => calls = []) (handleWrite B env) := by
  -- The answer of `::send` decides, whatever it is called on.
  have hsend : ∀ data, Returns (fun ret => ret = env.sendRet) (send env data) := by
    intro data
    exact Returns.bind fun _ => Returns.pure rfl
  refine Returns.bind fun readable => Returns.bind fun c => Returns.bind fun data => ?_
  refine Returns.bind_of (hsend data) ?_
  rintro ret rfl
  refine Returns.ite_of (fun hfailed => ?_) fun hsent => ?_
  · refine Returns.ite_of (fun _ => Returns.bind fun _ => Returns.pure rfl) fun hother => ?_
    rcases h with hzero | ⟨-, hagain⟩
    · rw [hzero] at hfailed
      exact absurd hfailed (by decide)
    · exact absurd hagain hother
  · rcases h with hzero | ⟨hneg, -⟩
    · have hdiscard : Returns (fun calls => calls = []) (do
          if 0 < env.sendRet then
            let _ ← onWriteCache (ByteBuffer.discard B env.sendRet.toNat)
            return [Call.writeCb 0 env.sendRet.toNat]
          else
            return []) := by
        refine Returns.ite_of (fun hpos => ?_) fun _ => Returns.pure rfl
        rw [hzero] at hpos
        exact absurd hpos (by decide)
      refine Returns.bind fun _ => Returns.bind fun left => ?_
      exact Returns.ite (Returns.bind fun _ => hdiscard) hdiscard
    · exact absurd hneg hsent

/-- `write_in_loop` does its work in `sendDirectly`. -/
theorem stateOf_exec_writeInLoop (data : Source) (conn : Connection) :
    stateOf ((exec B cbs env mem (.writeInLoop data)).run conn) =
      stateOf ((sendDirectly B env (data.read mem)).run conn) := by
  rw [exec, EStateM.run_bind]
  cases (sendDirectly B env (data.read mem)).run conn with
  | ok out conn' => rfl
  | error e conn' => rfl

/-- It makes the calls of `sendDirectly`, and the append of the bytes that are left over. -/
theorem exec_writeInLoop_calls {data : Source} {conn conn' : Connection} {calls : List Call}
    (hrun : (exec B cbs env mem (.writeInLoop data)).run conn = .ok calls conn') :
    ∃ out, (sendDirectly B env (data.read mem)).run conn = .ok out conn' ∧
      ∀ c ∈ calls, (∃ n, c = .cacheOutput data n) ∨ c ∈ out.2 := by
  rw [exec, EStateM.run_bind] at hrun
  cases hsend : (sendDirectly B env (data.read mem)).run conn with
  | error e u =>
      rw [hsend] at hrun
      cases hrun
  | ok out u =>
      rw [hsend] at hrun
      cases hrun
      refine ⟨out, rfl, ?_⟩
      intro c hc
      rcases List.mem_append.mp hc with hleft | hcb
      · left
        cases hout : out.1 with
        | none => simp [hout] at hleft
        | some n => exact ⟨n, by simpa [hout] using hleft⟩
      · exact Or.inr hcb

theorem exec_mayMake (c : Call) :
    Returns (fun calls => ∀ c' ∈ calls, c.MayMake c') (exec B cbs env mem c) := by
  cases c with
  | testHup =>
      rw [exec]
      exact returns_test (P := Call.MayMake .testHup) rfl _
  | testErr =>
      rw [exec]
      exact returns_test (P := Call.MayMake .testErr) rfl _
  | testIn =>
      rw [exec]
      exact returns_test (P := Call.MayMake .testIn) rfl _
  | testOut =>
      refine Returns.bind fun c => Returns.ite ?_ (Returns.pure (by simp))
      exact Returns.bind fun _ => Returns.pure (by simp [Call.MayMake])
  | handleRead =>
      -- `handle_read` makes its calls by the answer of `recv`.
      intro s calls t hrun
      rcases returns_handleRead_calls _ _ _ hrun with ⟨-, rfl⟩ | ⟨-, err, rfl⟩
      · simp [Call.MayMake]
      · simp [Call.MayMake]
  | handleWrite => exact returns_handleWrite
  | handleError =>
      refine Returns.pure ?_
      split <;> simp [Call.MayMake]
  | handleClose =>
      refine Returns.bind fun _ => Returns.bind fun _ => Returns.bind fun _ => ?_
      exact Returns.pure (by simp [Call.MayMake])
  | writeInLoop data =>
      intro s calls t hrun c hc
      obtain ⟨out, hsend, hcalls⟩ := exec_writeInLoop_calls hrun
      rcases hcalls c hc with hleft | hcb
      · exact Or.inl hleft
      · exact Or.inr (returns_sendDirectly _ _ _ _ hsend c hcb)
  | cacheOutput data n => exact Returns.bind fun _ => Returns.pure (by simp)
  | shutdownInLoop => exact Returns.bind fun _ => Returns.pure (by simp)
  | addChannel => exact Returns.bind fun _ => Returns.pure (by simp)
  | updateChannel => exact Returns.bind fun _ => Returns.pure (by simp)
  | connCb => exact returns_deliver _ _
  | readCb err => exact returns_deliver _ _
  | writeCb err bytes => exact returns_deliver _ _
  | errCb err => exact returns_deliver _ _
  | closeCb => exact Returns.bind fun _ => Returns.bind fun _ => Returns.pure (by simp)
  | user => exact Returns.pure (by simp)

end Connection

end Net
end Muradin
