import Muradin.Example.PingPong.Client
import Muradin.Example.PingPong.Server

/-!
# System — the two programs of `example/asio/pingpong` together

A session of the client, the session of the server that it is connected to, and the bytes that are on
their way between them.

* `cycled_of_run` — the client reads its own block, over and over;
* `conserved_of_run` — unless a write fails, the bytes of that block are all there is.
-/

namespace Muradin
namespace Example
namespace PingPong

open Lib

structure System (Endpoint : Type) where
  client : ClientSession Endpoint
  server : ServerSession
  /-- what the client has sent and the server has not read -/
  toServer : List Byte
  toClient : List Byte

namespace System

variable {Endpoint : Type}

inductive Act
  | client (a : ClientSession.Act)
  | server (a : ServerSession.Act)
  deriving DecidableEq, Repr

def construct {size serverSize : Nat} (memory : Vector Byte size)
    (serverMemory : Block → Vector Byte serverSize) (endpoint : Endpoint)
    (rest : List Endpoint) : System Endpoint :=
  { client := (ClientSession.construct memory).start endpoint rest
    server := ServerSession.construct serverMemory
    toServer := []
    toClient := [] }

/-- A read stores what comes first, and a write appends. -/
def step (s : System Endpoint) : Act → Option (System Endpoint)
  | .client a =>
      if a.stores <+: s.toClient then
        (s.client.step a).map fun client =>
          { s with
            client
            toClient := s.toClient.drop a.stores.length
            toServer := s.toServer ++ client.sent.drop s.client.sent.length }
      else
        none
  | .server a =>
      if a.stores <+: s.toServer then
        (s.server.step a).map fun server =>
          { s with
            server
            toServer := s.toServer.drop a.stores.length
            toClient := s.toClient ++ server.sent.drop s.server.sent.length }
      else
        none

def Act.isWriteFails : Act → Bool
  | .client a => a.isWriteFails
  | .server a => a.isWriteFails

variable {s s' : System Endpoint}

theorem append_drop_of_prefix {xs ys : List Byte} (h : xs <+: ys) : xs ++ ys.drop xs.length = ys := by
  rcases h with ⟨zs, rfl⟩
  rw [List.drop_left]

/-! ## The streams -/

/-- `ok` says that no write of the client has failed, `ok'` that none of the server has. -/
structure Linked (size : Nat) (ok ok' : Bool) (s : System Endpoint) : Prop where
  client : s.client.Inv ok
  server : s.server.Inv ok'
  blockSize : s.client.blockSize = size
  forth : s.client.sent = s.server.received ++ s.toServer
  back : s.server.sent = s.client.received ++ s.toClient
  empty : size = 0 → s.client.received = []

variable {size serverSize : Nat} {ok ok' : Bool}

theorem linked_construct (memory : Vector Byte size) (serverMemory : Block → Vector Byte serverSize)
    (endpoint : Endpoint) (rest : List Endpoint) :
    Linked size true true (construct memory serverMemory endpoint rest) where
  client := ClientSession.inv_start memory endpoint rest
  server := ServerSession.inv_construct serverMemory
  blockSize := rfl
  forth := rfl
  back := rfl
  empty := fun _ => rfl

theorem step_client {a : ClientSession.Act} (hs : s.step (.client a) = some s') :
    a.stores <+: s.toClient ∧ ∃ client, s.client.step a = some client ∧
      s' = { s with
        client
        toClient := s.toClient.drop a.stores.length
        toServer := s.toServer ++ client.sent.drop s.client.sent.length } := by
  rw [step] at hs
  split at hs
  · next hstores =>
      rcases Option.map_eq_some_iff.mp hs with ⟨client, hclient, rfl⟩
      exact ⟨hstores, client, hclient, rfl⟩
  · cases hs

theorem step_server {a : ServerSession.Act} (hs : s.step (.server a) = some s') :
    a.stores <+: s.toServer ∧ ∃ server, s.server.step a = some server ∧
      s' = { s with
        server
        toServer := s.toServer.drop a.stores.length
        toClient := s.toClient ++ server.sent.drop s.server.sent.length } := by
  rw [step] at hs
  split at hs
  · next hstores =>
      rcases Option.map_eq_some_iff.mp hs with ⟨server, hserver, rfl⟩
      exact ⟨hstores, server, hserver, rfl⟩
  · cases hs

theorem Linked.client_step (h : Linked size ok ok' s) {a : ClientSession.Act}
    (hs : s.step (.client a) = some s') : Linked size (ok && !a.isWriteFails) ok' s' := by
  rcases step_client hs with ⟨hstores, client, hclient, rfl⟩
  obtain ⟨hreceived, hsent, hsize, hle⟩ := ClientSession.stream_step hclient
  exact
    { client := h.client.step hclient
      server := h.server
      blockSize := hsize.trans h.blockSize
      forth := by
        show client.sent = s.server.received ++ (s.toServer ++ client.sent.drop s.client.sent.length)
        rw [← List.append_assoc, ← h.forth, append_drop_of_prefix hsent]
      back := by
        show s.server.sent = client.received ++ s.toClient.drop a.stores.length
        rw [hreceived, List.append_assoc, append_drop_of_prefix hstores, h.back]
      empty := by
        intro hzero
        have hnone : a.stores = [] := by
          refine List.length_eq_zero_iff.mp ?_
          have := h.blockSize
          omega
        show client.received = []
        rw [hreceived, hnone, h.empty hzero]
        rfl }

theorem Linked.server_step (h : Linked size ok ok' s) {a : ServerSession.Act}
    (hs : s.step (.server a) = some s') : Linked size ok (ok' && !a.isWriteFails) s' := by
  rcases step_server hs with ⟨hstores, server, hserver, rfl⟩
  obtain ⟨hreceived, hsent, hsize⟩ := ServerSession.stream_step h.server hserver
  exact
    { client := h.client
      server := h.server.step hserver
      blockSize := h.blockSize
      forth := by
        show s.client.sent = server.received ++ s.toServer.drop a.stores.length
        rw [hreceived, List.append_assoc, append_drop_of_prefix hstores, h.forth]
      back := by
        show server.sent = s.client.received ++ (s.toClient ++ server.sent.drop s.server.sent.length)
        rw [← List.append_assoc, ← h.back, append_drop_of_prefix hsent]
      empty := h.empty }

/-- What the client reads is a prefix of its own block, followed by what it has read. -/
theorem Linked.received_prefix (h : Linked size ok ok' s) :
    s.client.received <+: pattern size ++ s.client.received := by
  -- Once round: what comes back was sent by the server, received by it, and sent by the client.
  have hback : s.client.received <+: s.server.sent := ⟨_, h.back.symm⟩
  have hserver : s.server.sent <+: s.server.received := h.server.blocks.sent_prefix
  have hforth : s.server.received <+: s.client.sent := ⟨_, h.forth.symm⟩
  have hall : s.client.received <+: s.client.sent := hback.trans (hserver.trans hforth)
  cases hconnected : s.client.connected with
  | true =>
      have hclient := h.client.blocks.sent_prefix
      rw [ClientSession.base, hconnected, cond_true, h.blockSize] at hclient
      exact hall.trans hclient
  | false =>
      obtain ⟨-, -, hsent, -, -, -⟩ := h.client.fresh hconnected
      rw [hsent] at hall
      rw [List.prefix_nil.mp hall]
      exact List.nil_prefix

/-- The bytes of the first block are all there is. -/
theorem Linked.conserved (h : Linked size true true s) :
    s.client.waiting.length + s.toServer.length + s.server.waiting.length + s.toClient.length =
      if s.client.connected = true then size else 0 := by
  -- The four equations say what each part has taken in and given out: they are added up.
  have hclient := congrArg List.length (h.client.blocks.balance rfl)
  have hserver := congrArg List.length (h.server.blocks.balance rfl)
  have hforth := congrArg List.length h.forth
  have hback := congrArg List.length h.back
  have hbase : s.client.base.length = if s.client.connected = true then size else 0 := by
    rw [ClientSession.base]
    cases s.client.connected with
    | true => simp [ClientSession.length_pattern, h.blockSize]
    | false => rfl
  simp only [List.length_append, List.length_nil] at hclient hserver hforth hback
  omega

/-! ## Runs -/

variable {memory : Vector Byte size} {serverMemory : Block → Vector Byte serverSize}
  {endpoint : Endpoint} {rest : List Endpoint} {as : List Act}

theorem linked_run
    (hrun : run step (construct memory serverMemory endpoint rest) as = some s) :
    ∃ ok ok', Linked size ok ok' s := by
  refine invariant_run (I := fun s => ∃ ok ok', Linked size ok ok' s) ?_
    ⟨true, true, linked_construct memory serverMemory endpoint rest⟩ hrun
  rintro s a s' ⟨ok, ok', h⟩ hs
  cases a with
  | client a => exact ⟨_, _, h.client_step hs⟩
  | server a => exact ⟨_, _, h.server_step hs⟩

/-- A run in which no write fails. -/
theorem linked_run_of_written (hok : ∀ a ∈ as, a.isWriteFails = false)
    (hrun : run step (construct memory serverMemory endpoint rest) as = some s) :
    Linked size true true s := by
  refine invariant_along ?_ (linked_construct memory serverMemory endpoint rest)
    (along_of_forall_mem hok _) hrun
  intro s a s' h hok hs
  cases a with
  | client a =>
      have h' := h.client_step hs
      rwa [show a.isWriteFails = false from hok] at h'
  | server a =>
      have h' := h.server_step hs
      rwa [show a.isWriteFails = false from hok] at h'

/-- Whatever the two sockets do, and even if they fail: the client reads the block that it has sent,
over and over, and from its first byte on. -/
theorem cycled_of_run
    (hrun : run step (construct memory serverMemory endpoint rest) as = some s) :
    ∀ i < s.client.received.length,
      s.client.received[i]? = some (BitVec.ofNat 8 (i % size % 128)) := by
  rcases linked_run hrun with ⟨ok, ok', h⟩
  intro i hi
  have hsize : 0 < size := by
    refine Nat.pos_of_ne_zero fun hzero => ?_
    rw [h.empty hzero] at hi
    cases hi
  have hlength : (pattern size).length = size := ClientSession.length_pattern size
  rw [getElem?_of_prefix_append h.received_prefix (hlength.symm ▸ hsize) hi, hlength, pattern,
    List.getElem?_map, List.getElem?_range (Nat.mod_lt _ hsize)]
  rfl

/-- The client sends its block of two bytes, and the first one comes back from a server with blocks of
one byte. -/
def firstByte : List Act :=
  [.server (.start true), .client (.handleConnect false true), .client (.transfer (.writeSome 0 2)),
    .client (.handleWrite 0), .server (.transfer (.readSome 0 [0])), .server (.handleRead 0),
    .server (.transfer (.writeSome 0 1)), .server (.handleWrite 0),
    .client (.transfer (.readSome 0 [0])), .client (.handleRead 0)]

theorem cycled_of_run_firstByte :
    ∃ s, run step (construct (Vector.replicate 2 0) (fun _ => Vector.replicate 1 0) 1 [])
        firstByte = some s ∧ s.client.received.length = 1 ∧
      ∀ i < s.client.received.length,
        s.client.received[i]? = some (BitVec.ofNat 8 (i % 2 % 128)) := by
  have hany : (run step (construct (Vector.replicate 2 0) (fun _ => Vector.replicate 1 0) 1 [])
      firstByte).any (fun s => decide (s.client.received.length = 1)) = true := by
    decide
  rcases exists_run_of_any hany with ⟨s, hrun, hlength⟩
  exact ⟨s, hrun, hlength, cycled_of_run hrun⟩

/-- Unless a write fails: the bytes that wait in the two sessions and between them are as many as the
client has sent on its own account, one block. -/
theorem conserved_of_run (hok : ∀ a ∈ as, a.isWriteFails = false)
    (hrun : run step (construct memory serverMemory endpoint rest) as = some s) :
    s.client.waiting.length + s.toServer.length + s.server.waiting.length + s.toClient.length =
      if s.client.connected = true then size else 0 :=
  (linked_run_of_written hok hrun).conserved

theorem conserved_of_run_firstByte :
    ∃ s, run step (construct (Vector.replicate 2 0) (fun _ => Vector.replicate 1 0) 1 [])
        firstByte = some s ∧
      s.client.waiting.length + s.toServer.length + s.server.waiting.length +
        s.toClient.length = 2 := by
  have hany : (run step (construct (Vector.replicate 2 0) (fun _ => Vector.replicate 1 0) 1 [])
      firstByte).any (fun s => decide (s.client.connected = true)) = true := by
    decide
  rcases exists_run_of_any hany with ⟨s, hrun, hconnected⟩
  have hall := conserved_of_run (by decide) hrun
  rw [if_pos hconnected] at hall
  exact ⟨s, hrun, hall⟩

end System
end PingPong
end Example
end Muradin
