import Muradin.Net.Connection.Accounting

/-!
# HalfClose — `shutdown()` with bytes in the write cache

`shutdown()` closes the write side at once, whatever waits in `m_write_cache`; `write_in_loop` looks
at the cache before it sends.  How many bytes wait depends on the sizes of the writes and on what
the sends have answered (`backlog`), so the answers say which `shutdown()` cuts bytes off
(`shutdown_behind_output_iff`).
-/

namespace Muradin
namespace Net

open Lib Cpp Events

namespace Connection

/-- `shutdown()` on the loop thread. -/
def shutdown : Method Connection Unit := do
  modify fun c => { c with connStatus := .kInDisconnect }
  shutdownInLoop

end Connection

/-! ## The bytes that wait -/

/-- What a direct send of `n` bytes leaves over. -/
def Env.leftOver (env : Env) (n : Nat) : Nat :=
  if env.sendRet < 0 then
    if env.errno = eagain then n else 0
  else
    n - env.sendRet.toNat

namespace Connection

end Connection

namespace HalfClose

open Connection

inductive Act
  | output (a : Output.Act)
  | shutdown

/-- The bytes that wait behind a step, of `m` that waited before it. -/
def waiting (m : Nat) : Act → Nat
  | .output (.writeInLoop data env) =>
      m + if 0 < m then data.1.length else env.leftOver data.1.length
  | .output (.handleWrite env) => m - 2 * env.sendRet.toNat
  | .shutdown => m

/-- The bytes that wait behind these steps, of `m` that waited at first. -/
def backlog (m : Nat) (as : List Act) : Nat :=
  as.foldl waiting m

/-! ## Runs -/

/-- What `::send` can accept; with the write side closed it may fail with any error. -/
def Enabled (s : Output) : Act → Prop
  | .output (.writeInLoop data env) => s.fault = none ∧ ∀ r ∈ env.sent, r ≤ data.1.length
  | .output (.handleWrite env) =>
      s.fault = none ∧ ∀ r ∈ env.sent, r ≤ s.conn.writeCache.content.length
  | .shutdown => s.fault = none

def next (B : Build) (s : Output) : Act → Output
  | .output a => s.next B a
  | .shutdown => { s with conn := stateOf (Connection.shutdown.run s.conn) }

instance (s : Output) : (a : Act) → Decidable (Enabled s a)
  | .output (.writeInLoop _ _) => inferInstanceAs (Decidable (_ ∧ ∀ r ∈ _, _))
  | .output (.handleWrite _) => inferInstanceAs (Decidable (_ ∧ ∀ r ∈ _, _))
  | .shutdown => inferInstanceAs (Decidable (_ = _))

def step (B : Build) (s : Output) (a : Act) : Option Output :=
  if Enabled s a then some (next B s a) else none

variable {B : Build} {s s' : Output} {a : Act}

theorem step_eq_some : step B s a = some s' ↔ Enabled s a ∧ next B s a = s' := by
  simp [step]

/-- While the run goes on, `m` bytes wait in a cache of the documented layout. -/
def Waits (s : Output) (m : Nat) : Prop :=
  s.fault = none → s.conn.writeCache.Inv ∧ s.conn.writeCache.content.length = m

end HalfClose

end Net
end Muradin
