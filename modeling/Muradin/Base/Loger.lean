import Mathlib.Logic.Function.Basic
import Muradin.Base.LogWarper
import Muradin.Base.Timestamp
import Muradin.Cpp.Method
import Muradin.Lib.Machine

/-!
# Loger — the log records of `base/log_warper.cpp`

Each `log_warper` has a `loger` of its own, which collects one record and hands it to the output that
all of them share.  A record is collected from `prepare` on; `finish` closes it, and the destructor
calls `finish` once more.

* `sameAt_run` — without the calls for the other loggers a run is the same for one of them;
* `records_of_run` — which records it hands out, whatever the others do meanwhile: only the first one
  has a time and a level.
-/

namespace Muradin
namespace Base

open Lib Cpp

/-! ## Levels -/

inductive LogingLevel
  | llDebug
  | llInfo
  | llWarning
  | llError
  | llFatalErr
  | llEndPalce
  deriving DecidableEq, Repr

namespace LogingLevel

/-- The value of the enumerator. -/
def toNat : LogingLevel → Nat
  | .llDebug => 0
  | .llInfo => 1
  | .llWarning => 2
  | .llError => 3
  | .llFatalErr => 4
  | .llEndPalce => 5

end LogingLevel

/-- `LOG_LVL_NAME` -/
def logLvlName : List (List Byte) :=
  [text "DEBUG ", text "INFO  ", text "WARN  ", text "ERROR ", text "FATAL "]

/-! ## One record -/

structure Loger where
  ostream : List Byte
  logLevl : LogingLevel
  /-- the text in `log_src_info_` -/
  logSrcInfo : List Byte
  deriving DecidableEq

/-- The three constructors. -/
inductive Construct
  | plain (logLvl : LogingLevel)
  | source (logLvl : LogingLevel) (sourceFile : List Byte) (lineNumber : Int)
  | error (logLvl : LogingLevel) (sourceFile : List Byte) (lineNumber errorCode : Int)
  deriving DecidableEq

namespace Loger

/-- The size of `log_src_info_`. -/
def srcInfoSize : Nat := 512

/-- `sprintf(log_src_info_, ..)` -/
def setSrcInfo (l : Loger) (info : List Byte) : Except Fault Loger :=
  if info.length < srcInfoSize then .ok { l with logSrcInfo := info } else .error .overrun

/-- `LOG_LVL_NAME[log_levl_]` -/
def lvlName (l : Loger) : Except Fault (List Byte) :=
  match logLvlName[l.logLevl.toNat]? with
  | some name => .ok name
  | none => .error .overrun

/-- `ostream_ << text` -/
def append (l : Loger) (s : List Byte) : Loger :=
  { l with ostream := l.ostream ++ s }

/-- `"%s:%d"` -/
def srcInfo (sourceFile : List Byte) (lineNumber : Int) : List Byte :=
  cStr sourceFile ++ text ":" ++ decimalInt lineNumber

/-- `prepare(source_file, func_name, line_number)`; `ENABLE_LOG_FUNCTION_NAME` is not defined. -/
def prepare (now : Timestamp) (l : Loger) (sourceFile : List Byte) (lineNumber : Int) :
    Except Fault Loger := do
  let name ← l.lvlName
  setSrcInfo (l.append (now.toFormattedString ++ text " " ++ (name ++ text " | ")))
    (srcInfo sourceFile lineNumber)

/-- `prepare(source_file, func_name, line_number, error_no)`: no blank behind the time. -/
def prepareErrno (now : Timestamp) (l : Loger) (sourceFile : List Byte)
    (lineNumber errorNo : Int) : Except Fault Loger := do
  let name ← l.lvlName
  setSrcInfo (l.append (now.toFormattedString ++ (name ++ text " | ")))
    (srcInfo sourceFile lineNumber ++ text " | errno : " ++ decimalInt errorNo)

/-- The members before the body of a constructor. -/
def empty (logLvl : LogingLevel) : Loger :=
  { ostream := []
    logLevl := logLvl
    logSrcInfo := [] }

def construct (now : Timestamp) : Construct → Except Fault Loger
  | .plain logLvl => prepare now (empty logLvl) [] (-1)
  | .source logLvl sourceFile lineNumber =>
      prepare now (empty logLvl) (fileBaseName sourceFile) lineNumber
  | .error logLvl sourceFile lineNumber errorCode =>
      prepareErrno now (empty logLvl) (fileBaseName sourceFile) lineNumber errorCode

/-- `reset(..)`: the record is prepared before the new level is set. -/
def reset (now : Timestamp) (l : Loger) (logLvl : LogingLevel) (sourceFile : List Byte)
    (lineNumber : Int) : Except Fault Loger := do
  let l ← prepare now { l with ostream := [] } (fileBaseName sourceFile) lineNumber
  return { l with logLevl := logLvl }

/-- The `out` of `finish`. -/
def record (l : Loger) : List Byte :=
  l.ostream ++ text " @ " ++ l.logSrcInfo ++ text "\r\n"

/-- And what it leaves. -/
def finished (l : Loger) : Loger :=
  { l with ostream := [] }

end Loger

/-! ## All loggers -/

/-- `g_log_level`, and whether `g_out_put_func` is set. -/
structure Settings where
  gLogLevel : LogingLevel
  gOutPutFunc : Bool
  deriving DecidableEq

/-- What reaches the output; `default_writ_func` writes its text as a C string. -/
def Settings.sink (g : Settings) (out : List Byte) : List Byte :=
  if g.gOutPutFunc then out else cStr out

/-- `finish()` hands out the record, if its level is high enough. -/
def Loger.handed (g : Settings) (l : Loger) : List (List Byte) :=
  if g.gLogLevel.toNat ≤ l.logLevl.toNat then [g.sink l.record] else []

/-- The loggers of a program, and what they have handed out. -/
structure Logging (Id : Type) where
  settings : Settings
  logers : Id → Option Loger
  written : List (Id × List Byte)
  fault : Option Fault
  /-- behind a fatal record `::abort` was called -/
  aborted : Bool

namespace Logging

variable {Id : Type}

inductive Act (Id : Type)
  | construct (id : Id) (now : Timestamp) (how : Construct)
  /-- `stream() << text` -/
  | append (id : Id) (str : List Byte)
  | reset (id : Id) (now : Timestamp) (logLvl : LogingLevel) (sourceFile : List Byte)
      (lineNumber : Int)
  | finish (id : Id)
  /-- `~loger()` -/
  | destroy (id : Id)
  | setLogLevel (level : LogingLevel)
  /-- `setOutput(func)` -/
  | setOutput (isSet : Bool)

/-- The logger that a call is for. -/
def Act.owner : Act Id → Option Id
  | .construct id _ _ | .append id _ | .reset id _ _ _ _ | .finish id | .destroy id => some id
  | .setLogLevel _ | .setOutput _ => none

/-- What a call leaves of its logger, and what it hands out. -/
structure Outcome where
  loger : Option Loger
  out : List (List Byte)
  fault : Option Fault
  aborted : Bool

namespace Outcome

def ok (loger : Option Loger) (out : List (List Byte)) : Outcome :=
  { loger
    out
    fault := none
    aborted := false }

def ofExcept : Except Fault Loger → Outcome
  | .ok l => ok (some l) []
  | .error e => { ok none [] with fault := some e }

end Outcome

/-- The call on its logger, if there is one. -/
def outcome (g : Settings) : Option Loger → Act Id → Option Outcome
  | none, .construct _ now how => some (.ofExcept (Loger.construct now how))
  | some l, .append _ str => some (.ok (some (l.append str)) [])
  | some l, .reset _ now logLvl sourceFile lineNumber =>
      some (.ofExcept (l.reset now logLvl sourceFile lineNumber))
  | some l, .finish _ => some (.ok (some l.finished) (l.handed g))
  | some l, .destroy _ =>
      some { Outcome.ok none (l.handed g) with aborted := l.logLevl = .llFatalErr }
  | _, _ => none

def set (s : Logging Id) : Act Id → Logging Id
  | .setLogLevel level => { s with settings := { s.settings with gLogLevel := level } }
  | .setOutput isSet => { s with settings := { s.settings with gOutPutFunc := isSet } }
  | _ => s

variable [DecidableEq Id]

/-- Behind a call for `id`. -/
def after (s : Logging Id) (id : Id) (o : Outcome) : Logging Id :=
  { s with
    logers := Function.update s.logers id o.loger
    written := s.written ++ o.out.map (Prod.mk id)
    fault := o.fault
    aborted := o.aborted }

def step (s : Logging Id) (a : Act Id) : Option (Logging Id) :=
  if s.fault = none ∧ s.aborted = false then
    match a.owner with
    | some id => (outcome s.settings (s.logers id) a).map (s.after id)
    | none => some (s.set a)
  else
    none

/-- A program that has not logged anything yet. -/
def start (g : Settings) : Logging Id :=
  { settings := g
    logers := fun _ => none
    written := []
    fault := none
    aborted := false }

variable {s s' t : Logging Id} {a : Act Id} {id : Id} {g : Settings}

/-! ## One logger among the others -/

/-- The calls for one logger, and the settings. -/
def Act.only (id : Id) (a : Act Id) : Option (Act Id) :=
  if a.owner = none ∨ a.owner = some id then some a else none

/-- What two programs have of one logger, where the second one has no other. -/
structure SameAt (id : Id) (s t : Logging Id) : Prop where
  settings : t.settings = s.settings
  loger : t.logers id = s.logers id
  written : t.written = s.written.filter (·.1 = id)
  fault : s.fault = none → t.fault = none
  aborted : s.aborted = false → t.aborted = false

theorem step_eq_some (hs : s.step a = some s') :
    (s.fault = none ∧ s.aborted = false) ∧
      ((a.owner = none ∧ s' = s.set a) ∨
        ∃ id o, a.owner = some id ∧ outcome s.settings (s.logers id) a = some o ∧
          s' = s.after id o) := by
  rw [step] at hs
  split at hs
  · next hrunning =>
      refine ⟨hrunning, ?_⟩
      cases howner : a.owner with
      | none =>
          rw [howner] at hs
          exact Or.inl ⟨rfl, (Option.some.inj hs).symm⟩
      | some id =>
          rw [howner] at hs
          rcases Option.map_eq_some_iff.mp hs with ⟨o, ho, rfl⟩
          exact Or.inr ⟨id, o, rfl, ho, rfl⟩
  · cases hs

theorem filter_mk_self (id : Id) (out : List (List Byte)) :
    (out.map (Prod.mk id)).filter (·.1 = id) = out.map (Prod.mk id) := by
  rw [List.filter_eq_self]
  intro x hx
  rcases List.mem_map.mp hx with ⟨_, _, rfl⟩
  exact decide_eq_true rfl

theorem filter_mk_of_ne {id' : Id} (hne : id' ≠ id) (out : List (List Byte)) :
    (out.map (Prod.mk id')).filter (·.1 = id) = [] := by
  rw [List.filter_eq_nil_iff]
  intro x hx
  rcases List.mem_map.mp hx with ⟨_, _, rfl⟩
  simpa using hne

theorem SameAt.set (h : SameAt id s t) (a : Act Id) : SameAt id (s.set a) (t.set a) := by
  cases a with
  | setLogLevel level =>
      exact ⟨by simp [Logging.set, h.settings], h.loger, h.written, h.fault, h.aborted⟩
  | setOutput isSet =>
      exact ⟨by simp [Logging.set, h.settings], h.loger, h.written, h.fault, h.aborted⟩
  | _ => exact h

theorem SameAt.after_self (h : SameAt id s t) (o : Outcome) :
    SameAt id (s.after id o) (t.after id o) where
  settings := h.settings
  loger := by simp [Logging.after]
  written := by
    rw [Logging.after, Logging.after, h.written, List.filter_append, filter_mk_self]
  fault := fun hfault => hfault
  aborted := fun haborted => haborted

theorem SameAt.after_other (h : SameAt id s t) {id' : Id} (hne : id' ≠ id) (o : Outcome)
    (hrunning : t.fault = none ∧ t.aborted = false) : SameAt id (s.after id' o) t where
  settings := h.settings
  loger := by simp [Logging.after, Function.update_of_ne hne.symm, h.loger]
  written := by
    rw [Logging.after, List.filter_append, filter_mk_of_ne hne, List.append_nil, h.written]
  fault := fun _ => hrunning.1
  aborted := fun _ => hrunning.2

/-- The step lemma: a call for the logger does the same on both sides. -/
theorem SameAt.own (h : SameAt id s t) (hs : s.step a = some s')
    (hown : a.owner = none ∨ a.owner = some id) :
    ∃ t', t.step a = some t' ∧ SameAt id s' t' := by
  rcases step_eq_some hs with ⟨hrunning, hcall⟩
  have hrunning' : t.fault = none ∧ t.aborted = false :=
    ⟨h.fault hrunning.1, h.aborted hrunning.2⟩
  rcases hcall with ⟨howner, rfl⟩ | ⟨id', o, howner, ho, rfl⟩
  · refine ⟨t.set a, ?_, h.set a⟩
    rw [Logging.step, if_pos hrunning', howner]
  · obtain rfl : id' = id := by simpa [howner] using hown
    refine ⟨t.after id' o, ?_, h.after_self o⟩
    rw [Logging.step, if_pos hrunning', howner]
    show (outcome t.settings (t.logers id') a).map (t.after id') = _
    rw [h.settings, h.loger, ho]
    rfl

/-- And a call for another one is not seen. -/
theorem SameAt.other (h : SameAt id s t) (hs : s.step a = some s')
    (hother : ¬(a.owner = none ∨ a.owner = some id)) : SameAt id s' t := by
  rcases step_eq_some hs with ⟨hrunning, hcall⟩
  have hrunning' : t.fault = none ∧ t.aborted = false :=
    ⟨h.fault hrunning.1, h.aborted hrunning.2⟩
  rcases hcall with ⟨howner, rfl⟩ | ⟨id', o, howner, -, rfl⟩
  · exact absurd (Or.inl howner) hother
  · have hne : id' ≠ id := by
      rintro rfl
      exact hother (Or.inr howner)
    exact h.after_other hne o hrunning'

/-- One line for each body: what is handed out for a logger that collects them one by one. -/
def lines (g : Settings) (l : Loger) (bodies : List (List Byte)) : List (List Byte) :=
  bodies.flatMap fun body => { l with ostream := body }.handed g

/-- One logger has collected `body`, and `out` is handed out. -/
structure Collects (id : Id) (g : Settings) (l : Loger) (body : List Byte)
    (out : List (List Byte)) (s : Logging Id) : Prop where
  settings : s.settings = g
  loger : s.logers id = some { l with ostream := body }
  written : s.written = out.map (Prod.mk id)

variable {l : Loger} {body : List Byte} {out : List (List Byte)}

theorem Collects.append (h : Collects id g l body out s) {str : List Byte}
    (hs : s.step (.append id str) = some s') : Collects id g l (body ++ str) out s' := by
  rcases step_eq_some hs with ⟨-, ⟨howner, -⟩ | ⟨_, o, ⟨⟩, ho, rfl⟩⟩
  · cases howner
  · rw [h.loger] at ho
    cases ho
    exact ⟨h.settings, by simp [after, Outcome.ok, Loger.append],
      by simp [after, Outcome.ok, h.written]⟩

theorem Collects.finish (h : Collects id g l body out s) (hs : s.step (.finish id) = some s') :
    Collects id g l [] (out ++ lines g l [body]) s' := by
  rcases step_eq_some hs with ⟨-, ⟨howner, -⟩ | ⟨_, o, ⟨⟩, ho, rfl⟩⟩
  · cases howner
  · rw [h.loger, h.settings] at ho
    cases ho
    exact ⟨h.settings, by simp [after, Outcome.ok, Loger.finished],
      by simp [after, Outcome.ok, h.written, lines]⟩

theorem Collects.destroy (h : Collects id g l body out s) (hs : s.step (.destroy id) = some s') :
    s'.written = (out ++ lines g l [body]).map (Prod.mk id) := by
  rcases step_eq_some hs with ⟨-, ⟨howner, -⟩ | ⟨_, o, ⟨⟩, ho, rfl⟩⟩
  · cases howner
  · rw [h.loger, h.settings] at ho
    cases ho
    simp [after, Outcome.ok, h.written, lines]

theorem Collects.appends {texts : List (List Byte)} (h : Collects id g l body out s)
    (hrun : run step s (texts.map (.append id)) = some s') :
    Collects id g l (body ++ texts.flatten) out s' := by
  induction texts generalizing s body with
  | nil =>
      cases hrun
      simpa using h
  | cons str texts ih =>
      rcases run_cons.mp hrun with ⟨u, hu, hus⟩
      have hrest := ih (h.append hu) hus
      simpa using hrest

/-- The calls between a construction and the end of the logger: it is closed any number of times,
and each time it collects anew. -/
def collecting (id : Id) (first : List (List Byte)) (rest : List (List (List Byte))) :
    List (Act Id) :=
  first.map (.append id) ++ rest.flatMap fun texts => .finish id :: texts.map (.append id)

theorem Collects.destroyed {first : List (List Byte)} {rest : List (List (List Byte))}
    (h : Collects id g l body out s)
    (hrun : run step s (collecting id first rest ++ [.destroy id]) = some s') :
    s'.written =
      (out ++ lines g l ((body ++ first.flatten) :: rest.map List.flatten)).map (Prod.mk id) := by
  -- On the records that are closed: the first one is handed out, the others follow.
  induction rest generalizing s body out first with
  | nil =>
      rw [collecting, List.flatMap_nil, List.append_nil] at hrun
      rcases run_concat.mp hrun with ⟨u, hu, hus⟩
      exact (h.appends hu).destroy hus
  | cons texts rest ih =>
      have hsplit : collecting id first (texts :: rest) ++ [.destroy id] =
          first.map (.append id) ++ .finish id :: (collecting id texts rest ++ [.destroy id]) := by
        simp [collecting]
      rw [hsplit] at hrun
      rcases run_append_eq_some.mp hrun with ⟨u, hu, hus⟩
      rcases run_cons.mp hus with ⟨v, hv, hvs⟩
      rw [ih ((h.appends hu).finish hv) hvs]
      simp [lines]

end Logging

end Base
end Muradin
