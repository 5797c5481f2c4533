/-
The sync `Pipeline` (`facade/pipeline.rs`): its state and its methods, each a program with the critical sections and
the server calls of the source, in order. A method ends in a `PyResult`: `Ok`, a Python exception, or a panic where the
source unwraps.

The last act of a command method and of `execute` is the pure conversion `RawResult::into_py`; results are kept here
as the `RawResult` it is applied to, which is also what the async class sends.

Command methods (`set`, `get`, ..) are `bufOrDispatch` at a command name and argument list; `__exit__` is `reset`.
-/
import RedisRsPy.Connection.Reserved
import Mathlib.Tactic.Simps.Basic

namespace RedisRsPy

open Lib Prog

/-- `PipelineState` -/
structure PipelineState where
  commands : List BufferedCmd
  watchedKeys : List String
  transaction : Bool
  explicitTransaction : Bool
  watching : Bool
  reserved : Option ReservedConnection
  closed : Bool
deriving DecidableEq, Repr

/-- `PipelineState::new` -/
def PipelineState.new (transaction : Bool) : PipelineState := ⟨[], [], transaction, false, false, none, false⟩

namespace PipelineState

/-- commands are sent at once: after WATCH and before MULTI -/
def immediate (s : PipelineState) : Bool := s.watching && !s.explicitTransaction

/-- `state.reserved = r` -/
@[simps] def putReserved (r : Option ReservedConnection) (s : PipelineState) : PipelineState := { s with reserved := r }

/-- `state.reserved.take()` -/
def takeReserved (s : PipelineState) : Option ReservedConnection × PipelineState := (s.reserved, s.putReserved none)

/-- what `release_reserved` and the end of a watched execute leave: no buffer, no watch, no reservation -/
@[simps] def released (s : PipelineState) : PipelineState :=
  { s with watching := false, explicitTransaction := false, watchedKeys := [], commands := [], reserved := none }

/-- what the end of a plain execute leaves -/
@[simps] def flushed (s : PipelineState) : PipelineState := { s with commands := [], explicitTransaction := false }

/-- what `watch` adds when the server took the WATCH -/
@[simps] def marked (keys : List String) (s : PipelineState) : PipelineState :=
  { s with watching := true, watchedKeys := s.watchedKeys ++ keys }

/-- what `unwatch` leaves -/
@[simps] def unwatched (s : PipelineState) : PipelineState := { s with watchedKeys := [], watching := false }

/-- what `discard` leaves -/
@[simps] def discarded (s : PipelineState) : PipelineState :=
  { s with commands := [], explicitTransaction := false, watchedKeys := [], watching := false }

/-- `state.closed = true` -/
@[simps] def close (s : PipelineState) : PipelineState := { s with closed := true }

/-- `state.commands.push(cmd)` -/
@[simps] def push (cmd : BufferedCmd) (s : PipelineState) : PipelineState := { s with commands := s.commands ++ [cmd] }

/-- `execute` has something to do: the negation of `commands.is_empty() && !watching && !explicit_transaction` -/
def pending (s : PipelineState) : Prop := s.commands ≠ [] ∨ s.watching = true ∨ s.explicitTransaction = true

instance (s : PipelineState) : Decidable s.pending := by unfold pending; infer_instance

@[simp] theorem putReserved_putReserved (s : PipelineState) (a b : Option ReservedConnection) :
    (s.putReserved a).putReserved b = s.putReserved b := rfl

@[simp] theorem putReserved_released (s : PipelineState) (a : Option ReservedConnection) :
    (s.putReserved a).released = s.released := rfl

theorem putReserved_self {s : PipelineState} {a : Option ReservedConnection} (h : s.reserved = a) :
    s.putReserved a = s := by
  subst h; rfl

end PipelineState

/-- a method of `Pipeline` -/
abbrev PipeM := Prog PipelineState Query Answer

/-- what a command method returns: the pipeline itself (`Ok(slf.into_any())`), or the reply of an immediate command -/
inductive CmdRet where
  | slf
  | raw (r : RawResult)

def closedMsg : String := "pipeline is closed"

def watchAfterMultiMsg : String := "Cannot issue a WATCH after a MULTI"

def nestedMultiMsg : String := "Cannot issue nested calls to MULTI"

def withoutWatchMsg : String := "Commands without an initial WATCH have already been issued"

def watchErrorMsg : String := "Watched variable changed."

/-- the panic text of `Option::unwrap` -/
def unwrapMsg : String := "called `Option::unwrap()` on a `None` value"

/-- the `internal error` a method makes up when the reservation it needs is not there -/
def noReservation (detail : String) : RedisError := .fromParts .client "internal error" detail

namespace Pipeline

/-- `r.map_err(to_py_err)` -/
def mapErr {α : Type} : RedisResult α → PyResult α
  | .error e => .error (toPyErr e)
  | .ok a => .ok a

def releaseReserved : PipeM (PyResult Unit) := do
  match ← locked fun s => (s.reserved, s.released) with
  | some r =>
    -- the error of a failed UNWATCH is dropped with the connection
    let _ ← r.unwatchIfNeeded
    pure (.ok ())
  | none => pure (.ok ())

def ensureReserved : PipeM (PyResult Unit) := do
  if ← reading fun s => s.reserved.isSome then pure (.ok ())
  else
    match ← reserveConnection with
    | .ok c =>
      writing (·.putReserved (some (.new c)))
      pure (.ok ())
    | .error e => pure (raise .ConnectionError e)

def dispatchImmediateInner (name : String) (args : List Bytes) : PipeM (PyResult CmdRet) := do
  match ← locked PipelineState.takeReserved with
  | none => pure (.error (toPyErr (noReservation "immediate-mode dispatch with no reserved connection")))
  | some taken =>
    let res ← taken.dispatchImmediate name args
    writing (·.putReserved (some taken))
    match res with
    | .error e => pure (.error (toPyErr e))
    | .ok value => pure (.ok (.raw (.value value)))

def bufOrDispatch (name : String) (args : List Bytes) : PipeM (PyResult CmdRet) := do
  if ← reading (·.closed) then pure (raise .RedisError closedMsg)
  else if ← reading (·.immediate) then dispatchImmediateInner name args
  else
    writing (·.push (name, args))
    pure (.ok .slf)

/-- the result of `execute_watched`, from the outcome of the block -/
def watchedResult : RedisResult WatchedExecResult → PyResult RawResult
  | .ok (.ok items) => .ok (.value (.array items))
  | .ok .watchAborted => raise .WatchError watchErrorMsg
  | .error e => .error (toPyErr e)

def executeWatched (commands : List BufferedCmd) : PipeM (PyResult RawResult) := do
  let watchedKeys ← reading (·.watchedKeys)
  let result ← do
    match ← locked PipelineState.takeReserved with
    | none => pure (.error (noReservation "execute_watched without a reserved connection"))
    | some taken =>
      let (res, _) ← taken.pipelineExecWatched watchedKeys commands
      pure res
  writing (·.released)
  pure (watchedResult result)

def reset : PipeM (PyResult Unit) := releaseReserved

def close : PipeM (PyResult Unit) := do
  match ← releaseReserved with
  | .error e => pure (.error e)
  | .ok () =>
    writing (·.close)
    pure (.ok ())

def execute : PipeM (PyResult RawResult) := do
  let s ← reading id
  if s.closed then pure (raise .RedisError closedMsg)
  else if ¬ s.pending then pure (.ok (.value (.array [])))
  else
    -- the WATCH/EXEC path only when a reservation was made: multi() without watch() runs on the shared connection
    let hasReserved ← reading (·.reserved.isSome)
    if s.watching ∨ (s.explicitTransaction ∧ hasReserved) then executeWatched s.commands
    else
      let result ← pipelineExec s.commands (s.transaction || s.explicitTransaction)
      writing (·.flushed)
      match result with
      | .error e => pure (.error (toPyErr e))
      | .ok values => pure (.ok (.value (.array values)))

def watch (keys : List String) : PipeM (PyResult RawResult) := do
  let s ← reading id
  if s.closed then pure (raise .RedisError closedMsg)
  else if s.explicitTransaction then pure (raise .RedisError watchAfterMultiMsg)
  else
    match ← ensureReserved with
    | .error e => pure (.error e)
    | .ok () =>
      match ← locked PipelineState.takeReserved with
      | none => pure (.error (.panicked unwrapMsg))
      | some taken =>
        let (res, taken) ← taken.watch keys
        match res with
        | .error e =>
          writing (·.putReserved (some taken))
          pure (.error (toPyErr e))
        | .ok () =>
          writing fun s => (s.putReserved (some taken)).marked keys
          pure (.ok (.bool true))

/-- take the reservation out, send UNWATCH if needed, put it back (the blocks of `unwatch` and `discard`) -/
def unwatchReserved : PipeM (PyResult Unit) := do
  match ← locked PipelineState.takeReserved with
  | none => pure (.error (.panicked unwrapMsg))
  | some taken =>
    let (res, taken) ← taken.unwatchIfNeeded
    writing (·.putReserved (some taken))
    pure (mapErr res)

def unwatch : PipeM (PyResult RawResult) := do
  let s ← reading id
  if s.closed then pure (raise .RedisError closedMsg)
  else
    match ← if s.reserved.isSome then unwatchReserved else pure (.ok ()) with
    | .error e => pure (.error e)
    | .ok () =>
      writing (·.unwatched)
      pure (.ok (.bool true))

/-- one critical section -/
def multiSection (s : PipelineState) : PyResult Unit × PipelineState :=
  if s.closed then (raise .RedisError closedMsg, s)
  else if s.explicitTransaction then (raise .RedisError nestedMultiMsg, s)
  else if s.commands ≠ [] ∧ s.watching = false then (raise .RedisError withoutWatchMsg, s)
  else (.ok (), { s with explicitTransaction := true })

@[simp] theorem multiSection_commands (s : PipelineState) : (multiSection s).2.commands = s.commands := by
  unfold multiSection; split_ifs <;> rfl

@[simp] theorem multiSection_watching (s : PipelineState) : (multiSection s).2.watching = s.watching := by
  unfold multiSection; split_ifs <;> rfl

@[simp] theorem multiSection_reserved (s : PipelineState) : (multiSection s).2.reserved = s.reserved := by
  unfold multiSection; split_ifs <;> rfl

@[simp] theorem multiSection_watchedKeys (s : PipelineState) : (multiSection s).2.watchedKeys = s.watchedKeys := by
  unfold multiSection; split_ifs <;> rfl

@[simp] theorem multiSection_closed (s : PipelineState) : (multiSection s).2.closed = s.closed := by
  unfold multiSection; split_ifs <;> rfl

def multi : PipeM (PyResult Unit) := locked multiSection

def discard : PipeM (PyResult Unit) := do
  let needsUnwatch ← reading fun s => !s.closed && s.reserved.isSome
  match ← if needsUnwatch then unwatchReserved else pure (.ok ()) with
  | .error e => pure (.error e)
  | .ok () =>
    writing (·.discarded)
    pure (.ok ())

end Pipeline

end RedisRsPy
