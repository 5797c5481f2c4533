/-
`AsyncPipeline` (`facade/pipeline.rs`): its methods as tasks that move from one critical section or await to the next.

A method that does I/O spawns a task; the task takes the lock (`Python::attach(.. state.lock() ..)`), releases it,
awaits, and takes it again. Each constructor of `AsyncTask` is a point between two such steps and carries its locals
there (the snapshot of `aexecute` is kept to the end); `AsyncTask.next` makes the one step that follows. `bufferCmd` and
`multi` are plain methods and return at once.

A step that awaits runs one method of the reserved connection, or one call on the client, against the server `E`.
-/
import RedisRsPy.Lib.Runs
import RedisRsPy.Pipeline.Sync

namespace RedisRsPy

open Lib Prog

/-- what the first section of `aexecute` copies -/
structure Snapshot where
  commands : List BufferedCmd
  transaction : Bool
  watching : Bool
  explicitTransaction : Bool
  closed : Bool
  watchedKeys : List String
deriving DecidableEq, Repr

def PipelineState.snapshot (s : PipelineState) : Snapshot :=
  ⟨s.commands, s.transaction, s.watching, s.explicitTransaction, s.closed, s.watchedKeys⟩

/-- the two immediate commands of `AsyncPipeline` -/
inductive ImmediateCmd where
  | get (key : String)
  | set (key : String) (value : Bytes)
deriving DecidableEq, Repr

namespace ImmediateCmd

def name : ImmediateCmd → String
  | get _ => "GET"
  | set _ _ => "SET"

def args : ImmediateCmd → List Bytes
  | get key => [asBytes key]
  | set key value => [asBytes key, value]

end ImmediateCmd

inductive AsyncTask where
  /-- `buffer_cmd_inner`: check `closed`, then push -/
  | bufferCmd (cmd : BufferedCmd)
  | bufferPush (cmd : BufferedCmd)
  | multi
  /-- `awatch`: check, reserve, store the reservation, take it, send WATCH, put it back, mark -/
  | awatch (keys : List String)
  | awatchReserve (keys : List String)
  | awatchStore (keys : List String) (r : ReservedConnection)
  | awatchTake (keys : List String)
  | awatchSend (keys : List String) (taken : ReservedConnection)
  | awatchPut (keys : List String) (taken : ReservedConnection) (res : RedisResult Unit)
  | awatchMark (keys : List String)
  /-- `aunwatch`: take, send UNWATCH, put back and clear -/
  | aunwatch
  | aunwatchSend (taken : Option ReservedConnection)
  | aunwatchPut (taken : Option ReservedConnection) (res : RedisResult Unit)
  /-- `adiscard`: take, send UNWATCH, put back and clear -/
  | adiscard
  | adiscardSend (taken : Option ReservedConnection)
  | adiscardPut (taken : Option ReservedConnection)
  /-- `immediate_dispatch_inner`: take, send, put back -/
  | immediate (cmd : ImmediateCmd)
  | immediateSend (cmd : ImmediateCmd) (taken : Option ReservedConnection)
  | immediatePut (taken : Option ReservedConnection) (res : RedisResult Value)
  /-- `aclose`: take and clear, send UNWATCH -/
  | aclose
  | acloseSend (r : Option ReservedConnection)
  /-- `aexecute`: snapshot, look for a reservation, then the watched path (take, send, clear) or the plain one -/
  | aexecute
  | aexecuteHas (snap : Snapshot)
  | aexecuteTake (snap : Snapshot)
  | aexecuteSendWatched (snap : Snapshot) (taken : Option ReservedConnection)
  | aexecuteEndWatched (snap : Snapshot) (res : RedisResult WatchedExecResult)
  | aexecuteSend (snap : Snapshot)
  | aexecuteEnd (snap : Snapshot) (res : RedisResult (List Value))
  /-- a spawned task sent its result -/
  | sent (raw : RawResult)
  /-- a plain method returned -/
  | returned (out : PyResult CmdRet)
  /-- the task died in an `expect`; its sender is dropped -/
  | panicked (msg : String)

def expectMsg : String := "reserved must be present"

/-- the raw result of a watched `aexecute` -/
def watchedRaw : RedisResult WatchedExecResult → RawResult
  | .ok (.ok items) => .value (.array items)
  | .ok .watchAborted => .error .WatchError watchErrorMsg
  | .error e => classify e

namespace AsyncTask

variable {ω : Type} (E : Server Query Answer ω)

/-- the next critical section or await of a task -/
def next : AsyncTask → PipelineState × ω → AsyncTask × (PipelineState × ω)
  | bufferCmd cmd, (s, w) =>
    if s.closed then (returned (raise .RedisError closedMsg), (s, w)) else (bufferPush cmd, (s, w))
  | bufferPush cmd, (s, w) => (returned (.ok .slf), (s.push cmd, w))
  | multi, (s, w) =>
    (returned ((Pipeline.multiSection s).1.map fun _ => .raw .nil), ((Pipeline.multiSection s).2, w))
  | awatch keys, (s, w) =>
    if s.closed then (sent (.error .RedisError closedMsg), (s, w))
    else if s.explicitTransaction then (sent (.error .RedisError watchAfterMultiMsg), (s, w))
    else if s.reserved = none then (awatchReserve keys, (s, w))
    else (awatchTake keys, (s, w))
  | awatchReserve keys, (s, w) =>
    match E.reply w .reserve with
    | (.ok c, w') => (awatchStore keys (.new c), (s, w'))
    | (.error e, w') => (sent (.error .ConnectionError e), (s, w'))
  | awatchStore keys r, (s, w) => (awatchTake keys, (s.putReserved (some r), w))
  | awatchTake keys, (s, w) =>
    match s.reserved with
    | some taken => (awatchSend keys taken, (s.putReserved none, w))
    | none => (panicked expectMsg, (s, w))
  | awatchSend keys taken, (s, w) =>
    let o := exec E (taken.watch keys) s w
    (awatchPut keys o.val.2 o.val.1, (s, o.srv))
  | awatchPut keys taken res, (s, w) =>
    match res with
    | .error e => (sent (classify e), (s.putReserved (some taken), w))
    | .ok () => (awatchMark keys, (s.putReserved (some taken), w))
  | awatchMark keys, (s, w) => (sent (.bool true), (s.marked keys, w))
  | aunwatch, (s, w) => (aunwatchSend s.reserved, (s.putReserved none, w))
  | aunwatchSend (some r), (s, w) =>
    let o := exec E r.unwatchIfNeeded s w
    (aunwatchPut (some o.val.2) o.val.1, (s, o.srv))
  | aunwatchSend none, p => (aunwatchPut none (.ok ()), p)
  | aunwatchPut taken res, (s, w) =>
    (sent (match res with
      | .ok () => .bool true
      | .error e => classify e), ((s.putReserved taken).unwatched, w))
  | adiscard, (s, w) => (adiscardSend s.reserved, (s.putReserved none, w))
  | adiscardSend (some r), (s, w) =>
    let o := exec E r.unwatchIfNeeded s w
    (adiscardPut (some o.val.2), (s, o.srv))
  | adiscardSend none, p => (adiscardPut none, p)
  | adiscardPut taken, (s, w) => (sent .nil, ((s.putReserved taken).discarded, w))
  | immediate cmd, (s, w) => (immediateSend cmd s.reserved, (s.putReserved none, w))
  | immediateSend cmd (some r), (s, w) =>
    let o := exec E (r.dispatchImmediate cmd.name cmd.args) s w
    (immediatePut (some r) o.val, (s, o.srv))
  | immediateSend _ none, p =>
    (immediatePut none (.error (noReservation "immediate dispatch without a reservation; call awatch() first")), p)
  | immediatePut taken res, (s, w) =>
    (sent (match res with
      | .ok v => .value v
      | .error e => classify e), (s.putReserved taken, w))
  | aclose, (s, w) => (acloseSend s.reserved, (s.released.close, w))
  | acloseSend (some r), (s, w) => (sent .nil, (s, (exec E r.unwatchIfNeeded s w).srv))
  | acloseSend none, p => (sent .nil, p)
  | aexecute, (s, w) =>
    if s.closed then (sent (.error .RedisError closedMsg), (s, w))
    else if ¬ s.pending then (sent (.value (.array [])), (s, w))
    else (aexecuteHas s.snapshot, (s, w))
  | aexecuteHas snap, (s, w) =>
    if snap.watching ∨ (snap.explicitTransaction ∧ s.reserved.isSome) then (aexecuteTake snap, (s, w))
    else (aexecuteSend snap, (s, w))
  | aexecuteTake snap, (s, w) => (aexecuteSendWatched snap s.reserved, (s.putReserved none, w))
  | aexecuteSendWatched snap (some r), (s, w) =>
    let o := exec E (r.pipelineExecWatched snap.watchedKeys snap.commands) s w
    (aexecuteEndWatched snap o.val.1, (s, o.srv))
  | aexecuteSendWatched snap none, p =>
    (aexecuteEndWatched snap (.error (noReservation "aexecute without reservation")), p)
  | aexecuteEndWatched _ res, (s, w) => (sent (watchedRaw res), (s.released, w))
  | aexecuteSend snap, (s, w) =>
    match E.reply w (.pipelineExec snap.commands (snap.transaction || snap.explicitTransaction)) with
    | (res, w') => (aexecuteEnd snap res, (s, w'))
  | aexecuteEnd _ res, (s, w) =>
    (sent (match res with
      | .ok items => .value (.array items)
      | .error e => classify e), (s.flushed, w))
  | sent raw, p => (sent raw, p)
  | returned out, p => (returned out, p)
  | panicked msg, p => (panicked msg, p)

@[simp] theorem solo_sent (n : ℕ) (raw : RawResult) (p : PipelineState × ω) :
    solo (next E) n (sent raw) p = (sent raw, p) := by
  have h : next E (sent raw) p = (sent raw, p) := rfl
  exact solo_of_fixed h n

@[simp] theorem solo_returned (n : ℕ) (out : PyResult CmdRet) (p : PipelineState × ω) :
    solo (next E) n (returned out) p = (returned out, p) := by
  have h : next E (returned out) p = (returned out, p) := rfl
  exact solo_of_fixed h n

/-- what the caller gets in the end: the value or exception of the awaited result, or the panic -/
def outcome : AsyncTask → Option (PyResult CmdRet)
  | sent raw => some (raw.outcome.map .raw)
  | returned out => some out
  | panicked msg => some (.error (.panicked msg))
  | _ => none

end AsyncTask

/-- the awaiting caller of a watched `aexecute` gets what the sync `execute` returns -/
theorem watchedRaw_outcome (res : RedisResult WatchedExecResult) :
    (watchedRaw res).outcome = Pipeline.watchedResult res := by
  rcases res with e | items | _ <;> rfl

/-- a call on an `AsyncPipeline` from Python -/
inductive AsyncCall where
  | command (name : String) (args : List Bytes)
  | awatch (keys : List String)
  | aunwatch
  | multi
  | adiscard
  | agetImmediate (key : String)
  | asetImmediate (key : String) (value : Bytes)
  | aexecute
  | reset
  | aclose

/-- the task a call starts; `reset` is `aclose` -/
def AsyncCall.start : AsyncCall → AsyncTask
  | command name args => .bufferCmd (name, args)
  | awatch keys => .awatch keys
  | aunwatch => .aunwatch
  | multi => .multi
  | adiscard => .adiscard
  | agetImmediate key => .immediate (.get key)
  | asetImmediate key value => .immediate (.set key value)
  | aexecute => .aexecute
  | reset => .aclose
  | aclose => .aclose

end RedisRsPy
