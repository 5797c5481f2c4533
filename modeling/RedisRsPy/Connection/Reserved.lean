/-
`ReservedConnection` (`connection.rs`): the exclusive connection a pipeline holds while it uses WATCH, and the calls a
pipeline can make on a server.

A connection is named by a number that the server hands out when it is opened. The methods are programs over any locked
state: they touch only the connection they are given, and return it with its `watched` flag as the method leaves it
(`&mut self` in the source).
-/
import RedisRsPy.Lib.Programs
import RedisRsPy.Errors

namespace RedisRsPy

open Lib Prog

/-- a buffered command: name and arguments (`BufferedCmd`) -/
abbrev BufferedCmd := String × List Bytes

/-- the calls of a pipeline -/
inductive Query where
  /-- open a fresh connection (`ValkeyConn::reserve_connection`) -/
  | reserve
  /-- one command on an open connection (`redis::cmd(name).arg(..).query_async`) -/
  | cmd (conn : ℕ) (name : String) (args : List Bytes)
  /-- MULTI, the commands, EXEC on an open connection (`redis::pipe().atomic()`) -/
  | atomicPipe (conn : ℕ) (cmds : List BufferedCmd)
  /-- a batch on the client's shared connection (`ValkeyConnInner::pipeline_exec`) -/
  | pipelineExec (cmds : List BufferedCmd) (transaction : Bool)
deriving DecidableEq, Repr

abbrev Answer : Query → Type
  | .reserve => Except String ℕ
  | .cmd _ _ _ => RedisResult Value
  | .atomicPipe _ _ => RedisResult Value
  | .pipelineExec _ _ => RedisResult (List Value)

/-- a server with one connection that takes every call -/
def obliging : Server Query Answer Unit where
  reply _ q := match q with
    | .reserve => (.ok 0, ())
    | .cmd _ _ _ => (.ok .okay, ())
    | .atomicPipe _ _ => (.ok (.array []), ())
    | .pipelineExec _ _ => (.ok [], ())

section Calls

variable {σ : Type}

/-- `conn.reserve_connection().await` -/
def reserveConnection : Prog σ Query Answer (Except String ℕ) := ask Query.reserve

/-- `cmd.query_async(&mut conn).await` -/
def queryAsync (conn : ℕ) (name : String) (args : List Bytes) : Prog σ Query Answer (RedisResult Value) :=
  ask (Query.cmd conn name args)

/-- `pipe.query_async(&mut conn).await` for an atomic pipe -/
def pipeQueryAsync (conn : ℕ) (cmds : List BufferedCmd) : Prog σ Query Answer (RedisResult Value) :=
  ask (Query.atomicPipe conn cmds)

/-- `conn.pipeline_exec(commands, transaction).await` -/
def pipelineExec (cmds : List BufferedCmd) (transaction : Bool) : Prog σ Query Answer (RedisResult (List Value)) :=
  ask (Query.pipelineExec cmds transaction)

end Calls

/-- `ReservedConnection` -/
structure ReservedConnection where
  inner : ℕ
  watched : Bool
deriving DecidableEq, Repr

/-- `WatchedExecResult` -/
inductive WatchedExecResult where
  | ok (items : List Value)
  | watchAborted

namespace ReservedConnection

/-- `ReservedConnection::new` -/
def new (inner : ℕ) : ReservedConnection := ⟨inner, false⟩

variable {σ : Type}

def unwatchIfNeeded (self : ReservedConnection) : Prog σ Query Answer (RedisResult Unit × ReservedConnection) :=
  if self.watched then do
    match ← queryAsync self.inner "UNWATCH" [] with
    | .error e => pure (.error e, self)
    | .ok _ => pure (.ok (), { self with watched := false })
  else pure (.ok (), self)

def watch (self : ReservedConnection) (keys : List String) :
    Prog σ Query Answer (RedisResult Unit × ReservedConnection) :=
  if keys = [] then pure (.ok (), self)
  else do
    match ← queryAsync self.inner "WATCH" (keys.map asBytes) with
    | .error e => pure (.error e, self)
    | .ok _ => pure (.ok (), { self with watched := true })

/-- the connection is `&mut` in the source, and no branch changes it -/
def dispatchImmediate (self : ReservedConnection) (cmdName : String) (args : List Bytes) :
    Prog σ Query Answer (RedisResult Value) :=
  queryAsync self.inner cmdName args

/-- the reply of EXEC: Nil is an abort, an array the results -/
def execReply : Value → RedisResult WatchedExecResult
  | .nil => .ok .watchAborted
  | .array items => .ok (.ok items)
  -- the detail is `{other:?}`, how the redis crate prints a value; no result reads it, and it is left empty
  | _ => .error (.fromParts (.server .responseError) "EXEC returned unexpected value" "")

/-- the atomic pipe of `pipeline_exec_watched`, after the late WATCH -/
def execBlock (self : ReservedConnection) (transactionBlock : List BufferedCmd) :
    Prog σ Query Answer (RedisResult WatchedExecResult × ReservedConnection) := do
  match ← pipeQueryAsync self.inner transactionBlock with
  | .error e => pure (.error e, self)
  | .ok raw => pure (execReply raw, { self with watched := false })

def pipelineExecWatched (self : ReservedConnection) (watchedKeys : List String)
    (transactionBlock : List BufferedCmd) :
    Prog σ Query Answer (RedisResult WatchedExecResult × ReservedConnection) :=
  -- send WATCH if not already issued
  if watchedKeys ≠ [] ∧ self.watched = false then do
    match ← queryAsync self.inner "WATCH" (watchedKeys.map asBytes) with
    | .error e => pure (.error e, self)
    | .ok _ => execBlock { self with watched := true } transactionBlock
  else execBlock self transactionBlock

/-! ## What a method does, run to its end -/

section Spec

variable {ω : Type} (E : Server Query Answer ω) (r : ReservedConnection) (s : σ) (w : ω)

@[simp] theorem unwatchIfNeeded_st : (exec E r.unwatchIfNeeded s w).st = s := by
  unfold unwatchIfNeeded
  split_ifs
  · cases h : (E.reply w (.cmd r.inner "UNWATCH" [])).1 <;> simp [queryAsync, h]
  · simp

/-- the locked state does not matter to it -/
theorem unwatchIfNeeded_congr (t : σ) :
    (exec E r.unwatchIfNeeded s w).val = (exec E r.unwatchIfNeeded t w).val ∧
      (exec E r.unwatchIfNeeded s w).srv = (exec E r.unwatchIfNeeded t w).srv := by
  unfold unwatchIfNeeded
  split_ifs
  · cases h : (E.reply w (.cmd r.inner "UNWATCH" [])).1 <;> simp [queryAsync, h]
  · simp

/-- it clears the flag, or, only on a flagged connection, fails and leaves it -/
theorem unwatchIfNeeded_cases :
    (exec E r.unwatchIfNeeded s w).val = (.ok (), { r with watched := false }) ∨
      r.watched = true ∧ ∃ e, (exec E r.unwatchIfNeeded s w).val = (.error e, r) := by
  unfold unwatchIfNeeded
  split_ifs with hr
  · cases h : (E.reply w (.cmd r.inner "UNWATCH" [])).1 with
    | error e => exact Or.inr ⟨hr, e, by simp [queryAsync, h]⟩
    | ok v => exact Or.inl (by simp [queryAsync, h])
  · left
    cases r
    simp_all

@[simp] theorem watch_st (keys : List String) : (exec E (r.watch keys) s w).st = s := by
  unfold watch
  split_ifs
  · simp
  · cases h : (E.reply w (.cmd r.inner "WATCH" (keys.map asBytes))).1 <;> simp [queryAsync, h]

/-- with no keys nothing happens; otherwise WATCH sets the flag, or fails and leaves it -/
theorem watch_cases (keys : List String) :
    keys = [] ∧ (exec E (r.watch keys) s w).val = (.ok (), r) ∨
      keys ≠ [] ∧ ((exec E (r.watch keys) s w).val = (.ok (), { r with watched := true }) ∨
        ∃ e, (exec E (r.watch keys) s w).val = (.error e, r)) := by
  unfold watch
  split_ifs with hk
  · exact Or.inl ⟨hk, by simp⟩
  · refine Or.inr ⟨hk, ?_⟩
    cases h : (E.reply w (.cmd r.inner "WATCH" (keys.map asBytes))).1 with
    | error e => exact Or.inr ⟨e, by simp [queryAsync, h]⟩
    | ok v => exact Or.inl (by simp [queryAsync, h])

@[simp] theorem dispatchImmediate_st (name : String) (args : List Bytes) :
    (exec E (r.dispatchImmediate name args) s w).st = s := rfl

@[simp] theorem execBlock_st (cmds : List BufferedCmd) : (exec E (r.execBlock cmds) s w).st = s := by
  unfold execBlock
  cases h : (E.reply w (.atomicPipe r.inner cmds)).1 <;> simp [pipeQueryAsync, h]

theorem execBlock_log (cmds : List BufferedCmd) :
    (exec E (r.execBlock cmds) s w).log = [.atomicPipe r.inner cmds] := by
  unfold execBlock
  cases h : (E.reply w (.atomicPipe r.inner cmds)).1 <;> simp [pipeQueryAsync, h]

@[simp] theorem pipelineExecWatched_st (keys : List String) (cmds : List BufferedCmd) :
    (exec E (r.pipelineExecWatched keys cmds) s w).st = s := by
  unfold pipelineExecWatched
  split_ifs
  · cases h : (E.reply w (.cmd r.inner "WATCH" (keys.map asBytes))).1 <;> simp [queryAsync, h]
  · simp

/-- on a connection that has its WATCH, or with no keys to watch, the block is all that is sent -/
theorem pipelineExecWatched_of_watched {keys : List String} (hk : keys ≠ [] → r.watched = true)
    (cmds : List BufferedCmd) : r.pipelineExecWatched (σ := σ) keys cmds = r.execBlock cmds := by
  unfold pipelineExecWatched
  rw [if_neg]
  rintro ⟨h, hw⟩
  simp [hk h] at hw

end Spec

end ReservedConnection

end RedisRsPy
