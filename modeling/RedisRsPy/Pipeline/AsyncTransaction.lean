/-
The coroutine `_go` of `atransaction_helper` (`facade/pipeline.rs`): the retry loop over an `AsyncPipeline`, run by any
number of clients against a server whose calls may fail.

`_go` awaits one method of its pipeline after another (`Await`), each a task that moves from one critical section or
await to the next. A callable reads with `await pipe.aget_immediate(k)`, then calls `multi()` and buffers its block, or
raises. A move of a client is one step of the task it awaits, or of the coroutine when that task is done.

Most moves are a client's own (`Local`): they call nobody. Between two calls on the server it stands at a session
(`At`) when its own moves lead it to the call the session makes next. Cancellation of the coroutine is not modelled.

Result: `atransaction_serializable`, the guarantee of the sync loop for every interleaving of the clients' steps; a
client whose EXEC was answered ends, by moves of its own alone, in the result the answer decided.
-/
import Mathlib.Logic.Relation
import RedisRsPy.Pipeline.Async
import RedisRsPy.Pipeline.SyncTransaction

namespace RedisRsPy.AsyncTransaction

open Lib Relation
open Serial (Callable Buffered Session World Fate wire Serialized Job)
open SyncTransaction (holding buffered)
open Transaction (isWatchError fetched)

/-! ## The coroutine -/

/-- what `_go` awaits, with what it goes on with; `multi` and the block's commands return at once -/
inductive Await where
  | awatch
  | get (next : Option Bytes → Callable)
  | multi (block : List Buffered) (value : RawResult)
  | buffer (block : List Buffered) (value : RawResult)
  | aexecute (value : RawResult)
  /-- in `finally`, with what the `try` came to -/
  | aclose (res : PyResult RawResult)

inductive Client where
  | running (at_ : Await) (task : AsyncTask) (pipe : PipelineState)
  | ended (res : PyResult RawResult)

def Client.outcome : Client → Option (PyResult RawResult)
  | running _ _ _ => none
  | ended res => some res

/-- the callable up to its next await -/
def begin : Callable → Await × AsyncCall
  | .get k next => (.get next, .agetImmediate k)
  | .exec block value => (.multi block value, .multi)
  | .raise e => (.aclose (.error e), .aclose)

/-- the next command of the block, or `aexecute` when the callable has returned -/
def bufferNext (value : RawResult) : List Buffered → Await × AsyncCall
  | [] => (.aexecute value, .aexecute)
  | cmd :: block => (.buffer block value, .command cmd.cmd.1 cmd.cmd.2)

/-- the raw result of `aexecute`, which never returns the pipeline -/
def execValue : CmdRet → RawResult
  | .raw raw => raw
  | .slf => .nil

/-- what follows an await of the `try`; an exception leads to `finally`, through `except` or not -/
def proceed (job : Job) : Await → PyResult CmdRet → Await × AsyncCall
  | _, .error e => (.aclose (.error e), .aclose)
  | .awatch, .ok _ => begin job.callable
  | .get next, .ok got => begin (next (fetched got))
  | .multi block value, .ok _ => bufferNext value block
  | .buffer block value, .ok _ => bufferNext value block
  | .aexecute value, .ok ret =>
    (.aclose (.ok (if job.valueFromCallable then value else execValue ret)), .aclose)
  | .aclose res, .ok _ => (.aclose res, .aclose)

/-- a round, on a new pipeline -/
def first (job : Job) : Client :=
  let start := if job.watches = [] then begin job.callable else (.awatch, .awatch job.watches)
  .running start.1 start.2.start (.new true)

/-- the end of `finally`: an exception of `aclose` replaces what the `try` came to; a WatchError starts over -/
def finish (job : Job) (res : PyResult RawResult) : PyResult CmdRet → Client
  | .error e => .ended (.error e)
  | .ok _ =>
    match res with
    | .ok v => .ended (.ok v)
    | .error e => if isWatchError e then first job else .ended (.error e)

/-- the coroutine goes on when what it awaits is done -/
def resume (job : Job) (a : Await) (ret : PyResult CmdRet) (pipe : PipelineState) : Client :=
  match a with
  | .aclose res => finish job res ret
  | a => .running (proceed job a ret).1 (proceed job a ret).2.start pipe

/-- one step of the awaited task, or of the coroutine -/
def move {ω : Type} (job : Job) (E : Server Query Answer ω) : Client → ω → Client × ω
  | .running a task pipe, w =>
    match task.outcome with
    | some ret => (resume job a ret pipe, w)
    | none =>
      (.running a (task.next E (pipe, w)).1 (task.next E (pipe, w)).2.1, (task.next E (pipe, w)).2.2)
  | .ended res, w => (.ended res, w)

/-! ## Moves of a client's own -/

/-- a move that calls nobody and is the same whatever the server -/
def Local (job : Job) (c c' : Client) : Prop :=
  ∀ {ω : Type} (E : Server Query Answer ω) (w : ω), move job E c w = (c', w)

/-- any number of them -/
abbrev Alone (job : Job) : Client → Client → Prop := ReflTransGen (Local job)

/-- the client about to make the call its session makes next -/
def Calling (job : Job) : Session → Client → Prop
  | .opening, c => c = .running .awatch (.awatchReserve job.watches) (.new true)
  | .watching conn, c => c = .running .awatch (.awatchSend job.watches ⟨conn, false⟩) (.new true)
  | .running conn (.get k next), c =>
    c = .running (.get next) (.immediateSend (.get k) (some ⟨conn, true⟩)) ((holding job.watches conn).putReserved none)
  | .running conn (.exec block value), c =>
    let s := buffered job.watches conn (block.map Buffered.cmd)
    c = .running (.aexecute value) (.aexecuteSendWatched s.snapshot (some ⟨conn, true⟩)) (s.putReserved none)
  | .running _ (.raise _), _ => False
  | .unwatching conn e, c =>
    c = .running (.aclose (.error e)) (.acloseSend (some ⟨conn, true⟩)) (holding job.watches conn).released.close
  | .returned v, c => c = .ended (.ok v)
  | .failed e, c => c = .ended (.error e)

/-- a client whose own moves lead there -/
def At (job : Job) (s : Session) (c : Client) : Prop := ∃ c', Alone job c c' ∧ Calling job s c'

variable {job : Job}

theorem At.head {s : Session} {c c' : Client} (h : Local job c c') (h' : At job s c') : At job s c := by
  obtain ⟨d, hd, hcalling⟩ := h'
  exact ⟨d, .head h hd, hcalling⟩

theorem At.of_calling {s : Session} {c : Client} (h : Calling job s c) : At job s c := ⟨c, .refl, h⟩

/-- a client that is not about to call makes a move of its own -/
theorem At.cases {s : Session} {c : Client} (h : At job s c) :
    Calling job s c ∨ ∃ c', Local job c c' ∧ At job s c' := by
  obtain ⟨d, hd, hcalling⟩ := h
  rcases hd.cases_head with rfl | ⟨c', hc', hd'⟩
  · exact .inl hcalling
  · exact .inr ⟨c', hc', d, hd', hcalling⟩

/-- a client that has ended stays -/
theorem alone_ended {ω : Type} (E : Server Query Answer ω) (w : ω) {res : PyResult RawResult} {c : Client}
    (h : Alone job (.ended res) c) : c = .ended res := by
  induction h with
  | refl => rfl
  | tail _ hstep ih =>
    subst ih
    exact (Prod.mk.inj (hstep E w)).1.symm

theorem At.ended {ω : Type} (E : Server Query Answer ω) (w : ω) {s : Session} {res : PyResult RawResult}
    (h : At job s (.ended res)) : s.outcome = some res := by
  obtain ⟨c, halone, hcall⟩ := h
  rw [alone_ended E w halone] at hcall
  cases s with
  | running conn rest => cases rest <;> cases hcall
  | returned v =>
    cases hcall
    rfl
  | failed e =>
    cases hcall
    rfl
  | _ => cases hcall

/-! ## From one call to the next -/

theorem at_first : At job .opening (first job) := by
  have hfirst : first job = .running .awatch (.awatch job.watches) (.new true) := by
    rw [first, if_neg job.watched]
    rfl
  rw [hfirst]
  exact .head (fun E w => rfl) (.of_calling rfl)

/-- what a round comes to when the pipeline is closed -/
theorem at_finish_error (e : Fault) (ret : CmdRet) : At job (Session.unwind e) (finish job (.error e) (.ok ret)) := by
  show At job (Session.unwind e) (if isWatchError e then first job else .ended (.error e))
  unfold Session.unwind
  split_ifs
  · exact at_first
  · exact .of_calling rfl

/-- `finally` without a watch calls nobody -/
theorem at_closing {s : Session} {res : PyResult RawResult} {pipe : PipelineState}
    (hr : ∀ r, pipe.reserved = some r → r.watched = false) (h : At job s (finish job res (.ok (.raw .nil)))) :
    At job s (.running (.aclose res) .aclose pipe) := by
  have hclose : Local job (.running (.aclose res) .aclose pipe)
      (.running (.aclose res) (.acloseSend pipe.reserved) pipe.released.close) := fun E w => rfl
  have hsend : Local job (.running (.aclose res) (.acloseSend pipe.reserved) pipe.released.close)
      (.running (.aclose res) (.sent .nil) pipe.released.close) := by
    intro ω E w
    cases hreserved : pipe.reserved with
    | none => rfl
    | some r =>
      have hwatched : r = ⟨r.inner, false⟩ := by
        rw [← hr r hreserved]
      rw [hwatched]
      rfl
  have hend : Local job (.running (.aclose res) (.sent .nil) pipe.released.close)
      (finish job res (.ok (.raw .nil))) := fun E w => rfl
  exact .head hclose (.head hsend (.head hend h))

/-- the rest of a block, buffered after what is there -/
theorem at_buffering (conn : ℕ) (value : RawResult) (block all : List Buffered) (done : List BufferedCmd)
    (hall : all.map Buffered.cmd = done ++ block.map Buffered.cmd) :
    At job (.running conn (.exec all value))
      (.running (bufferNext value block).1 (bufferNext value block).2.start (buffered job.watches conn done)) := by
  induction block generalizing done with
  | nil =>
    rw [List.map_nil, List.append_nil] at hall
    let s := buffered job.watches conn done
    have hpending : s.pending := .inr (.inl rfl)
    have hexecute : Local job (.running (.aexecute value) .aexecute s)
        (.running (.aexecute value) (.aexecuteHas s.snapshot) s) := by
      intro ω E w
      have hnext : AsyncTask.next E .aexecute (s, w) = (.aexecuteHas s.snapshot, (s, w)) := by
        rw [AsyncTask.next, if_neg (by simp [s, buffered, holding, PipelineState.new]), if_neg (not_not.2 hpending)]
      simp only [move, AsyncTask.outcome, hnext]
    have hhas : Local job (.running (.aexecute value) (.aexecuteHas s.snapshot) s)
        (.running (.aexecute value) (.aexecuteTake s.snapshot) s) := fun E w => rfl
    have htake : Local job (.running (.aexecute value) (.aexecuteTake s.snapshot) s)
        (.running (.aexecute value) (.aexecuteSendWatched s.snapshot (some ⟨conn, true⟩)) (s.putReserved none)) :=
      fun E w => rfl
    refine .head hexecute (.head hhas (.head htake (.of_calling ?_)))
    rw [Calling, hall]
  | cons cmd block ih =>
    let s := buffered job.watches conn done
    have hcheck : Local job (.running (.buffer block value) (.bufferCmd cmd.cmd) s)
        (.running (.buffer block value) (.bufferPush cmd.cmd) s) := fun E w => rfl
    have hpush : Local job (.running (.buffer block value) (.bufferPush cmd.cmd) s)
        (.running (.buffer block value) (.returned (.ok .slf)) (s.push cmd.cmd)) := fun E w => rfl
    have hnext : Local job (.running (.buffer block value) (.returned (.ok .slf)) (s.push cmd.cmd))
        (.running (bufferNext value block).1 (bufferNext value block).2.start
          (buffered job.watches conn (done ++ [cmd.cmd]))) := fun E w => rfl
    refine .head hcheck (.head hpush (.head hnext (ih _ ?_)))
    rw [hall]
    simp

/-- the callable goes on, with the watch in place -/
theorem at_begin (conn : ℕ) (rest : Callable) :
    At job (Session.resume conn rest)
      (.running (begin rest).1 (begin rest).2.start (holding job.watches conn)) := by
  let s := holding job.watches conn
  cases rest with
  | get k next =>
    have htake : Local job (.running (.get next) (.immediate (.get k)) s)
        (.running (.get next) (.immediateSend (.get k) (some ⟨conn, true⟩)) (s.putReserved none)) := fun E w => rfl
    exact .head htake (.of_calling rfl)
  | exec block value =>
    have hmulti : Local job (.running (.multi block value) .multi s)
        (.running (.multi block value) (.returned (.ok (.raw .nil))) (buffered job.watches conn [])) := fun E w => rfl
    have hnext : Local job (.running (.multi block value) (.returned (.ok (.raw .nil))) (buffered job.watches conn []))
        (.running (bufferNext value block).1 (bufferNext value block).2.start (buffered job.watches conn [])) :=
      fun E w => rfl
    exact .head hmulti (.head hnext (at_buffering conn value block block [] rfl))
  | raise e =>
    have hclose : Local job (.running (.aclose (.error e)) .aclose s)
        (.running (.aclose (.error e)) (.acloseSend (some ⟨conn, true⟩)) s.released.close) := fun E w => rfl
    exact .head hclose (.of_calling rfl)

/-- WATCH was answered -/
theorem at_watched (conn : ℕ) :
    At job (Session.resume conn job.callable)
      (.running .awatch (.awatchPut job.watches ⟨conn, true⟩ (.ok ())) (.new true)) := by
  let s := (PipelineState.new true).putReserved (some ⟨conn, true⟩)
  have hput : Local job (.running .awatch (.awatchPut job.watches ⟨conn, true⟩ (.ok ())) (.new true))
      (.running .awatch (.awatchMark job.watches) s) := fun E w => rfl
  have hmark : Local job (.running .awatch (.awatchMark job.watches) s)
      (.running .awatch (.sent (.bool true)) (s.marked job.watches)) := fun E w => rfl
  have hnext : Local job (.running .awatch (.sent (.bool true)) (s.marked job.watches))
      (.running (begin job.callable).1 (begin job.callable).2.start (holding job.watches conn)) := fun E w => rfl
  exact .head hput (.head hmark (.head hnext (at_begin conn job.callable)))

/-- a round that failed has given its watch back, or has none -/
theorem at_failed {e : Fault} {pipe : PipelineState} (hr : ∀ r, pipe.reserved = some r → r.watched = false) :
    At job (Session.unwind e) (.running (.aclose (.error e)) .aclose pipe) :=
  at_closing hr (at_finish_error e (.raw .nil))

/-- a connection was reserved -/
theorem at_reserved (conn : ℕ) :
    At job (.watching conn) (.running .awatch (.awatchStore job.watches (.new conn)) (.new true)) := by
  let s := (PipelineState.new true).putReserved (some ⟨conn, false⟩)
  have hstore : Local job (.running .awatch (.awatchStore job.watches (.new conn)) (.new true))
      (.running .awatch (.awatchTake job.watches) s) := fun E w => rfl
  have htake : Local job (.running .awatch (.awatchTake job.watches) s)
      (.running .awatch (.awatchSend job.watches ⟨conn, false⟩) (.new true)) := fun E w => rfl
  exact .head hstore (.head htake (.of_calling rfl))

/-- the await of the `try` ended in an exception -/
theorem at_raised {s : Session} {a : Await} {raw : RawResult} {e : Fault} {pipe : PipelineState}
    (ha : ∀ res, a ≠ .aclose res) (hraw : raw.outcome = .error e)
    (h : At job s (.running (.aclose (.error e)) .aclose pipe)) : At job s (.running a (.sent raw) pipe) := by
  have hraise : Local job (.running a (.sent raw) pipe) (.running (.aclose (.error e)) .aclose pipe) := by
    intro ω E w
    have hout : (AsyncTask.sent raw).outcome = some (.error e) := by
      rw [AsyncTask.outcome, hraw]
      rfl
    simp only [move, hout]
    cases a with
    | aclose res => exact absurd rfl (ha res)
    | _ => rfl
  exact .head hraise h

/-- EXEC was answered, or failed -/
theorem at_executed (snap : Snapshot) (value : RawResult) (res : RedisResult WatchedExecResult)
    (pipe : PipelineState) :
    At job (Session.executed job value res) (.running (.aexecute value) (.aexecuteEndWatched snap res) pipe) := by
  have hend : Local job (.running (.aexecute value) (.aexecuteEndWatched snap res) pipe)
      (.running (.aexecute value) (.sent (watchedRaw res)) pipe.released) := fun E w => rfl
  refine .head hend ?_
  have hnone : ∀ r, pipe.released.reserved = some r → r.watched = false := by
    intro r hr
    cases hr
  cases res with
  | error e =>
    have hfailed : At job (Session.unwind (toPyErr e)) _ := at_failed hnone
    rw [Session.unwind, Serial.isWatchError_toPyErr] at hfailed
    exact at_raised (fun _ => by simp) rfl hfailed
  | ok res =>
    cases res with
    | watchAborted => exact at_raised (fun _ => by simp) rfl (at_failed hnone)
    | ok items =>
      have hnext : Local job (.running (.aexecute value) (.sent (.value (.array items))) pipe.released)
          (.running (.aclose (.ok (job.result value items))) .aclose pipe.released) := fun E w => rfl
      exact .head hnext (at_closing hnone (.of_calling rfl))

/-- **A move of a client is a move of its session, or its own.** -/
theorem move_at (job : Job) {ω : Type} (E : Server Query Answer ω) {s : Session} {c : Client} (w : ω)
    (h : At job s c) :
    At job (s.next job E w).1 (move job E c w).1 ∧ (s.next job E w).2 = (move job E c w).2 ∨
      At job s (move job E c w).1 ∧ (move job E c w).2 = w := by
  rcases h.cases with hcall | ⟨c', hlocal, hat⟩
  swap
  · right
    rw [hlocal E w]
    exact ⟨hat, rfl⟩
  left
  cases s with
  | opening =>
    cases hcall
    rcases hreply : E.reply w .reserve with ⟨e | conn, w'⟩
    · simp only [move, AsyncTask.outcome, AsyncTask.next, Session.next, hreply]
      have hnone : ∀ r, (PipelineState.new true).reserved = some r → r.watched = false := fun r hr => by cases hr
      exact ⟨at_raised (fun _ => by simp) rfl (at_failed hnone), trivial⟩
    · simp only [move, AsyncTask.outcome, AsyncTask.next, Session.next, hreply]
      exact ⟨at_reserved conn, trivial⟩
  | watching conn =>
    cases hcall
    have hnone : ∀ r, ((PipelineState.new true).putReserved (some ⟨conn, false⟩)).reserved = some r →
        r.watched = false := by
      rintro r ⟨⟩
      rfl
    rcases hreply : E.reply w (.cmd conn "WATCH" (job.watches.map asBytes)) with ⟨e | v, w'⟩
    · have hmove : move job E (.running .awatch (.awatchSend job.watches ⟨conn, false⟩) (.new true)) w =
          (.running .awatch (.awatchPut job.watches ⟨conn, false⟩ (.error e)) (.new true), w') := by
        simp [move, AsyncTask.outcome, AsyncTask.next, ReservedConnection.watch, job.watched, queryAsync, hreply]
      have hput : Local job (.running .awatch (.awatchPut job.watches ⟨conn, false⟩ (.error e)) (.new true))
          (.running .awatch (.sent (classify e)) ((PipelineState.new true).putReserved (some ⟨conn, false⟩))) :=
        fun E w => rfl
      have hfailed : At job (Session.unwind (toPyErr e)) _ := at_failed hnone
      rw [Session.unwind, Serial.isWatchError_toPyErr] at hfailed
      simp only [Session.next, hreply, hmove]
      exact ⟨.head hput (at_raised (fun _ => by simp) rfl hfailed), trivial⟩
    · have hmove : move job E (.running .awatch (.awatchSend job.watches ⟨conn, false⟩) (.new true)) w =
          (.running .awatch (.awatchPut job.watches ⟨conn, true⟩ (.ok ())) (.new true), w') := by
        simp [move, AsyncTask.outcome, AsyncTask.next, ReservedConnection.watch, job.watched, queryAsync, hreply]
      simp only [Session.next, hreply, hmove]
      exact ⟨at_watched conn, trivial⟩
  | running conn rest =>
    cases rest with
    | get k next =>
      cases hcall
      let s := holding job.watches conn
      rcases hreply : E.reply w (.cmd conn "GET" [asBytes k]) with ⟨e | v, w'⟩
      · have hput : Local job
            (.running (.get next) (.immediatePut (some ⟨conn, true⟩) (.error e)) (s.putReserved none))
            (.running (.get next) (.sent (classify e)) s) := fun E w => rfl
        simp only [move, AsyncTask.outcome, AsyncTask.next, ImmediateCmd.name, ImmediateCmd.args,
          ReservedConnection.dispatchImmediate, queryAsync, Prog.exec_ask, Session.next, hreply]
        exact ⟨.head hput (at_raised (fun _ => by simp) rfl (at_begin conn (.raise (toPyErr e)))), trivial⟩
      · have hput : Local job
            (.running (.get next) (.immediatePut (some ⟨conn, true⟩) (.ok v)) (s.putReserved none))
            (.running (.get next) (.sent (.value v)) s) := fun E w => rfl
        have hnext : Local job (.running (.get next) (.sent (.value v)) s)
            (.running (begin (next (fetched (.raw (.value v))))).1 (begin (next (fetched (.raw (.value v))))).2.start
              s) := fun E w => rfl
        simp only [move, AsyncTask.outcome, AsyncTask.next, ImmediateCmd.name, ImmediateCmd.args,
          ReservedConnection.dispatchImmediate, queryAsync, Prog.exec_ask, Session.next, hreply]
        exact ⟨.head hput (.head hnext (at_begin conn _)), trivial⟩
    | exec block value =>
      cases hcall
      let s := buffered job.watches conn (block.map Buffered.cmd)
      have hexec : ReservedConnection.pipelineExecWatched (σ := PipelineState) ⟨conn, true⟩ s.snapshot.watchedKeys
          s.snapshot.commands = ReservedConnection.execBlock ⟨conn, true⟩ (block.map Buffered.cmd) :=
        ReservedConnection.pipelineExecWatched_of_watched _ (fun _ => rfl) _
      rcases hreply : E.reply w (.atomicPipe conn (block.map Buffered.cmd)) with ⟨e | raw, w'⟩
      · have hmove : move job E (.running (.aexecute value) (.aexecuteSendWatched s.snapshot (some ⟨conn, true⟩))
            (s.putReserved none)) w =
            (.running (.aexecute value) (.aexecuteEndWatched s.snapshot (.error e)) (s.putReserved none), w') := by
          simp [move, AsyncTask.outcome, AsyncTask.next, hexec, ReservedConnection.execBlock, pipeQueryAsync, hreply]
        simp only [Session.next, hreply]
        rw [hmove]
        exact ⟨at_executed s.snapshot value (.error e) _, rfl⟩
      · have hmove : move job E (.running (.aexecute value) (.aexecuteSendWatched s.snapshot (some ⟨conn, true⟩))
            (s.putReserved none)) w =
            (.running (.aexecute value) (.aexecuteEndWatched s.snapshot (ReservedConnection.execReply raw))
              (s.putReserved none), w') := by
          simp [move, AsyncTask.outcome, AsyncTask.next, hexec, ReservedConnection.execBlock, pipeQueryAsync, hreply]
        simp only [Session.next, hreply]
        rw [hmove]
        exact ⟨at_executed s.snapshot value _ _, rfl⟩
    | raise e => exact hcall.elim
  | unwatching conn e =>
    cases hcall
    let s := (holding job.watches conn).released.close
    have hsrv : (Prog.exec E (ReservedConnection.unwatchIfNeeded ⟨conn, true⟩) s w).srv =
        (E.reply w (.cmd conn "UNWATCH" [])).2 := by
      cases hreply : (E.reply w (.cmd conn "UNWATCH" [])).1 <;>
        simp [ReservedConnection.unwatchIfNeeded, queryAsync, hreply]
    have hmove : move job E (.running (.aclose (.error e)) (.acloseSend (some ⟨conn, true⟩)) s) w =
        (.running (.aclose (.error e)) (.sent .nil) s, (E.reply w (.cmd conn "UNWATCH" [])).2) := by
      simp only [move, AsyncTask.outcome, AsyncTask.next, hsrv]
    have hend : Local job (.running (.aclose (.error e)) (.sent .nil) s) (finish job (.error e) (.ok (.raw .nil))) :=
      fun E w => rfl
    rw [hmove]
    exact ⟨.head hend (at_finish_error e (.raw .nil)), rfl⟩
  | returned v =>
    cases hcall
    exact ⟨h, rfl⟩
  | failed e =>
    cases hcall
    exact ⟨h, rfl⟩

/-! ## Serializability -/

section System

variable {ι : Type} [DecidableEq ι]

/-- a move of client `i` -/
def clientNext (jobs : ι → Job) (i : ι) (fate : Fate) (c : Client) (w : World ι) : Client × World ι :=
  move (jobs i) (wire i fate) c w

def start (jobs : ι → Job) (r : Redis) : Pool ι Client (World ι) := ⟨⟨r, []⟩, fun i => first (jobs i)⟩

/-- **`atransaction` is serializable.** For any interleaving of the clients' steps and foreign writes, and any calls that
fail. `bound` is what each client is bound to end in, once its last call was answered. -/
theorem atransaction_serializable (jobs : ι → Job) (r : Redis) (l : List (Serial.Event ι)) :
    let p := run (Serial.step (clientNext jobs)) (start jobs r) l
    ∃ bound : ι → Option (PyResult RawResult), Serialized jobs r p.shared bound ∧
      (∀ i res, bound i = some res → Alone (jobs i) (p.tasks i) (.ended res)) ∧
      ∀ i res, (p.tasks i).outcome = some res → bound i = some res := by
  intro p
  obtain ⟨l', hshared, hat⟩ := Serial.run_simulates (clientNext jobs) (Serial.sessionNext jobs)
    (R := fun i c s => At (jobs i) s c)
    (fun i fate c s w h => move_at (jobs i) (wire i fate) w h)
    (p := start jobs r) (q := Serial.sessions r) rfl (fun _ => at_first) l
  have hserial := Serial.session_serialized jobs r l'
  rw [hshared] at hserial
  refine ⟨_, hserial, fun i res hres => ?_, fun i res hres => ?_⟩
  · obtain ⟨c', halone, hcall⟩ := hat i
    cases hs : (run (Serial.step (Serial.sessionNext jobs)) (Serial.sessions r) l').tasks i with
    | returned v =>
      rw [hs] at hres hcall
      cases hres
      cases hcall
      exact halone
    | failed e =>
      rw [hs] at hres hcall
      cases hres
      cases hcall
      exact halone
    | _ =>
      rw [hs] at hres
      cases hres
  · have hended : p.tasks i = .ended res := by
      cases hc : p.tasks i with
      | running a task pipe =>
        rw [hc] at hres
        cases hres
      | ended res' =>
        rw [hc] at hres
        cases hres
        rfl
    have hbound := hat i
    rw [hended] at hbound
    exact hbound.ended Redis.server r

end System

end RedisRsPy.AsyncTransaction
