/-
The lifecycles of `Pipeline` and `AsyncPipeline`, compared operation by operation.

Both classes are driven by the same list of operations against the same server, each operation run to completion before
the next one starts (`syncEnd`, `asyncEnd`). What is compared after each operation is `Seen`: how it ended (a value or
an exception class) and the fields of the state.

The two copies agree on every operation but three, and the exact condition is `Agrees`:
- `reset` on an open pipeline: the async one is `aclose`, and closes it;
- `unwatch` on a closed pipeline: the async one has no check and succeeds;
- `unwatch` and `discard` when their UNWATCH fails: the sync ones stop there with the error and stay watching; the async
  `unwatch` clears the watch before it raises, and the async `discard` drops the error.

Results:
- `asyncEnd_eq`: where `Agrees` holds the two end in the same outcome, state and server, from any state of the invariant;
- `seen_ne`: where it does not, they are seen to differ;
- `lifecycle_iff`: two whole runs are seen to be the same iff every step of the run agrees.
-/
import RedisRsPy.Pipeline.Async
import RedisRsPy.Pipeline.SyncInvariant

namespace RedisRsPy.Lifecycle

open Lib Prog Pipeline

/-- the operations the two classes share -/
inductive Op where
  | command (name : String) (args : List Bytes)
  | watch (keys : List String)
  | unwatch
  | multi
  | discard
  | execute
  | reset
  | close
deriving DecidableEq

def Op.sync : Op → Call
  | command name args => .command name args
  | watch keys => .watch keys
  | unwatch => .unwatch
  | multi => .multi
  | discard => .discard
  | execute => .execute
  | reset => .reset
  | close => .close

def Op.async : Op → AsyncCall
  | command name args => .command name args
  | watch keys => .awatch keys
  | unwatch => .aunwatch
  | multi => .multi
  | discard => .adiscard
  | execute => .aexecute
  | reset => .reset
  | close => .aclose

variable {ω : Type} (E : Server Query Answer ω)

/-- outcome, state and server after one operation -/
abbrev Ending (ω : Type) := Option (PyResult CmdRet) × (PipelineState × ω)

/-- one operation of the sync class -/
def syncEnd (p : PipelineState × ω) (op : Op) : Ending ω :=
  (some (exec E op.sync.prog p.1 p.2).val, callStep E p op.sync)

/-- no task takes more steps than this alone (`asyncEnd_finishes`) -/
def taskBound : ℕ := 7

/-- one operation of the async class: its task runs alone until it is done -/
def asyncEnd (p : PipelineState × ω) (op : Op) : Ending ω :=
  let o := solo (AsyncTask.next E) taskBound op.async.start p
  (o.1.outcome, o.2)

/-- how a call is seen to end: a value, an exception class, or (`none`) a panic -/
def ended : PyResult CmdRet → Except (Option ExceptionClass) CmdRet
  | .ok v => .ok v
  | .error (.raised e) => .error (some e.cls)
  | .error (.panicked _) => .error none

/-- what is compared after an operation -/
structure Seen where
  ended : Option (Except (Option ExceptionClass) CmdRet)
  commands : List BufferedCmd
  watchedKeys : List String
  watching : Bool
  explicitTransaction : Bool
  closed : Bool
  /-- a reservation is held, and whether it still has a WATCH on the server -/
  reserved : Option Bool

def seen (o : Ending ω) : Seen :=
  ⟨o.1.map ended, o.2.1.commands, o.2.1.watchedKeys, o.2.1.watching, o.2.1.explicitTransaction, o.2.1.closed,
    o.2.1.reserved.map (·.watched)⟩

/-- what is seen of a whole run, one entry per operation -/
def trace (step : PipelineState × ω → Op → Ending ω) : PipelineState × ω → List Op → List Seen
  | _, [] => []
  | p, op :: ops => seen (step p op) :: trace step (step p op).2 ops

/-! ## The condition -/

/-- the UNWATCH that `unwatch` and `discard` send, if they send one, succeeds -/
def UnwatchSucceeds (p : PipelineState × ω) : Prop :=
  ∀ r, p.1.reserved = some r → r.watched = true → ∃ v, (E.reply p.2 (.cmd r.inner "UNWATCH" [])).1 = .ok v

/-- the operation does the same in both classes -/
def Agrees (p : PipelineState × ω) : Op → Prop
  | .reset => p.1.closed = true
  | .unwatch => p.1.closed = false ∧ UnwatchSucceeds E p
  | .discard => UnwatchSucceeds E p
  | _ => True

/-- commands are buffered only outside immediate mode -/
def BuffersOnly (p : PipelineState × ω) : Op → Prop
  | .command _ _ => p.1.immediate = false
  | _ => True

/-- the run of the sync class -/
def opStep (p : PipelineState × ω) (op : Op) : PipelineState × ω := (syncEnd E p op).2

/-! ## Agreement, one operation at a time -/

variable {E} {s : PipelineState} {w : ω}

theorem command_agrees (hb : s.immediate = false) (name : String) (args : List Bytes) :
    asyncEnd E (s, w) (.command name args) = syncEnd E (s, w) (.command name args) := by
  cases hc : s.closed with
  | true =>
    simp [asyncEnd, syncEnd, callStep, taskBound, solo_succ, Op.async, Op.sync, AsyncCall.start, AsyncTask.next,
      AsyncTask.outcome, Call.prog, hc, exec_bufOrDispatch_closed E w hc]
  | false =>
    simp [asyncEnd, syncEnd, callStep, taskBound, solo_succ, Op.async, Op.sync, AsyncCall.start, AsyncTask.next,
      AsyncTask.outcome, Call.prog, hc, exec_bufOrDispatch_buffer E w hc hb]

theorem multi_agrees : asyncEnd E (s, w) .multi = syncEnd E (s, w) .multi := by
  simp [asyncEnd, syncEnd, callStep, taskBound, solo_succ, Op.async, Op.sync, AsyncCall.start, AsyncTask.next,
    AsyncTask.outcome, Call.prog, Pipeline.multi]

/-- what an async call sends when it ends in `True` or an error -/
def trueOrError : RedisResult Unit → RawResult
  | .ok () => .bool true
  | .error e => classify e

/-- from the take on, the async watch does what the sync one does -/
theorem awatch_from_take (keys : List String) {r : ReservedConnection} (hr : s.reserved = some r) :
    solo (AsyncTask.next E) 4 (.awatchTake keys) (s, w) =
      let o := exec E (r.watch keys) (s.putReserved none) w
      (.sent (trueOrError o.val.1), ((watchEnd keys o.val s).2, o.srv)) := by
  rcases hv : (exec E (r.watch keys) (s.putReserved none) w).val with ⟨e | u, r'⟩ <;>
    simp [solo_succ, AsyncTask.next, hr, hv, watchEnd, trueOrError]

/-- what the awaiting caller of `awatch` gets is what `watch` returns -/
theorem outcome_watchEnd (keys : List String) (o : RedisResult Unit × ReservedConnection) (s : PipelineState) :
    (AsyncTask.sent (trueOrError o.1)).outcome = some ((watchEnd keys o s).1.map .raw) := by
  rcases o with ⟨e | u, r⟩ <;> rfl

theorem watch_agrees (keys : List String) : asyncEnd E (s, w) (.watch keys) = syncEnd E (s, w) (.watch keys) := by
  cases hc : s.closed with
  | true =>
    simp [asyncEnd, syncEnd, callStep, taskBound, solo_succ, Op.async, Op.sync, AsyncCall.start, AsyncTask.next,
      AsyncTask.outcome, Call.prog, hc, exec_watch_closed E w hc, raise, Except.map]
  | false =>
    cases he : s.explicitTransaction with
    | true =>
      simp [asyncEnd, syncEnd, callStep, taskBound, solo_succ, Op.async, Op.sync, AsyncCall.start, AsyncTask.next,
        AsyncTask.outcome, Call.prog, hc, he, exec_watch_multi E w hc he, raise, Except.map]
    | false =>
      cases hr : s.reserved with
      | some r =>
        -- check, take, send, put, mark: two of the seven moves are left over
        have hsolo : solo (AsyncTask.next E) taskBound (.awatch keys) (s, w) =
            solo (AsyncTask.next E) (4 + 2) (.awatchTake keys) (s, w) := by
          rw [taskBound, solo_succ]
          simp [AsyncTask.next, hc, he, hr]
        simp only [asyncEnd, syncEnd, callStep, Op.async, Op.sync, AsyncCall.start, Call.prog, hsolo, solo_add,
          awatch_from_take keys hr, AsyncTask.solo_sent, exec_map, exec_watch_reserved E w hc he hr]
        rw [outcome_watchEnd keys _ s]
      | none =>
        rcases hq : E.reply w .reserve with ⟨e | c, w'⟩
        · simp [asyncEnd, syncEnd, callStep, taskBound, solo_succ, Op.async, Op.sync, AsyncCall.start, AsyncTask.next,
            AsyncTask.outcome, Call.prog, hc, he, hr, hq, exec_watch_refused E w hc he hr hq, raise, Except.map]
        · -- check, reserve, store first: all seven moves are used
          have hsolo : solo (AsyncTask.next E) taskBound (.awatch keys) (s, w) =
              solo (AsyncTask.next E) 4 (.awatchTake keys) (s.putReserved (some (.new c)), w') := by
            rw [taskBound, solo_succ, solo_succ, solo_succ]
            simp [AsyncTask.next, hc, he, hr, hq]
          have hs := PipelineState.putReserved_self hr
          have htake := awatch_from_take (E := E) (w := w') (s := s.putReserved (some (.new c))) keys rfl
          rw [PipelineState.putReserved_putReserved, hs] at htake
          simp only [asyncEnd, syncEnd, callStep, Op.async, Op.sync, AsyncCall.start, Call.prog, hsolo, htake, exec_map,
            exec_watch_fresh E w hc he hr hq]
          rw [outcome_watchEnd keys _ s]
          rfl

/-- the async `unwatch`, whatever comes back: the watch is cleared, then the result is sent -/
theorem asyncEnd_unwatch_some {r : ReservedConnection} (hr : s.reserved = some r) :
    asyncEnd E (s, w) .unwatch =
      let o := exec E r.unwatchIfNeeded (s.putReserved none) w
      ((AsyncTask.sent (trueOrError o.val.1)).outcome, (s.putReserved (some o.val.2)).unwatched, o.srv) := by
  rcases hv : (exec E r.unwatchIfNeeded (s.putReserved none) w).val with ⟨e | u, r'⟩ <;>
    simp [asyncEnd, taskBound, solo_succ, Op.async, AsyncCall.start, AsyncTask.next, hr, hv, trueOrError]

theorem asyncEnd_unwatch_none (hr : s.reserved = none) :
    asyncEnd E (s, w) .unwatch = (some (.ok (.raw (.bool true))), s.unwatched, w) := by
  simp [asyncEnd, taskBound, solo_succ, Op.async, AsyncCall.start, AsyncTask.next, hr, AsyncTask.outcome, Except.map,
    PipelineState.putReserved_self]

theorem asyncEnd_discard_some {r : ReservedConnection} (hr : s.reserved = some r) :
    asyncEnd E (s, w) .discard =
      let o := exec E r.unwatchIfNeeded (s.putReserved none) w
      (some (.ok (.raw .nil)), (s.putReserved (some o.val.2)).discarded, o.srv) := by
  simp [asyncEnd, taskBound, solo_succ, Op.async, AsyncCall.start, AsyncTask.next, hr, AsyncTask.outcome, Except.map]

theorem asyncEnd_discard_none (hr : s.reserved = none) :
    asyncEnd E (s, w) .discard = (some (.ok (.raw .nil)), s.discarded, w) := by
  simp [asyncEnd, taskBound, solo_succ, Op.async, AsyncCall.start, AsyncTask.next, hr, AsyncTask.outcome, Except.map,
    PipelineState.putReserved_self]

/-- the flag of the reservation decides whether UNWATCH is sent; where it is, it succeeds -/
theorem UnwatchSucceeds.val_eq {p : PipelineState × ω} (hu : UnwatchSucceeds E p) {r : ReservedConnection}
    (hr : p.1.reserved = some r) (t : PipelineState) :
    (exec E r.unwatchIfNeeded t p.2).val = (.ok (), { r with watched := false }) := by
  rcases r.unwatchIfNeeded_cases E t p.2 with h | ⟨hw, e, h⟩
  · exact h
  · obtain ⟨v, hv⟩ := hu r hr hw
    simp [ReservedConnection.unwatchIfNeeded, hw, queryAsync, hv] at h

theorem unwatch_agrees (hc : s.closed = false) (hu : UnwatchSucceeds E (s, w)) :
    asyncEnd E (s, w) .unwatch = syncEnd E (s, w) .unwatch := by
  cases hr : s.reserved with
  | none =>
    rw [asyncEnd_unwatch_none hr]
    simp [syncEnd, callStep, Op.sync, Call.prog, exec_unwatch_none E w hc hr, Except.map]
  | some r =>
    have hv := hu.val_eq hr (s.putReserved none)
    rw [asyncEnd_unwatch_some hr]
    simp [syncEnd, callStep, Op.sync, Call.prog, exec_unwatch_some E w hc hr, hv, unwatchEnd, trueOrError,
      AsyncTask.outcome, Except.map]

theorem discard_agrees (hi : Inv s) (hu : UnwatchSucceeds E (s, w)) :
    asyncEnd E (s, w) .discard = syncEnd E (s, w) .discard := by
  cases hr : s.reserved with
  | none =>
    rw [asyncEnd_discard_none hr]
    simp [syncEnd, callStep, Op.sync, Call.prog, exec_discard_none E w (Or.inr hr), Except.map]
  | some r =>
    have hv := hu.val_eq hr (s.putReserved none)
    rw [asyncEnd_discard_some hr]
    simp [syncEnd, callStep, Op.sync, Call.prog, exec_discard_some E w (hi.closed_of_some hr) hr, hv, discardEnd,
      Except.map]

/-- `aclose`, which is also the async `reset` -/
theorem asyncEnd_close_some {r : ReservedConnection} (hr : s.reserved = some r) :
    solo (AsyncTask.next E) taskBound .aclose (s, w) =
      (.sent .nil, s.released.close, (exec E r.unwatchIfNeeded s.released.close w).srv) := by
  simp [taskBound, solo_succ, AsyncTask.next, hr]

theorem asyncEnd_close_none (hr : s.reserved = none) :
    solo (AsyncTask.next E) taskBound .aclose (s, w) = (.sent .nil, s.released.close, w) := by
  simp [taskBound, solo_succ, AsyncTask.next, hr]

theorem close_agrees : asyncEnd E (s, w) .close = syncEnd E (s, w) .close := by
  cases hr : s.reserved with
  | none =>
    simp [asyncEnd, syncEnd, callStep, Op.async, Op.sync, AsyncCall.start, Call.prog, asyncEnd_close_none hr, exec_close,
      exec_releaseReserved_none E w hr, AsyncTask.outcome, Except.map]
  | some r =>
    have hw := (r.unwatchIfNeeded_congr E s.released.close w s.released).2
    simp [asyncEnd, syncEnd, callStep, Op.async, Op.sync, AsyncCall.start, Call.prog, asyncEnd_close_some hr, exec_close,
      exec_releaseReserved_some E w hr, AsyncTask.outcome, Except.map, hw]

/-- on a closed pipeline there is nothing left for a reset to do, and it stays closed -/
theorem reset_agrees (hi : Inv s) (hc : s.closed = true) :
    asyncEnd E (s, w) .reset = syncEnd E (s, w) .reset := by
  have hr := (hi.closed_idle hc).1
  have hclose : s.released.close = s.released := by
    cases s
    simp_all [PipelineState.close, PipelineState.released]
  simp [asyncEnd, syncEnd, callStep, Op.async, Op.sync, AsyncCall.start, Call.prog, asyncEnd_close_none hr, hclose,
    Pipeline.reset, exec_releaseReserved_none E w hr, AsyncTask.outcome, Except.map]

/-- the async watched path: take, send, clear -/
theorem asyncEnd_execute_watched (hc : s.closed = false) (hw : Watched s) {r : ReservedConnection}
    (hr : s.reserved = some r) :
    asyncEnd E (s, w) .execute =
      let o := exec E (r.pipelineExecWatched s.watchedKeys s.commands) (s.putReserved none) w
      ((AsyncTask.sent (watchedRaw o.val.1)).outcome, s.released, o.srv) := by
  have hp := hw.pending
  have hbranch : s.watching = true ∨ s.explicitTransaction = true ∧ s.reserved.isSome = true := hw
  rw [hr] at hbranch
  simp only [Option.isSome_some, and_true] at hbranch
  simp [asyncEnd, taskBound, solo_succ, Op.async, AsyncCall.start, AsyncTask.next, hc, hp, hr, PipelineState.snapshot,
    hbranch]

theorem asyncEnd_execute_plain (hc : s.closed = false) (hp : s.pending) (hw : ¬ Watched s) :
    asyncEnd E (s, w) .execute =
      let o := E.reply w (.pipelineExec s.commands (s.transaction || s.explicitTransaction))
      (some (Except.map (fun vs => .raw (.value (.array vs))) (mapErr o.1)), s.flushed, o.2) := by
  have hbranch : ¬ (s.watching = true ∨ s.explicitTransaction = true ∧ s.reserved.isSome = true) := hw
  rcases hq : E.reply w (.pipelineExec s.commands (s.transaction || s.explicitTransaction)) with ⟨e | vs, w'⟩ <;>
    simp [asyncEnd, taskBound, solo_succ, Op.async, AsyncCall.start, AsyncTask.next, hc, hp, PipelineState.snapshot,
      hbranch, hq, AsyncTask.outcome, Except.map, mapErr, outcome_classify]

/-- all it needs is the reservation of the watched path -/
theorem execute_agrees (hres : Watched s → ∃ r, s.reserved = some r) :
    asyncEnd E (s, w) .execute = syncEnd E (s, w) .execute := by
  cases hc : s.closed with
  | true =>
    simp [asyncEnd, syncEnd, callStep, taskBound, solo_succ, Op.async, Op.sync, AsyncCall.start, AsyncTask.next,
      AsyncTask.outcome, Call.prog, hc, exec_execute_closed E w hc, raise, Except.map]
  | false =>
    by_cases hp : s.pending
    · by_cases hw : Watched s
      · obtain ⟨r, hr⟩ := hres hw
        rw [asyncEnd_execute_watched hc hw hr]
        simp [syncEnd, callStep, Op.sync, Call.prog, exec_execute_watched E w hc hw, exec_executeWatched E w hr,
          AsyncTask.outcome, watchedRaw_outcome]
      · rw [asyncEnd_execute_plain hc hp hw]
        rcases hq : E.reply w (.pipelineExec s.commands (s.transaction || s.explicitTransaction)) with ⟨e | vs, w'⟩ <;>
          simp [syncEnd, callStep, Op.sync, Call.prog, exec_execute_plain E w hc hp hw, hq, mapErr, Except.map]
    · simp [asyncEnd, syncEnd, callStep, taskBound, solo_succ, Op.async, Op.sync, AsyncCall.start, AsyncTask.next,
        AsyncTask.outcome, Call.prog, hc, hp, exec_execute_idle E w hc hp, Except.map]

/-- **Agreement, one operation.** Where `Agrees` holds, both classes end in the same outcome, state and server. -/
theorem asyncEnd_eq (hi : Inv s) {op : Op} (hb : BuffersOnly (s, w) op) (ha : Agrees E (s, w) op) :
    asyncEnd E (s, w) op = syncEnd E (s, w) op := by
  cases op with
  | command name args => exact command_agrees hb name args
  | watch keys => exact watch_agrees keys
  | unwatch => exact unwatch_agrees ha.1 ha.2
  | multi => exact multi_agrees
  | discard => exact discard_agrees hi ha
  | execute => exact execute_agrees hi.reserved_of_watched
  | reset => exact reset_agrees hi ha
  | close => exact close_agrees

/-- every async operation is done within `taskBound` moves -/
theorem asyncEnd_finishes (hi : Inv s) (op : Op) : (asyncEnd E (s, w) op).1.isSome := by
  have hclose : (solo (AsyncTask.next E) taskBound .aclose (s, w)).1.outcome.isSome := by
    cases hr : s.reserved with
    | none => simp [asyncEnd_close_none hr, AsyncTask.outcome]
    | some r => simp [asyncEnd_close_some hr, AsyncTask.outcome]
  cases op with
  | command name args =>
    cases hc : s.closed <;>
      simp [asyncEnd, taskBound, solo_succ, Op.async, AsyncCall.start, AsyncTask.next, AsyncTask.outcome, hc]
  | watch keys => rw [watch_agrees]; rfl
  | multi => rw [multi_agrees]; rfl
  | execute => rw [execute_agrees hi.reserved_of_watched]; rfl
  | reset => exact hclose
  | close => exact hclose
  | unwatch =>
    cases hr : s.reserved with
    | none => simp [asyncEnd_unwatch_none hr]
    | some r => simp [asyncEnd_unwatch_some hr, AsyncTask.outcome]
  | discard =>
    cases hr : s.reserved with
    | none => simp [asyncEnd_discard_none hr]
    | some r => simp [asyncEnd_discard_some hr]

/-- the ending of an operation is the one its task comes to in the pool when no other task is scheduled -/
theorem asyncEnd_scheduled {ι : Type} [DecidableEq ι] (p : Pool ι AsyncTask (PipelineState × ω)) (i : ι) (op : Op)
    (hi : p.tasks i = op.async.start) :
    asyncEnd E p.shared op =
      let q := run (Pool.step (AsyncTask.next E)) p (List.replicate taskBound i)
      ((q.tasks i).outcome, q.shared) := by
  rw [run_replicate, hi]
  simp only [asyncEnd, Function.update_self]

/-! ## Difference, one operation at a time -/

/-- the only way for an UNWATCH to fail: the reservation is flagged and the server answers with an error -/
theorem exists_failure (hu : ¬ UnwatchSucceeds E (s, w)) :
    ∃ r e, s.reserved = some r ∧ r.watched = true ∧
      ∀ t : PipelineState, (exec E r.unwatchIfNeeded t w).val = (.error e, r) := by
  unfold UnwatchSucceeds at hu
  push Not at hu
  obtain ⟨r, hr, hw, hv⟩ := hu
  cases hq : (E.reply w (.cmd r.inner "UNWATCH" [])).1 with
  | ok v => exact absurd hq (hv v)
  | error e =>
    refine ⟨r, e, hr, hw, fun t => ?_⟩
    simp [ReservedConnection.unwatchIfNeeded, hw, queryAsync, hq]

/-- the async reset of an open pipeline closes it, the sync one does not -/
theorem reset_seen_ne (hc : s.closed = false) : seen (syncEnd E (s, w) .reset) ≠ seen (asyncEnd E (s, w) .reset) := by
  have hsync : (seen (syncEnd E (s, w) .reset)).closed = false := by
    simp [seen, syncEnd, callStep, Op.sync, Call.prog, Pipeline.reset, (releaseReserved_spec E w).2, hc]
  have hasync : (seen (asyncEnd E (s, w) .reset)).closed = true := by
    cases hr : s.reserved with
    | none => simp [seen, asyncEnd, Op.async, AsyncCall.start, asyncEnd_close_none hr]
    | some r => simp [seen, asyncEnd, Op.async, AsyncCall.start, asyncEnd_close_some hr]
  intro h
  rw [h, hasync] at hsync
  cases hsync

/-- on a closed pipeline the sync `unwatch` raises and the async one succeeds -/
theorem unwatch_closed_seen_ne (hi : Inv s) (hc : s.closed = true) :
    seen (syncEnd E (s, w) .unwatch) ≠ seen (asyncEnd E (s, w) .unwatch) := by
  have hr := (hi.closed_idle hc).1
  intro h
  have hended := congrArg Seen.ended h
  simp [seen, asyncEnd_unwatch_none hr, syncEnd, callStep, Op.sync, Call.prog, exec_unwatch_closed E w hc, raise, ended,
    Except.map] at hended

/-- when UNWATCH fails the sync `unwatch` is still watching and the async one is not -/
theorem unwatch_failed_seen_ne (hi : Inv s) (hu : ¬ UnwatchSucceeds E (s, w)) :
    seen (syncEnd E (s, w) .unwatch) ≠ seen (asyncEnd E (s, w) .unwatch) := by
  obtain ⟨r, e, hr, hw, hv⟩ := exists_failure hu
  intro h
  have hwatching := congrArg Seen.watching h
  simp [seen, asyncEnd_unwatch_some hr, syncEnd, callStep, Op.sync, Call.prog,
    exec_unwatch_some E w (hi.closed_of_some hr) hr, hv, unwatchEnd, hi.watched_watching r hr hw] at hwatching

/-- when UNWATCH fails the sync `discard` raises and the async one succeeds -/
theorem discard_failed_seen_ne (hi : Inv s) (hu : ¬ UnwatchSucceeds E (s, w)) :
    seen (syncEnd E (s, w) .discard) ≠ seen (asyncEnd E (s, w) .discard) := by
  obtain ⟨r, e, hr, hw, hv⟩ := exists_failure hu
  intro h
  have hended := congrArg Seen.ended h
  simp [seen, asyncEnd_discard_some hr, syncEnd, callStep, Op.sync, Call.prog,
    exec_discard_some E w (hi.closed_of_some hr) hr, hv, discardEnd, toPyErr, ended, Except.map] at hended

/-- **Difference, one operation.** Where `Agrees` fails, the two classes are seen to differ. -/
theorem seen_ne (hi : Inv s) {op : Op} (ha : ¬ Agrees E (s, w) op) :
    seen (syncEnd E (s, w) op) ≠ seen (asyncEnd E (s, w) op) := by
  cases op with
  | command name args => exact absurd trivial ha
  | watch keys => exact absurd trivial ha
  | multi => exact absurd trivial ha
  | execute => exact absurd trivial ha
  | close => exact absurd trivial ha
  | reset => exact reset_seen_ne (by simpa [Agrees] using ha)
  | discard => exact discard_failed_seen_ne hi ha
  | unwatch =>
    cases hc : s.closed with
    | true => exact unwatch_closed_seen_ne hi hc
    | false => exact unwatch_failed_seen_ne hi fun hu => ha ⟨hc, hu⟩

/-! ## Whole runs -/

theorem opStep_inv {p : PipelineState × ω} (h : Inv p.1) (op : Op) : Inv (opStep E p op).1 :=
  (call_inv E p.2 h op.sync).1

/-- from any state of the invariant, two runs are seen to be the same iff every step agrees -/
theorem trace_eq_iff (ops : List Op) (p : PipelineState × ω) (hi : Inv p.1) (hb : Along (opStep E) BuffersOnly p ops) :
    trace (syncEnd E) p ops = trace (asyncEnd E) p ops ↔ Along (opStep E) (Agrees E) p ops := by
  induction ops generalizing p with
  | nil => simp [trace, Along]
  | cons op ops ih =>
    simp only [trace, List.cons.injEq, Along]
    constructor
    · rintro ⟨hseen, htail⟩
      have ha : Agrees E p op := by
        by_contra hn
        exact seen_ne hi hn hseen
      have heq := asyncEnd_eq hi hb.1 ha
      refine ⟨ha, (ih _ (opStep_inv hi op) hb.2).1 ?_⟩
      rw [heq] at htail
      exact htail
    · rintro ⟨ha, htail⟩
      have heq := asyncEnd_eq hi hb.1 ha
      refine ⟨by rw [heq], ?_⟩
      rw [heq]
      exact (ih _ (opStep_inv hi op) hb.2).2 htail

/-- **Same lifecycle, exactly when every step agrees.** Two new pipelines driven by the same operations, commands
buffered outside immediate mode only, under the same server: what is seen of the two runs is the same iff no `reset`
meets an open pipeline, no `unwatch` a closed one, and no UNWATCH of `unwatch` or `discard` fails. -/
theorem lifecycle_iff (w : ω) (transaction : Bool) (ops : List Op)
    (hb : Along (opStep E) BuffersOnly (PipelineState.new transaction, w) ops) :
    trace (syncEnd E) (PipelineState.new transaction, w) ops = trace (asyncEnd E) (PipelineState.new transaction, w) ops ↔
      Along (opStep E) (Agrees E) (PipelineState.new transaction, w) ops :=
  trace_eq_iff ops _ (inv_new transaction) hb

/-- a whole optimistic transaction: nothing in it tells the two classes apart -/
theorem lifecycle_transaction :
    let ops : List Op := [.watch ["k"], .multi, .command "SET" [asBytes "k", asBytes "1"], .execute, .close, .reset]
    trace (syncEnd obliging) (.new true, ()) ops = trace (asyncEnd obliging) (.new true, ()) ops := by
  intro ops
  have hb : Along (opStep obliging) BuffersOnly (.new true, ()) ops :=
    ⟨trivial, trivial, rfl, trivial, trivial, trivial, trivial⟩
  have ha : Along (opStep obliging) (Agrees obliging) (.new true, ()) ops :=
    ⟨trivial, trivial, trivial, trivial, trivial, rfl, trivial⟩
  exact (lifecycle_iff () true ops hb).2 ha

/-- a command after `reset`: buffered by the sync class, refused by the async one, which is closed -/
theorem reset_then_command_differs :
    let ops : List Op := [.reset, .command "GET" [asBytes "k"]]
    Along (opStep obliging) BuffersOnly (.new true, ()) ops ∧
      trace (syncEnd obliging) (.new true, ()) ops ≠ trace (asyncEnd obliging) (.new true, ()) ops := by
  refine ⟨⟨trivial, rfl, trivial⟩, fun h => ?_⟩
  have hclosed := congrArg (List.map Seen.closed) h
  revert hclosed
  decide

end RedisRsPy.Lifecycle
