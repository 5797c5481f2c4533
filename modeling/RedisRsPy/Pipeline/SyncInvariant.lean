/-
The state invariant of the sync `Pipeline` over every sequence of calls made by one thread, under every answer of the
server.

The server `E` is any reply function on any state, so a run covers every choice of success or failure for each
`reserve_connection` and each round trip. `Inv` relates the five fields and the flag inside the reservation:
- watching ⇒ a reservation is held;
- watched keys ⇒ the reservation has its WATCH;
- the reservation has its WATCH ⇒ watching;
- closed ⇒ no reservation, not watching.

Results:
- `call_inv`: every call keeps `Inv`, on every error path, and never panics (no `unwrap` meets `None`);
- `pipeline_run_safe`: in every reached state `Inv` holds; the next call does not panic; an immediate command goes out
  on the reservation; a watched `execute` sends exactly one block on the reservation, so the late WATCH of
  `pipeline_exec_watched` is never sent; `execute` with pending work leaves no commands and no MULTI.
-/
import RedisRsPy.Lib.Runs
import RedisRsPy.Pipeline.SyncSpec

namespace RedisRsPy.Pipeline

open Lib Prog

/-- a call on a `Pipeline` from Python -/
inductive Call where
  | command (name : String) (args : List Bytes)
  | watch (keys : List String)
  | unwatch
  | multi
  | discard
  | execute
  | reset
  | close
  | exit

/-- the method behind a call; `()` is Python's `None`, and `__exit__` releases and returns `False` -/
def Call.prog : Call → PipeM (PyResult CmdRet)
  | .command name args => bufOrDispatch name args
  | .watch keys => Except.map .raw <$> Pipeline.watch keys
  | .unwatch => Except.map .raw <$> Pipeline.unwatch
  | .multi => Except.map (fun _ => .raw .nil) <$> Pipeline.multi
  | .discard => Except.map (fun _ => .raw .nil) <$> Pipeline.discard
  | .execute => Except.map .raw <$> Pipeline.execute
  | .reset => Except.map (fun _ => .raw .nil) <$> Pipeline.reset
  | .close => Except.map (fun _ => .raw .nil) <$> Pipeline.close
  | .exit => Except.map (fun _ => .raw (.bool false)) <$> releaseReserved

/-- one call, run to its end, as a step of pipeline and server -/
def callStep {ω : Type} (E : Server Query Answer ω) (p : PipelineState × ω) (c : Call) : PipelineState × ω :=
  ((exec E c.prog p.1 p.2).st, (exec E c.prog p.1 p.2).srv)

/-- the result is not a Rust panic -/
def NoPanic {α : Type} (v : PyResult α) : Prop := ∀ msg, v ≠ .error (.panicked msg)

theorem NoPanic.map {α β : Type} (f : α → β) {v : PyResult α} (h : NoPanic v) : NoPanic (v.map f) := by
  intro msg hv
  cases v with
  | error e =>
    simp only [Except.map, Except.error.injEq] at hv
    exact h msg (by rw [hv])
  | ok a => simp [Except.map] at hv

@[simp] theorem noPanic_ok {α : Type} (a : α) : NoPanic (.ok a : PyResult α) := by intro msg; simp

@[simp] theorem noPanic_raise {α : Type} (cls : ExceptionClass) (m : String) : NoPanic (raise cls m : PyResult α) := by
  intro msg; simp [raise]

@[simp] theorem noPanic_toPyErr {α : Type} (e : RedisError) : NoPanic (.error (toPyErr e) : PyResult α) := by
  intro msg; simp [toPyErr]

/-! ## The invariant -/

structure Inv (s : PipelineState) : Prop where
  watching_reserved : s.watching = true → s.reserved.isSome
  keys_watched : s.watchedKeys ≠ [] → ∃ r, s.reserved = some r ∧ r.watched = true
  watched_watching : ∀ r, s.reserved = some r → r.watched = true → s.watching = true
  closed_idle : s.closed = true → s.reserved = none ∧ s.watching = false

theorem inv_new (transaction : Bool) : Inv (.new transaction) := by
  constructor <;> simp [PipelineState.new]

theorem inv_released (s : PipelineState) : Inv s.released := by
  constructor <;> simp

theorem Inv.keys_watched_of {s : PipelineState} (h : Inv s) {r : ReservedConnection} (hr : s.reserved = some r)
    (hk : s.watchedKeys ≠ []) : r.watched = true := by
  obtain ⟨r', hr', hw⟩ := h.keys_watched hk
  rw [hr] at hr'
  cases hr'
  exact hw

/-- with no reservation there is nothing watched -/
theorem Inv.idle_of_none {s : PipelineState} (h : Inv s) (hr : s.reserved = none) :
    s.watching = false ∧ s.watchedKeys = [] := by
  constructor
  · cases hw : s.watching with
    | false => rfl
    | true => simpa [hr] using h.watching_reserved hw
  · by_contra hk
    obtain ⟨r, hr', _⟩ := h.keys_watched hk
    rw [hr] at hr'
    cases hr'

theorem Inv.closed_of_some {s : PipelineState} (h : Inv s) {r : ReservedConnection} (hr : s.reserved = some r) :
    s.closed = false := by
  cases hc : s.closed with
  | false => rfl
  | true => simpa [hr] using (h.closed_idle hc).1

/-- fields outside the invariant do not matter to it -/
theorem Inv.congr {s t : PipelineState} (h : Inv s) (hw : t.watching = s.watching) (hk : t.watchedKeys = s.watchedKeys)
    (hr : t.reserved = s.reserved) (hc : t.closed = s.closed) : Inv t where
  watching_reserved := by rw [hw, hr]; exact h.watching_reserved
  keys_watched := by rw [hk, hr]; exact h.keys_watched
  watched_watching := by rw [hw, hr]; exact h.watched_watching
  closed_idle := by rw [hw, hr, hc]; exact h.closed_idle

/-! ## What each method keeps -/

section Methods

variable {ω : Type} (E : Server Query Answer ω) {s : PipelineState} (w : ω)

theorem releaseReserved_spec :
    (exec E releaseReserved s w).val = .ok () ∧ (exec E releaseReserved s w).st = s.released := by
  cases h : s.reserved with
  | none => simp [exec_releaseReserved_none E w h]
  | some r => simp [exec_releaseReserved_some E w h]

theorem bufOrDispatch_spec (h : Inv s) (name : String) (args : List Bytes) :
    Inv (exec E (bufOrDispatch name args) s w).st ∧ NoPanic (exec E (bufOrDispatch name args) s w).val := by
  cases hc : s.closed with
  | true =>
    rw [exec_bufOrDispatch_closed E w hc]
    exact ⟨h, noPanic_raise _ _⟩
  | false =>
    cases hi : s.immediate with
    | false =>
      rw [exec_bufOrDispatch_buffer E w hc hi]
      exact ⟨h.congr rfl rfl rfl rfl, noPanic_ok _⟩
    | true =>
      have hw : s.watching = true := by
        simp only [PipelineState.immediate, Bool.and_eq_true] at hi
        exact hi.1
      obtain ⟨r, hr⟩ := Option.isSome_iff_exists.1 (h.watching_reserved hw)
      rw [exec_bufOrDispatch_immediate E w hc hi, exec_dispatchImmediateInner E w hr]
      rcases E.reply w (.cmd r.inner name args) with ⟨e | v, w'⟩
      · exact ⟨h, noPanic_toPyErr _⟩
      · exact ⟨h, noPanic_ok _⟩

theorem watchedResult_noPanic (o : RedisResult WatchedExecResult) : NoPanic (watchedResult o) := by
  rcases o with e | items | _
  · exact noPanic_toPyErr _
  · exact noPanic_ok _
  · exact noPanic_raise _ _

/-- the reservation the WATCH/EXEC path needs is there -/
theorem Inv.reserved_of_watched (h : Inv s) (hw : Watched s) : ∃ r, s.reserved = some r := by
  rcases hw with hw | ⟨_, hr⟩
  · exact Option.isSome_iff_exists.1 (h.watching_reserved hw)
  · exact Option.isSome_iff_exists.1 hr

theorem execute_spec (h : Inv s) : Inv (exec E execute s w).st ∧ NoPanic (exec E execute s w).val := by
  cases hc : s.closed with
  | true =>
    rw [exec_execute_closed E w hc]
    exact ⟨h, noPanic_raise _ _⟩
  | false =>
    by_cases hp : s.pending
    · by_cases hw : Watched s
      · obtain ⟨r, hr⟩ := h.reserved_of_watched hw
        rw [exec_execute_watched E w hc hw, exec_executeWatched E w hr]
        exact ⟨inv_released s, watchedResult_noPanic _⟩
      · rw [exec_execute_plain E w hc hp hw]
        rcases E.reply w (.pipelineExec s.commands (s.transaction || s.explicitTransaction)) with ⟨e | vs, w'⟩
        · exact ⟨h.congr rfl rfl rfl rfl, noPanic_toPyErr _⟩
        · exact ⟨h.congr rfl rfl rfl rfl, noPanic_ok _⟩
    · rw [exec_execute_idle E w hc hp]
      exact ⟨h, noPanic_ok _⟩

/-- after the WATCH round trip: the reservation is back, flagged if the keys went through -/
theorem watchEnd_spec (hc : s.closed = false) {r : ReservedConnection} (hk : s.watchedKeys ≠ [] → r.watched = true)
    (hw : r.watched = true → s.watching = true) {keys : List String} {o : RedisResult Unit × ReservedConnection}
    (ho : keys = [] ∧ o = (.ok (), r) ∨
      keys ≠ [] ∧ (o = (.ok (), { r with watched := true }) ∨ ∃ e, o = (.error e, r))) :
    Inv (watchEnd keys o s).2 ∧ NoPanic (watchEnd keys o s).1 := by
  rcases ho with ⟨rfl, rfl⟩ | ⟨hne, rfl | ⟨e, rfl⟩⟩
  · refine ⟨⟨?_, ?_, ?_, ?_⟩, noPanic_ok _⟩ <;> simp [watchEnd, hc]
    exact hk
  · refine ⟨⟨?_, ?_, ?_, ?_⟩, noPanic_ok _⟩ <;> simp [watchEnd, hc]
  · refine ⟨⟨?_, ?_, ?_, ?_⟩, noPanic_toPyErr _⟩ <;> simp [watchEnd, hc]
    · exact hk
    · exact hw

theorem watch_spec (h : Inv s) (keys : List String) :
    Inv (exec E (watch keys) s w).st ∧ NoPanic (exec E (watch keys) s w).val := by
  cases hc : s.closed with
  | true =>
    rw [exec_watch_closed E w hc]
    exact ⟨h, noPanic_raise _ _⟩
  | false =>
    cases he : s.explicitTransaction with
    | true =>
      rw [exec_watch_multi E w hc he]
      exact ⟨h, noPanic_raise _ _⟩
    | false =>
      cases hr : s.reserved with
      | some r =>
        rw [exec_watch_reserved E w hc he hr]
        exact watchEnd_spec hc (h.keys_watched_of hr) (h.watched_watching r hr) (r.watch_cases E _ w keys)
      | none =>
        rcases hq : E.reply w .reserve with ⟨e | c, w'⟩
        · rw [exec_watch_refused E w hc he hr hq]
          exact ⟨h, noPanic_raise _ _⟩
        · rw [exec_watch_fresh E w hc he hr hq]
          refine watchEnd_spec hc (fun hk => absurd (h.idle_of_none hr).2 hk) (fun hw => ?_)
            ((ReservedConnection.new c).watch_cases E _ w' keys)
          simp [ReservedConnection.new] at hw

theorem unwatch_spec (h : Inv s) : Inv (exec E unwatch s w).st ∧ NoPanic (exec E unwatch s w).val := by
  cases hc : s.closed with
  | true =>
    rw [exec_unwatch_closed E w hc]
    exact ⟨h, noPanic_raise _ _⟩
  | false =>
    cases hr : s.reserved with
    | none =>
      rw [exec_unwatch_none E w hc hr]
      refine ⟨⟨?_, ?_, ?_, ?_⟩, noPanic_ok _⟩ <;> simp [hr]
    | some r =>
      rw [exec_unwatch_some E w hc hr]
      rcases r.unwatchIfNeeded_cases E (s.putReserved none) w with ho | ⟨_, e, ho⟩
      · refine ⟨⟨?_, ?_, ?_, ?_⟩, ?_⟩ <;> simp [unwatchEnd, ho, hc]
      · simp only [ho, unwatchEnd, PipelineState.putReserved_self hr]
        exact ⟨h, noPanic_toPyErr _⟩

theorem discard_spec (h : Inv s) : Inv (exec E discard s w).st ∧ NoPanic (exec E discard s w).val := by
  by_cases hn : s.closed = true ∨ s.reserved = none
  · have hr : s.reserved = none := hn.elim (fun hc => (h.closed_idle hc).1) id
    rw [exec_discard_none E w hn]
    refine ⟨⟨?_, ?_, ?_, ?_⟩, noPanic_ok _⟩ <;> simp [hr]
  · obtain ⟨r, hr⟩ := Option.ne_none_iff_exists'.1 fun hr => hn (Or.inr hr)
    have hc := h.closed_of_some hr
    rw [exec_discard_some E w hc hr]
    rcases r.unwatchIfNeeded_cases E (s.putReserved none) w with ho | ⟨_, e, ho⟩
    · refine ⟨⟨?_, ?_, ?_, ?_⟩, ?_⟩ <;> simp [discardEnd, ho, hc]
    · simp only [ho, discardEnd, PipelineState.putReserved_self hr]
      exact ⟨h, noPanic_toPyErr _⟩

theorem multi_spec (h : Inv s) : Inv (exec E multi s w).st ∧ NoPanic (exec E multi s w).val := by
  simp only [multi, exec_locked, multiSection]
  split_ifs
  · exact ⟨h, noPanic_raise _ _⟩
  · exact ⟨h, noPanic_raise _ _⟩
  · exact ⟨h, noPanic_raise _ _⟩
  · exact ⟨h.congr rfl rfl rfl rfl, noPanic_ok _⟩

theorem close_spec : Inv (exec E close s w).st ∧ NoPanic (exec E close s w).val := by
  rw [exec_close]
  refine ⟨⟨?_, ?_, ?_, ?_⟩, noPanic_ok _⟩ <;> simp

/-- **Step lemma.** Every call keeps the invariant on every path, and none panics. -/
theorem call_inv (h : Inv s) (c : Call) : Inv (exec E c.prog s w).st ∧ NoPanic (exec E c.prog s w).val := by
  cases c with
  | command name args => exact bufOrDispatch_spec E w h name args
  | watch keys =>
    simp only [Call.prog, exec_map]
    exact ⟨(watch_spec E w h keys).1, (watch_spec E w h keys).2.map _⟩
  | unwatch =>
    simp only [Call.prog, exec_map]
    exact ⟨(unwatch_spec E w h).1, (unwatch_spec E w h).2.map _⟩
  | multi =>
    simp only [Call.prog, exec_map]
    exact ⟨(multi_spec E w h).1, (multi_spec E w h).2.map _⟩
  | discard =>
    simp only [Call.prog, exec_map]
    exact ⟨(discard_spec E w h).1, (discard_spec E w h).2.map _⟩
  | execute =>
    simp only [Call.prog, exec_map]
    exact ⟨(execute_spec E w h).1, (execute_spec E w h).2.map _⟩
  | reset =>
    simp only [Call.prog, reset, exec_map, (releaseReserved_spec E w).1, (releaseReserved_spec E w).2]
    exact ⟨inv_released s, NoPanic.map _ (noPanic_ok _)⟩
  | close =>
    simp only [Call.prog, exec_map]
    exact ⟨(close_spec E w).1, (close_spec E w).2.map _⟩
  | exit =>
    simp only [Call.prog, exec_map, (releaseReserved_spec E w).1, (releaseReserved_spec E w).2]
    exact ⟨inv_released s, NoPanic.map _ (noPanic_ok _)⟩

/-! ## What is sent -/

/-- an immediate command is the one call on the reservation -/
theorem command_log (h : Inv s) (hc : s.closed = false) (hi : s.immediate = true) (name : String) (args : List Bytes) :
    ∃ r, s.reserved = some r ∧ (exec E (bufOrDispatch name args) s w).log = [.cmd r.inner name args] := by
  have hw : s.watching = true := by
    simp only [PipelineState.immediate, Bool.and_eq_true] at hi
    exact hi.1
  obtain ⟨r, hr⟩ := Option.isSome_iff_exists.1 (h.watching_reserved hw)
  refine ⟨r, hr, ?_⟩
  rw [exec_bufOrDispatch_immediate E w hc hi, exec_dispatchImmediateInner E w hr]
  rcases E.reply w (.cmd r.inner name args) with ⟨e | v, w'⟩ <;> rfl

/-- a watched execute sends its block on the reservation and nothing else: no late WATCH -/
theorem execute_log (h : Inv s) (hc : s.closed = false) (hw : Watched s) :
    ∃ r, s.reserved = some r ∧ (exec E execute s w).log = [.atomicPipe r.inner s.commands] := by
  obtain ⟨r, hr⟩ := h.reserved_of_watched hw
  refine ⟨r, hr, ?_⟩
  rw [exec_execute_watched E w hc hw, exec_executeWatched E w hr,
    r.pipelineExecWatched_of_watched (h.keys_watched_of hr)]
  exact r.execBlock_log E _ w _

/-- whatever comes back, `execute` with pending work empties the buffer and ends the transaction -/
theorem execute_clears (h : Inv s) (hc : s.closed = false) (hp : s.pending) :
    (exec E execute s w).st.commands = [] ∧ (exec E execute s w).st.explicitTransaction = false := by
  by_cases hw : Watched s
  · obtain ⟨r, hr⟩ := h.reserved_of_watched hw
    rw [exec_execute_watched E w hc hw, exec_executeWatched E w hr]
    exact ⟨rfl, rfl⟩
  · rw [exec_execute_plain E w hc hp hw]
    rcases E.reply w (.pipelineExec s.commands (s.transaction || s.explicitTransaction)) with ⟨e | vs, w'⟩ <;>
      exact ⟨rfl, rfl⟩

/-- **Run lemma.** The invariant holds after every sequence of calls on a new pipeline. -/
theorem run_inv (transaction : Bool) (calls : List Call) :
    Inv (run (callStep E) (.new transaction, w) calls).1 :=
  run_invariant' (I := fun p : PipelineState × ω => Inv p.1) (fun p c h => (call_inv E p.2 h c).1) calls
    (inv_new transaction)

end Methods

/-- **Sync pipeline state invariant.** After any sequence of calls on a new pipeline, under any server: the invariant
holds; whatever the next call is, it does not panic; an immediate command goes out on the reservation; a watched
`execute` sends one block on the reservation and nothing else; `execute` with pending work leaves no buffered command
and no MULTI. -/
theorem pipeline_run_safe {ω : Type} (E : Server Query Answer ω) (w : ω) (transaction : Bool) (calls : List Call) :
    let p := run (callStep E) (PipelineState.new transaction, w) calls
    Inv p.1 ∧
      (∀ c : Call, NoPanic (exec E c.prog p.1 p.2).val) ∧
      (p.1.closed = false → p.1.immediate = true → ∀ name args, ∃ r, p.1.reserved = some r ∧
        (exec E (Call.command name args).prog p.1 p.2).log = [.cmd r.inner name args]) ∧
      (p.1.closed = false → Watched p.1 → ∃ r, p.1.reserved = some r ∧
        (exec E Call.execute.prog p.1 p.2).log = [.atomicPipe r.inner p.1.commands]) ∧
      (p.1.closed = false → p.1.pending → (exec E Call.execute.prog p.1 p.2).st.commands = [] ∧
        (exec E Call.execute.prog p.1 p.2).st.explicitTransaction = false) := by
  intro p
  have h : Inv p.1 := run_inv E w transaction calls
  refine ⟨h, fun c => (call_inv E p.2 h c).2, fun hc hi name args => command_log E p.2 h hc hi name args, ?_, ?_⟩
  · intro hc hw
    simpa only [Call.prog, exec_map] using execute_log E p.2 h hc hw
  · intro hc hp
    simpa only [Call.prog, exec_map] using execute_clears E p.2 h hc hp

end RedisRsPy.Pipeline
