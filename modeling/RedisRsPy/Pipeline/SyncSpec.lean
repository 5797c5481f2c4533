/-
What each method of `Pipeline` does when it is run to its end by its own thread: one equation per method and case, from
the state before to result, state, server and calls made. The methods of the reserved connection stay folded; their
own specifications are in `RedisRsPy.Connection.Reserved`.
-/
import RedisRsPy.Pipeline.Sync

namespace RedisRsPy.Pipeline

open Lib Prog

variable {ω : Type} (E : Server Query Answer ω) {s : PipelineState} (w : ω) {r : ReservedConnection}

/-! ## Release, reserve -/

theorem exec_releaseReserved_none (h : s.reserved = none) :
    exec E releaseReserved s w = ⟨.ok (), s.released, w, []⟩ := by
  simp [releaseReserved, h]

theorem exec_releaseReserved_some (h : s.reserved = some r) :
    exec E releaseReserved s w =
      let o := exec E r.unwatchIfNeeded s.released w
      ⟨.ok (), s.released, o.srv, o.log⟩ := by
  simp [releaseReserved, h]

theorem exec_ensureReserved_some (h : s.reserved.isSome) : exec E ensureReserved s w = ⟨.ok (), s, w, []⟩ := by
  simp [ensureReserved, h]

theorem exec_ensureReserved_none (h : s.reserved = none) :
    exec E ensureReserved s w =
      match E.reply w .reserve with
      | (.ok c, w') => ⟨.ok (), s.putReserved (some (.new c)), w', [.reserve]⟩
      | (.error e, w') => ⟨raise .ConnectionError e, s, w', [.reserve]⟩ := by
  rcases hq : E.reply w .reserve with ⟨e | c, w'⟩ <;> simp [ensureReserved, reserveConnection, h, hq]

/-! ## Command methods -/

theorem exec_dispatchImmediateInner (h : s.reserved = some r) (name : String) (args : List Bytes) :
    exec E (dispatchImmediateInner name args) s w =
      match E.reply w (.cmd r.inner name args) with
      | (.ok v, w') => ⟨.ok (.raw (.value v)), s, w', [.cmd r.inner name args]⟩
      | (.error e, w') => ⟨.error (toPyErr e), s, w', [.cmd r.inner name args]⟩ := by
  have hput := PipelineState.putReserved_self h
  rcases hq : E.reply w (.cmd r.inner name args) with ⟨e | v, w'⟩ <;>
    simp [dispatchImmediateInner, PipelineState.takeReserved, h, ReservedConnection.dispatchImmediate, queryAsync, hq,
      hput]

theorem exec_bufOrDispatch_closed (h : s.closed = true) (name : String) (args : List Bytes) :
    exec E (bufOrDispatch name args) s w = ⟨raise .RedisError closedMsg, s, w, []⟩ := by
  simp [bufOrDispatch, h]

theorem exec_bufOrDispatch_immediate (hc : s.closed = false) (hi : s.immediate = true) (name : String)
    (args : List Bytes) :
    exec E (bufOrDispatch name args) s w = exec E (dispatchImmediateInner name args) s w := by
  simp [bufOrDispatch, hc, hi]

theorem exec_bufOrDispatch_buffer (hc : s.closed = false) (hi : s.immediate = false) (name : String)
    (args : List Bytes) : exec E (bufOrDispatch name args) s w = ⟨.ok .slf, s.push (name, args), w, []⟩ := by
  simp [bufOrDispatch, hc, hi]

/-! ## Execute -/

theorem exec_executeWatched (h : s.reserved = some r) (cmds : List BufferedCmd) :
    exec E (executeWatched cmds) s w =
      let o := exec E (r.pipelineExecWatched s.watchedKeys cmds) (s.putReserved none) w
      ⟨watchedResult o.val.1, s.released, o.srv, o.log⟩ := by
  simp [executeWatched, PipelineState.takeReserved, h]

theorem exec_execute_closed (h : s.closed = true) :
    exec E execute s w = ⟨raise .RedisError closedMsg, s, w, []⟩ := by
  simp [execute, h]

theorem exec_execute_idle (hc : s.closed = false) (hp : ¬ s.pending) :
    exec E execute s w = ⟨.ok (.value (.array [])), s, w, []⟩ := by
  simp [execute, hc, hp]

/-- the WATCH/EXEC path is taken -/
def Watched (s : PipelineState) : Prop := s.watching = true ∨ s.explicitTransaction = true ∧ s.reserved.isSome

instance (s : PipelineState) : Decidable (Watched s) := by unfold Watched; infer_instance

theorem Watched.pending (h : Watched s) : s.pending := by
  rcases h with h | ⟨h, _⟩
  · exact Or.inr (Or.inl h)
  · exact Or.inr (Or.inr h)

theorem exec_execute_watched (hc : s.closed = false) (h : Watched s) :
    exec E execute s w = exec E (executeWatched s.commands) s w := by
  have hp := h.pending
  unfold Watched at h
  simp [execute, hc, hp, h]

theorem exec_execute_plain (hc : s.closed = false) (hp : s.pending) (h : ¬ Watched s) :
    exec E execute s w =
      match E.reply w (.pipelineExec s.commands (s.transaction || s.explicitTransaction)) with
      | (.ok vs, w') =>
        ⟨.ok (.value (.array vs)), s.flushed, w', [.pipelineExec s.commands (s.transaction || s.explicitTransaction)]⟩
      | (.error e, w') =>
        ⟨.error (toPyErr e), s.flushed, w', [.pipelineExec s.commands (s.transaction || s.explicitTransaction)]⟩ := by
  unfold Watched at h
  rcases hq : E.reply w (.pipelineExec s.commands (s.transaction || s.explicitTransaction)) with ⟨e | vs, w'⟩ <;>
    simp [execute, pipelineExec, hc, hp, h, hq]

/-! ## Watch, unwatch, discard, close -/

theorem exec_watch_closed (h : s.closed = true) (keys : List String) :
    exec E (watch keys) s w = ⟨raise .RedisError closedMsg, s, w, []⟩ := by
  simp [watch, h]

theorem exec_watch_multi (hc : s.closed = false) (h : s.explicitTransaction = true) (keys : List String) :
    exec E (watch keys) s w = ⟨raise .RedisError watchAfterMultiMsg, s, w, []⟩ := by
  simp [watch, hc, h]

/-- the end of `watch`, from what the connection's `watch` returned -/
def watchEnd (keys : List String) (o : RedisResult Unit × ReservedConnection) (s : PipelineState) :
    PyResult RawResult × PipelineState :=
  match o.1 with
  | .error e => (.error (toPyErr e), s.putReserved (some o.2))
  | .ok () => (.ok (.bool true), (s.putReserved (some o.2)).marked keys)

theorem exec_watch_reserved (hc : s.closed = false) (he : s.explicitTransaction = false) (h : s.reserved = some r)
    (keys : List String) :
    exec E (watch keys) s w =
      let o := exec E (r.watch keys) (s.putReserved none) w
      ⟨(watchEnd keys o.val s).1, (watchEnd keys o.val s).2, o.srv, o.log⟩ := by
  rcases hv : (exec E (r.watch keys) (s.putReserved none) w).val with ⟨e | u, r'⟩ <;>
    simp [watch, hc, he, exec_ensureReserved_some, PipelineState.takeReserved, h, hv, watchEnd]

theorem exec_watch_refused (hc : s.closed = false) (he : s.explicitTransaction = false) (h : s.reserved = none)
    {e : String} {w' : ω} (hq : E.reply w .reserve = (.error e, w')) (keys : List String) :
    exec E (watch keys) s w = ⟨raise .ConnectionError e, s, w', [.reserve]⟩ := by
  simp [watch, hc, he, exec_ensureReserved_none E w h, hq, raise]

theorem exec_watch_fresh (hc : s.closed = false) (he : s.explicitTransaction = false) (h : s.reserved = none) {c : ℕ}
    {w' : ω} (hq : E.reply w .reserve = (.ok c, w')) (keys : List String) :
    exec E (watch keys) s w =
      let o := exec E ((ReservedConnection.new c).watch keys) s w'
      ⟨(watchEnd keys o.val s).1, (watchEnd keys o.val s).2, o.srv, .reserve :: o.log⟩ := by
  have hs := PipelineState.putReserved_self h
  rcases hv : (exec E ((ReservedConnection.new c).watch keys) s w').val with ⟨e | u, r'⟩ <;>
    simp [watch, hc, he, exec_ensureReserved_none E w h, hq, PipelineState.takeReserved, watchEnd, hs, hv]

theorem exec_unwatchReserved (h : s.reserved = some r) :
    exec E unwatchReserved s w =
      let o := exec E r.unwatchIfNeeded (s.putReserved none) w
      ⟨mapErr o.val.1, s.putReserved (some o.val.2), o.srv, o.log⟩ := by
  simp [unwatchReserved, PipelineState.takeReserved, h]

theorem exec_unwatch_closed (h : s.closed = true) :
    exec E unwatch s w = ⟨raise .RedisError closedMsg, s, w, []⟩ := by
  simp [unwatch, h]

theorem exec_unwatch_none (hc : s.closed = false) (h : s.reserved = none) :
    exec E unwatch s w = ⟨.ok (.bool true), s.unwatched, w, []⟩ := by
  simp [unwatch, hc, h]

/-- the end of `unwatch`: a failed UNWATCH leaves the watch in place -/
def unwatchEnd (o : RedisResult Unit × ReservedConnection) (s : PipelineState) : PyResult RawResult × PipelineState :=
  match o.1 with
  | .error e => (.error (toPyErr e), s.putReserved (some o.2))
  | .ok () => (.ok (.bool true), (s.putReserved (some o.2)).unwatched)

theorem exec_unwatch_some (hc : s.closed = false) (h : s.reserved = some r) :
    exec E unwatch s w =
      let o := exec E r.unwatchIfNeeded (s.putReserved none) w
      ⟨(unwatchEnd o.val s).1, (unwatchEnd o.val s).2, o.srv, o.log⟩ := by
  rcases hv : (exec E r.unwatchIfNeeded (s.putReserved none) w).val with ⟨e | u, r'⟩ <;>
    simp [unwatch, hc, h, exec_unwatchReserved, hv, unwatchEnd, mapErr]

theorem exec_discard_none (h : s.closed = true ∨ s.reserved = none) :
    exec E discard s w = ⟨.ok (), s.discarded, w, []⟩ := by
  rcases h with h | h <;> simp [discard, h]

/-- the end of `discard`: a failed UNWATCH leaves everything in place -/
def discardEnd (o : RedisResult Unit × ReservedConnection) (s : PipelineState) : PyResult Unit × PipelineState :=
  match o.1 with
  | .error e => (.error (toPyErr e), s.putReserved (some o.2))
  | .ok () => (.ok (), (s.putReserved (some o.2)).discarded)

theorem exec_discard_some (hc : s.closed = false) (h : s.reserved = some r) :
    exec E discard s w =
      let o := exec E r.unwatchIfNeeded (s.putReserved none) w
      ⟨(discardEnd o.val s).1, (discardEnd o.val s).2, o.srv, o.log⟩ := by
  rcases hv : (exec E r.unwatchIfNeeded (s.putReserved none) w).val with ⟨e | u, r'⟩ <;>
    simp [discard, hc, h, exec_unwatchReserved, hv, discardEnd, mapErr]

theorem exec_close :
    exec E close s w =
      let o := exec E releaseReserved s w
      ⟨.ok (), s.released.close, o.srv, o.log⟩ := by
  cases h : s.reserved with
  | none => simp [close, exec_releaseReserved_none E w h]
  | some r => simp [close, exec_releaseReserved_some E w h]

end RedisRsPy.Pipeline
