/-
`transaction_helper` (`facade/pipeline.rs`) with callables of GETs, blocks of GETs and SETs, and exceptions, on any
number of watched keys: the retry loop of `RedisRsPy.Pipeline.Transaction`, against a server whose calls may fail.

A callable is run on the sync `Pipeline`: each of its reads is a command method, sent at once while the pipeline is
watching and `multi()` has not been called, and each command of its block is a command method after `multi()`.

A round between two calls is a session (`At`): `first_eq`, `get_eq`, `exec_eq`, `executing_eq` and `leaving_eq` say which
call it waits in and where each answer leads. Result: `transaction_serializable`, for every run of any number of clients.
A transaction that buffers nothing sends no EXEC, so what it read is not checked (`Serial.ReadOnly`).
-/
import RedisRsPy.Pipeline.Serial

namespace RedisRsPy.SyncTransaction

open Lib Prog Pipeline
open Serial (Callable Buffered Session World Fate wire Serialized isWatchError_toPyErr)
open Transaction (attempt Round Progress Client fetched isWatchError)

/-! ## The callable on a pipeline -/

/-- the commands of a block, one method call after another -/
def bufferAll (value : RawResult) : List Buffered → PipeM (PyResult RawResult)
  | [] => pure (.ok value)
  | cmd :: block => do
    match ← bufOrDispatch cmd.cmd.1 cmd.cmd.2 with
    | .error e => pure (.error e)
    | .ok _ => bufferAll value block

/-- `func(pipe)` -/
def prog : Callable → PipeM (PyResult RawResult)
  | .get k next => do
    match ← bufOrDispatch "GET" [asBytes k] with
    | .error e => pure (.error e)
    | .ok got => prog (next (fetched got))
  | .exec block value => do
    match ← multi with
    | .error e => pure (.error e)
    | .ok () => bufferAll value block
  | .raise e => pure (.error e)

/-- a fresh round -/
def first (job : Serial.Job) : Round :=
  settle (attempt (prog job.callable) job.watches job.valueFromCallable) (.new true)

/-- a client's next call, and its own work up to the one after -/
def move {ω : Type} (job : Serial.Job) (E : Server Query Answer ω) (c : Client) (w : ω) : Client × ω :=
  match c.progress with
  | .running (.waiting q cont st) => (c.proceed (first job) (settle (cont (E.reply w q).1) st), (E.reply w q).2)
  | .running (.ended v st) => (c.proceed (first job) (.ended v st), w)
  | _ => (c, w)

def outcome : Progress → Option (PyResult RawResult)
  | .running _ => none
  | .returned v => some (.ok v)
  | .failed e => some (.error e)

/-! ## Where a round stands -/

/-- the pipeline between two calls of the callable -/
def holding (watches : List String) (c : ℕ) : PipelineState :=
  { PipelineState.new true with watchedKeys := watches, watching := true, reserved := some ⟨c, true⟩ }

/-- and when the callable has returned -/
def buffered (watches : List String) (c : ℕ) (block : List BufferedCmd) : PipelineState :=
  { holding watches c with explicitTransaction := true, commands := block }

/-- a round whose callable has still to do `rest`; without watches `attempt` is what follows the watch -/
def inside (watches : List String) (vfc : Bool) (c : ℕ) (rest : Callable) : Round :=
  settle (attempt (prog rest) [] vfc) (holding watches c)

/-- a round opens a connection and sends WATCH on it -/
theorem first_eq (func : PipeM (PyResult RawResult)) (k : String) (ks : List String) (vfc : Bool) :
    ∃ cont st, settle (attempt func (k :: ks) vfc) (.new true) = .waiting .reserve cont st ∧
      (∀ e, ∃ st', settle (cont (.error e)) st = .ended (raise .ConnectionError e) st') ∧
      ∀ c, ∃ cont' st', settle (cont (.ok c)) st = .waiting (.cmd c "WATCH" ((k :: ks).map asBytes)) cont' st' ∧
        (∀ e, ∃ st'', settle (cont' (.error e)) st' = .ended (.error (toPyErr e)) st'') ∧
        ∀ v, settle (cont' (.ok v)) st' = settle (attempt func [] vfc) (holding (k :: ks) c) :=
  ⟨_, _, rfl, fun _ => ⟨_, rfl⟩, fun _ => ⟨_, _, rfl, fun _ => ⟨_, rfl⟩, fun _ => rfl⟩⟩

/-- a callable that raises gives the watch back, whatever becomes of it -/
theorem leaving_eq (watches : List String) (vfc : Bool) (c : ℕ) (e : Fault) :
    ∃ cont st, inside watches vfc c (.raise e) = .waiting (.cmd c "UNWATCH" []) cont st ∧
      ∀ answer, ∃ st', settle (cont answer) st = .ended (.error e) st' := by
  refine ⟨_, _, rfl, fun answer => ?_⟩
  cases answer <;> exact ⟨_, rfl⟩

theorem prog_get (k : String) (next : Option Bytes → Callable) :
    prog (.get k next) = bufOrDispatch "GET" [asBytes k] >>= fun got =>
      match got with
      | .error e => pure (.error e)
      | .ok got => prog (next (fetched got)) := by
  rw [prog]

theorem prog_exec (block : List Buffered) (value : RawResult) :
    prog (.exec block value) = multi >>= fun res =>
      match res with
      | .error e => pure (.error e)
      | .ok () => bufferAll value block := by
  rw [prog]

/-- a GET is sent at once -/
theorem get_eq (watches : List String) (vfc : Bool) (c : ℕ) (k : String) (next : Option Bytes → Callable) :
    ∃ cont st, inside watches vfc c (.get k next) = .waiting (.cmd c "GET" [asBytes k]) cont st ∧
      (∀ e, settle (cont (.error e)) st = inside watches vfc c (.raise (toPyErr e))) ∧
      ∀ v, settle (cont (.ok v)) st = inside watches vfc c (next (fetched (.raw (.value v)))) := by
  unfold inside
  rw [prog_get]
  exact ⟨_, _, rfl, fun _ => rfl, fun _ => rfl⟩

theorem settle_bufferAll (value : RawResult) (block : List Buffered) {s : PipelineState} (hc : s.closed = false)
    (hi : s.immediate = false) :
    settle (bufferAll value block) s = .ended (.ok value) { s with commands := s.commands ++ block.map Buffered.cmd } := by
  induction block generalizing s with
  | nil =>
    rw [List.map_nil, List.append_nil]
    rfl
  | cons cmd block ih =>
    have hone : settle (bufOrDispatch cmd.cmd.1 cmd.cmd.2) s = .ended (.ok .slf) (s.push cmd.cmd) := by
      simp [bufOrDispatch, settle_bind, reading, settle, hc, hi, writing]
      rfl
    have hrest := ih (s := s.push cmd.cmd) hc hi
    rw [bufferAll, settle_bind, hone]
    show settle (bufferAll value block) (s.push cmd.cmd) = _
    rw [hrest]
    simp

/-- the block is buffered -/
theorem exec_eq (watches : List String) (vfc : Bool) (c : ℕ) (block : List Buffered) (value : RawResult) :
    inside watches vfc c (.exec block value) =
      settle (attempt (pure (.ok value)) [] vfc) (buffered watches c (block.map Buffered.cmd)) := by
  have hsettle : settle (prog (.exec block value)) (holding watches c) = .ended (.ok value)
      (buffered watches c (block.map Buffered.cmd)) := by
    rw [prog_exec, settle_bind]
    exact settle_bufferAll value block rfl rfl
  have hattempt : ∀ func, attempt func [] vfc = func >>= _ := fun _ => rfl
  rw [inside, hattempt, settle_bind, hsettle]
  rfl

/-- what `attempt` makes of the reply to EXEC -/
def executedResult (vfc : Bool) (value : RawResult) (raw : Value) : PyResult RawResult :=
  match watchedResult (ReservedConnection.execReply raw) with
  | .error e => .error e
  | .ok v => .ok (if vfc then value else v)

/-- and sent with EXEC; the watch is gone then, whatever the answer -/
theorem executing_eq (watches : List String) (vfc : Bool) (c : ℕ) (block : List BufferedCmd) (value : RawResult) :
    ∃ cont st, settle (attempt (pure (.ok value)) [] vfc) (buffered watches c block) =
        .waiting (.atomicPipe c block) cont st ∧
      (∀ e, ∃ st', settle (cont (.error e)) st = .ended (.error (toPyErr e)) st') ∧
      ∀ raw, ∃ st', settle (cont (.ok raw)) st = .ended (executedResult vfc value raw) st' := by
  cases watches <;> cases block <;>
    refine ⟨_, _, rfl, fun e => ?_, fun raw => ?_⟩ <;> first | exact ⟨_, rfl⟩ | cases raw <;> exact ⟨_, rfl⟩

/-! ## Rounds are sessions -/

/-- what a client is doing when its transaction stands at a session -/
def At (job : Serial.Job) : Session → Progress → Prop
  | .opening, p => p = .running (first job)
  | .watching c, p => ∃ cont st, p = .running (.waiting (.cmd c "WATCH" (job.watches.map asBytes)) cont st) ∧
      (∀ e, ∃ st', settle (cont (.error e)) st = .ended (.error (toPyErr e)) st') ∧
      ∀ v, settle (cont (.ok v)) st = inside job.watches job.valueFromCallable c job.callable
  | .running c rest, p => p = .running (inside job.watches job.valueFromCallable c rest) ∧ ∀ e, rest ≠ .raise e
  | .unwatching c e, p => p = .running (inside job.watches job.valueFromCallable c (.raise e))
  | .returned v, p => p = .returned v
  | .failed e, p => p = .failed e

theorem at_resume (job : Serial.Job) (c : ℕ) (rest : Callable) :
    At job (Session.resume c rest) (.running (inside job.watches job.valueFromCallable c rest)) := by
  cases rest with
  | get k next => exact ⟨rfl, fun e he => by cases he⟩
  | exec block value => exact ⟨rfl, fun e he => by cases he⟩
  | raise e => rfl

/-- the loop after a round: an error that is no WatchError ends it -/
theorem proceed_error {job : Serial.Job} (c : Client) {e : Fault} (st : PipelineState) :
    At job (Session.unwind e) (c.proceed (first job) (.ended (.error e) st)).progress := by
  rw [Session.unwind, Client.proceed]
  split_ifs <;> rfl

theorem proceed_redis_error {job : Serial.Job} (c : Client) (e : RedisError) (st : PipelineState) :
    At job (.failed (toPyErr e)) (c.proceed (first job) (.ended (.error (toPyErr e)) st)).progress := by
  have h : At job (Session.unwind (toPyErr e)) _ := proceed_error c st
  rwa [Session.unwind, isWatchError_toPyErr] at h

theorem move_waiting (job : Serial.Job) {ω : Type} (E : Server Query Answer ω) {c : Client} {q : Query}
    {cont : Answer q → PipeM (PyResult RawResult)} {st : PipelineState} (h : c.progress = .running (.waiting q cont st))
    (w : ω) : move job E c w = (c.proceed (first job) (settle (cont (E.reply w q).1) st), (E.reply w q).2) := by
  rw [move, h]

/-- a round that waits for its next call -/
theorem proceed_waiting (job : Serial.Job) (c : Client) {round : Round} {q : Query}
    {cont : Answer q → PipeM (PyResult RawResult)} {st : PipelineState} (h : round = .waiting q cont st) :
    (c.proceed (first job) round).progress = .running round := by
  rw [h]
  rfl

theorem inside_waiting (watches : List String) (vfc : Bool) (c : ℕ) (rest : Callable) :
    ∃ q cont st, inside watches vfc c rest = .waiting q cont st := by
  cases rest with
  | get k next =>
    obtain ⟨cont, st, h, -⟩ := get_eq watches vfc c k next
    exact ⟨_, cont, st, h⟩
  | exec block value =>
    obtain ⟨cont, st, h, -⟩ := executing_eq watches vfc c (block.map Buffered.cmd) value
    exact ⟨_, cont, st, (exec_eq watches vfc c block value).trans h⟩
  | raise e =>
    obtain ⟨cont, st, h, -⟩ := leaving_eq watches vfc c e
    exact ⟨_, cont, st, h⟩

theorem proceed_inside (job : Serial.Job) (c : Client) (conn : ℕ) (rest : Callable) :
    At job (Session.resume conn rest)
      (c.proceed (first job) (inside job.watches job.valueFromCallable conn rest)).progress := by
  obtain ⟨q, cont, st, h⟩ := inside_waiting job.watches job.valueFromCallable conn rest
  rw [proceed_waiting job c h]
  exact at_resume job conn rest

/-- after EXEC -/
theorem proceed_executed (job : Serial.Job) (c : Client) (value : RawResult) (raw : Value) (st : PipelineState) :
    At job (Session.executed job value (ReservedConnection.execReply raw))
      (c.proceed (first job) (.ended (executedResult job.valueFromCallable value raw) st)).progress := by
  unfold executedResult
  cases h : ReservedConnection.execReply raw with
  | error e => exact proceed_redis_error c e st
  | ok res =>
    cases res with
    | ok items => rfl
    | watchAborted => rfl

/-- **A call of a client is a move of its session.** -/
theorem move_at (job : Serial.Job) {ω : Type} (E : Server Query Answer ω) {s : Session} {c : Client} (w : ω)
    (h : At job s c.progress) :
    At job (s.next job E w).1 (move job E c w).1.progress ∧ (s.next job E w).2 = (move job E c w).2 := by
  cases s with
  | opening =>
    obtain ⟨k, ks, hk⟩ := List.exists_cons_of_ne_nil job.watched
    obtain ⟨cont, st, hfirst, hfail, hopen⟩ := first_eq (prog job.callable) k ks job.valueFromCallable
    rw [← hk] at hfirst hopen
    rw [move_waiting job E (h.trans (congrArg Progress.running hfirst))]
    rcases hreply : E.reply w .reserve with ⟨e | conn, w'⟩
    · obtain ⟨st', hend⟩ := hfail e
      simp only [Session.next, hreply, hend]
      exact ⟨proceed_error c (e := .raised ⟨.ConnectionError, e⟩) st', trivial⟩
    · obtain ⟨cont', st', hwatch, hwatchFail, hwatchOk⟩ := hopen conn
      simp only [Session.next, hreply, proceed_waiting job c hwatch]
      exact ⟨⟨cont', st', congrArg Progress.running hwatch, hwatchFail, hwatchOk⟩, trivial⟩
  | watching conn =>
    obtain ⟨cont, st, hprogress, hfail, hok⟩ := h
    rw [move_waiting job E hprogress]
    rcases hreply : E.reply w (.cmd conn "WATCH" (job.watches.map asBytes)) with ⟨e | v, w'⟩
    · obtain ⟨st', hend⟩ := hfail e
      simp only [Session.next, hreply, hend]
      exact ⟨proceed_redis_error c e st', trivial⟩
    · simp only [Session.next, hreply, hok v]
      exact ⟨proceed_inside job c conn job.callable, trivial⟩
  | running conn rest =>
    obtain ⟨hprogress, hrest⟩ := h
    cases rest with
    | get k next =>
      obtain ⟨cont, st, hget, hfail, hok⟩ := get_eq job.watches job.valueFromCallable conn k next
      rw [move_waiting job E (hprogress.trans (congrArg Progress.running hget))]
      rcases hreply : E.reply w (.cmd conn "GET" [asBytes k]) with ⟨e | v, w'⟩
      · simp only [Session.next, hreply, hfail e]
        exact ⟨proceed_inside job c conn (.raise (toPyErr e)), trivial⟩
      · simp only [Session.next, hreply, hok v]
        exact ⟨proceed_inside job c conn _, trivial⟩
    | exec block value =>
      obtain ⟨cont, st, hexec, hfail, hok⟩ :=
        executing_eq job.watches job.valueFromCallable conn (block.map Buffered.cmd) value
      rw [exec_eq, hexec] at hprogress
      rw [move_waiting job E hprogress]
      rcases hreply : E.reply w (.atomicPipe conn (block.map Buffered.cmd)) with ⟨e | raw, w'⟩
      · obtain ⟨st', hend⟩ := hfail e
        simp only [Session.next, hreply, hend]
        exact ⟨proceed_redis_error c e st', trivial⟩
      · obtain ⟨st', hend⟩ := hok raw
        simp only [Session.next, hreply, hend]
        exact ⟨proceed_executed job c value raw st', trivial⟩
    | raise e => exact absurd rfl (hrest e)
  | unwatching conn e =>
    obtain ⟨cont, st, hleave, hend⟩ := leaving_eq job.watches job.valueFromCallable conn e
    rw [move_waiting job E (h.trans (congrArg Progress.running hleave))]
    obtain ⟨st', hst'⟩ := hend (E.reply w (.cmd conn "UNWATCH" [])).1
    rw [hst']
    exact ⟨proceed_error c st', rfl⟩
  | returned v =>
    have hprogress : c.progress = .returned v := h
    have hmove : move job E c w = (c, w) := by
      rw [move, hprogress]
    rw [hmove]
    exact ⟨h, rfl⟩
  | failed e =>
    have hprogress : c.progress = .failed e := h
    have hmove : move job E c w = (c, w) := by
      rw [move, hprogress]
    rw [hmove]
    exact ⟨h, rfl⟩

/-! ## Serializability -/

section System

variable {ι : Type} [DecidableEq ι]

/-- a move of client `i` -/
def clientNext (jobs : ι → Serial.Job) (i : ι) (fate : Fate) (c : Client) (w : World ι) : Client × World ι :=
  move (jobs i) (wire i fate) c w

def start (jobs : ι → Serial.Job) (r : Redis) : Pool ι Client (World ι) :=
  ⟨⟨r, []⟩, fun i => ⟨.running (first (jobs i)), 0⟩⟩

/-- **`transaction` is serializable.** For any clients, jobs and watched keys, any interleaving of their calls with each
other and with foreign writes, and any calls that fail. -/
theorem transaction_serializable (jobs : ι → Serial.Job) (r : Redis) (l : List (Serial.Event ι)) :
    let p := run (Serial.step (clientNext jobs)) (start jobs r) l
    Serialized jobs r p.shared fun i => outcome (p.tasks i).progress := by
  intro p
  obtain ⟨l', hshared, hat⟩ := Serial.run_simulates (clientNext jobs) (Serial.sessionNext jobs)
    (R := fun i c s => At (jobs i) s c.progress)
    (fun i fate c s w h => .inl (move_at (jobs i) (wire i fate) w h))
    (p := start jobs r) (q := Serial.sessions r) rfl (fun _ => rfl) l
  have hserial := Serial.session_serialized jobs r l'
  rw [hshared] at hserial
  have houtcome : (fun i => outcome (p.tasks i).progress) =
      fun i => ((run (Serial.step (Serial.sessionNext jobs)) (Serial.sessions r) l').tasks i).outcome := by
    funext i
    have h := hat i
    cases hs : (run (Serial.step (Serial.sessionNext jobs)) (Serial.sessions r) l').tasks i with
    | watching c =>
      rw [hs] at h
      obtain ⟨cont, st, hprogress, -⟩ := h
      rw [hprogress]
      rfl
    | running c rest =>
      rw [hs] at h
      rw [h.1]
      rfl
    | _ =>
      rw [hs] at h
      rw [h]
      rfl
  rw [houtcome]
  exact hserial

end System

end RedisRsPy.SyncTransaction
