/-
`transaction_helper` (`facade/pipeline.rs`): the retry loop over WATCH, a callable and `execute`, run by any number of
clients on one key against one server.

The callable reads the key at once, calls `multi()` and buffers a SET to a function of what it read. A step of the
system is one call of one client with its answer (and the client's own work up to its next call), or a write to the key
by somebody else; a run is any interleaving. The loop is the source's: a WatchError starts a new round on a new
pipeline, anything else ends it.

The system refines `Lib.Optimistic`, transactions on one cell: the connection of the WATCH is the one of the GET and of
the EXEC, and no second WATCH is sent. Result (`no_lost_update`), for every reachable state:
- a client that returned Ok applied exactly one EXEC, any other client none; nobody failed;
- nobody wrote the key between the WATCH and the applied EXEC of one round;
- a round that ended in WatchError is a nil EXEC, and no call but an applied EXEC changes the store;
- the key's value is the writes replayed, and without foreign writes the clients' functions applied in EXEC order.
-/
import Mathlib.Data.List.Induction
import RedisRsPy.Lib.Optimistic
import RedisRsPy.Pipeline.Sync
import RedisRsPy.Server.Redis

namespace RedisRsPy.Transaction

open Lib Prog Pipeline Optimistic

/-! ## The code -/

/-- one round of the loop of `transaction_helper`, on a new pipeline -/
def attempt (func : PipeM (PyResult RawResult)) (watches : List String) (valueFromCallable : Bool) :
    PipeM (PyResult RawResult) := do
  let res ← do
    match ← if watches = [] then pure (.ok .nil) else watch watches with
    | .error e => pure (.error e)
    | .ok _ =>
      match ← func with
      | .error e => pure (.error e)
      | .ok funcValue =>
        match ← execute with
        | .error e => pure (.error e)
        | .ok execValue => pure (.ok (if valueFromCallable then funcValue else execValue))
  let _ ← reset
  pure res

/-- `e.is_instance_of::<WatchError>(py)` -/
def isWatchError : Fault → Bool
  | .raised e => e.cls = .WatchError
  | .panicked _ => false

/-- a round up to its next call, or its result -/
abbrev Round := Pending PipelineState Query Answer (PyResult RawResult)

/-- what a call of `transaction_helper` is doing -/
inductive Progress where
  | running (p : Round)
  | returned (v : RawResult)
  | failed (e : Fault)

structure Client where
  progress : Progress
  /-- rounds that ended in WatchError -/
  retries : ℕ

def Client.isReturned (c : Client) : Bool :=
  match c.progress with
  | .returned _ => true
  | _ => false

/-- the loop: a round goes on, returns, raises, or is followed by a new one -/
def Client.proceed (c : Client) (first : Round) : Round → Client
  | .waiting q k s => { c with progress := .running (.waiting q k s) }
  | .ended (.ok v) _ => { c with progress := .returned v }
  | .ended (.error e) _ =>
    if isWatchError e then ⟨.running first, c.retries + 1⟩ else { c with progress := .failed e }

/-! ## The callable -/

/-- the bytes a `get` returned -/
def fetched : CmdRet → Option Bytes
  | .raw (.value (.bulkString b)) => some b
  | _ => none

/-- GET at once, `multi()`, then SET to a function of what was read -/
def readModifyWrite (k : String) (f : Option Bytes → Bytes) : PipeM (PyResult RawResult) := do
  match ← bufOrDispatch "GET" [asBytes k] with
  | .error e => pure (.error e)
  | .ok got =>
    match ← multi with
    | .error e => pure (.error e)
    | .ok () =>
      match ← bufOrDispatch "SET" [asBytes k, f (fetched got)] with
      | .error e => pure (.error e)
      | .ok _ => pure (.ok .nil)

/-- a client's function and flag -/
structure Job where
  f : Option Bytes → Bytes
  valueFromCallable : Bool

/-- a fresh round -/
def first (k : String) (job : Job) : Round :=
  settle (attempt (readModifyWrite k job.f) [k] job.valueFromCallable) (.new true)

/-! ## The system -/

/-- what happened at the server -/
inductive Entry (ι : Type) where
  | call (i : ι) (q : Query) (a : Answer q)
  | outside (v : Option Bytes)

structure Sys (ι : Type) where
  redis : Redis
  clients : ι → Client
  /-- oldest first -/
  hist : List (Entry ι)

inductive Event (ι : Type) where
  | client (i : ι)
  /-- somebody else sets the key, or deletes it -/
  | outside (v : Option Bytes)

section System

variable {ι : Type} [DecidableEq ι]

def Sys.start (k : String) (jobs : ι → Job) (r : Redis) : Sys ι := ⟨r, fun i => ⟨.running (first k (jobs i)), 0⟩, []⟩

/-- client `i` makes its next call -/
def clientStep (k : String) (jobs : ι → Job) (s : Sys ι) (i : ι) : Sys ι :=
  match (s.clients i).progress with
  | .running (.waiting q cont st) =>
    let o := Redis.server.reply s.redis q
    let c := (s.clients i).proceed (first k (jobs i)) (settle (cont o.1) st)
    ⟨o.2, Function.update s.clients i c, s.hist ++ [.call i q o.1]⟩
  | .running (.ended v st) =>
    { s with clients := Function.update s.clients i ((s.clients i).proceed (first k (jobs i)) (.ended v st)) }
  | _ => s

def step (k : String) (jobs : ι → Job) (s : Sys ι) : Event ι → Sys ι
  | .client i => clientStep k jobs s i
  | .outside v =>
    -- deleting a key that is not there modifies nothing
    if v = none ∧ s.redis.store (asBytes k) = none then s
    else { s with redis := s.redis.put (asBytes k) v, hist := s.hist ++ [.outside v] }

end System

/-- the value the last SET of a key gives it -/
def lastSet (k : Bytes) (cmds : List BufferedCmd) : Option Bytes :=
  (cmds.filterMap fun cmd =>
    match cmd.2 with
    | [k', v] => if cmd.1 = "SET" ∧ k' = k then some v else none
    | _ => none).getLast?

/-- what an entry is to the key -/
def record {ι : Type} (k : Bytes) : Entry ι → Option (Rec ι (Option Bytes))
  | .outside v => some (.written v)
  | .call i (.cmd _ name args) (.ok r) =>
    if name = "WATCH" then if k ∈ args then some (.watched i) else none
    else if name = "GET" ∧ args = [k] then some (.read i (fetched (.raw (.value r))))
    else (lastSet k [(name, args)]).map fun v => .written (some v)
  | .call i (.atomicPipe _ _) (.ok .nil) => some (.aborted i)
  | .call i (.atomicPipe _ _) (.ok (.array _)) => some (.committed i)
  | .call _ (.pipelineExec cmds _) (.ok _) => (lastSet k cmds).map fun v => .written (some v)
  | _ => none

def records {ι : Type} (k : String) (s : Sys ι) : List (Rec ι (Option Bytes)) :=
  s.hist.filterMap (record (asBytes k))

/-- a client's function on the key's value -/
def update {ι : Type} (jobs : ι → Job) (i : ι) (v : Option Bytes) : Option Bytes := some ((jobs i).f v)

/-! ## The rounds -/

/-- where a round stands, with its connection and what it read -/
inductive PC where
  | opening
  | watching (c : ℕ)
  | reading (c : ℕ)
  | executing (c : ℕ) (v : Option Bytes)
  | returned

def PC.conn : PC → Option ℕ
  | .watching c | .reading c | .executing c _ => some c
  | _ => none

section Rounds

variable (k : String) (job : Job)

/-- connection `c`, and reply `v` to anything sent on it -/
def answers (c : ℕ) (v : Value) : (q : Query) → Answer q
  | .reserve => .ok c
  | .cmd _ _ _ => .ok v
  | .atomicPipe _ _ => .ok v
  | .pipelineExec _ _ => .ok [v]

/-- after the connection was opened -/
def opened (c : ℕ) : Round := (first k job).resume (answers c .okay)

/-- after WATCH -/
def watched (c : ℕ) : Round := (opened k job c).resume (answers c .okay)

/-- after GET replied `v` -/
def holding (c : ℕ) (v : Option Bytes) : Round := (watched k job c).resume (answers c (Redis.getReply v))

/-- a round opens a connection -/
theorem first_eq : ∃ cont st, first k job = .waiting .reserve cont st ∧
    ∀ c, settle (cont (.ok c)) st = opened k job c :=
  ⟨_, _, rfl, fun _ => rfl⟩

/-- sends WATCH on it -/
theorem opened_eq (c : ℕ) : ∃ cont st, opened k job c = .waiting (.cmd c "WATCH" [asBytes k]) cont st ∧
    settle (cont (.ok .okay)) st = watched k job c :=
  ⟨_, _, rfl, rfl⟩

/-- GET, at once -/
theorem watched_eq (c : ℕ) : ∃ cont st, watched k job c = .waiting (.cmd c "GET" [asBytes k]) cont st ∧
    ∀ v, settle (cont (.ok (Redis.getReply v))) st = holding k job c v :=
  ⟨_, _, rfl, fun _ => rfl⟩

/-- and the block with the SET alone; nil is a WatchError, an array is Ok -/
theorem holding_eq (c : ℕ) (v : Option Bytes) : ∃ cont st,
    holding k job c v = .waiting (.atomicPipe c [("SET", [asBytes k, job.f v])]) cont st ∧
      (∃ st', settle (cont (.ok .nil)) st = .ended (raise .WatchError watchErrorMsg) st') ∧
      ∀ items, ∃ r st', settle (cont (.ok (.array items))) st = .ended (.ok r) st' := by
  cases v with
  | none => exact ⟨_, _, rfl, ⟨_, rfl⟩, fun _ => ⟨_, _, rfl⟩⟩
  | some b => exact ⟨_, _, rfl, ⟨_, rfl⟩, fun _ => ⟨_, _, rfl⟩⟩

end Rounds

/-! ## Simulation -/

/-- what a client at `pc` is doing -/
def At (k : String) (job : Job) : PC → Progress → Prop
  | .opening, p => p = .running (first k job)
  | .watching c, p => p = .running (opened k job c)
  | .reading c, p => p = .running (watched k job c)
  | .executing c v, p => p = .running (holding k job c v)
  | .returned, p => ∃ v, p = .returned v

/-- the transaction behind a round, and the watch its connection has -/
def Behind (k : Bytes) (r : Redis) : PC → Phase (Option Bytes) → Prop
  | .opening, .idle => True
  | .watching c, .idle => r.watched c = []
  | .reading c, .watching n => r.watched c = [(k, n)]
  | .executing c v, .holding n v' => r.watched c = [(k, n)] ∧ v' = v
  | .returned, .done => True
  | _, _ => False

theorem Behind.congr {k : Bytes} {r r' : Redis} {pc : PC} {p : Phase (Option Bytes)} (h : Behind k r pc p)
    (hw : ∀ c, pc.conn = some c → r'.watched c = r.watched c) : Behind k r' pc p := by
  cases pc <;> cases p <;> simp_all [Behind, PC.conn]

section Behind

variable {k : Bytes} {r : Redis} {p : Phase (Option Bytes)} {c : ℕ}

theorem behind_opening (h : Behind k r .opening p) : p = .idle := by
  cases p <;> simp_all [Behind]

theorem behind_watching (h : Behind k r (.watching c) p) : p = .idle ∧ r.watched c = [] := by
  cases p <;> simp_all [Behind]

theorem behind_reading (h : Behind k r (.reading c) p) : ∃ n, p = .watching n ∧ r.watched c = [(k, n)] := by
  cases p <;> simp_all [Behind]

theorem behind_executing {v : Option Bytes} (h : Behind k r (.executing c v) p) :
    ∃ n, p = .holding n v ∧ r.watched c = [(k, n)] := by
  cases p <;> simp_all [Behind]

theorem behind_done (pc : PC) (h : Behind k r pc p) : p.isDone = true ↔ pc = .returned := by
  cases pc <;> cases p <;> simp_all [Behind, Phase.isDone]

end Behind

section Sim

variable {ι : Type} [DecidableEq ι] {k : String} {jobs : ι → Job} {r : Redis}

/-- the clients at `pc` behave as the transactions `a` -/
structure Sim (k : String) (jobs : ι → Job) (r : Redis) (s : Sys ι) (a : Optimistic.Sys ι (Option Bytes))
    (pc : ι → PC) : Prop where
  cell : a.cell = ⟨s.redis.store (asBytes k), s.redis.version (asBytes k)⟩
  hist : a.hist = records k s
  here : ∀ i, At k (jobs i) (pc i) (s.clients i).progress
  behind : ∀ i, Behind (asBytes k) s.redis (pc i) (a.phase i)
  /-- every connection in use was opened, by one client -/
  conns : ∀ i c, (pc i).conn = some c → c < s.redis.conns
  apart : ∀ i j c, (pc i).conn = some c → (pc j).conn = some c → i = j
  retries : ∀ i, (s.clients i).retries = a.hist.countP fun r => r.aborter = some i
  written : ∀ v, .written v ∈ a.hist → .outside v ∈ s.hist
  frame : ∀ k', k' ≠ asBytes k → s.redis.store k' = r.store k'

theorem Sim.here_of {s : Sys ι} {a : Optimistic.Sys ι (Option Bytes)} {pc : ι → PC} (h : Sim k jobs r s a pc) {i : ι}
    {p : PC} (hpc : pc i = p) : At k (jobs i) p (s.clients i).progress := by
  rw [← hpc]
  exact h.here i

theorem Sim.behind_of {s : Sys ι} {a : Optimistic.Sys ι (Option Bytes)} {pc : ι → PC} (h : Sim k jobs r s a pc) {i : ι}
    {p : PC} (hpc : pc i = p) : Behind (asBytes k) s.redis p (a.phase i) := by
  rw [← hpc]
  exact h.behind i

theorem Sim.start (k : String) (jobs : ι → Job) (r : Redis) :
    Sim k jobs r (Sys.start k jobs r) (Optimistic.Sys.start ⟨r.store (asBytes k), r.version (asBytes k)⟩)
      fun _ => .opening := by
  refine ⟨rfl, rfl, fun i => rfl, fun i => trivial, ?_, ?_, fun i => rfl, ?_, fun k' _ => rfl⟩
  · intro i c hc
    simp [PC.conn] at hc
  · intro i j c hc
    simp [PC.conn] at hc
  · intro v hv
    simp [Optimistic.Sys.start] at hv

/-- one call of client `i`: what is to be shown about it alone -/
theorem Sim.move {s : Sys ι} {a a' : Optimistic.Sys ι (Option Bytes)} {pc : ι → PC} (h : Sim k jobs r s a pc) (i : ι)
    {w : Redis} {client : Client} {q : Query} {ans : Answer q} {p : PC}
    (hcell : a'.cell = ⟨w.store (asBytes k), w.version (asBytes k)⟩)
    (hhist : a'.hist = a.hist ++ (record (asBytes k) (.call i q ans)).toList)
    (hphase : ∀ j, j ≠ i → a'.phase j = a.phase j)
    (hhere : At k (jobs i) p client.progress)
    (hbehind : Behind (asBytes k) w p (a'.phase i))
    (hconns : s.redis.conns ≤ w.conns)
    (hconn : ∀ c, p.conn = some c → c < w.conns ∧ ((pc i).conn = some c ∨ s.redis.conns ≤ c))
    (hwatched : ∀ c, c < s.redis.conns → (pc i).conn ≠ some c → w.watched c = s.redis.watched c)
    (hretries : client.retries = a'.hist.countP fun r => r.aborter = some i)
    (hother : ∀ j r, j ≠ i → record (asBytes k) (.call i q ans) = some r → r.aborter ≠ some j)
    (hwritten : ∀ v, record (asBytes k) (.call i q ans) ≠ some (.written v))
    (hframe : ∀ k', k' ≠ asBytes k → w.store k' = s.redis.store k') :
    Sim k jobs r ⟨w, Function.update s.clients i client, s.hist ++ [.call i q ans]⟩ a' (Function.update pc i p) where
  cell := hcell
  hist := by
    rw [hhist, h.hist, records, records, List.filterMap_append]
    rfl
  here j := by
    by_cases hj : j = i
    · subst hj
      simpa using hhere
    · simpa [hj] using h.here j
  behind j := by
    by_cases hj : j = i
    · subst hj
      simpa using hbehind
    · rw [Function.update_of_ne hj, hphase j hj]
      refine (h.behind j).congr fun c hc => hwatched c (h.conns j c hc) fun hi => hj (h.apart j i c hc hi)
  conns j c hc := by
    by_cases hj : j = i
    · subst hj
      rw [Function.update_self] at hc
      exact (hconn c hc).1
    · rw [Function.update_of_ne hj] at hc
      exact Nat.lt_of_lt_of_le (h.conns j c hc) hconns
  apart j j' c hc hc' := by
    -- a connection of `i` was its own before, or is newly opened
    have hfresh : ∀ j, j ≠ i → p.conn = some c → (pc j).conn ≠ some c := by
      intro j hj hp hpc
      rcases (hconn c hp).2 with hi | hnew
      · exact hj (h.apart j i c hpc hi)
      · exact absurd (h.conns j c hpc) (Nat.not_lt.2 hnew)
    by_cases hj : j = i
    · by_cases hj' : j' = i
      · rw [hj, hj']
      · rw [hj, Function.update_self] at hc
        rw [Function.update_of_ne hj'] at hc'
        exact absurd hc' (hfresh j' hj' hc)
    · rw [Function.update_of_ne hj] at hc
      by_cases hj' : j' = i
      · rw [hj', Function.update_self] at hc'
        exact absurd hc (hfresh j hj hc')
      · rw [Function.update_of_ne hj'] at hc'
        exact h.apart j j' c hc hc'
  retries j := by
    by_cases hj : j = i
    · subst hj
      simpa using hretries
    · have hnone : (record (asBytes k) (.call i q ans)).toList.countP (fun r => r.aborter = some j) = 0 := by
        rw [List.countP_eq_zero]
        intro r' hr'
        simpa using hother j r' hj (by simpa using hr')
      simp only [Function.update_of_ne hj]
      rw [hhist, List.countP_append, hnone]
      exact h.retries j
  written v hv := by
    rw [hhist] at hv
    rcases List.mem_append.1 hv with hv | hv
    · exact List.mem_append_left _ (h.written v hv)
    · exact absurd (by simpa using hv) (hwritten v)
  frame k' hk' := (hframe k' hk').trans (h.frame k' hk')

theorem clientStep_of {s : Sys ι} {i : ι} {q : Query}
    {cont : Answer q → Prog PipelineState Query Answer (PyResult RawResult)}
    {st : PipelineState} (h : (s.clients i).progress = .running (.waiting q cont st)) :
    clientStep k jobs s i =
      let o := Redis.server.reply s.redis q
      ⟨o.2, Function.update s.clients i ((s.clients i).proceed (first k (jobs i)) (settle (cont o.1) st)),
        s.hist ++ [.call i q o.1]⟩ := by
  simp only [clientStep, h]

theorem fetched_getReply (v : Option Bytes) : fetched (.raw (.value (Redis.getReply v))) = v := by
  cases v <;> rfl

/-- opening a connection is no move of the transaction -/
theorem sim_reserve {s : Sys ι} {a : Optimistic.Sys ι (Option Bytes)} {pc : ι → PC} (h : Sim k jobs r s a pc) {i : ι}
    (hpc : pc i = .opening) :
    Sim k jobs r (clientStep k jobs s i) (Optimistic.step (update jobs) a .skip)
      (Function.update pc i (.watching s.redis.conns)) := by
  have hidle : a.phase i = .idle := behind_opening (h.behind_of hpc)
  obtain ⟨cont, st, hround, hcont⟩ := first_eq k (jobs i)
  obtain ⟨cont', st', hnext, -⟩ := opened_eq k (jobs i) s.redis.conns
  have hprogress : (s.clients i).progress = .running (.waiting .reserve cont st) := by
    rw [← hround]
    exact h.here_of hpc
  rw [clientStep_of hprogress]
  simp only [Redis.server, hcont, hnext, Client.proceed]
  refine h.move i h.cell (by simp [record, Optimistic.step]) (fun j _ => rfl) ?_ ?_ (Nat.le_succ _) ?_ ?_ (h.retries i)
    (fun j r' _ hr' => by simp [record] at hr') (fun v => by simp [record]) (fun k' _ => rfl)
  · rw [← hnext]
    rfl
  · simp [Optimistic.step, hidle, Behind, Redis.connect]
  · rintro c ⟨⟩
    exact ⟨Nat.lt_succ_self _, Or.inr (Nat.le_refl _)⟩
  · intro c hc _
    exact Redis.watched_forget_of_ne _ _ (Nat.ne_of_lt hc)

/-- WATCH notes the count of the key -/
theorem sim_watch {s : Sys ι} {a : Optimistic.Sys ι (Option Bytes)} {pc : ι → PC} (h : Sim k jobs r s a pc) {i : ι}
    {c : ℕ} (hpc : pc i = .watching c) :
    Sim k jobs r (clientStep k jobs s i) (Optimistic.step (update jobs) a (.watch i))
      (Function.update pc i (.reading c)) := by
  obtain ⟨hidle, hw⟩ := behind_watching (h.behind_of hpc)
  obtain ⟨cont, st, hround, hcont⟩ := opened_eq k (jobs i) c
  obtain ⟨cont', st', hnext, -⟩ := watched_eq k (jobs i) c
  have hprogress : (s.clients i).progress = .running (.waiting (.cmd c "WATCH" [asBytes k]) cont st) := by
    rw [← hround]
    exact h.here_of hpc
  have hrec : record (asBytes k) (.call i (.cmd c "WATCH" [asBytes k]) (.ok .okay)) = some (.watched i) := by
    simp [record]
  rw [clientStep_of hprogress]
  simp only [Optimistic.step, hidle, Redis.server, Redis.dispatch_watch, hcont, hnext, Client.proceed]
  have hconn : (pc i).conn = some c := by rw [hpc]; rfl
  refine h.move i h.cell (by rw [hrec]; rfl) (fun j hj => by simp [Optimistic.Sys.enter, hj]) ?_ ?_ (Nat.le_refl _) ?_ ?_
    ?_ ?_ (fun v => by simp [hrec]) (fun k' _ => rfl)
  · rw [← hnext]
    rfl
  · simp [Optimistic.Sys.enter, Behind, hw, h.cell]
  · rintro c' ⟨⟩
    exact ⟨h.conns i c hconn, Or.inl hconn⟩
  · intro c' _ hc'
    exact Redis.watched_watchKey_of_ne _ _ _ fun hcc => hc' (hcc ▸ hconn)
  · simp [Optimistic.Sys.enter, Rec.aborter, h.retries i]
  · intro j r' _ hr'
    rw [hrec] at hr'
    cases hr'
    simp [Rec.aborter]

/-- GET reads it -/
theorem sim_get {s : Sys ι} {a : Optimistic.Sys ι (Option Bytes)} {pc : ι → PC} (h : Sim k jobs r s a pc) {i : ι}
    {c : ℕ} (hpc : pc i = .reading c) :
    Sim k jobs r (clientStep k jobs s i) (Optimistic.step (update jobs) a (.read i))
      (Function.update pc i (.executing c (s.redis.store (asBytes k)))) := by
  obtain ⟨n, hwatching, hw⟩ := behind_reading (h.behind_of hpc)
  obtain ⟨cont, st, hround, hcont⟩ := watched_eq k (jobs i) c
  obtain ⟨cont', st', hnext, -⟩ := holding_eq k (jobs i) c (s.redis.store (asBytes k))
  have hprogress : (s.clients i).progress = .running (.waiting (.cmd c "GET" [asBytes k]) cont st) := by
    rw [← hround]
    exact h.here_of hpc
  have hval : a.cell.val = s.redis.store (asBytes k) := by rw [h.cell]
  have hrec : record (asBytes k) (.call i (.cmd c "GET" [asBytes k]) (.ok (Redis.getReply (s.redis.store (asBytes k))))) =
      some (.read i a.cell.val) := by
    simp [record, fetched_getReply, hval]
  rw [clientStep_of hprogress]
  simp only [Optimistic.step, hwatching, Redis.server, Redis.dispatch_get, hcont, hnext, Client.proceed]
  have hconn : (pc i).conn = some c := by rw [hpc]; rfl
  refine h.move i h.cell (by rw [hrec]; rfl) (fun j hj => by simp [Optimistic.Sys.enter, hj]) ?_ ?_ (Nat.le_refl _) ?_
    (fun _ _ _ => rfl) ?_ ?_ (fun v => by simp [hrec]) (fun k' _ => rfl)
  · rw [← hnext]
    rfl
  · simp [Optimistic.Sys.enter, Behind, hw, h.cell]
  · rintro c' ⟨⟩
    exact ⟨h.conns i c hconn, Or.inl hconn⟩
  · simp [Optimistic.Sys.enter, Rec.aborter, h.retries i]
  · intro j r' _ hr'
    rw [hrec] at hr'
    cases hr'
    simp [Rec.aborter]

/-- EXEC commits, or is nil and starts the next round -/
theorem sim_exec {s : Sys ι} {a : Optimistic.Sys ι (Option Bytes)} {pc : ι → PC} (h : Sim k jobs r s a pc) {i : ι}
    {c : ℕ} {v : Option Bytes} (hpc : pc i = .executing c v) :
    ∃ p, Sim k jobs r (clientStep k jobs s i) (Optimistic.step (update jobs) a (.commit i)) (Function.update pc i p) := by
  obtain ⟨n, hholding, hw⟩ := behind_executing (h.behind_of hpc)
  obtain ⟨cont, st, hround, ⟨st', habort⟩, hok⟩ := holding_eq k (jobs i) c v
  have hprogress : (s.clients i).progress =
      .running (.waiting (.atomicPipe c [("SET", [asBytes k, (jobs i).f v])]) cont st) := by
    rw [← hround]
    exact h.here_of hpc
  have hver : a.cell.ver = s.redis.version (asBytes k) := by rw [h.cell]
  have hconn : (pc i).conn = some c := by rw [hpc]; rfl
  have hforget : ∀ w : Redis, w.watched = s.redis.watched → ∀ c', c' < s.redis.conns → (pc i).conn ≠ some c' →
      (w.forget c).watched c' = s.redis.watched c' := by
    intro w hww c' _ hc'
    have hne : c' ≠ c := fun hcc => hc' (by rw [hcc, hconn])
    rw [Redis.watched_forget_of_ne _ _ hne, hww]
  rw [clientStep_of hprogress]
  simp only [Optimistic.step, hholding, Redis.server, Redis.exec_set]
  by_cases hn : n = a.cell.ver
  · have hsame : ¬ s.redis.changed c = true := by
      rw [Redis.changed_iff _ _ _ hw, not_not, hn, hver]
    obtain ⟨v', st'', hreturn⟩ := hok [.okay]
    refine ⟨.returned, ?_⟩
    rw [if_pos hn]
    simp only [if_neg hsame, hreturn, Client.proceed]
    refine h.move i ?_ rfl (fun j hj => by simp [Optimistic.Sys.enter, hj]) ⟨v', rfl⟩ ?_ (Nat.le_refl _) ?_
      (hforget _ rfl) ?_ ?_ (fun v => by simp [record]) ?_
    · simp [update, Redis.forget, hver]
    · simp [Optimistic.Sys.enter, Behind]
    · intro c' hc'
      simp [PC.conn] at hc'
    · simp [Optimistic.Sys.enter, Rec.aborter, h.retries i]
    · intro j r' _ hr'
      cases hr'
      simp [Rec.aborter]
    · intro k' hk'
      exact Redis.store_put_of_ne _ _ _ hk'
  · have hchanged : s.redis.changed c = true := by
      rw [Redis.changed_iff _ _ _ hw]
      exact fun hvn => hn (hvn.symm.trans hver.symm)
    refine ⟨.opening, ?_⟩
    rw [if_neg hn]
    simp only [if_pos hchanged, habort, raise, Client.proceed, isWatchError]
    refine h.move i h.cell rfl (fun j hj => by simp [Optimistic.Sys.enter, hj]) rfl ?_ (Nat.le_refl _) ?_
      (hforget _ rfl) ?_ ?_ (fun v => by simp [record]) (fun k' _ => rfl)
    · simp [Optimistic.Sys.enter, Behind]
    · intro c' hc'
      simp [PC.conn] at hc'
    · simp [Optimistic.Sys.enter, Rec.aborter, h.retries i]
    · intro j r' hj hr'
      cases hr'
      simpa [Rec.aborter] using Ne.symm hj

/-- **A call of a client** is at most one move of its transaction. -/
theorem client_sim {s : Sys ι} {a : Optimistic.Sys ι (Option Bytes)} {pc : ι → PC} (h : Sim k jobs r s a pc) (i : ι) :
    ∃ act pc', act.by i ∧ Sim k jobs r (clientStep k jobs s i) (Optimistic.step (update jobs) a act) pc' := by
  cases hpc : pc i with
  | opening => exact ⟨.skip, _, trivial, sim_reserve h hpc⟩
  | watching c => exact ⟨.watch i, _, rfl, sim_watch h hpc⟩
  | reading c => exact ⟨.read i, _, rfl, sim_get h hpc⟩
  | executing c v =>
    obtain ⟨p, hp⟩ := sim_exec h hpc
    exact ⟨.commit i, _, rfl, hp⟩
  | returned =>
    obtain ⟨v, hv⟩ : ∃ v, (s.clients i).progress = .returned v := h.here_of hpc
    refine ⟨.skip, pc, trivial, ?_⟩
    simpa only [clientStep, hv, Optimistic.step] using h

/-- a foreign write is a write of the cell -/
theorem outside_sim {s : Sys ι} {a : Optimistic.Sys ι (Option Bytes)} {pc : ι → PC} (h : Sim k jobs r s a pc)
    (v : Option Bytes) :
    ∃ act, Sim k jobs r (step k jobs s (.outside v)) (Optimistic.step (update jobs) a act) pc := by
  by_cases hv : v = none ∧ s.redis.store (asBytes k) = none
  · refine ⟨.skip, ?_⟩
    rw [step, if_pos hv]
    exact h
  · refine ⟨.write v, ?_⟩
    rw [step, if_neg hv]
    constructor
    · simp [Optimistic.step, h.cell]
    · simp [Optimistic.step, records, record, h.hist]
    · exact h.here
    · exact fun i => (h.behind i).congr fun c _ => rfl
    · exact h.conns
    · exact h.apart
    · intro i
      simpa [Optimistic.step, Rec.aborter] using h.retries i
    · intro v' hv'
      rcases List.mem_append.1 hv' with hv' | hv'
      · exact List.mem_append_left _ (h.written v' hv')
      · simp only [List.mem_singleton, Rec.written.injEq] at hv'
        simp [hv']
    · exact fun k' hk' => (Redis.store_put_of_ne _ _ _ hk').trans (h.frame k' hk')

/-- **Every run refines optimistic transactions.** -/
theorem run_sim (k : String) (jobs : ι → Job) (r : Redis) (l : List (Event ι)) : ∃ acts pc,
    Sim k jobs r (run (step k jobs) (Sys.start k jobs r) l)
      (run (Optimistic.step (update jobs)) (Optimistic.Sys.start ⟨r.store (asBytes k), r.version (asBytes k)⟩) acts)
      pc := by
  induction l using List.reverseRecOn with
  | nil => exact ⟨[], _, Sim.start k jobs r⟩
  | append_singleton l e ih =>
    obtain ⟨acts, pc, h⟩ := ih
    rw [run_snoc]
    cases e with
    | client i =>
      obtain ⟨act, pc', -, h'⟩ := client_sim h i
      exact ⟨acts ++ [act], pc', by rwa [run_snoc]⟩
    | outside v =>
      obtain ⟨act, h'⟩ := outside_sim h v
      exact ⟨acts ++ [act], pc, by rwa [run_snoc]⟩

/-! ## No lost update -/

/-- what holds of a reachable state `s` of the system that started on `r` -/
structure NoLostUpdate (k : String) (jobs : ι → Job) (r : Redis) (s : Sys ι) : Prop where
  /-- no call ends in an error -/
  ok : ∀ i e, (s.clients i).progress ≠ .failed e
  /-- a call that returned Ok applied exactly one EXEC, any other call none -/
  once : ∀ i, (records k s).countP (fun r => r.committer = some i) = if (s.clients i).isReturned then 1 else 0
  /-- an applied EXEC follows the WATCH and the GET of its own round, with no write to the key since the WATCH -/
  clean : ∀ pre i post, records k s = pre ++ .committed i :: post → Clean pre i
  /-- the rounds that ended in WatchError are the nil EXECs -/
  retries : ∀ i, (s.clients i).retries = (records k s).countP fun r => r.aborter = some i
  /-- no call but an applied EXEC changes the store -/
  quiet : ∀ i, (clientStep k jobs s i).redis.store = s.redis.store ∨
    records k (clientStep k jobs s i) = records k s ++ [.committed i]
  /-- the call that ends a round in WatchError changes nothing -/
  aborted : ∀ i, ((clientStep k jobs s i).clients i).retries ≠ (s.clients i).retries →
    (clientStep k jobs s i).redis.store = s.redis.store
  /-- the key: foreign writes, and the functions of the applied EXECs, replayed -/
  value : s.redis.store (asBytes k) = replay (update jobs) (r.store (asBytes k)) (records k s)
  /-- every other key -/
  frame : ∀ k', k' ≠ asBytes k → s.redis.store k' = r.store k'
  /-- one place in the order for each client that returned -/
  order : (commitOrder (records k s)).Nodup ∧ ∀ i, i ∈ commitOrder (records k s) ↔ (s.clients i).isReturned = true

theorem isReturned_iff {c : Client} {job : Job} {pc : PC} (h : At k job pc c.progress) :
    c.isReturned = true ↔ pc = .returned := by
  cases pc <;> simp_all [At, Client.isReturned]
  obtain ⟨v, hv⟩ := h
  rw [hv]

/-- the store is the cell and the keys nobody writes -/
theorem Sim.store_eq {s s' : Sys ι} {a a' : Optimistic.Sys ι (Option Bytes)} {pc pc' : ι → PC} (h : Sim k jobs r s a pc)
    (h' : Sim k jobs r s' a' pc') (hcell : a'.cell = a.cell) : s'.redis.store = s.redis.store := by
  funext k'
  by_cases hk : k' = asBytes k
  · have hval : a'.cell.val = a.cell.val := by rw [hcell]
    rw [h.cell, h'.cell] at hval
    rw [hk]
    exact hval
  · rw [h.frame k' hk, h'.frame k' hk]

theorem noLostUpdate_of_sim {s : Sys ι} {a : Optimistic.Sys ι (Option Bytes)} {pc : ι → PC} (h : Sim k jobs r s a pc)
    (hinv : Optimistic.Inv (update jobs) ⟨r.store (asBytes k), r.version (asBytes k)⟩ a) : NoLostUpdate k jobs r s := by
  have hdone : ∀ i, (a.phase i).isDone = (s.clients i).isReturned := by
    intro i
    rw [Bool.eq_iff_iff, behind_done (pc i) (h.behind i), isReturned_iff (h.here i)]
  have hquiet : ∀ i, (clientStep k jobs s i).redis.store = s.redis.store ∨
      records k (clientStep k jobs s i) = records k s ++ [.committed i] := by
    intro i
    obtain ⟨act, pc', hact, h'⟩ := client_sim h i
    rcases Optimistic.step_by (update jobs) a hact with hcell | hhist
    · exact Or.inl (h.store_eq h' hcell)
    · rw [← h'.hist, hhist, h.hist]
      exact Or.inr rfl
  constructor
  · intro i e he
    have hhere := h.here i
    rw [he] at hhere
    cases hpc : pc i <;> simp [hpc, At] at hhere
  · intro i
    rw [← h.hist, hinv.once i, hdone i]
  · rw [← h.hist]
    exact hinv.clean
  · rw [← h.hist]
    exact h.retries
  · exact hquiet
  · intro i hi
    rcases hquiet i with hstore | hrec
    · exact hstore
    · obtain ⟨act, pc', -, h'⟩ := client_sim h i
      refine absurd ?_ hi
      rw [h'.retries i, h.retries i, h'.hist, hrec, h.hist, List.countP_append]
      simp [Rec.aborter]
  · rw [← h.hist, ← hinv.val, h.cell]
  · exact h.frame
  · rw [← h.hist]
    refine ⟨hinv.nodup_commitOrder, fun i => ?_⟩
    rw [hinv.mem_commitOrder i, hdone i]

/-- clients put no foreign write on record -/
theorem run_clients {l : List (Event ι)} (hl : ∀ e ∈ l, ∃ i, e = .client i) (v : Option Bytes) :
    .outside v ∉ (run (step k jobs) (Sys.start k jobs r) l).hist := by
  induction l using List.reverseRecOn with
  | nil => simp [Sys.start]
  | append_singleton l e ih =>
    obtain ⟨i, rfl⟩ := hl e (by simp)
    have hrest := ih fun e' he' => hl e' (List.mem_append_left _ he')
    rw [run_snoc, step]
    unfold clientStep
    split
    · simpa using hrest
    · exact hrest
    · exact hrest

/-- **No lost update.** For any clients and any interleaving of their calls with each other and with foreign writes; and
without foreign writes the key ends as the functions of the clients that returned, one after another in EXEC order. -/
theorem no_lost_update (k : String) (jobs : ι → Job) (r : Redis) (l : List (Event ι)) :
    let s := run (step k jobs) (Sys.start k jobs r) l
    NoLostUpdate k jobs r s ∧ ((∀ e ∈ l, ∃ i, e = .client i) →
      s.redis.store (asBytes k) =
        (commitOrder (records k s)).foldl (fun v i => some ((jobs i).f v)) (r.store (asBytes k))) := by
  intro s
  obtain ⟨acts, pc, h⟩ := run_sim k jobs r l
  have hinv := Optimistic.run_inv (update jobs) ⟨r.store (asBytes k), r.version (asBytes k)⟩ acts
  have hmain : NoLostUpdate k jobs r s := noLostUpdate_of_sim h hinv
  refine ⟨hmain, fun hl => ?_⟩
  rw [hmain.value]
  refine replay_commits (update jobs) (fun e he v hv => ?_) _
  subst hv
  rw [← h.hist] at he
  exact run_clients hl v (h.written v he)

end Sim

/-! ## Two clients -/

/-- each client appends its own byte -/
def appending (i : Bool) : Job := ⟨fun v => v.getD [] ++ [if i then 1 else 0], false⟩

/-- no keys, no connections -/
def emptyRedis : Redis := ⟨fun _ => none, fun _ => 0, fun _ => [], 0⟩

/-- the second client commits between the WATCH and the EXEC of the first, which has to go round again -/
def overlapping : List (Event Bool) :=
  [false, false, false, true, true, true, true, false, false, false, false, false].map .client

theorem overlapping_keeps_both :
    (run (step "k" appending) (Sys.start "k" appending emptyRedis) overlapping).redis.store (asBytes "k") =
      some [1, 0] := by
  have h := (no_lost_update "k" appending emptyRedis overlapping).2 (by simp [overlapping])
  have horder : commitOrder (records "k" (run (step "k" appending) (Sys.start "k" appending emptyRedis) overlapping)) =
      [true, false] := by rfl
  rw [h, horder]
  rfl

end RedisRsPy.Transaction
