/-
Transactions with watched keys, as a protocol with the server: what `transaction_helper` and `atransaction_helper`
(`facade/pipeline.rs`) both come down to.

The callable reads keys at once, one after another, each choice depending on what it read so far; then it calls
`multi()` and buffers GETs and SETs, or none, or it raises. `Callable` is its tree of reads, the same in every round. A
`Job` reads only keys that it watches: other commands sent at once, and reads of other keys, are not covered.

A `Session` is where a transaction stands between two calls on the server: it opens a connection, sends WATCH, GETs and
the block with EXEC, starts again after a nil EXEC, and sends UNWATCH when the callable or a GET failed. A callable that
raises WatchError itself starts again too. Any call may be answered, be refused on the way, or be carried out with its
answer lost (`Fate`), and anybody else may write any key between two calls. An empty block is no call: nothing is sent,
so nothing of what was read is checked.

Results:
- `run_simulates`: clients that move as sessions do, with moves of their own in between, lead to the worlds that
  sessions lead to;
- `session_started`: over any run, a session whose callable raises no WatchError opens one connection more than it has
  been sent back by a nil EXEC, at most.
-/
import RedisRsPy.Lib.Serializable
import RedisRsPy.Pipeline.Transaction

namespace RedisRsPy.Serial

open Lib Serializable
open Transaction (isWatchError fetched)

/-! ## Callables -/

/-- a buffered command -/
inductive Buffered where
  | get (k : String)
  | set (k : String) (v : Bytes)

def Buffered.cmd : Buffered → BufferedCmd
  | get k => ("GET", [asBytes k])
  | set k v => ("SET", [asBytes k, v])

/-- what a callable does: reads, and in the end a block and its own value, or an exception -/
inductive Callable where
  | get (k : String) (next : Option Bytes → Callable)
  | exec (block : List Buffered) (value : RawResult)
  | raise (e : Fault)

/-- it reads only these keys -/
def Callable.Within (watches : List String) : Callable → Prop
  | get k next => k ∈ watches ∧ ∀ v, (next v).Within watches
  | exec _ _ => True
  | raise _ => True

/-- it raises no WatchError of its own -/
def Callable.Calm : Callable → Prop
  | get _ next => ∀ v, (next v).Calm
  | exec _ _ => True
  | raise e => isWatchError e = false

/-- the arguments of a transaction -/
structure Job where
  callable : Callable
  watches : List String
  valueFromCallable : Bool
  watched : watches ≠ []
  within : callable.Within watches

/-! ## One transaction alone -/

abbrev Keys := Bytes → Option Bytes

/-- the callable with all its reads on one store: its block and its value -/
def Callable.alone : Callable → Keys → Option (List Buffered × RawResult)
  | get k next, s => (next (s (asBytes k))).alone s
  | exec block value, _ => some (block, value)
  | raise _, _ => none

/-- the replies to a block -/
def replies : List Buffered → Keys → List Value
  | [], _ => []
  | .get k :: block, s => Redis.getReply (s (asBytes k)) :: replies block s
  | .set k v :: block, s => .okay :: replies block (Function.update s (asBytes k) (some v))

/-- the writes of a block -/
def writes (block : List Buffered) : List (Bytes × Option Bytes) :=
  block.filterMap fun cmd =>
    match cmd with
    | .get _ => none
    | .set k v => some (asBytes k, some v)

/-- what a transaction returns -/
def Job.result (job : Job) (value : RawResult) (items : List Value) : RawResult :=
  if job.valueFromCallable then value else .value (.array items)

/-- the result of a transaction that runs at once -/
def Job.value (job : Job) (s : Keys) : Option RawResult :=
  (job.callable.alone s).map fun o => job.result o.2 (replies o.1 s)

/-- and what it makes of the store -/
def Job.apply (job : Job) (s : Keys) : Keys :=
  match job.callable.alone s with
  | some o => putAll (writes o.1) s
  | none => s

/-! ## The server, with calls that fail -/

/-- a call the server carried out, or a write by somebody else -/
inductive Entry (ι : Type) where
  | call (i : ι) (q : Query) (a : Answer q)
  | outside (k : String) (v : Option Bytes)

structure World (ι : Type) where
  redis : Redis
  /-- oldest first -/
  hist : List (Entry ι)

/-- what becomes of a call -/
inductive Fate where
  | answered
  | refused (e : RedisError)
  | lost (e : RedisError)

/-- an empty pipe is not sent -/
def sent : Query → Bool
  | .atomicPipe _ [] => false
  | .pipelineExec [] _ => false
  | _ => true

/-- the answer to a call that failed -/
def failing (e : RedisError) : (q : Query) → Answer q
  | .reserve => .error e.text
  | .cmd _ _ _ => .error e
  | .atomicPipe _ _ => .error e
  | .pipelineExec _ _ => .error e

/-- the server carries out a call of client `i` -/
def World.serve {ι : Type} (w : World ι) (i : ι) (q : Query) : World ι :=
  ⟨(Redis.server.reply w.redis q).2, w.hist ++ [.call i q (Redis.server.reply w.redis q).1]⟩

/-- the server for one call of client `i` -/
def wire {ι : Type} (i : ι) (fate : Fate) : Server Query Answer (World ι) where
  reply w q :=
    match sent q, fate with
    | false, _ => ((Redis.server.reply w.redis q).1, w)
    | true, .answered => ((Redis.server.reply w.redis q).1, w.serve i q)
    | true, .refused e => (failing e q, w)
    | true, .lost e => (failing e q, w.serve i q)

section Wire

variable {ι : Type} (i : ι) {q : Query} (w : World ι)

theorem wire_answered (h : sent q = true) :
    (wire i .answered).reply w q = ((Redis.server.reply w.redis q).1, w.serve i q) := by
  simp only [wire, h]

theorem wire_refused (h : sent q = true) (e : RedisError) : (wire i (.refused e)).reply w q = (failing e q, w) := by
  simp only [wire, h]

theorem wire_lost (h : sent q = true) (e : RedisError) :
    (wire i (.lost e)).reply w q = (failing e q, w.serve i q) := by
  simp only [wire, h]

theorem sent_block {block : List Buffered} (h : block ≠ []) (c : ℕ) :
    sent (.atomicPipe c (block.map Buffered.cmd)) = true := by
  cases block with
  | nil => exact absurd rfl h
  | cons cmd block => rfl

end Wire

/-- the transaction an entry applies -/
def Entry.applied {ι : Type} : Entry ι → Option ι
  | .call i (.atomicPipe _ _) (.ok (.array _)) => some i
  | _ => none

/-- the transaction an entry sends back -/
def Entry.sentBack {ι : Type} : Entry ι → Option ι
  | .call i (.atomicPipe _ _) (.ok .nil) => some i
  | _ => none

/-- the transaction that opened a connection, as each round does first -/
def Entry.opened {ι : Type} : Entry ι → Option ι
  | .call i .reserve _ => some i
  | _ => none

/-- what an entry does to the store when each transaction runs at once -/
def Entry.effect {ι : Type} (jobs : ι → Job) (s : Keys) (e : Entry ι) : Keys :=
  match e with
  | .outside k v => Function.update s (asBytes k) v
  | e =>
    match e.applied with
    | some i => (jobs i).apply s
    | none => s

/-- the serial run of a history -/
def serialRun {ι : Type} (jobs : ι → Job) (s : Keys) (hist : List (Entry ι)) : Keys := hist.foldl (Entry.effect jobs) s

/-- what is left of a callable after reads at moments of the serial run, one after another -/
inductive Callable.Seen {ι : Type} (jobs : ι → Job) (s : Keys) : List (Entry ι) → Callable → Callable → Prop where
  | start (hist : List (Entry ι)) (c : Callable) : Seen jobs s hist c c
  | read {hist : List (Entry ι)} {c : Callable} {k : String} {next : Option Bytes → Callable} :
      Seen jobs s hist c (.get k next) → Seen jobs s hist c (next (serialRun jobs s hist (asBytes k)))
  | later {hist : List (Entry ι)} {c rest : Callable} (more : List (Entry ι)) :
      Seen jobs s hist c rest → Seen jobs s (hist ++ more) c rest

/-- an entry of somebody but `i` that may have written -/
def Entry.ByOther {ι : Type} [DecidableEq ι] (i : ι) (e : Entry ι) : Bool :=
  match e with
  | .outside _ _ => true
  | e =>
    match e.applied with
    | some j => decide (j ≠ i)
    | none => false

/-! ## Sessions -/

inductive Session where
  | opening
  | watching (c : ℕ)
  | running (c : ℕ) (rest : Callable)
  | unwatching (c : ℕ) (e : Fault)
  | returned (v : RawResult)
  | failed (e : Fault)

namespace Session

/-- the connection in use -/
def conn : Session → Option ℕ
  | watching c | running c _ | unwatching c _ => some c
  | _ => none

def outcome : Session → Option (PyResult RawResult)
  | returned v => some (.ok v)
  | failed e => some (.error e)
  | _ => none

/-- the callable goes on with what it read, up to its next call; when it raises, the watch is given back -/
def resume (c : ℕ) : Callable → Session
  | .raise e => unwatching c e
  | rest => running c rest

/-- a WatchError starts over, anything else ends the transaction -/
def unwind (e : Fault) : Session := if isWatchError e then opening else failed e

/-- after EXEC -/
def executed (job : Job) (value : RawResult) : RedisResult WatchedExecResult → Session
  | .ok (.ok items) => returned (job.result value items)
  | .ok .watchAborted => opening
  | .error e => failed (toPyErr e)

/-- the next call, and what follows from its answer -/
def next {ω : Type} (job : Job) (E : Server Query Answer ω) : Session → ω → Session × ω
  | opening, w =>
    match E.reply w .reserve with
    | (.ok c, w') => (watching c, w')
    | (.error e, w') => (failed (.raised ⟨.ConnectionError, e⟩), w')
  | watching c, w =>
    match E.reply w (.cmd c "WATCH" (job.watches.map asBytes)) with
    | (.ok _, w') => (resume c job.callable, w')
    | (.error e, w') => (failed (toPyErr e), w')
  | running c (.get k rest), w =>
    match E.reply w (.cmd c "GET" [asBytes k]) with
    | (.ok v, w') => (resume c (rest (fetched (.raw (.value v)))), w')
    | (.error e, w') => (unwatching c (toPyErr e), w')
  | running c (.exec block value), w =>
    match E.reply w (.atomicPipe c (block.map Buffered.cmd)) with
    | (.ok raw, w') => (executed job value (ReservedConnection.execReply raw), w')
    | (.error e, w') => (failed (toPyErr e), w')
  | running c (.raise e), w => (unwatching c e, w)
  | unwatching c e, w => (unwind e, (E.reply w (.cmd c "UNWATCH" [])).2)
  | returned v, w => (returned v, w)
  | failed e, w => (failed e, w)

end Session

/-! ## Many clients -/

section Clients

variable {ι C C' : Type} [DecidableEq ι]

inductive Event (ι : Type) where
  | client (i : ι) (fate : Fate)
  /-- somebody else sets a key, or deletes it -/
  | outside (k : String) (v : Option Bytes)

/-- one move of a client, or a foreign write; deleting a key that is not there modifies nothing -/
def step (next : ι → Fate → C → World ι → C × World ι) (p : Pool ι C (World ι)) : Event ι → Pool ι C (World ι)
  | .client i fate =>
    ⟨(next i fate (p.tasks i) p.shared).2, Function.update p.tasks i (next i fate (p.tasks i) p.shared).1⟩
  | .outside k v =>
    if v = none ∧ p.shared.redis.store (asBytes k) = none then p
    else { p with shared := ⟨p.shared.redis.put (asBytes k) v, p.shared.hist ++ [.outside k v]⟩ }

/-- **Simulation rule.** Where each move of a client is a move of what it stands for, or none, every run is a run of
those, on the same world. -/
theorem run_simulates (next : ι → Fate → C → World ι → C × World ι) (next' : ι → Fate → C' → World ι → C' × World ι)
    {R : ι → C → C' → Prop}
    (hmove : ∀ i fate c c' w, R i c c' →
      R i (next i fate c w).1 (next' i fate c' w).1 ∧ (next' i fate c' w).2 = (next i fate c w).2 ∨
        R i (next i fate c w).1 c' ∧ (next i fate c w).2 = w)
    {p : Pool ι C (World ι)} {q : Pool ι C' (World ι)} (hshared : q.shared = p.shared)
    (hR : ∀ i, R i (p.tasks i) (q.tasks i)) (l : List (Event ι)) :
    ∃ l', (run (step next') q l').shared = (run (step next) p l).shared ∧
      ∀ i, R i ((run (step next) p l).tasks i) ((run (step next') q l').tasks i) := by
  induction l generalizing p q with
  | nil => exact ⟨[], hshared, hR⟩
  | cons e l ih =>
    cases e with
    | outside k v =>
      have hnext : (step next' q (.outside k v)).shared = (step next p (.outside k v)).shared ∧
          ∀ i, R i ((step next p (.outside k v)).tasks i) ((step next' q (.outside k v)).tasks i) := by
        simp only [step, hshared]
        split_ifs
        · exact ⟨hshared, hR⟩
        · exact ⟨rfl, hR⟩
      obtain ⟨l', hl'⟩ := ih hnext.1 hnext.2
      exact ⟨.outside k v :: l', hl'⟩
    | client i fate =>
      have hothers : ∀ (d : C) (d' : C'), R i d d' →
          ∀ j, R j (Function.update p.tasks i d j) (Function.update q.tasks i d' j) := by
        intro d d' hd j
        by_cases hj : j = i
        · subst hj
          simpa using hd
        · simpa [hj] using hR j
      rcases hmove i fate (p.tasks i) (q.tasks i) p.shared (hR i) with ⟨hnext, hworld⟩ | ⟨hnext, hworld⟩
      · rw [← hshared] at hnext
        obtain ⟨l', hl'⟩ := ih (p := step next p (.client i fate)) (q := step next' q (.client i fate))
          (by simp only [step, hshared, hworld]) (by simpa only [step, hshared] using hothers _ _ hnext)
        exact ⟨.client i fate :: l', hl'⟩
      · have hstill : Function.update q.tasks i (q.tasks i) = q.tasks := Function.update_eq_self i q.tasks
        have hR' := hothers _ _ hnext
        rw [hstill] at hR'
        obtain ⟨l', hl'⟩ := ih (p := step next p (.client i fate)) (q := q) (by simp only [step, hshared, hworld]) hR'
        exact ⟨l', hl'⟩

/-- a move of session `i` -/
def sessionNext (jobs : ι → Job) (i : ι) (fate : Fate) (s : Session) (w : World ι) : Session × World ι :=
  s.next (jobs i) (wire i fate) w

def sessions (r : Redis) : Pool ι Session (World ι) := ⟨⟨r, []⟩, fun _ => .opening⟩

end Clients

/-! ## Rounds -/

/-- whatever it still raises is no WatchError -/
def Session.Calm : Session → Prop
  | running _ rest => rest.Calm
  | unwatching _ e => isWatchError e = false
  | _ => True

/-- connections it is about to open -/
def Session.due : Session → ℕ
  | opening => 1
  | _ => 0

/-- no error of the server is a WatchError -/
theorem isWatchError_toPyErr (e : RedisError) : isWatchError (toPyErr e) = false := by
  have hcode : ∀ code, classifyCode code ≠ some .WatchError := by
    intro code
    unfold classifyCode
    dsimp only
    split_ifs <;> simp
  have hserver : ∀ k, classifyServer k ≠ some .WatchError := by
    intro k
    cases k <;> simp [classifyServer]
  have hclass : classifyError e ≠ .WatchError := by
    unfold classifyError
    split
    · simp
    split
    · simp
    split
    · simp
    -- the kind, the code, and what is left
    dsimp only
    split
    · rename_i c hc
      rintro rfl
      split at hc
      · exact hserver _ hc
      · cases hc
    · split
      · rename_i c hc
        rintro rfl
        obtain ⟨code, -, hcc⟩ := Option.bind_eq_some_iff.1 hc
        exact hcode code hcc
      · split <;> simp
  simp [isWatchError, toPyErr, hclass]

theorem calm_resume {rest : Callable} (h : rest.Calm) (c : ℕ) : (Session.resume c rest).Calm := by
  cases rest <;> exact h

theorem due_resume (c : ℕ) (rest : Callable) : (Session.resume c rest).due = 0 := by
  cases rest <;> rfl

section Calls

variable {ι : Type} {i : ι} {w : World ι} {fate : Fate}

/-- a call is one entry, or none -/
theorem hist_wire (i : ι) (fate : Fate) (w : World ι) (q : Query) :
    ((wire i fate).reply w q).2.hist = w.hist ∨ ∃ a, ((wire i fate).reply w q).2.hist = w.hist ++ [.call i q a] := by
  by_cases h : sent q = true
  · cases fate with
    | answered =>
      rw [wire_answered i w h]
      exact .inr ⟨_, rfl⟩
    | refused e =>
      rw [wire_refused i w h]
      exact .inl rfl
    | lost e =>
      rw [wire_lost i w h]
      exact .inr ⟨_, rfl⟩
  · have hsilent : sent q = false := by simpa using h
    left
    simp only [wire, hsilent]

/-- a nil that a client sees is a nil EXEC at the server -/
theorem hist_nil {c : ℕ} {cmds : List BufferedCmd}
    (h : ((wire i fate).reply w (.atomicPipe c cmds)).1 = .ok .nil) :
    ((wire i fate).reply w (.atomicPipe c cmds)).2.hist = w.hist ++ [.call i (.atomicPipe c cmds) (.ok .nil)] := by
  cases cmds with
  | nil => cases h
  | cons cmd cmds =>
    have hsent : sent (.atomicPipe c (cmd :: cmds)) = true := rfl
    cases fate with
    | answered =>
      rw [wire_answered i w hsent] at h ⊢
      rw [World.serve, h]
    | refused e =>
      rw [wire_refused i w hsent] at h
      cases h
    | lost e =>
      rw [wire_lost i w hsent] at h
      cases h

/-- a move of session `j` is one entry of `j`, or none -/
theorem hist_next (job : Job) (j : ι) (fate : Fate) (s : Session) (w : World ι) :
    (s.next job (wire j fate) w).2.hist = w.hist ∨
      ∃ q a, (s.next job (wire j fate) w).2.hist = w.hist ++ [.call j q a] := by
  have hcall : ∀ q, ((wire j fate).reply w q).2.hist = w.hist ∨
      ∃ q' a, ((wire j fate).reply w q).2.hist = w.hist ++ [.call j q' a] := by
    intro q
    rcases hist_wire j fate w q with h | ⟨a, h⟩
    · exact .inl h
    · exact .inr ⟨q, a, h⟩
  cases s with
  | opening =>
    have h := hcall .reserve
    rcases hreply : (wire j fate).reply w .reserve with ⟨e | v, w'⟩ <;>
      simpa only [Session.next, hreply] using h
  | watching c =>
    have h := hcall (.cmd c "WATCH" (job.watches.map asBytes))
    rcases hreply : (wire j fate).reply w (.cmd c "WATCH" (job.watches.map asBytes)) with ⟨e | v, w'⟩ <;>
      simpa only [Session.next, hreply] using h
  | running c rest =>
    cases rest with
    | get k next =>
      have h := hcall (.cmd c "GET" [asBytes k])
      rcases hreply : (wire j fate).reply w (.cmd c "GET" [asBytes k]) with ⟨e | v, w'⟩ <;>
        simpa only [Session.next, hreply] using h
    | exec block value =>
      have h := hcall (.atomicPipe c (block.map Buffered.cmd))
      rcases hreply : (wire j fate).reply w (.atomicPipe c (block.map Buffered.cmd)) with ⟨e | v, w'⟩ <;>
        simpa only [Session.next, hreply] using h
    | raise e => exact .inl rfl
  | unwatching c e => exact hcall (.cmd c "UNWATCH" [])
  | returned v => exact .inl rfl
  | failed e => exact .inl rfl

end Calls

section Rounds

variable {ι : Type} [DecidableEq ι]

/-- a session of a calm callable: each connection after the first that it opened or is about to is for a nil EXEC -/
structure Started (hist : List (Entry ι)) (i : ι) (s : Session) : Prop where
  calm : s.Calm
  count : hist.countP (fun e => e.opened = some i) + s.due ≤ hist.countP (fun e => e.sentBack = some i) + 1

variable {i : ι} {s s' : Session} {job : Job} {w : World ι} {fate : Fate}

/-- what others do is nothing to it -/
theorem Started.other {hist : List (Entry ι)} (h : Started hist i s) {e : Entry ι} (ho : e.opened ≠ some i) :
    Started (hist ++ [e]) i s := by
  refine ⟨h.calm, ?_⟩
  have hcount := h.count
  rw [List.countP_append, List.countP_append, List.countP_singleton]
  simp only [ho, decide_false, Bool.false_eq_true, if_false]
  omega

/-- a call that opens no connection, before a session that opens none -/
theorem Started.call (h : Started w.hist i s) (fate : Fate) {q : Query} (hq : q ≠ .reserve) (s' : Session)
    (hcalm : s'.Calm) (hdue : s'.due = 0) : Started ((wire i fate).reply w q).2.hist i s' := by
  refine ⟨hcalm, ?_⟩
  have hcount := h.count
  rw [hdue]
  rcases hist_wire i fate w q with hhist | ⟨a, hhist⟩
  · rw [hhist]
    omega
  · have hopened : Entry.opened (.call i q a) ≠ some i := by
      cases q with
      | reserve => exact absurd rfl hq
      | _ => simp [Entry.opened]
    rw [hhist]
    have hother := (h.other hopened).count
    omega

/-- **A call of its own** -/
theorem Started.next (hcallable : job.callable.Calm) (h : Started w.hist i s) (fate : Fate) :
    Started (s.next job (wire i fate) w).2.hist i (s.next job (wire i fate) w).1 := by
  cases s with
  | opening =>
    have hcount : w.hist.countP (fun e => e.opened = some i) + 1 ≤
        w.hist.countP (fun e => e.sentBack = some i) + 1 := h.count
    have hopen : ∀ s' : Session, s'.Calm → s'.due = 0 → Started (w.serve i .reserve).hist i s' := by
      refine fun s' hcalm hdue => ⟨hcalm, ?_⟩
      rw [hdue, World.serve]
      simpa [Entry.opened, Entry.sentBack] using hcount
    cases fate with
    | answered => exact hopen _ trivial rfl
    | refused e => exact ⟨trivial, Nat.le_of_succ_le hcount⟩
    | lost e => exact hopen _ trivial rfl
  | watching c =>
    rcases hreply : (wire i fate).reply w (.cmd c "WATCH" (job.watches.map asBytes)) with ⟨e | v, w'⟩
    · have hcall := h.call fate (q := .cmd c "WATCH" (job.watches.map asBytes)) (by simp) (.failed (toPyErr e)) trivial
        rfl
      simp only [Session.next, hreply] at hcall ⊢
      exact hcall
    · have hcall := h.call fate (q := .cmd c "WATCH" (job.watches.map asBytes)) (by simp) _
          (calm_resume hcallable c) (due_resume c job.callable)
      simp only [Session.next, hreply] at hcall ⊢
      exact hcall
  | running c rest =>
    cases rest with
    | get k next =>
      rcases hreply : (wire i fate).reply w (.cmd c "GET" [asBytes k]) with ⟨e | v, w'⟩
      · have hcall := h.call fate (q := .cmd c "GET" [asBytes k]) (by simp) (.unwatching c (toPyErr e))
          (isWatchError_toPyErr e) rfl
        simp only [Session.next, hreply] at hcall ⊢
        exact hcall
      · have hcall := h.call fate (q := .cmd c "GET" [asBytes k]) (by simp) _
          (calm_resume (h.calm (fetched (.raw (.value v)))) c) (due_resume c _)
        simp only [Session.next, hreply] at hcall ⊢
        exact hcall
    | exec block value =>
      have hother := h.call fate (q := .atomicPipe c (block.map Buffered.cmd)) (by simp)
      rcases hreply : (wire i fate).reply w (.atomicPipe c (block.map Buffered.cmd)) with ⟨e | raw, w'⟩
      · simp only [Session.next, hreply] at hother ⊢
        exact hother _ trivial rfl
      · by_cases hraw : raw = .nil
        · -- sent back, and on record for it
          have hnil : ((wire i fate).reply w (.atomicPipe c (block.map Buffered.cmd))).1 = .ok .nil := by
            rw [hreply, hraw]
          have hhist := hist_nil hnil
          simp only [Session.next, hreply, hraw] at hhist ⊢
          rw [hhist]
          refine ⟨trivial, ?_⟩
          have hcount : w.hist.countP (fun e => e.opened = some i) ≤
              w.hist.countP (fun e => e.sentBack = some i) + 1 := h.count
          simpa [ReservedConnection.execReply, Session.executed, Session.due, Entry.opened, Entry.sentBack] using hcount
        · have hend : (Session.executed job value (ReservedConnection.execReply raw)).Calm ∧
              (Session.executed job value (ReservedConnection.execReply raw)).due = 0 := by
            cases raw <;> first | exact absurd rfl hraw | exact ⟨trivial, rfl⟩
          simp only [Session.next, hreply] at hother ⊢
          exact hother _ hend.1 hend.2
    | raise e => exact ⟨h.calm, h.count⟩
  | unwatching c e =>
    have hend : Session.unwind e = .failed e := by
      have hcalm : isWatchError e = false := h.calm
      rw [Session.unwind, hcalm]
      rfl
    have hcall := h.call fate (q := .cmd c "UNWATCH" []) (by simp) (.failed e) trivial rfl
    rw [← hend] at hcall
    exact hcall
  | returned v => exact h
  | failed e => exact h

theorem started_step {jobs : ι → Job} (hcalm : (jobs i).callable.Calm) {p : Pool ι Session (World ι)}
    (h : Started p.shared.hist i (p.tasks i)) (e : Event ι) :
    Started (step (sessionNext jobs) p e).shared.hist i ((step (sessionNext jobs) p e).tasks i) := by
  cases e with
  | outside k v =>
    rw [step]
    split_ifs
    · exact h
    · exact h.other (by simp [Entry.opened])
  | client j fate =>
    by_cases hj : j = i
    · subst hj
      simpa only [step, sessionNext, Function.update_self] using h.next hcalm fate
    · have hstill : (step (sessionNext jobs) p (.client j fate)).tasks i = p.tasks i :=
        Function.update_of_ne (Ne.symm hj) _ _
      rw [hstill]
      rcases hist_next (jobs j) j fate (p.tasks j) p.shared with hhist | ⟨q, a, hhist⟩
      · simpa only [step, sessionNext, hhist] using h
      · have hopened : Entry.opened (.call j q a) ≠ some i := by
          cases q <;> simp [Entry.opened, hj]
        simpa only [step, sessionNext, hhist] using h.other hopened

/-- **Every run**: a session of a calm callable starts again for nil EXECs only. -/
theorem session_started {jobs : ι → Job} (hcalm : (jobs i).callable.Calm) (r : Redis) (l : List (Event ι)) :
    Started (run (step (sessionNext jobs)) (sessions r) l).shared.hist i
      ((run (step (sessionNext jobs)) (sessions r) l).tasks i) :=
  run_invariant' (I := fun p : Pool ι Session (World ι) => Started p.shared.hist i (p.tasks i))
    (fun _ e h => started_step hcalm h e) l ⟨trivial, Nat.le_refl _⟩

end Rounds

end RedisRsPy.Serial
