/-
Serializability of transactions with watched keys: the sessions refine `Lib.Serializable`, optimistic transactions on a
store. The counts that WATCH notes are those of the connection, which no two sessions share.

Result (`session_serialized`), for every reachable state of any number of sessions, with calls that fail and foreign
writes anywhere:
- the store is that of the applied EXECs in their order, each as its whole callable run at once at that point;
- a transaction that returned was applied once, and returns what its callable gives at its place in that order
  (`Placed`); but where its block was empty it was applied never, and returns what its callable made of reads each of
  which was right at its own moment (`ReadOnly`);
- one that failed was applied at most once, one that is still running not at all;
- a transaction is sent back at most once for each write of somebody else, and starts again for nothing else, unless its
  callable raises WatchError.
-/
import Mathlib.Data.List.Induction
import RedisRsPy.Lib.Serializable
import RedisRsPy.Pipeline.Session

namespace RedisRsPy.Serial

open Lib Serializable
open Transaction (fetched)

/-! ## A block on the server -/

/-- the keys with their counts -/
def cells (r : Redis) : Store Bytes (Option Bytes) := ⟨r.store, r.version⟩

theorem commands_block (r : Redis) (block : List Buffered) :
    (r.commands (block.map Buffered.cmd)).1 = replies block r.store ∧
      cells (r.commands (block.map Buffered.cmd)).2 = (cells r).putAll (writes block) ∧
      (r.commands (block.map Buffered.cmd)).2.watched = r.watched ∧
      (r.commands (block.map Buffered.cmd)).2.conns = r.conns := by
  induction block generalizing r with
  | nil => exact ⟨rfl, rfl, rfl, rfl⟩
  | cons cmd block ih =>
    cases cmd with
    | get k =>
      have hget : r.command (Buffered.get k).cmd = (Redis.getReply (r.store (asBytes k)), r) := rfl
      simp only [List.map_cons, Redis.commands, hget]
      exact ⟨congrArg _ (ih r).1, (ih r).2⟩
    | set k v =>
      have hset : r.command (Buffered.set k v).cmd = (.okay, r.put (asBytes k) (some v)) := rfl
      simp only [List.map_cons, Redis.commands, hset]
      obtain ⟨hreplies, hcells, hwatched, hconns⟩ := ih (r.put (asBytes k) (some v))
      exact ⟨congrArg _ hreplies, hcells, hwatched, hconns⟩

theorem changed_iff (r : Redis) (c : ℕ) : r.changed c = true ↔ ¬ Fresh r.version (r.watched c) := by
  simp [Redis.changed, Fresh]

/-- WATCH notes each of the keys -/
theorem watch_keys (r : Redis) (c : ℕ) (ks : List Bytes) :
    (ks.foldl (Redis.watchKey c) r).watched c = r.watched c ++ ks.map (fun k => (k, r.version k)) ∧
      cells (ks.foldl (Redis.watchKey c) r) = cells r ∧ (ks.foldl (Redis.watchKey c) r).conns = r.conns ∧
      ∀ c', c' ≠ c → (ks.foldl (Redis.watchKey c) r).watched c' = r.watched c' := by
  induction ks generalizing r with
  | nil => exact ⟨by simp, rfl, rfl, fun _ _ => rfl⟩
  | cons k ks ih =>
    obtain ⟨hnotes, hcells, hconns, hother⟩ := ih (Redis.watchKey c r k)
    refine ⟨?_, hcells, hconns, fun c' hc => ?_⟩
    · rw [List.foldl_cons, hnotes, Redis.watched_watchKey]
      simp [Redis.watchKey]
    · rw [List.foldl_cons, hother c' hc, Redis.watched_watchKey_of_ne r c k hc]

/-! ## The transaction behind a session -/

/-- a callable as reads and a block -/
def Callable.body (job : Job) : Callable → Body Bytes (Option Bytes) RawResult
  | get k next => .read (asBytes k) fun v => (next v).body job
  | exec [] value => .leave (job.result value [])
  | exec (cmd :: block) value =>
    .exec fun s => (job.result value (replies (cmd :: block) s), writes (cmd :: block))
  | raise _ => .fail

def Job.body (job : Job) : Body Bytes (Option Bytes) RawResult := job.callable.body job

def Job.keys (job : Job) : List Bytes := job.watches.map asBytes

theorem Callable.within_body {watches : List String} (job : Job) (c : Callable) (h : c.Within watches) :
    (c.body job).Within (watches.map asBytes) := by
  induction c with
  | get k next ih => exact ⟨List.mem_map_of_mem h.1, fun v => ih v (h.2 v)⟩
  | exec block value => cases block <;> trivial
  | raise e => trivial

theorem Job.within_body (job : Job) : job.body.Within job.keys := job.callable.within_body job job.within

/-- the body at once is the callable alone -/
theorem Callable.eval_body (job : Job) (c : Callable) (s : Keys) :
    (c.body job).eval s = (c.alone s).map fun o => (job.result o.2 (replies o.1 s), writes o.1) := by
  induction c with
  | get k next ih => exact ih (s (asBytes k))
  | exec block value => cases block <;> rfl
  | raise e => rfl

theorem Job.apply_body (job : Job) (s : Keys) : job.body.apply s = job.apply s := by
  rw [Body.apply, Job.body, Callable.eval_body, Job.apply]
  cases job.callable.alone s <;> rfl

theorem Job.value_body (job : Job) {s : Keys} {v : RawResult} {ws : List (Bytes × Option Bytes)}
    (h : job.body.eval s = some (v, ws)) : job.value s = some v := by
  rw [Job.body, Callable.eval_body] at h
  rw [Job.value]
  cases hc : job.callable.alone s with
  | none => simp [hc] at h
  | some o =>
    rw [hc, Option.map_some, Option.some.injEq, Prod.mk.injEq] at h
    rw [Option.map_some, h.1]

section System

variable {ι : Type}

/-- what an entry is to the store -/
def record : Entry ι → Option (Rec ι Bytes (Option Bytes))
  | .outside k v => some (.written (asBytes k) v)
  | .call i (.atomicPipe _ _) (.ok .nil) => some (.aborted i)
  | .call i (.atomicPipe _ _) (.ok (.array _)) => some (.committed i)
  | _ => none

/-- the phase of the transaction behind a session, and the watch its connection has -/
def Behind (job : Job) (r : Redis) : Session → Phase Bytes (Option Bytes) RawResult → Prop
  | .opening, p => p = .idle
  | .watching c, p => p = .idle ∧ r.watched c = []
  | .running c rest, p => p = .running (r.watched c) (rest.body job)
  | .unwatching _ _, p => ∃ notes rest, p = .running notes rest
  | .returned v, p => p = .done v ∨ p = .left v
  | .failed _, _ => True

theorem Behind.congr {job : Job} {r r' : Redis} {s : Session} {p : Phase Bytes (Option Bytes) RawResult}
    (h : Behind job r s p) (hw : ∀ c, s.conn = some c → r'.watched c = r.watched c) : Behind job r' s p := by
  cases s <;> simp_all [Behind, Session.conn]

/-- the sessions behave as the transactions `a` -/
structure Sim (jobs : ι → Job) (p : Pool ι Session (World ι)) (a : Sys ι Bytes (Option Bytes) RawResult) : Prop where
  cells : a.store = cells p.shared.redis
  hist : a.hist = p.shared.hist.filterMap record
  behind : ∀ i, Behind (jobs i) p.shared.redis (p.tasks i) (a.phase i)
  /-- every connection in use was opened, by one session -/
  conns : ∀ i c, (p.tasks i).conn = some c → c < p.shared.redis.conns
  apart : ∀ i j c, (p.tasks i).conn = some c → (p.tasks j).conn = some c → i = j

variable {jobs : ι → Job} {p : Pool ι Session (World ι)} {a a' : Sys ι Bytes (Option Bytes) RawResult}

theorem Sim.start (jobs : ι → Job) (r : Redis) : Sim jobs (sessions r) (Sys.start (Serial.cells r)) where
  cells := rfl
  hist := rfl
  behind _ := rfl
  conns i c h := by simp [sessions, Session.conn] at h
  apart i j c h := by simp [sessions, Session.conn] at h

theorem Sim.behind_of (h : Sim jobs p a) {i : ι} {s : Session} (hs : p.tasks i = s) :
    Behind (jobs i) p.shared.redis s (a.phase i) := by
  rw [← hs]
  exact h.behind i

/-- an entry that is nothing to the store -/
theorem Sim.hist_serve (h : Sim jobs p a) {i : ι} {q : Query}
    (hrec : record (.call i q (Redis.server.reply p.shared.redis q).1) = none) :
    a.hist = (p.shared.serve i q).hist.filterMap record := by
  rw [h.hist, World.serve, List.filterMap_append, List.filterMap_cons_none hrec, List.filterMap_nil, List.append_nil]

variable [DecidableEq ι]

/-- one move of session `i`: what is to be shown about it alone -/
theorem Sim.move (h : Sim jobs p a) (i : ι) {s : Session} {w : World ι}
    (hcells : a'.store = Serial.cells w.redis)
    (hhist : a'.hist = w.hist.filterMap record)
    (hphase : ∀ j, j ≠ i → a'.phase j = a.phase j)
    (hbehind : Behind (jobs i) w.redis s (a'.phase i))
    (hconns : p.shared.redis.conns ≤ w.redis.conns)
    (hconn : ∀ c, s.conn = some c → c < w.redis.conns ∧ ((p.tasks i).conn = some c ∨ p.shared.redis.conns ≤ c))
    (hwatched : ∀ c, c < p.shared.redis.conns → (p.tasks i).conn ≠ some c →
      w.redis.watched c = p.shared.redis.watched c) :
    Sim jobs ⟨w, Function.update p.tasks i s⟩ a' where
  cells := hcells
  hist := hhist
  behind j := by
    show Behind (jobs j) w.redis (Function.update p.tasks i s j) (a'.phase j)
    by_cases hj : j = i
    · subst hj
      simpa using hbehind
    · rw [Function.update_of_ne hj, hphase j hj]
      exact (h.behind j).congr fun c hc => hwatched c (h.conns j c hc) fun hi => hj (h.apart j i c hc hi)
  conns j c hc := by
    have hc : (Function.update p.tasks i s j).conn = some c := hc
    by_cases hj : j = i
    · subst hj
      rw [Function.update_self] at hc
      exact (hconn c hc).1
    · rw [Function.update_of_ne hj] at hc
      exact Nat.lt_of_lt_of_le (h.conns j c hc) hconns
  apart j j' c hc hc' := by
    have hc : (Function.update p.tasks i s j).conn = some c := hc
    have hc' : (Function.update p.tasks i s j').conn = some c := hc'
    -- a connection of `i` was its own before, or is newly opened
    have hfresh : ∀ j, j ≠ i → s.conn = some c → (p.tasks j).conn ≠ some c := by
      intro j hj hs hpc
      rcases (hconn c hs).2 with hi | hnew
      · exact hj (h.apart j i c hpc hi)
      · exact absurd (h.conns j c hpc) (Nat.not_lt.2 hnew)
    by_cases hj : j = i
    · by_cases hj' : j' = i
      · rw [hj, hj']
      · rw [hj, Function.update_self] at hc
        rw [Function.update_of_ne hj'] at hc'
        exact absurd hc' (hfresh j' hj' hc)
    · rw [Function.update_of_ne hj] at hc
      by_cases hj' : j' = i
      · rw [hj', Function.update_self] at hc'
        exact absurd hc (hfresh j hj hc')
      · rw [Function.update_of_ne hj'] at hc'
        exact h.apart j j' c hc hc'

/-- a session that has failed, or given its connection up, owes nothing more -/
theorem Sim.leave (h : Sim jobs p a) (i : ι) {s : Session} {w : World ι} (hs : s.conn = none)
    (hcells : a'.store = Serial.cells w.redis) (hhist : a'.hist = w.hist.filterMap record)
    (hphase : ∀ j, j ≠ i → a'.phase j = a.phase j) (hbehind : Behind (jobs i) w.redis s (a'.phase i))
    (hconns : p.shared.redis.conns ≤ w.redis.conns)
    (hwatched : ∀ c, c < p.shared.redis.conns → (p.tasks i).conn ≠ some c →
      w.redis.watched c = p.shared.redis.watched c) :
    Sim jobs ⟨w, Function.update p.tasks i s⟩ a' :=
  h.move i hcells hhist hphase hbehind hconns (fun c hc => by simp [hs] at hc) hwatched

/-- what client `i` does next -/
def moved (jobs : ι → Job) (p : Pool ι Session (World ι)) (i : ι) (fate : Fate) : Pool ι Session (World ι) :=
  Serial.step (sessionNext jobs) p (.client i fate)

theorem moved_of {i : ι} {fate : Fate} {s t : Session} {w : World ι} (hs : p.tasks i = s)
    (hnext : s.next (jobs i) (wire i fate) p.shared = (t, w)) :
    moved jobs p i fate = ⟨w, Function.update p.tasks i t⟩ := by
  simp only [moved, Serial.step, sessionNext, hs, hnext]

/-- a connection is opened -/
theorem sim_opening (h : Sim jobs p a) {i : ι} (hs : p.tasks i = .opening) (fate : Fate) :
    Sim jobs (moved jobs p i fate) a := by
  have hidle : a.phase i = .idle := h.behind_of hs
  have hwatched : ∀ c, c < p.shared.redis.conns → p.shared.redis.connect.watched c = p.shared.redis.watched c :=
    fun c hc => Redis.watched_forget_of_ne _ _ (Nat.ne_of_lt hc)
  cases fate with
  | answered =>
    rw [moved_of (t := .watching p.shared.redis.conns) (w := p.shared.serve i .reserve) hs rfl]
    refine h.move i h.cells (h.hist_serve rfl) (fun _ _ => rfl) ?_ (Nat.le_succ _) ?_ (fun c hc _ => hwatched c hc)
    · exact ⟨hidle, Redis.watched_forget _ _⟩
    · rintro c ⟨⟩
      exact ⟨Nat.lt_succ_self _, Or.inr (Nat.le_refl _)⟩
  | refused e =>
    rw [moved_of (w := p.shared) hs rfl]
    exact h.leave i rfl h.cells h.hist (fun _ _ => rfl) trivial (Nat.le_refl _) fun _ _ _ => rfl
  | lost e =>
    rw [moved_of (w := p.shared.serve i .reserve) hs rfl]
    exact h.leave i rfl h.cells (h.hist_serve rfl) (fun _ _ => rfl) trivial (Nat.le_succ _)
      fun c hc _ => hwatched c hc

/-- the optimistic transactions behind -/
def act (jobs : ι → Job) (a : Sys ι Bytes (Option Bytes) RawResult) (e : Act ι Bytes (Option Bytes)) :
    Sys ι Bytes (Option Bytes) RawResult :=
  Serializable.step (fun i => (jobs i).body) (fun i => (jobs i).keys) a e

theorem phase_enter_of_ne {i j : ι} (hj : j ≠ i) (q : Phase Bytes (Option Bytes) RawResult) :
    (a.enter i q).phase j = a.phase j := by
  simp [Sys.enter, hj]

theorem phase_enter (i : ι) (q : Phase Bytes (Option Bytes) RawResult) : (a.enter i q).phase i = q := by
  simp [Sys.enter]

/-- the callable goes on: it has a call to make, or gives the watch back -/
theorem behind_resume {job : Job} {r : Redis} {c : ℕ} {rest : Callable} {q : Phase Bytes (Option Bytes) RawResult}
    (h : q = .running (r.watched c) (rest.body job)) : Behind job r (Session.resume c rest) q := by
  subst h
  cases rest with
  | raise e => exact ⟨_, _, rfl⟩
  | _ => rfl

theorem conn_resume (c : ℕ) (rest : Callable) : (Session.resume c rest).conn = some c := by
  cases rest <;> rfl

/-- WATCH notes the counts of the keys -/
theorem sim_watching (h : Sim jobs p a) {i : ι} {c : ℕ} (hs : p.tasks i = .watching c) (fate : Fate) :
    ∃ e, Sim jobs (moved jobs p i fate) (act jobs a e) := by
  obtain ⟨hidle, hnone⟩ := h.behind_of hs
  have hconn : (p.tasks i).conn = some c := by rw [hs]; rfl
  obtain ⟨hnotes, hcells, hconns, hother⟩ := watch_keys p.shared.redis c (jobs i).keys
  have hwatched : ∀ c', c' < p.shared.redis.conns → (p.tasks i).conn ≠ some c' →
      ((jobs i).keys.foldl (Redis.watchKey c) p.shared.redis).watched c' = p.shared.redis.watched c' := by
    intro c' _ hc'
    exact hother c' fun hcc => hc' (by rw [hcc, hconn])
  cases fate with
  | answered =>
    refine ⟨.watch i, ?_⟩
    rw [moved_of (t := .resume c (jobs i).callable) (w := p.shared.serve i (.cmd c "WATCH" (jobs i).keys)) hs rfl]
    simp only [act, Serializable.step, hidle]
    refine h.move i (h.cells.trans hcells.symm) (h.hist_serve rfl) (fun j hj => phase_enter_of_ne hj _) ?_
      (Nat.le_of_eq hconns.symm) ?_ hwatched
    · refine behind_resume ?_
      have hkeys : (p.shared.serve i (.cmd c "WATCH" (jobs i).keys)).redis.watched c =
          (jobs i).keys.map fun k => (k, a.store.ver k) := by
        rw [hnone, List.nil_append] at hnotes
        rw [h.cells]
        exact hnotes
      rw [phase_enter, hkeys]
      rfl
    · intro c' hc'
      rw [conn_resume] at hc'
      cases hc'
      exact ⟨Nat.lt_of_lt_of_eq (h.conns i c hconn) hconns.symm, .inl hconn⟩
  | refused e =>
    refine ⟨.skip, ?_⟩
    rw [moved_of (w := p.shared) hs rfl]
    exact h.leave i rfl h.cells h.hist (fun _ _ => rfl) trivial (Nat.le_refl _) fun _ _ _ => rfl
  | lost e =>
    refine ⟨.skip, ?_⟩
    rw [moved_of (w := p.shared.serve i (.cmd c "WATCH" (jobs i).keys)) hs rfl]
    exact h.leave i rfl (h.cells.trans hcells.symm) (h.hist_serve rfl) (fun _ _ => rfl) trivial
      (Nat.le_of_eq hconns.symm) hwatched

/-- GET reads a key -/
theorem sim_get (h : Sim jobs p a) {i : ι} {c : ℕ} {k : String} {next : Option Bytes → Callable}
    (hs : p.tasks i = .running c (.get k next)) (fate : Fate) :
    ∃ e, Sim jobs (moved jobs p i fate) (act jobs a e) := by
  have hrun : a.phase i = .running (p.shared.redis.watched c) (Callable.body (jobs i) (.get k next)) := h.behind_of hs
  have hconn : (p.tasks i).conn = some c := by rw [hs]; rfl
  have hget : Redis.server.reply p.shared.redis (.cmd c "GET" [asBytes k]) =
      (.ok (Redis.getReply (p.shared.redis.store (asBytes k))), p.shared.redis) := Redis.dispatch_get _ c _
  have hsent : sent (.cmd c "GET" [asBytes k]) = true := rfl
  have hredis : (p.shared.serve i (.cmd c "GET" [asBytes k])).redis = p.shared.redis := by rw [World.serve, hget]
  have hrec : record (.call i (.cmd c "GET" [asBytes k])
      (Redis.server.reply p.shared.redis (.cmd c "GET" [asBytes k])).1) = none := rfl
  have hown : ∀ c', some c = some c' → c' < p.shared.redis.conns ∧
      ((p.tasks i).conn = some c' ∨ p.shared.redis.conns ≤ c') := by
    rintro c' ⟨⟩
    exact ⟨h.conns i c hconn, .inl hconn⟩
  cases fate with
  | answered =>
    refine ⟨.read i, ?_⟩
    have hfetched : fetched (.raw (.value (Redis.getReply (p.shared.redis.store (asBytes k))))) =
        p.shared.redis.store (asBytes k) := Transaction.fetched_getReply _
    have hnext : (Session.running c (.get k next)).next (jobs i) (wire i .answered) p.shared =
        (.resume c (next (p.shared.redis.store (asBytes k))), p.shared.serve i (.cmd c "GET" [asBytes k])) := by
      simp only [Session.next, wire_answered i p.shared hsent, hget, hfetched]
    rw [moved_of hs hnext]
    simp only [act, Serializable.step, hrun, Callable.body]
    refine h.move i ?_ (h.hist_serve hrec) (fun j hj => phase_enter_of_ne hj _) ?_ ?_ ?_ ?_
    · rw [hredis]
      exact h.cells
    · refine behind_resume ?_
      rw [phase_enter, hredis, h.cells]
      rfl
    · exact Nat.le_of_eq (by rw [hredis])
    · rw [hredis, conn_resume]
      exact hown
    · intro c' _ _
      rw [hredis]
  | refused e =>
    refine ⟨.skip, ?_⟩
    rw [moved_of (w := p.shared) hs rfl]
    exact h.move i h.cells h.hist (fun _ _ => rfl) ⟨_, _, hrun⟩ (Nat.le_refl _) hown fun _ _ _ => rfl
  | lost e =>
    refine ⟨.skip, ?_⟩
    rw [moved_of (w := p.shared.serve i (.cmd c "GET" [asBytes k])) hs rfl]
    refine h.move i ?_ (h.hist_serve hrec) (fun _ _ => rfl) ⟨_, _, hrun⟩ ?_ ?_ ?_
    · rw [hredis]
      exact h.cells
    · exact Nat.le_of_eq (by rw [hredis])
    · rw [hredis]
      exact hown
    · intro c' _ _
      rw [hredis]

/-- what EXEC does at the server, and what the transaction behind does -/
theorem exec_cases (h : Sim jobs p a) {i : ι} {c : ℕ} {block : List Buffered} {value : RawResult} (hblock : block ≠ [])
    (hrun : a.phase i = .running (p.shared.redis.watched c) (Callable.body (jobs i) (.exec block value))) :
    let w := p.shared.serve i (.atomicPipe c (block.map Buffered.cmd))
    (act jobs a (.commit i)).store = Serial.cells w.redis ∧
      (act jobs a (.commit i)).hist = w.hist.filterMap record ∧
      (∀ j, j ≠ i → (act jobs a (.commit i)).phase j = a.phase j) ∧ w.redis.conns = p.shared.redis.conns ∧
      (∀ c', c' ≠ c → w.redis.watched c' = p.shared.redis.watched c') ∧
      ((∃ items, (Redis.server.reply p.shared.redis (.atomicPipe c (block.map Buffered.cmd))).1 = .ok (.array items) ∧
          (act jobs a (.commit i)).phase i = .done ((jobs i).result value items)) ∨
        (Redis.server.reply p.shared.redis (.atomicPipe c (block.map Buffered.cmd))).1 = .ok .nil ∧
          (act jobs a (.commit i)).phase i = .idle) := by
  obtain ⟨cmd, block, rfl⟩ := List.exists_cons_of_ne_nil hblock
  intro w
  have hver : a.store.ver = p.shared.redis.version := by rw [h.cells]; rfl
  by_cases hchanged : p.shared.redis.changed c = true
  · have hreply : Redis.server.reply p.shared.redis (.atomicPipe c ((cmd :: block).map Buffered.cmd)) =
        (.ok .nil, p.shared.redis.forget c) := if_pos hchanged
    have hstale : ¬ Fresh a.store.ver (p.shared.redis.watched c) := by
      rw [hver]
      exact (changed_iff _ _).1 hchanged
    have hw : w = ⟨p.shared.redis.forget c,
        p.shared.hist ++ [.call i (.atomicPipe c ((cmd :: block).map Buffered.cmd)) (.ok .nil)]⟩ := by
      simp only [w, World.serve, hreply]
    have hact : act jobs a (.commit i) = { a.enter i .idle with hist := a.hist ++ [.aborted i] } := by
      simp only [act, Serializable.step, hrun, Callable.body, if_neg hstale]
    rw [hact, hreply]
    refine ⟨?_, ?_, fun j hj => phase_enter_of_ne hj _, ?_, ?_, .inr ⟨rfl, phase_enter _ _⟩⟩
    · rw [hw]
      exact h.cells
    · rw [hw, List.filterMap_append, ← h.hist]
      rfl
    · rw [hw]
      rfl
    · intro c' hc'
      rw [hw]
      exact Redis.watched_forget_of_ne _ _ hc'
  · obtain ⟨hreplies, hcells, hwatched, hconns⟩ := commands_block p.shared.redis (cmd :: block)
    have hreply : Redis.server.reply p.shared.redis (.atomicPipe c ((cmd :: block).map Buffered.cmd)) =
        (.ok (.array (replies (cmd :: block) p.shared.redis.store)),
          (p.shared.redis.commands ((cmd :: block).map Buffered.cmd)).2.forget c) := by
      rw [← hreplies]
      exact if_neg hchanged
    have hfresh : Fresh a.store.ver (p.shared.redis.watched c) := by
      rw [hver]
      exact not_not.1 fun hstale => hchanged ((changed_iff _ _).2 hstale)
    have hw : w = ⟨(p.shared.redis.commands ((cmd :: block).map Buffered.cmd)).2.forget c, p.shared.hist ++
        [.call i (.atomicPipe c ((cmd :: block).map Buffered.cmd))
          (.ok (.array (replies (cmd :: block) p.shared.redis.store)))]⟩ := by
      simp only [w, World.serve, hreply]
    have hval : a.store.val = p.shared.redis.store := by rw [h.cells]; rfl
    have hact : act jobs a (.commit i) =
        { a.enter i (.done ((jobs i).result value (replies (cmd :: block) a.store.val))) with
          store := a.store.putAll (writes (cmd :: block))
          hist := a.hist ++ [.committed i] } := by
      simp only [act, Serializable.step, hrun, Callable.body, if_pos hfresh]
    rw [hact, hreply]
    refine ⟨?_, ?_, fun j hj => phase_enter_of_ne hj _, ?_, ?_, .inl ⟨_, rfl, ?_⟩⟩
    · rw [hw]
      exact (congrArg (Store.putAll · (writes (cmd :: block))) h.cells).trans hcells.symm
    · rw [hw, List.filterMap_append, ← h.hist]
      rfl
    · rw [hw]
      exact hconns
    · intro c' hc'
      rw [hw]
      exact (Redis.watched_forget_of_ne _ _ hc').trans (congrFun hwatched c')
    · rw [hval]
      exact phase_enter _ _

/-- an empty block is not sent -/
theorem sim_leave (h : Sim jobs p a) {i : ι} {c : ℕ} {value : RawResult}
    (hs : p.tasks i = .running c (.exec [] value)) (fate : Fate) :
    ∃ e, Sim jobs (moved jobs p i fate) (act jobs a e) := by
  have hrun : a.phase i = .running (p.shared.redis.watched c) (.leave ((jobs i).result value [])) := h.behind_of hs
  refine ⟨.leave i, ?_⟩
  rw [moved_of (t := .returned ((jobs i).result value [])) (w := p.shared) hs rfl]
  simp only [act, Serializable.step, hrun]
  exact h.leave i rfl h.cells h.hist (fun j hj => phase_enter_of_ne hj _) (.inr (phase_enter _ _)) (Nat.le_refl _)
    fun _ _ _ => rfl

/-- EXEC applies the block, or sends the transaction back -/
theorem sim_exec (h : Sim jobs p a) {i : ι} {c : ℕ} {block : List Buffered} {value : RawResult} (hblock : block ≠ [])
    (hs : p.tasks i = .running c (.exec block value)) (fate : Fate) :
    ∃ e, Sim jobs (moved jobs p i fate) (act jobs a e) := by
  have hconn : (p.tasks i).conn = some c := by rw [hs]; rfl
  have hsent : sent (.atomicPipe c (block.map Buffered.cmd)) = true := sent_block hblock c
  obtain ⟨hcells, hhist, hphase, hconns, hother, hreply⟩ := exec_cases h hblock (h.behind_of hs)
  have hwatched : ∀ c', c' < p.shared.redis.conns → (p.tasks i).conn ≠ some c' →
      (p.shared.serve i (.atomicPipe c (block.map Buffered.cmd))).redis.watched c' = p.shared.redis.watched c' := by
    intro c' _ hc'
    exact hother c' fun hcc => hc' (by rw [hcc, hconn])
  cases fate with
  | answered =>
    refine ⟨.commit i, ?_⟩
    rcases hreply with ⟨items, hitems, hdone⟩ | ⟨hnil, hidle⟩
    · have hnext : (Session.running c (.exec block value)).next (jobs i) (wire i .answered) p.shared =
          (.returned ((jobs i).result value items), p.shared.serve i (.atomicPipe c (block.map Buffered.cmd))) := by
        simp only [Session.next, wire_answered i p.shared hsent, hitems]
        rfl
      rw [moved_of hs hnext]
      exact h.leave i rfl hcells hhist hphase (.inl hdone) (Nat.le_of_eq hconns.symm) hwatched
    · have hnext : (Session.running c (.exec block value)).next (jobs i) (wire i .answered) p.shared =
          (.opening, p.shared.serve i (.atomicPipe c (block.map Buffered.cmd))) := by
        simp only [Session.next, wire_answered i p.shared hsent, hnil]
        rfl
      rw [moved_of hs hnext]
      exact h.leave i rfl hcells hhist hphase hidle (Nat.le_of_eq hconns.symm) hwatched
  | refused e =>
    refine ⟨.skip, ?_⟩
    have hnext : (Session.running c (.exec block value)).next (jobs i) (wire i (.refused e)) p.shared =
        (.failed (toPyErr e), p.shared) := by
      simp only [Session.next, wire_refused i p.shared hsent]
      rfl
    rw [moved_of hs hnext]
    exact h.leave i rfl h.cells h.hist (fun _ _ => rfl) trivial (Nat.le_refl _) fun _ _ _ => rfl
  | lost e =>
    -- carried out all the same
    refine ⟨.commit i, ?_⟩
    have hnext : (Session.running c (.exec block value)).next (jobs i) (wire i (.lost e)) p.shared =
        (.failed (toPyErr e), p.shared.serve i (.atomicPipe c (block.map Buffered.cmd))) := by
      simp only [Session.next, wire_lost i p.shared hsent]
      rfl
    rw [moved_of hs hnext]
    exact h.leave i rfl hcells hhist hphase trivial (Nat.le_of_eq hconns.symm) hwatched

/-- UNWATCH ends the round -/
theorem sim_unwatching (h : Sim jobs p a) {i : ι} {c : ℕ} {e : Fault} (hs : p.tasks i = .unwatching c e) (fate : Fate) :
    ∃ e, Sim jobs (moved jobs p i fate) (act jobs a e) := by
  obtain ⟨notes, rest, hrun⟩ := h.behind_of hs
  have hconn : (p.tasks i).conn = some c := by rw [hs]; rfl
  have hact : act jobs a (.abandon i) = a.enter i .idle := by
    simp only [act, Serializable.step, hrun]
  have hcells : (act jobs a (.abandon i)).store = a.store := by rw [hact]; rfl
  have hhist : (act jobs a (.abandon i)).hist = a.hist := by rw [hact]; rfl
  have hphase : ∀ j, j ≠ i → (act jobs a (.abandon i)).phase j = a.phase j := by
    intro j hj
    rw [hact]
    exact phase_enter_of_ne hj _
  have hidle : (act jobs a (.abandon i)).phase i = .idle := by
    rw [hact]
    exact phase_enter _ _
  have hbehind : ∀ r, Behind (jobs i) r (Session.unwind e) ((act jobs a (.abandon i)).phase i) := by
    intro r
    rw [Session.unwind]
    split_ifs
    · exact hidle
    · trivial
  have hnone : (Session.unwind e).conn = none := by
    rw [Session.unwind]
    split_ifs <;> rfl
  have hwatched : ∀ c', c' < p.shared.redis.conns → (p.tasks i).conn ≠ some c' →
      (p.shared.redis.forget c).watched c' = p.shared.redis.watched c' := by
    intro c' _ hc'
    exact Redis.watched_forget_of_ne _ _ fun hcc => hc' (by rw [hcc, hconn])
  refine ⟨.abandon i, ?_⟩
  cases fate with
  | answered =>
    rw [moved_of (w := p.shared.serve i (.cmd c "UNWATCH" [])) hs rfl]
    exact h.leave i hnone (hcells.trans h.cells) (hhist.trans (h.hist_serve rfl)) hphase (hbehind _) (Nat.le_refl _)
      hwatched
  | refused e =>
    rw [moved_of (w := p.shared) hs rfl]
    exact h.leave i hnone (hcells.trans h.cells) (hhist.trans h.hist) hphase (hbehind _) (Nat.le_refl _)
      fun _ _ _ => rfl
  | lost e =>
    rw [moved_of (w := p.shared.serve i (.cmd c "UNWATCH" [])) hs rfl]
    exact h.leave i hnone (hcells.trans h.cells) (hhist.trans (h.hist_serve rfl)) hphase (hbehind _) (Nat.le_refl _)
      hwatched

/-- a session that has ended stays as it is -/
theorem sim_still (h : Sim jobs p a) {i : ι} {fate : Fate}
    (hnext : (p.tasks i).next (jobs i) (wire i fate) p.shared = (p.tasks i, p.shared)) :
    ∃ e, Sim jobs (moved jobs p i fate) (act jobs a e) := by
  refine ⟨.skip, ?_⟩
  rw [moved_of rfl hnext, Function.update_eq_self]
  exact h

/-- **A move of a session** is a move of its transaction, or none. -/
theorem session_sim (h : Sim jobs p a) (i : ι) (fate : Fate) : ∃ e, Sim jobs (moved jobs p i fate) (act jobs a e) := by
  cases hs : p.tasks i with
  | opening => exact ⟨.skip, sim_opening h hs fate⟩
  | watching c => exact sim_watching h hs fate
  | running c rest =>
    cases rest with
    | get k next => exact sim_get h hs fate
    | exec block value =>
      by_cases hblock : block = []
      · subst hblock
        exact sim_leave h hs fate
      · exact sim_exec h hblock hs fate
    | raise e =>
      refine ⟨.skip, ?_⟩
      have hconn : (p.tasks i).conn = some c := by rw [hs]; rfl
      have hrun := h.behind_of hs
      rw [moved_of (w := p.shared) hs rfl]
      refine h.move i h.cells h.hist (fun _ _ => rfl) ?_ (Nat.le_refl _) ?_ fun _ _ _ => rfl
      · exact ⟨_, _, hrun⟩
      · rintro c' ⟨⟩
        exact ⟨h.conns i c hconn, .inl hconn⟩
  | unwatching c e => exact sim_unwatching h hs fate
  | returned v => exact sim_still h (by rw [hs]; rfl)
  | failed e => exact sim_still h (by rw [hs]; rfl)

/-- a foreign write is a write of the store -/
theorem outside_sim (h : Sim jobs p a) (k : String) (v : Option Bytes) :
    ∃ e, Sim jobs (Serial.step (sessionNext jobs) p (.outside k v)) (act jobs a e) := by
  by_cases hv : v = none ∧ p.shared.redis.store (asBytes k) = none
  · refine ⟨.skip, ?_⟩
    rw [Serial.step, if_pos hv]
    exact h
  · refine ⟨.write (asBytes k) v, ?_⟩
    rw [Serial.step, if_neg hv]
    constructor
    · exact congrArg (Store.putAll · [(asBytes k, v)]) h.cells
    · simp [act, Serializable.step, h.hist, record]
    · exact fun i => (h.behind i).congr fun c _ => rfl
    · exact h.conns
    · exact h.apart

/-- **Every run refines optimistic transactions.** -/
theorem run_sim (jobs : ι → Job) (r : Redis) (l : List (Event ι)) : ∃ acts,
    Sim jobs (run (Serial.step (sessionNext jobs)) (sessions r) l)
      (run (Serializable.step (fun i => (jobs i).body) fun i => (jobs i).keys) (Sys.start (Serial.cells r)) acts) := by
  induction l using List.reverseRecOn with
  | nil => exact ⟨[], Sim.start jobs r⟩
  | append_singleton l e ih =>
    obtain ⟨acts, h⟩ := ih
    have hstep : ∃ e', Sim jobs (Serial.step (sessionNext jobs) (run (Serial.step (sessionNext jobs)) (sessions r) l) e)
        (act jobs (run (Serializable.step (fun i => (jobs i).body) fun i => (jobs i).keys) (Sys.start (Serial.cells r))
          acts) e') := by
      cases e with
      | client i fate => exact session_sim h i fate
      | outside k v => exact outside_sim h k v
    obtain ⟨e', h'⟩ := hstep
    exact ⟨acts ++ [e'], by rwa [run_snoc, run_snoc]⟩

end System

/-! ## Serializability -/

section Serialized

variable {ι : Type}

/-- what an entry does is what its record does -/
theorem effect_record (jobs : ι → Job) (s : Keys) (e : Entry ι) :
    e.effect jobs s = (record e).elim s (Rec.effect (fun i => (jobs i).body) s) := by
  cases e with
  | outside k v => rfl
  | call i q reply =>
    cases q with
    | atomicPipe c cmds =>
      rcases reply with e | v
      · rfl
      · cases v <;> first | rfl | exact ((jobs i).apply_body s).symm
    | _ => rfl

theorem serialRun_records (jobs : ι → Job) (s : Keys) (hist : List (Entry ι)) :
    serialRun jobs s hist = replay (fun i => (jobs i).body) s (hist.filterMap record) := by
  induction hist generalizing s with
  | nil => rfl
  | cons e hist ih =>
    rw [serialRun, List.foldl_cons, ← serialRun, effect_record, ih]
    cases hrec : record e with
    | none => rw [List.filterMap_cons_none hrec]; rfl
    | some rec => rw [List.filterMap_cons_some hrec]; rfl

theorem applied_record (e : Entry ι) : e.applied = (record e).bind Rec.committer := by
  cases e with
  | outside k v => rfl
  | call i q reply =>
    cases q with
    | atomicPipe c cmds =>
      rcases reply with e | v
      · rfl
      · cases v <;> rfl
    | _ => rfl

theorem sentBack_record (e : Entry ι) : e.sentBack = (record e).bind Rec.aborter := by
  cases e with
  | outside k v => rfl
  | call i q reply =>
    cases q with
    | atomicPipe c cmds =>
      rcases reply with e | v
      · rfl
      · cases v <;> rfl
    | _ => rfl

/-- a record of the transactions is that of an entry -/
theorem split_record {hist : List (Entry ι)} {pre post : List (Rec ι Bytes (Option Bytes))}
    {r : Rec ι Bytes (Option Bytes)} (h : hist.filterMap record = pre ++ r :: post) :
    ∃ pre' e post', hist = pre' ++ e :: post' ∧ pre'.filterMap record = pre ∧ record e = some r := by
  obtain ⟨pre', rest, rfl, hpre, hrest⟩ := List.filterMap_eq_append_iff.1 h
  obtain ⟨skipped, e, post', rfl, hskipped, he, -⟩ := List.filterMap_eq_cons_iff.1 hrest
  refine ⟨pre' ++ skipped, e, post', by simp, ?_, he⟩
  have hnone : skipped.filterMap record = [] := List.filterMap_eq_nil_iff.2 hskipped
  rw [List.filterMap_append, hpre, hnone, List.append_nil]

/-- reads of the transaction behind are reads of the callable -/
theorem seen_body {jobs : ι → Job} {job : Job} {s : Keys} {l : List (Rec ι Bytes (Option Bytes))} {c : Callable}
    {rest : Body Bytes (Option Bytes) RawResult} (h : Seen (fun i => (jobs i).body) s l (c.body job) rest)
    {hist : List (Entry ι)} (hl : hist.filterMap record = l) :
    ∃ rest' : Callable, rest = rest'.body job ∧ Callable.Seen jobs s hist c rest' := by
  generalize hb : c.body job = body at h
  induction h generalizing hist with
  | start l body => exact ⟨c, hb.symm, .start hist c⟩
  | @read l body k next _ ih =>
    obtain ⟨rest', hrest, hseen⟩ := ih hl hb
    cases rest' with
    | get k' next' =>
      rw [Callable.body, Body.read.injEq] at hrest
      obtain ⟨rfl, rfl⟩ := hrest
      rw [← hl, ← serialRun_records]
      exact ⟨_, rfl, hseen.read⟩
    | exec block value => cases block <;> cases hrest
    | raise e => cases hrest
  | @later l body rest r _ ih =>
    obtain ⟨hist', more, rfl, hl', -⟩ := List.filterMap_eq_append_iff.1 hl
    obtain ⟨rest', hrest, hseen⟩ := ih hl' hb
    exact ⟨rest', hrest, hseen.later more⟩

theorem exec_of_leave {job : Job} {c : Callable} {v : RawResult} (h : .leave v = c.body job) :
    ∃ value, c = .exec [] value ∧ v = job.result value [] := by
  cases c with
  | get k next => cases h
  | exec block value =>
    cases block with
    | nil =>
      cases h
      exact ⟨value, rfl, rfl⟩
    | cons cmd block => cases h
  | raise e => cases h

variable [DecidableEq ι]

theorem byOther_record (i : ι) (e : Entry ι) : Entry.ByOther i e = (record e).any (Rec.ByOther i) := by
  cases e with
  | outside k v => rfl
  | call j q reply =>
    cases q with
    | atomicPipe c cmds =>
      rcases reply with e | v
      · rfl
      · cases v <;> rfl
    | _ => rfl

theorem countP_applied (hist : List (Entry ι)) (i : ι) :
    hist.countP (fun e => e.applied = some i) = (hist.filterMap record).countP fun r => r.committer = some i := by
  rw [List.countP_filterMap]
  refine List.countP_congr fun e _ => ?_
  rw [applied_record]
  cases record e <;> simp

theorem countP_sentBack (hist : List (Entry ι)) (i : ι) :
    hist.countP (fun e => e.sentBack = some i) = (hist.filterMap record).countP fun r => r.aborter = some i := by
  rw [List.countP_filterMap]
  refine List.countP_congr fun e _ => ?_
  rw [sentBack_record]
  cases record e <;> simp

theorem countP_byOther (hist : List (Entry ι)) (i : ι) :
    hist.countP (Entry.ByOther i) = (hist.filterMap record).countP (Rec.ByOther i) := by
  rw [List.countP_filterMap]
  refine List.countP_congr fun e _ => ?_
  rw [byOther_record]
  cases record e <;> rfl

/-- it was applied once, and `v` is its result at its place in the serial run -/
structure Placed (jobs : ι → Job) (r : Redis) (w : World ι) (i : ι) (v : RawResult) : Prop where
  place : ∃ pre e post, w.hist = pre ++ e :: post ∧ e.applied = some i ∧
    (jobs i).value (serialRun jobs r.store pre) = some v
  once : w.hist.countP (fun e => e.applied = some i) = 1

/-- it buffered nothing, so nothing was sent and nothing checked: `v` is what it made of reads at moments of the serial
run, one after another -/
structure ReadOnly (jobs : ι → Job) (r : Redis) (w : World ι) (i : ι) (v : RawResult) : Prop where
  reads : ∃ value, Callable.Seen jobs r.store w.hist (jobs i).callable (.exec [] value) ∧ v = (jobs i).result value []
  never : w.hist.countP (fun e => e.applied = some i) = 0

/-- what holds of a world that transactions on `r` lead to, with what each of them has ended in so far -/
structure Serialized (jobs : ι → Job) (r : Redis) (w : World ι) (outcome : ι → Option (PyResult RawResult)) : Prop where
  /-- the store: each applied EXEC as its whole callable run at once, and the foreign writes, in the server's order -/
  store : w.redis.store = serialRun jobs r.store w.hist
  returned : ∀ i v, outcome i = some (.ok v) → Placed jobs r w i v ∨ ReadOnly jobs r w i v
  failed : ∀ i e, outcome i = some (.error e) → w.hist.countP (fun e => e.applied = some i) ≤ 1
  running : ∀ i, outcome i = none → w.hist.countP (fun e => e.applied = some i) = 0
  /-- a transaction is sent back at most once for each write of others -/
  sentBack : ∀ i, w.hist.countP (fun e => e.sentBack = some i) ≤ w.hist.countP (Entry.ByOther i)
  /-- and starts again for nothing else, unless its callable raises WatchError -/
  rounds : ∀ i, (jobs i).callable.Calm →
    w.hist.countP (fun e => e.opened = some i) ≤ w.hist.countP (fun e => e.sentBack = some i) + 1

variable {jobs : ι → Job} {p : Pool ι Session (World ι)} {a : Sys ι Bytes (Option Bytes) RawResult}

/-- a session that has not ended has committed nothing -/
theorem Behind.isDone {job : Job} {r : Redis} {s : Session} {q : Phase Bytes (Option Bytes) RawResult}
    (h : Behind job r s q) (hs : s.outcome = none) : q.isDone = false := by
  cases s with
  | opening =>
    obtain rfl : q = .idle := h
    rfl
  | watching c =>
    obtain ⟨rfl, -⟩ := h
    rfl
  | running c rest =>
    obtain rfl : q = .running (r.watched c) (rest.body job) := h
    rfl
  | unwatching c e =>
    obtain ⟨notes, rest, rfl⟩ := h
    rfl
  | returned v => cases hs
  | failed e => cases hs

theorem serialized_of_sim {r : Redis} (h : Sim jobs p a)
    (hinv : Inv (fun i => (jobs i).body) (fun i => (jobs i).keys) (Serial.cells r) a)
    (hstarted : ∀ i, (jobs i).callable.Calm → Started p.shared.hist i (p.tasks i)) :
    Serialized jobs r p.shared fun i => (p.tasks i).outcome where
  store := by
    have hval := hinv.store
    rw [h.cells, h.hist, ← serialRun_records] at hval
    exact hval
  returned i v hv := by
    have honce := hinv.once i
    rw [h.hist, ← countP_applied] at honce
    have hbehind := h.behind i
    cases hs : p.tasks i <;> simp [hs, Session.outcome] at hv
    rw [hs, hv] at hbehind
    rcases hbehind with hdone | hleft
    · left
      rw [hdone] at honce
      obtain ⟨pre, post, ws, hsplit, heval⟩ := hinv.result i v hdone
      rw [h.hist] at hsplit
      obtain ⟨pre', e, post', hhist, rfl, he⟩ := split_record hsplit
      refine ⟨⟨pre', e, post', hhist, ?_, ?_⟩, honce⟩
      · rw [applied_record, he]
        rfl
      · rw [serialRun_records]
        exact (jobs i).value_body heval
    · right
      rw [hleft] at honce
      have hseen := hinv.seen i (.leave v) (by rw [hleft]; rfl)
      obtain ⟨rest, hrest, hseen'⟩ := seen_body hseen h.hist.symm
      obtain ⟨value, rfl, hvalue⟩ := exec_of_leave hrest
      exact ⟨⟨value, hseen', hvalue⟩, honce⟩
  failed i e _ := by
    have honce := hinv.once i
    rw [h.hist, ← countP_applied] at honce
    rw [honce]
    split_ifs <;> omega
  running i hi := by
    have honce := hinv.once i
    rw [h.hist, ← countP_applied, (h.behind i).isDone hi] at honce
    exact honce
  sentBack i := by
    rw [countP_sentBack, countP_byOther, ← h.hist]
    exact hinv.aborts i
  rounds i hcalm := Nat.le_of_add_right_le (hstarted i hcalm).count

/-- **Every run of sessions is serializable.** -/
theorem session_serialized (jobs : ι → Job) (r : Redis) (l : List (Event ι)) :
    Serialized jobs r (run (Serial.step (sessionNext jobs)) (sessions r) l).shared
      fun i => ((run (Serial.step (sessionNext jobs)) (sessions r) l).tasks i).outcome := by
  obtain ⟨acts, h⟩ := run_sim jobs r l
  exact serialized_of_sim h (Serializable.run_inv (fun i => (jobs i).within_body) (Serial.cells r) acts)
    fun i hcalm => session_started hcalm r l

end Serialized

end RedisRsPy.Serial
