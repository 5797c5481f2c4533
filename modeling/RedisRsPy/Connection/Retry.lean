/-
Retrying on a failover (the Sentinel arms of `dispatch_cmd!` and `conn_method!` in `connection.rs`).

A call takes the current connection and sends its command. If that ends in an error of the failover class, the call
rediscovers the master, takes the connection again and sends the command once more. All calls of a client share the
connection, so a run is any interleaving of their steps. What becomes of a command on its way (`Attempt`) is chosen
freely: the connection may fail before the server has the command, or after the server has applied it.

A call remembers what became of its first attempt. No code reads this: the retry sees the error, and the error does not
say whether the server had the command.

Results:
- `at_most_once_iff`: over any run, every call applies its command at most once, on all masters together, if and only if
  no call whose first reply was lost has its second attempt applied too;
- `lost_reply_applied_twice`: in any state, a reply lost, a rediscovery and a second attempt apply the command twice.
Witness (`incrby_applied_twice`): the reply to an INCRBY is lost, and the command is sent again.
-/
import RedisRsPy.Connection.Sentinel
import RedisRsPy.Lib.Runs
import Mathlib.Data.List.Count

namespace RedisRsPy.Connection.Retry

open Lib

/-! ## Attempts -/

/-- `SentinelConn::is_failover_error` -/
def isFailoverError (e : RedisError) : Bool :=
  decide (e.kind = .io) || decide (e.kind = .server .busyLoading) || decide (e.kind = .server .tryAgain) ||
    decide (e.kind = .server .readOnly) || e.isConnectionDropped

/-- the error of a connection that has failed -/
structure ConnectionFailure where
  error : RedisError
  isFailure : error.kind = .io ∨ error.isConnectionDropped = true

/-- what becomes of a command that is sent -/
inductive Attempt (α : Type) where
  /-- the server applied it, and its reply arrived -/
  | replied (v : α)
  /-- the same, but the reply is not of the type that was asked for -/
  | misread (e : RedisError) (h : isFailoverError e = false)
  /-- the server refused it -/
  | refused (e : RedisError)
  /-- the connection failed before the server had it -/
  | unsent (f : ConnectionFailure)
  /-- the server applied it, and the connection failed before the reply arrived -/
  | unanswered (f : ConnectionFailure)

variable {α κ : Type}

/-- the result of `query_async` -/
def Attempt.result : Attempt α → RedisResult α
  | .replied v => .ok v
  | .misread e _ => .error e
  | .refused e => .error e
  | .unsent f => .error f.error
  | .unanswered f => .error f.error

def Attempt.applied : Attempt α → Bool
  | .replied _ | .misread _ _ | .unanswered _ => true
  | .refused _ | .unsent _ => false

/-- the attempts that are followed by a second one -/
def Attempt.Retried (fate : Attempt α) : Prop := ∃ e, fate.result = .error e ∧ isFailoverError e = true

/-- both ways a connection can fail look the same to the retry -/
theorem isFailoverError_of_failure (f : ConnectionFailure) : isFailoverError f.error = true := by
  unfold isFailoverError
  rcases f.isFailure with h | h <;> simp [h]

/-- a second attempt follows an applied one only where the reply was lost -/
theorem Attempt.Retried.applied_iff {fate : Attempt α} (h : fate.Retried) :
    fate.applied = true ↔ ∃ f, fate = .unanswered f := by
  obtain ⟨e, he, hfailover⟩ := h
  cases fate with
  | replied v => cases he
  | misread e' hmisread =>
    cases he
    rw [hmisread] at hfailover
    cases hfailover
  | refused e' => simp [Attempt.applied]
  | unsent f => simp [Attempt.applied]
  | unanswered f => simp [Attempt.applied]

/-! ## Calls -/

/-- where a call stands; `first` is its first attempt -/
inductive Call (α : Type) where
  | idle
  /-- it has a connection, for its first attempt or for the second -/
  | connected (mgr : ConnectionManager) (first : Option (Attempt α))
  /-- its first attempt failed with an error of the failover class -/
  | failed (first : Attempt α)
  | rediscovered (first : Attempt α)
  | done (r : RedisResult α)

/-- the calls of a client, its connection, and what the masters have applied, each with the call it is from -/
structure World (κ α : Type) where
  conn : SentinelConn
  calls : κ → Call α
  log : List (ConnectionManager × κ)

inductive Event (κ α : Type) where
  /-- `get_conn` -/
  | connect (c : κ)
  /-- `query_async` -/
  | attempt (c : κ) (fate : Attempt α)
  /-- `rediscover` -/
  | rediscover (c : κ) (answers : ℕ → SentinelAnswer)

/-- the call after an attempt -/
def afterAttempt (first : Option (Attempt α)) (fate : Attempt α) : Call α :=
  match fate.result with
  | .ok v => .done (.ok v)
  | .error e => if isFailoverError e && first.isNone then .failed fate else .done (.error e)

/-- the call after `rediscover` -/
def afterRediscover (first : Attempt α) : RedisResult Unit → Call α
  | .ok () => .rediscovered first
  | .error e => .done (.error e)

def World.start (conn : SentinelConn) : World κ α := ⟨conn, fun _ => .idle, []⟩

variable [DecidableEq κ]

def World.set (w : World κ α) (c : κ) (call : Call α) : World κ α := { w with calls := Function.update w.calls c call }

def step (w : World κ α) : Event κ α → World κ α
  | .connect c =>
    match w.calls c with
    | .idle => w.set c (.connected w.conn.inner none)
    | .rediscovered first => w.set c (.connected w.conn.inner (some first))
    | _ => w
  | .attempt c fate =>
    match w.calls c with
    | .connected mgr first =>
      { w.set c (afterAttempt first fate) with
        log := w.log ++ if fate.applied then [(mgr, c)] else [] }
    | _ => w
  | .rediscover c answers =>
    match w.calls c with
    | .failed first =>
      { w.set c (afterRediscover first (w.conn.rediscover answers).1) with conn := (w.conn.rediscover answers).2 }
    | _ => w

/-- how often the masters have applied the command of a call -/
def World.applied (w : World κ α) (c : κ) : ℕ := (w.log.map (·.2)).count c

def AtMostOnce (w : World κ α) : Prop := ∀ c, w.applied c ≤ 1

/-- where a call's first reply was lost, its second attempt is not applied -/
def SafeRetry (w : World κ α) : Event κ α → Prop
  | .attempt c fate => ∀ mgr f, w.calls c = .connected mgr (some (.unanswered f)) → fate.applied = false
  | _ => True

/-! ## At most once -/

/-- how often the masters have applied the command of a call that stands there and is not done -/
def Call.Counts : Call α → ℕ → Prop
  | .idle, n => n = 0
  | .connected _ none, n => n = 0
  | .connected _ (some first), n => first.Retried ∧ n = if first.applied then 1 else 0
  | .failed first, n => first.Retried ∧ n = if first.applied then 1 else 0
  | .rediscovered first, n => first.Retried ∧ n = if first.applied then 1 else 0
  | .done _, _ => True

def Counted (w : World κ α) : Prop := ∀ c, (w.calls c).Counts (w.applied c)

theorem applied_set (w : World κ α) (c : κ) (call : Call α) (c' : κ) : (w.set c call).applied c' = w.applied c' := rfl

theorem Counted.set {w : World κ α} (h : Counted w) {c : κ} {call : Call α} (hc : call.Counts (w.applied c)) :
    Counted (w.set c call) := by
  intro c'
  rw [applied_set]
  by_cases heq : c' = c
  · subst heq
    simpa [World.set] using hc
  · simpa [World.set, Function.update_of_ne heq] using h c'

/-- what an attempt adds to the count of a call -/
theorem applied_attempt (w : World κ α) (c : κ) (call : Call α) (mgr : ConnectionManager) (fate : Attempt α) (c' : κ) :
    World.applied { w.set c call with log := w.log ++ if fate.applied then [(mgr, c)] else [] } c' =
      w.applied c' + if fate.applied = true ∧ c' = c then 1 else 0 := by
  unfold World.applied
  cases fate.applied with
  | false => simp
  | true =>
    by_cases heq : c' = c
    · simp [heq]
    · simp [heq, List.count_cons_of_ne (Ne.symm heq)]

/-- after an attempt: the first may be followed by a second, the second ends the call -/
theorem counts_afterAttempt {first : Option (Attempt α)} {mgr : ConnectionManager} {n : ℕ}
    (h : (Call.connected mgr first).Counts n) (fate : Attempt α) :
    (afterAttempt first fate).Counts (n + if fate.applied = true then 1 else 0) := by
  unfold afterAttempt
  cases hresult : fate.result with
  | ok v => trivial
  | error e =>
    cases first with
    | some first => simp [Call.Counts]
    | none =>
      by_cases hfailover : isFailoverError e = true
      · obtain rfl : n = 0 := h
        simpa [hfailover, Call.Counts] using ⟨e, hresult, hfailover⟩
      · simp [hfailover, Call.Counts]

theorem counts_afterRediscover {first : Attempt α} {n : ℕ} (h : (Call.failed first).Counts n) (r : RedisResult Unit) :
    (afterRediscover first r).Counts n := by
  cases r with
  | ok => exact h
  | error e => trivial

theorem counted_step (w : World κ α) (e : Event κ α) (h : Counted w) : Counted (step w e) := by
  cases e with
  | connect c =>
    have hc := h c
    simp only [step]
    split
    · rename_i hidle
      rw [hidle] at hc
      exact h.set hc
    · rename_i first hrediscovered
      rw [hrediscovered] at hc
      exact h.set hc
    · exact h
  | attempt c fate =>
    have hc := h c
    simp only [step]
    split
    · rename_i mgr first hcall
      rw [hcall] at hc
      intro c'
      rw [applied_attempt]
      by_cases heq : c' = c
      · subst heq
        simpa [World.set] using counts_afterAttempt hc fate
      · simpa [World.set, Function.update_of_ne heq, heq] using h c'
    · exact h
  | rediscover c answers =>
    have hc := h c
    simp only [step]
    split
    · rename_i first hfailed
      rw [hfailed] at hc
      exact h.set (counts_afterRediscover hc _)
    · exact h

/-- the attempt of a call that has a connection: it adds a second application exactly where the first reply was lost -/
theorem attempt_at_most_once_iff {mgr : ConnectionManager} {first : Option (Attempt α)} {n : ℕ}
    (h : (Call.connected mgr first).Counts n) (fate : Attempt α) :
    (n + if fate.applied = true then 1 else 0) ≤ 1 ↔ ∀ f, first = some (.unanswered f) → fate.applied = false := by
  cases first with
  | none =>
    obtain rfl : n = 0 := h
    exact iff_of_true (by split <;> omega) fun f hf => (nomatch hf)
  | some first =>
    obtain ⟨hretried, rfl⟩ := h
    by_cases hlost : ∃ f, first = .unanswered f
    · obtain ⟨f, rfl⟩ := hlost
      cases hfate : fate.applied <;> simp [Attempt.applied]
    · have hnot : first.applied ≠ true := fun happlied => hlost (hretried.applied_iff.1 happlied)
      rw [if_neg hnot]
      exact iff_of_true (by split <;> omega) fun f hf => absurd ⟨f, Option.some.inj hf⟩ hlost

theorem atMostOnce_step_iff {w : World κ α} (h : Counted w) (e : Event κ α) :
    AtMostOnce (step w e) ↔ AtMostOnce w ∧ SafeRetry w e := by
  have hsame : ∀ {w' : World κ α}, w'.log = w.log → (AtMostOnce w' ↔ AtMostOnce w) := fun {w'} hlog => by
    unfold AtMostOnce World.applied
    rw [hlog]
  cases e with
  | connect c =>
    refine (hsame ?_).trans (and_iff_left trivial).symm
    simp only [step]
    split <;> rfl
  | rediscover c answers =>
    refine (hsame ?_).trans (and_iff_left trivial).symm
    simp only [step]
    split <;> rfl
  | attempt c fate =>
    simp only [step]
    split
    · rename_i mgr first hcall
      have hiff := attempt_at_most_once_iff (hcall ▸ h c) fate
      constructor
      · intro hafter
        have hcount : ∀ c', w.applied c' + (if fate.applied = true ∧ c' = c then 1 else 0) ≤ 1 := fun c' => by
          rw [← applied_attempt w c (afterAttempt first fate) mgr fate c']
          exact hafter c'
        refine ⟨fun c' => (Nat.le_add_right _ _).trans (hcount c'), fun mgr' f hcall' => ?_⟩
        obtain ⟨-, hfirst⟩ := Call.connected.inj (hcall.symm.trans hcall')
        exact hiff.1 (by simpa using hcount c) f hfirst
      · rintro ⟨hbefore, hsafe⟩ c'
        rw [applied_attempt]
        by_cases heq : c' = c
        · subst heq
          have hle := hiff.2 fun f hfirst => hsafe mgr f (hcall.trans (by rw [hfirst]))
          simpa using hle
        · simpa [heq] using hbefore c'
    · rename_i hcall
      refine (and_iff_left ?_).symm
      intro mgr f hconnected
      exact absurd hconnected (hcall mgr _)

/-- **At most once.** Over any run of any calls on a sentinel connection, no call applies its command twice if and only
if no second attempt is applied of a call whose first attempt was applied and lost its reply. -/
theorem at_most_once_iff (conn : SentinelConn) (l : List (Event κ α)) :
    AtMostOnce (run step (.start conn) l) ↔ Along step SafeRetry (.start conn) l := by
  have hcounted : Counted (World.start conn : World κ α) := fun _ => rfl
  have hstart : AtMostOnce (World.start conn : World κ α) := fun _ => Nat.zero_le _
  rw [run_iff counted_step (fun w e h => atMostOnce_step_iff h e) hcounted l]
  exact and_iff_right hstart

/-! ## A lost reply -/

/-- the failure of a connection is of the failover class whether or not the server had the command, so a lost reply is
followed by a rediscovery, and the command is applied again -/
theorem lost_reply_applied_twice {w : World κ α} {c : κ} {mgr : ConnectionManager} (hcall : w.calls c = .connected mgr none)
    (f : ConnectionFailure) {answers : ℕ → SentinelAnswer} (hfound : (w.conn.rediscover answers).1 = .ok ())
    {fate : Attempt α} (hfate : fate.applied = true) :
    (run step w [.attempt c (.unanswered f), .rediscover c answers, .connect c, .attempt c fate]).applied c =
      w.applied c + 2 := by
  have hafter : afterAttempt none (.unanswered f : Attempt α) = .failed (.unanswered f) := by
    simp [afterAttempt, Attempt.result, isFailoverError_of_failure f]
  have hlost : (Attempt.unanswered f : Attempt α).applied = true := rfl
  simp [run, step, World.set, hcall, hafter, hfound, afterRediscover, World.applied, hfate, hlost]

/-- a connection to the master that both sentinels report -/
def toMaster : SentinelConn :=
  twoSentinels.sentinelConn (twoSentinels.manager ("10.0.0.1", "6379"))

def healthy : ℕ → SentinelAnswer := fun _ => reports "10.0.0.1" "6379" (.ok ())

def brokenPipe : ConnectionFailure := ⟨⟨.io, none, false, true, false, "broken pipe"⟩, .inl rfl⟩

/-- INCRBY is applied, its reply is lost with the connection, and the retry is applied too -/
def incrbyRetried : List (Event ℕ ℤ) :=
  [.connect 0, .attempt 0 (.unanswered brokenPipe), .rediscover 0 healthy, .connect 0, .attempt 0 (.replied 2)]

theorem incrby_applied_twice : ¬ ∀ (conn : SentinelConn) (l : List (Event ℕ ℤ)), AtMostOnce (run step (.start conn) l) := by
  intro h
  have honce := h toMaster incrbyRetried 0
  have htwice : (run step (.start toMaster) incrbyRetried).applied 0 = 0 + 2 :=
    lost_reply_applied_twice (w := step (.start toMaster) (.connect 0)) rfl brokenPipe rfl rfl
  omega

end RedisRsPy.Connection.Retry
