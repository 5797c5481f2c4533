/-
`try_reconnect` (`facade/pubsub.rs`): up to 32 attempts to open a connection, and the replay of the recorded
subscriptions on the first that opens.

The replay subscribes to the recorded channels and then to the recorded patterns, one command each, and drops the result
of every one of them. Whatever became of the commands, the new connection is handed to the supervisor.

Result (`reconnect_restores_iff`): for every record a sequence of commands leads to, the connection that comes back is
subscribed to what is recorded if and only if every replay command on it took effect.
Witness (`replay_refused`): the only channel's replay is refused, and the connection comes back without it.
-/
import RedisRsPy.PubSub.Confirmations

namespace RedisRsPy.PubSub

open Lib

/-! ## The replay -/

/-- what becomes of a command on a connection: done, refused by the server, or failed on the way there or back. The crate
drops the error of a refusal, so that the call on the sink succeeds -/
inductive Fate where
  | ok
  | refused (e : RedisError)
  | lost (took : Bool) (e : RedisError)
deriving DecidableEq

/-- the result the command returns; a replay ignores it -/
def Fate.result : Fate → Except RedisError Unit
  | .ok | .refused _ => .ok ()
  | .lost _ e => .error e

/-- the server carried the command out -/
def Fate.took : Fate → Bool
  | .ok => true
  | .refused _ => false
  | .lost took _ => took

/-- the commands of a replay, in order -/
def SubscriptionState.replays (g : SubscriptionState) : List (SubscriptionOp × Bytes) :=
  g.channels.map (fun ch => (.subscribe, ch)) ++ g.patterns.map fun pat => (.psubscribe, pat)

/-- the subscriptions of a connection over a replay; `fates i` is what becomes of the command after `i` others -/
def replay (fates : ℕ → Fate) : ℕ → List (SubscriptionOp × Bytes) → Subscriptions → Subscriptions
  | _, [], s => s
  | i, (op, n) :: rest, s => replay fates (i + 1) rest (if (fates i).took then s.process op n else s)

/-- the attempts from number `attempt` on, at most `left` of them: none where the connection does not open -/
def tryReconnectFrom (g : SubscriptionState) (attempts : ℕ → Option (ℕ → Fate)) : ℕ → ℕ → Option Subscriptions
  | 0, _ => none
  | left + 1, attempt =>
    match attempts attempt with
    | some fates => some (replay fates 0 g.replays .none)
    | none => tryReconnectFrom g attempts left (attempt + 1)

/-- `try_reconnect`: the subscriptions of the connection it returns -/
def tryReconnect (g : SubscriptionState) (attempts : ℕ → Option (ℕ → Fate)) : Option Subscriptions :=
  tryReconnectFrom g attempts 32 0

/-- on the connection that opened, every replay command took effect -/
def Replayed (g : SubscriptionState) (attempts : ℕ → Option (ℕ → Fate)) : Prop :=
  ∀ a < 32, (∀ b < a, attempts b = none) → ∀ fates, attempts a = some fates →
    ∀ i < g.replays.length, (fates i).took = true

/-- whatever connection comes back is subscribed to what is recorded -/
def Restores (g : SubscriptionState) (attempts : ℕ → Option (ℕ → Fate)) : Prop :=
  ∀ conn, tryReconnect g attempts = some conn → ∀ side, conn side = g.sets side

/-! ## What a replay leaves -/

theorem mem_replay {fates : ℕ → Fate} {cmds : List (SubscriptionOp × Bytes)} (hadds : ∀ c ∈ cmds, c.1.adds = true)
    {i : ℕ} {s : Subscriptions} {side : Side} {n : Bytes} :
    n ∈ replay fates i cmds s side ↔
      n ∈ s side ∨ ∃ j op, cmds[j]? = some (op, n) ∧ op.side = side ∧ (fates (i + j)).took = true := by
  induction cmds generalizing i s with
  | nil => simp [replay]
  | cons c cmds ih =>
    obtain ⟨op, m⟩ := c
    have hop : op.adds = true := hadds (op, m) List.mem_cons_self
    have hhead : n ∈ (if (fates i).took then s.process op m else s) side ↔
        n ∈ s side ∨ (op.side = side ∧ n = m ∧ (fates i).took = true) := by
      by_cases htook : (fates i).took = true
      · by_cases hside : side = op.side
        · subst hside
          simp [htook, Subscriptions.process, hop, or_comm]
        · simp [htook, Subscriptions.process, set_other s hside, Ne.symm hside]
      · simp [htook]
    rw [replay, ih fun c hc => hadds c (List.mem_cons_of_mem _ hc), hhead, or_assoc]
    refine or_congr_right ?_
    constructor
    · rintro (⟨hside, rfl, htook⟩ | ⟨j, op', hj, hside, htook⟩)
      · exact ⟨0, op, rfl, hside, htook⟩
      · refine ⟨j + 1, op', hj, hside, ?_⟩
        rwa [show i + (j + 1) = i + 1 + j by omega]
    · rintro ⟨j, op', hj, hside, htook⟩
      cases j with
      | zero =>
        cases hj
        exact .inl ⟨hside, rfl, htook⟩
      | succ j =>
        refine .inr ⟨j, op', hj, hside, ?_⟩
        rwa [show i + 1 + j = i + (j + 1) by omega]

/-- one command adds to each side -/
theorem op_of_side {op op' : SubscriptionOp} (h : op.adds = true) (h' : op'.adds = true) (hside : op.side = op'.side) :
    op = op' := by
  revert h h' hside
  cases op <;> cases op' <;> decide

theorem replays_adds (g : SubscriptionState) : ∀ c ∈ g.replays, c.1.adds = true := by
  intro c hc
  simp only [SubscriptionState.replays, List.mem_append, List.mem_map] at hc
  rcases hc with ⟨ch, _, rfl⟩ | ⟨pat, _, rfl⟩ <;> rfl

theorem names_of_replays {g : SubscriptionState} {op : SubscriptionOp} {side : Side} {n : Bytes}
    (h : (op, n) ∈ g.replays) (hside : op.side = side) : n ∈ g.names side := by
  simp only [SubscriptionState.replays, List.mem_append, List.mem_map, Prod.mk.injEq] at h
  rcases h with ⟨ch, hch, rfl, rfl⟩ | ⟨pat, hpat, rfl, rfl⟩
  · subst hside
    exact hch
  · subst hside
    exact hpat

theorem mem_replays {g : SubscriptionState} (hshard : g.shardChannels = []) {side : Side} {n : Bytes} :
    n ∈ g.sets side ↔ ∃ op, (op, n) ∈ g.replays ∧ op.side = side := by
  rw [SubscriptionState.sets, List.mem_toFinset]
  constructor
  · intro h
    cases side with
    | channels => exact ⟨.subscribe, List.mem_append_left _ (List.mem_map_of_mem h), rfl⟩
    | patterns => exact ⟨.psubscribe, List.mem_append_right _ (List.mem_map_of_mem h), rfl⟩
    | shardChannels =>
      rw [SubscriptionState.names, hshard] at h
      cases h
  · rintro ⟨op, hop, hside⟩
    exact names_of_replays hop hside

/-- no command of a replay is sent twice -/
theorem nodup_replays {g : SubscriptionState} (h : g.Nodup) : g.replays.Nodup := by
  refine List.Nodup.append ?_ ?_ ?_
  · exact (h .channels).map fun a b hab => (Prod.mk.inj hab).2
  · exact (h .patterns).map fun a b hab => (Prod.mk.inj hab).2
  · intro c hch hpat
    obtain ⟨ch, _, rfl⟩ := List.mem_map.1 hch
    obtain ⟨pat, _, heq⟩ := List.mem_map.1 hpat
    cases heq

/-- **The replay.** Its connection has what is recorded exactly where every command took effect -/
theorem replay_sets_iff {g : SubscriptionState} (hg : Counted g) (fates : ℕ → Fate) :
    (∀ side, replay fates 0 g.replays .none side = g.sets side) ↔ ∀ i < g.replays.length, (fates i).took = true := by
  have hmem : ∀ side n, n ∈ replay fates 0 g.replays .none side ↔
      ∃ j op, g.replays[j]? = some (op, n) ∧ op.side = side ∧ (fates j).took = true := fun side n => by
    simp [mem_replay (replays_adds g), Subscriptions.none]
  constructor
  · intro h i hi
    have hrec : (g.replays[i]).2 ∈ g.sets (g.replays[i]).1.side :=
      (mem_replays hg.shard).2 ⟨_, List.getElem_mem hi, rfl⟩
    rw [← h, hmem] at hrec
    obtain ⟨j, op, hj, hside, htook⟩ := hrec
    obtain ⟨hjlt, hget⟩ := List.getElem?_eq_some_iff.1 hj
    have hsame : g.replays[j] = g.replays[i] := by
      have hadds := replays_adds g _ (List.getElem_mem hjlt)
      rw [hget] at hadds ⊢
      exact Prod.ext (op_of_side hadds (replays_adds g _ (List.getElem_mem hi)) hside) rfl
    rwa [← (nodup_replays hg.nodup).getElem_inj_iff.1 hsame]
  · intro h side
    ext n
    rw [hmem, mem_replays hg.shard]
    constructor
    · rintro ⟨j, op, hj, hside, _⟩
      exact ⟨op, List.mem_of_getElem? hj, hside⟩
    · rintro ⟨op, hop, hside⟩
      obtain ⟨j, hj, heq⟩ := List.getElem_of_mem hop
      exact ⟨j, op, by rw [List.getElem?_eq_getElem hj, heq], hside, h j hj⟩

/-! ## Reconnecting -/

/-- a connection that comes back is the first that opened, after its replay -/
theorem tryReconnectFrom_eq_some {g : SubscriptionState} {attempts : ℕ → Option (ℕ → Fate)} {left attempt : ℕ}
    {conn : Subscriptions} :
    tryReconnectFrom g attempts left attempt = some conn ↔
      ∃ a, attempt ≤ a ∧ a < attempt + left ∧ (∀ b, attempt ≤ b → b < a → attempts b = none) ∧
        ∃ fates, attempts a = some fates ∧ conn = replay fates 0 g.replays .none := by
  induction left generalizing attempt with
  | zero =>
    simp only [tryReconnectFrom, reduceCtorEq, false_iff, not_exists]
    rintro a ⟨hle, hlt, _⟩
    omega
  | succ left ih =>
    rw [tryReconnectFrom]
    split
    · rename_i fates hup
      constructor
      · intro h
        exact ⟨attempt, Nat.le_refl _, by omega, fun b hle hlt => absurd hlt (by omega), fates, hup,
          (Option.some.inj h).symm⟩
      · rintro ⟨a, hle, hlt, hdown, fates', hup', rfl⟩
        have ha : a = attempt := by
          by_contra hne
          exact absurd (hdown attempt (Nat.le_refl _) (by omega)) (by simp [hup])
        subst ha
        rw [hup] at hup'
        cases hup'
        rfl
    · rename_i hdown
      rw [ih]
      constructor
      · rintro ⟨a, hle, hlt, hbefore, hconn⟩
        refine ⟨a, by omega, by omega, fun b hb hba => ?_, hconn⟩
        by_cases hfirst : b = attempt
        · rw [hfirst, hdown]
        · exact hbefore b (by omega) hba
      · rintro ⟨a, hle, hlt, hbefore, fates, hup, hconn⟩
        have hne : a ≠ attempt := fun h => by simp [h, hdown] at hup
        exact ⟨a, by omega, by omega, fun b hb hba => hbefore b (by omega) hba, fates, hup, hconn⟩

theorem restores_iff {g : SubscriptionState} (hg : Counted g) (attempts : ℕ → Option (ℕ → Fate)) :
    Restores g attempts ↔ Replayed g attempts := by
  unfold Restores Replayed tryReconnect
  constructor
  · intro h a ha hdown fates hup
    refine (replay_sets_iff hg fates).1 (h _ ?_)
    exact tryReconnectFrom_eq_some.2 ⟨a, by omega, by omega, fun b _ hb => hdown b hb, fates, hup, rfl⟩
  · intro h conn hconn
    obtain ⟨a, _, ha, hdown, fates, hup, rfl⟩ := tryReconnectFrom_eq_some.1 hconn
    exact (replay_sets_iff hg fates).2 (h a (by omega) (fun b hb => hdown b (by omega) hb) fates hup)

/-- the record after any list of commands that succeeded; others leave it alone -/
theorem counted_run (cs : List Command) : Counted (run SubscriptionState.recorded .empty cs) :=
  run_invariant' (I := Counted) (fun _ c h => counted_recorded h c) cs counted_empty

/-- **Reconnect.** For every record a sequence of commands leads to, and whatever happens to the attempts and the replay -/
theorem reconnect_restores_iff (cs : List Command) (attempts : ℕ → Option (ℕ → Fate)) :
    Restores (run SubscriptionState.recorded .empty cs) attempts ↔
      Replayed (run SubscriptionState.recorded .empty cs) attempts :=
  restores_iff (counted_run cs) attempts

/-- one channel; the first attempt opens a connection, and the server refuses to subscribe it -/
theorem replay_refused :
    ¬ ∀ (cs : List Command) (attempts : ℕ → Option (ℕ → Fate)),
      Restores (run SubscriptionState.recorded .empty cs) attempts := by
  intro h
  have hsubscribed := h [⟨.subscribe, [[97]], rfl, by decide⟩] (fun _ => some fun _ => .refused (.ofReply .noPerm "NOPERM" "no channel"))
    .none rfl .channels
  exact absurd hsubscribed (by decide)

end RedisRsPy.PubSub
