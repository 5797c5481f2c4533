/-
The commands of a bridge and their answers (`send_command`, `supervisor_task`, `handle_command` in `facade/pubsub.rs`).

A command is sent into the channel of the supervisor with its own acknowledgement, and its caller waits for that alone.
The commands are numbered as they are sent. At any time the acknowledged ones come first, then the one in hand, then the
queue (`Accounted`), so the number of a command says how many are ahead of it.

`World.waits` bounds what a waiting caller still needs: three moves of the supervisor for its own command and five for
each one ahead of it. Messages, pings and other callers do not add to it, because the supervisor takes commands first.

Result (`commands_answered`), for every run: commands are handled and answered in the order they were sent, each once and
with the outcome of its own call on the sink. That is a success where the server answered, be it with a refusal, whose
error the crate drops; where the connection broke it is an error, whether or not the server carried the command out. A
caller whose command was sent has its result after that many moves; a bridge that is closed, and never failed to
reconnect, has answered every command when it stops.
-/
import RedisRsPy.PubSub.Handlers

namespace RedisRsPy.PubSub

open Lib

variable {κ : Type}

/-! ## Accounts -/

theorem requests_append (cmds cmds' : List (BridgeCommand κ)) :
    requests (cmds ++ cmds') = requests cmds ++ requests cmds' := List.filterMap_append

/-- nothing is sent after the shutdown -/
def World.Queued (w : World κ) : Prop :=
  ∃ rs : List (Request κ), w.cmds = rs.map .request ∨ w.isOpen = false ∧ w.cmds = rs.map .request ++ [.shutdown]

structure Accounted (w : World κ) : Prop where
  /-- acknowledged, in hand and queued: all commands, in the order they were sent -/
  ids : w.ids = List.range w.next
  queued : w.Queued

theorem accounted_start : Accounted (World.start : World κ) := ⟨rfl, [], .inl rfl⟩

theorem accounted_issue {w : World κ} (h : Accounted w) (caller : κ) (op : SubscriptionOp) (names : List Bytes) :
    Accounted (step w (.issue caller op names)) := by
  simp only [step]
  split_ifs with hsent
  swap
  · exact h
  have hopen : w.isOpen = true := by
    simp only [Bool.and_eq_true] at hsent
    exact hsent.1.1
  obtain ⟨rs, hcmds | ⟨hclosed, -⟩⟩ := h.queued
  · have hids : World.ids { w with cmds := w.cmds ++ [.request ⟨w.next, caller, op, names⟩], next := w.next + 1 } =
        w.ids ++ [w.next] := by
      simp [World.ids, requests]
    refine ⟨?_, rs ++ [⟨w.next, caller, op, names⟩], .inl ?_⟩
    · rw [hids, h.ids, List.range_succ]
    · simp [hcmds]
  · rw [hopen] at hclosed
    cases hclosed

theorem accounted_close {w : World κ} (h : Accounted w) : Accounted (step w .close) := by
  simp only [step]
  split_ifs with hopen
  · obtain ⟨rs, hcmds | ⟨hclosed, -⟩⟩ := h.queued
    · refine ⟨?_, rs, .inr ⟨rfl, by rw [hcmds]⟩⟩
      rw [← h.ids]
      simp [World.ids, requests]
    · rw [hopen] at hclosed
      cases hclosed
  · exact h

/-- the queue after its first command -/
theorem queued_tail {w : World κ} (h : w.Queued) {c : BridgeCommand κ} {rest : List (BridgeCommand κ)}
    (hcmds : w.cmds = c :: rest) :
    ∃ rs : List (Request κ), rest = rs.map .request ∨ w.isOpen = false ∧ rest = rs.map .request ++ [.shutdown] := by
  obtain ⟨rs, hrs | ⟨hclosed, hrs⟩⟩ := h
  · cases rs with
    | nil => simp [hcmds] at hrs
    | cons r rs => exact ⟨rs, .inl (List.cons.inj (hcmds.symm.trans hrs)).2⟩
  · cases rs with
    | nil => exact ⟨[], .inl (List.cons.inj (hcmds.symm.trans hrs)).2⟩
    | cons r rs => exact ⟨rs, .inr ⟨hclosed, (List.cons.inj (hcmds.symm.trans hrs)).2⟩⟩

/-- the shutdown is the last command -/
theorem queued_shutdown {w : World κ} (h : w.Queued) {rest : List (BridgeCommand κ)}
    (hcmds : w.cmds = .shutdown :: rest) : rest = [] := by
  obtain ⟨rs, hrs | ⟨-, hrs⟩⟩ := h
  · cases rs <;> simp [hcmds] at hrs
  · cases rs with
    | nil => simpa [hcmds] using hrs
    | cons r rs => simp [hcmds] at hrs

theorem accounted_step (w : World κ) (e : Event κ) (h : Accounted w) : Accounted (step w e) := by
  have hmove := step_cases w e
  generalize hw : step w e = w' at hmove ⊢
  cases hmove with
  | still => exact h
  | issue =>
    rw [← hw]
    exact accounted_issue h _ _ _
  | close =>
    rw [← hw]
    exact accounted_close h
  | publish | cut | read | complete => exact ⟨h.ids, h.queued⟩
  | shutdown hphase hcmds =>
    refine ⟨?_, queued_tail h.queued hcmds⟩
    rw [← h.ids]
    simp [World.ids, hphase, hcmds, Phase.inHand, requests]
  | take hphase hcmds =>
    refine ⟨?_, queued_tail h.queued hcmds⟩
    rw [← h.ids]
    simp [World.ids, hphase, hcmds, Phase.inHand, requests]
  | serve hphase =>
    refine ⟨?_, h.queued⟩
    have hids := h.ids
    simpa [World.ids, World.serve, hphase, Phase.inHand] using hids
  | ack hphase =>
    refine ⟨?_, h.queued⟩
    have hids := h.ids
    simpa [World.ids, hphase, Phase.inHand] using hids
  | @finish r result hphase =>
    have hids := h.ids
    cases result with
    | ok => exact ⟨by simpa [World.ids, World.finish, hphase, Phase.inHand] using hids, h.queued⟩
    | error e =>
      refine ⟨?_, h.queued⟩
      cases hio : wasIoError (.error e) <;> simpa [World.ids, World.finish, hphase, Phase.inHand, hio] using hids
  | ended hphase | reconnected hphase | gaveUp hphase =>
    refine ⟨?_, h.queued⟩
    have hids := h.ids
    simpa [World.ids, hphase, Phase.inHand] using hids

/-! ## The answers are in order -/

/-- the commands acknowledged are the first ones sent -/
theorem answers_range {w : World κ} (h : Accounted w) : w.acks.map (·.1.id) = List.range w.acks.length := by
  have hprefix : w.acks.map (·.1.id) <+: List.range w.next := ⟨_, h.ids⟩
  rw [List.prefix_iff_eq_take.1 hprefix, List.length_map, List.take_range]
  congr 1
  have hlength := hprefix.length_le
  simp only [List.length_map, List.length_range] at hlength
  omega

/-- a command with a smaller number than the count of answers has its answer -/
theorem ackResult_of_lt {w : World κ} (h : Accounted w) {id : ℕ} (hid : id < w.acks.length) :
    (w.ackResult id).isSome = true := by
  have hmem : id ∈ w.acks.map (·.1.id) := by
    rw [answers_range h]
    exact List.mem_range.2 hid
  obtain ⟨a, ha, rfl⟩ := List.mem_map.1 hmem
  unfold World.ackResult
  split
  · rfl
  · rename_i hnone
    have hmissing := List.find?_eq_none.1 hnone a ha
    simp at hmissing

/-! ## How long a caller waits -/

/-- the moves of the supervisor up to the acknowledgement of the next command -/
def Phase.toNext : Phase κ → ℕ
  | .selecting => 3
  | .sent _ => 2
  | .served _ _ => 1
  | .acked _ _ => 5
  | .reconnecting => 4
  | .stopped => 0

/-- and up to that of a command -/
def World.waits (w : World κ) (id : ℕ) : ℕ :=
  if id < w.acks.length ∨ w.phase.isStopped = true then 0 else 5 * (id - w.acks.length) + w.phase.toNext

/-- a move of the supervisor on a command, or its end -/
def Advances (w : World κ) : Event κ → Bool
  | .take =>
    match w.phase with
    | .selecting => w.cmds ≠ []
    | _ => false
  | .serve fate =>
    match w.phase with
    | .sent _ => w.link.permits fate
    | _ => false
  | .ack =>
    match w.phase with
    | .served _ _ => true
    | _ => false
  | .finish =>
    match w.phase with
    | .acked _ _ => true
    | _ => false
  | .reconnect _ =>
    match w.phase with
    | .reconnecting => true
    | _ => false
  | _ => false

/-- such moves in a run -/
def advances : World κ → List (Event κ) → ℕ
  | _, [] => 0
  | w, e :: l => (if Advances w e then 1 else 0) + advances (step w e) l

theorem waits_of_stopped {w : World κ} (h : w.phase.isStopped = true) (id : ℕ) : w.waits id = 0 := if_pos (.inr h)

/-- what a move to another phase does to the bound, with `n` answers more -/
theorem waits_lt {w w' : World κ} {id n : ℕ} (hacks : w'.acks.length = w.acks.length + n)
    (hstopped : w.phase.isStopped = false) (hphase : w'.phase.toNext < w.phase.toNext + 5 * n) :
    w'.waits id < w.waits id ∨ w'.waits id = 0 := by
  unfold World.waits
  rw [hacks, hstopped]
  simp only [Bool.false_eq_true, or_false]
  split_ifs <;> omega

/-- the moves of the supervisor shorten the wait -/
theorem waits_advance {w : World κ} {e : Event κ} (hadvances : Advances w e = true) (id : ℕ) :
    (step w e).waits id < w.waits id ∨ (step w e).waits id = 0 := by
  cases e with
  | take =>
    cases hphase : w.phase with
    | selecting =>
      cases hcmds : w.cmds with
      | nil => simp [Advances, hphase, hcmds] at hadvances
      | cons c rest =>
        simp only [step, hphase, hcmds]
        cases c with
        | shutdown => exact .inr (waits_of_stopped rfl id)
        | request r => exact waits_lt (n := 0) rfl (by rw [hphase]; rfl) (by rw [hphase]; simp [Phase.toNext])
    | _ => simp [Advances, hphase] at hadvances
  | serve fate =>
    cases hphase : w.phase with
    | sent r =>
      have hfate : w.link.permits fate = true := by simpa [Advances, hphase] using hadvances
      simp only [step, hphase, hfate, if_true]
      exact waits_lt (n := 0) rfl (by rw [hphase]; rfl) (by rw [hphase]; simp [World.serve, Phase.toNext])
    | _ => simp [Advances, hphase] at hadvances
  | ack =>
    cases hphase : w.phase with
    | served r result =>
      simp only [step, hphase]
      exact waits_lt (n := 1) (by simp) (by rw [hphase]; rfl) (by rw [hphase]; simp [Phase.toNext])
    | _ => simp [Advances, hphase] at hadvances
  | finish =>
    cases hphase : w.phase with
    | acked r result =>
      simp only [step, hphase]
      have hnext : (w.finish r result).phase.toNext < 5 := by
        cases result with
        | ok => simp [World.finish, Phase.toNext]
        | error e => cases hio : wasIoError (.error e) <;> simp [World.finish, Phase.toNext, hio]
      have hacks : (w.finish r result).acks = w.acks := by cases result <;> rfl
      exact waits_lt (n := 0) (by rw [hacks, Nat.add_zero]) (by rw [hphase]; rfl) (by rw [hphase]; exact hnext)
    | _ => simp [Advances, hphase] at hadvances
  | reconnect attempts =>
    cases hphase : w.phase with
    | reconnecting =>
      simp only [step, hphase]
      split
      · exact waits_lt (n := 0) rfl (by rw [hphase]; rfl) (by rw [hphase]; simp [Phase.toNext])
      · exact .inr (waits_of_stopped rfl id)
    | _ => simp [Advances, hphase] at hadvances
  | _ => cases hadvances

/-- a move that leaves phase and answers alone leaves the wait alone -/
theorem waits_of_same {w w' : World κ} (hacks : w'.acks = w.acks) (hphase : w'.phase = w.phase) (id : ℕ) :
    w'.waits id = w.waits id := by
  simp [World.waits, hacks, hphase]

/-- a supervisor that finds its stream ended has no command left -/
theorem waits_ended {w : World κ} (h : Accounted w) {id : ℕ} (hid : id < w.next) :
    (step w .ended).waits id ≤ w.waits id := by
  simp only [step]
  split
  swap
  · exact le_rfl
  rename_i hphase hcmds hstream
  split_ifs
  · exact le_rfl
  · have hids : w.acks.map (·.1.id) = List.range w.next := by
      have hids := h.ids
      simpa [World.ids, hphase, hcmds, Phase.inHand, requests] using hids
    have hall : w.acks.length = w.next := by
      have hlength := congrArg List.length hids
      simpa using hlength
    simp [World.waits, hall, hid]

/-- nobody makes a wait longer: the supervisor reads the stream, or finds it ended, only when no command is left -/
theorem waits_step {w : World κ} (h : Accounted w) (e : Event κ) {id : ℕ} (hid : id < w.next) :
    (step w e).waits id ≤ w.waits id := by
  by_cases hadvances : Advances w e = true
  · rcases waits_advance hadvances id with hlt | hzero
    · exact hlt.le
    · rw [hzero]
      exact Nat.zero_le _
  have hmove := step_cases w e
  generalize hw : step w e = w' at hmove ⊢
  cases hmove with
  | still => exact le_rfl
  | issue | close | publish | cut | read | complete => exact (waits_of_same rfl rfl id).le
  | shutdown hphase hcmds => simp [Advances, hphase, hcmds] at hadvances
  | take hphase hcmds => simp [Advances, hphase, hcmds] at hadvances
  | serve hphase hfate => simp [Advances, hphase, hfate] at hadvances
  | ack hphase => simp [Advances, hphase] at hadvances
  | finish hphase => simp [Advances, hphase] at hadvances
  | reconnected hphase => simp [Advances, hphase] at hadvances
  | gaveUp hphase => simp [Advances, hphase] at hadvances
  | ended hphase =>
    rw [← hw]
    exact waits_ended h hid

/-- the numbers only grow -/
theorem next_step (w : World κ) (e : Event κ) : w.next ≤ (step w e).next := by
  have hmove := step_cases w e
  generalize step w e = w' at hmove
  cases hmove with
  | issue => exact Nat.le_succ _
  | @finish r result => cases result <;> exact le_rfl
  | _ => exact le_rfl

/-- **No caller waits for ever.** After as many moves of the supervisor as it waits for, a command has its result. -/
theorem waits_run {w : World κ} (h : Accounted w) {id : ℕ} (hid : id < w.next) (l : List (Event κ)) :
    (run step w l).waits id = 0 ∨ (run step w l).waits id + advances w l ≤ w.waits id := by
  induction l generalizing w with
  | nil => exact .inr le_rfl
  | cons e l ih =>
    have hnext := next_step w e
    have hstep := waits_step h e hid
    rw [run_cons]
    rcases ih (accounted_step w e h) (hid.trans_le hnext) with hzero | hle
    · exact .inl hzero
    · cases hadvances : Advances w e with
      | false =>
        right
        simp only [advances, hadvances, Bool.false_eq_true, if_false]
        omega
      | true =>
        simp only [advances, hadvances, if_true]
        rcases waits_advance hadvances id with hlt | hzero
        · right
          omega
        · left
          omega

/-- a caller that waits no more has its result -/
theorem ackResult_of_waits {w : World κ} (h : Accounted w) {id : ℕ} (hwaits : w.waits id = 0) :
    (w.ackResult id).isSome = true := by
  unfold World.waits at hwaits
  split_ifs at hwaits with hanswered
  · rcases hanswered with hlt | hstopped
    · exact ackResult_of_lt h hlt
    · unfold World.ackResult
      split
      · rfl
      · rw [if_pos hstopped]
        rfl
  · cases hphase : w.phase <;> simp [hphase, Phase.toNext, Phase.isStopped] at hwaits hanswered

/-- while a caller waits, the supervisor can move -/
theorem can_advance {w : World κ} (h : Accounted w) {id : ℕ} (hid : id < w.next) (hwaits : w.ackResult id = none) :
    ∃ e, Advances w e = true := by
  cases hphase : w.phase with
  | selecting =>
    refine ⟨.take, ?_⟩
    have hcmds : w.cmds ≠ [] := by
      intro hnil
      have hids := h.ids
      rw [World.ids, hphase, hnil] at hids
      have hall : w.acks.length = w.next := by
        have hlength := congrArg List.length hids
        simpa [Phase.inHand, requests] using hlength
      have hanswered : (w.ackResult id).isSome = true := ackResult_of_lt h (by omega)
      rw [hwaits] at hanswered
      cases hanswered
    simp [Advances, hphase, hcmds]
  | sent r => exact ⟨.serve (.lost false ⟨.io, none, false, true, false, ""⟩), by simp [Advances, hphase, Link.permits]⟩
  | served r result => exact ⟨.ack, by simp [Advances, hphase]⟩
  | acked r result => exact ⟨.finish, by simp [Advances, hphase]⟩
  | reconnecting => exact ⟨.reconnect fun _ => none, by simp [Advances, hphase]⟩
  | stopped =>
    exfalso
    unfold World.ackResult at hwaits
    split at hwaits
    · cases hwaits
    · simp [hphase, Phase.isStopped] at hwaits

/-! ## A graceful end -/

/-- the reconnect of this step, if it is one, succeeds -/
def Reconnects (w : World κ) (e : Event κ) : Prop :=
  ∀ attempts, e = .reconnect attempts → w.phase = .reconnecting → (tryReconnect w.subs attempts).isSome = true

/-- a supervisor that has stopped has left no command behind -/
def World.Graceful (w : World κ) : Prop := w.phase.isStopped = true → requests w.cmds = []

theorem graceful_step {w : World κ} (h : Accounted w) (hgraceful : w.Graceful) {e : Event κ} (he : Reconnects w e) :
    (step w e).Graceful := by
  have hmove := step_cases w e
  generalize hw : step w e = w' at hmove ⊢
  intro hstopped
  cases hmove with
  | still => exact hgraceful hstopped
  | @issue caller op names =>
    -- nothing is sent to a bridge that has stopped
    have hsame : step w (.issue caller op names) = w := if_neg (by simp [show w.phase.isStopped = true from hstopped])
    rw [← hw, hsame]
    exact hgraceful hstopped
  | close =>
    rw [requests_append, hgraceful hstopped]
    rfl
  | shutdown hphase hcmds =>
    rw [queued_shutdown h.queued hcmds]
    rfl
  | gaveUp hphase hconn =>
    have hsome := he _ rfl hphase
    rw [hconn] at hsome
    cases hsome
  | publish | cut | read | complete => exact hgraceful hstopped
  | @finish r result hphase =>
    cases result with
    | ok => cases hstopped
    | error e => cases hio : wasIoError (.error e) <;> simp [World.finish, hio, Phase.isStopped] at hstopped
  | _ => cases hstopped

/-! ## Every command is answered -/

theorem accounted_run {w : World κ} (h : Accounted w) (l : List (Event κ)) : Accounted (run step w l) :=
  run_invariant' accounted_step l h

/-! ### Each answer is that of its own call -/

/-- what the caller of a command is told, from what became of the call on the sink -/
def answerOf (op : SubscriptionOp) (call : Option Fate) : Except String Unit :=
  ackOf (opResult op ((call.map Fate.result).getD (.ok ())))

/-- the answer that is about to be sent -/
def Phase.answering : Phase κ → List (Request κ × Except String Unit)
  | .served r result => [(r, ackOf result)]
  | _ => []

/-- what has been handled, answer for answer: those that were sent, and the one that is about to be -/
structure Handled (w : World κ) : Prop where
  answers : w.served.map (fun s => (s.1, answerOf s.1.op s.2)) = w.acks ++ w.phase.answering
  shard : ∀ s ∈ w.served, s.2 = none ↔ s.1.op.side = .shardChannels

theorem handled_start : Handled (World.start : World κ) := ⟨rfl, fun _ h => (nomatch h)⟩

theorem answerOf_call (op : SubscriptionOp) (fate : Fate) :
    answerOf op (if op.side = .shardChannels then none else some fate) = ackOf (opResult op fate.result) := by
  cases op <;> rfl

theorem handled_step (w : World κ) (e : Event κ) (h : Handled w) : Handled (step w e) := by
  have hmove := step_cases w e
  generalize step w e = w' at hmove
  have hanswers := h.answers
  cases hmove with
  | still => exact h
  | issue | close | publish | cut | read | complete => exact ⟨h.answers, h.shard⟩
  | @serve r fate hphase =>
    refine ⟨?_, fun s hs => ?_⟩
    · have hidle : w.served.map (fun s => (s.1, answerOf s.1.op s.2)) = w.acks := by
        simpa [hphase, Phase.answering] using hanswers
      simp only [World.serve, List.map_append, List.map_cons, List.map_nil, hidle, answerOf_call, Phase.answering]
    · rcases List.mem_append.1 hs with hs | hs
      · exact h.shard s hs
      · cases List.mem_singleton.1 hs
        simp
  | ack hphase =>
    refine ⟨?_, h.shard⟩
    rw [hanswers, hphase]
    simp [Phase.answering]
  | @finish r result hphase =>
    have hidle : w.served.map (fun s => (s.1, answerOf s.1.op s.2)) = w.acks := by
      simpa [hphase, Phase.answering] using hanswers
    cases result with
    | ok => exact ⟨by simpa [World.finish, Phase.answering] using hidle, h.shard⟩
    | error e =>
      refine ⟨?_, h.shard⟩
      cases hio : wasIoError (.error e) <;> simpa [World.finish, Phase.answering, hio] using hidle
  | shutdown hphase | take hphase | ended hphase | reconnected hphase | gaveUp hphase =>
    exact ⟨by simpa [hphase, Phase.answering] using hanswers, h.shard⟩

theorem ackOf_ok_iff {r : Except RedisError Unit} : ackOf r = .ok () ↔ r = .ok () := by
  cases r with
  | ok => exact ⟨fun _ => rfl, fun _ => rfl⟩
  | error e => exact ⟨nofun, nofun⟩

theorem opResult_of_shard {op : SubscriptionOp} (hop : op.side = .shardChannels) (r : Except RedisError Unit) :
    ∃ e, opResult op r = .error e := by
  cases op with
  | ssubscribe | sunsubscribe => exact ⟨_, rfl⟩
  | _ => cases hop

theorem opResult_of_call {op : SubscriptionOp} (hop : op.side ≠ .shardChannels) (r : Except RedisError Unit) :
    opResult op r = r := by
  cases op with
  | ssubscribe | sunsubscribe => exact absurd rfl hop
  | _ => rfl

/-- a call succeeds where the server answered, and a shard command makes none -/
theorem answerOf_ok_iff {op : SubscriptionOp} {call : Option Fate} (hshard : call = none ↔ op.side = .shardChannels) :
    answerOf op call = .ok () ↔ call = some .ok ∨ ∃ e, call = some (.refused e) := by
  rw [answerOf, ackOf_ok_iff]
  cases call with
  | none =>
    obtain ⟨e, he⟩ := opResult_of_shard (hshard.1 rfl) (.ok ())
    rw [Option.map_none, Option.getD_none, he]
    simp
  | some fate =>
    rw [Option.map_some, Option.getD_some, opResult_of_call fun hop => nomatch hshard.2 hop]
    cases fate with
    | ok => simp [Fate.result]
    | refused e => simp [Fate.result]
    | lost took e => simp [Fate.result]

/-- an answer is that of the command's own call -/
theorem answer_true {w : World κ} (h : Handled w) {r : Request κ} {res : Except String Unit} (hmem : (r, res) ∈ w.acks) :
    ∃ call, (r, call) ∈ w.served ∧ (res = .ok () ↔ call = some .ok ∨ ∃ e, call = some (.refused e)) := by
  have hin : (r, res) ∈ w.served.map fun s => (s.1, answerOf s.1.op s.2) := by
    rw [h.answers]
    exact List.mem_append_left _ hmem
  obtain ⟨⟨r', call⟩, hserved, heq⟩ := List.mem_map.1 hin
  obtain ⟨rfl, rfl⟩ := Prod.mk.inj heq
  exact ⟨call, hserved, answerOf_ok_iff (h.shard _ hserved)⟩

/-- the commands are handled in the order they were sent, each once -/
theorem served_ordered {w : World κ} (h : Accounted w) (hhandled : Handled w) :
    (w.served.map (·.1.id)).Pairwise (· < ·) := by
  have hids : w.served.map (·.1.id) = w.acks.map (·.1.id) ++ w.phase.answering.map (·.1.id) := by
    have hanswers := congrArg (List.map (·.1.id)) hhandled.answers
    rwa [List.map_map, List.map_append] at hanswers
  have hsub : (w.served.map (·.1.id)).Sublist w.ids := by
    rw [hids, World.ids, List.map_append]
    refine (List.Sublist.refl _).append (List.Sublist.trans ?_ (List.sublist_append_left _ _))
    cases w.phase <;> simp [Phase.answering, Phase.inHand]
  rw [h.ids] at hsub
  exact List.pairwise_lt_range.sublist hsub

/-- what holds in every world that a bridge can reach -/
structure Answers (w : World κ) : Prop where
  /-- the first commands sent are the ones answered, each once -/
  inOrder : w.acks.map (·.1.id) = List.range w.acks.length
  /-- a command is answered with success when the server answered its call, be it with a refusal -/
  truthful : ∀ r res, (r, res) ∈ w.acks →
    ∃ call, (r, call) ∈ w.served ∧ (res = .ok () ↔ call = some .ok ∨ ∃ e, call = some (.refused e))
  /-- a shard command makes no call -/
  shard : ∀ r call, (r, call) ∈ w.served → (call = none ↔ r.op.side = .shardChannels)
  ordered : (w.served.map (·.1.id)).Pairwise (· < ·)
  /-- a command has its result after as many moves of the supervisor as it waits for, whatever else happens -/
  bounded : ∀ id < w.next, ∀ l, w.waits id ≤ advances w l → ((run step w l).ackResult id).isSome = true
  /-- and the supervisor can move as long as it has none -/
  live : ∀ id < w.next, w.ackResult id = none → ∃ e, Advances w e = true

/-- **Every command is answered**, in every run of a bridge. -/
theorem commands_answered (l : List (Event κ)) :
    Answers (run step World.start l) ∧
      (Along step Reconnects World.start l → (run step World.start l).phase.isStopped = true →
        (run step World.start l).acks.length = (run step World.start l).next) := by
  have haccounted := accounted_run accounted_start l
  have hhandled : Handled (run step World.start l) := run_invariant' handled_step l handled_start
  refine ⟨⟨answers_range haccounted, fun r res hmem => answer_true hhandled hmem, fun r call hmem => hhandled.shard _ hmem,
    served_ordered haccounted hhandled, ?_, fun id hid hnone => can_advance haccounted hid hnone⟩, fun hreconnects hstopped => ?_⟩
  · intro id hid l' hle
    refine ackResult_of_waits (accounted_run haccounted l') ?_
    rcases waits_run haccounted hid l' with hzero | hsum
    · exact hzero
    · omega
  · have hinv : Accounted (run step World.start l) ∧ (run step World.start l).Graceful :=
      run_invariant (P := Reconnects) (I := fun w => Accounted w ∧ w.Graceful)
        (fun w e h he => ⟨accounted_step w e h.1, graceful_step h.1 h.2 he⟩)
        ⟨accounted_start, fun h => by cases h⟩ hreconnects
    have hids := haccounted.ids
    have hphase : (run step World.start l).phase = .stopped := by
      revert hstopped
      cases (run step World.start l).phase <;> simp [Phase.isStopped]
    rw [World.ids, hinv.2 hstopped, hphase] at hids
    have hlength := congrArg List.length hids
    simpa [Phase.inHand] using hlength

end RedisRsPy.PubSub
