/-
The order of messages and confirmations on the outbound channel.

The server sends the messages of a channel on the connection between the processing of its SUBSCRIBE and of its
UNSUBSCRIBE. The supervisor reads them from the stream, but takes commands first, and puts their confirmations on the
outbound channel at once: messages still in the stream when an unsubscribe is processed come out after its confirmation.

Result (`in_order_iff`): over any run, the outbound channel has every message of a channel or pattern after a subscribe
confirmation with no unsubscribe confirmation of it in between, if and only if the supervisor reads no message of a
name whose unsubscribe was answered, and no subscribe of it since. A refusal counts as an answer: the crate drops its error,
and the supervisor confirms the command all the same.
Witness (`message_after_unsubscribe`): a message waits in the stream while its channel is unsubscribed.
-/
import RedisRsPy.PubSub.Supervisor

namespace RedisRsPy.PubSub

open Lib

variable {κ : Type}

/-! ## The outbound channel -/

/-- what a confirmation says: its topic, and whether it is subscribed from there on -/
def PubSubMessage.confirms (m : PubSubMessage) : Option (Topic × Bool) :=
  match m.kind with
  | .subscribe => some ((.channels, m.channel), true)
  | .unsubscribe => some ((.channels, m.channel), false)
  | .psubscribe => some ((.patterns, m.channel), true)
  | .punsubscribe => some ((.patterns, m.channel), false)
  | .ssubscribe => some ((.shardChannels, m.channel), true)
  | .sunsubscribe => some ((.shardChannels, m.channel), false)
  | _ => none

/-- what a message is about -/
def PubSubMessage.topic (m : PubSubMessage) : Option Topic :=
  match m.kind with
  | .message => some (.channels, m.channel)
  | .pmessage => some (.patterns, m.pattern.getD [])
  | .smessage => some (.shardChannels, m.channel)
  | _ => none

/-- one message of the channel, for a reader that follows topic `t` -/
def confirmStep (t : Topic) (subscribed : Bool) (m : PubSubMessage) : Bool :=
  match m.confirms with
  | some (t', b) => if t' = t then b else subscribed
  | none => subscribed

/-- the last confirmation of the topic is a subscribe -/
def lastConfirmed (out : List PubSubMessage) (t : Topic) : Bool := out.foldl (confirmStep t) false

/-- no message comes before the subscribe confirmation of its topic, nor between an unsubscribe confirmation and the next
subscribe confirmation -/
def InOrder (out : List PubSubMessage) : Prop :=
  ∀ before m after, out = before ++ m :: after → ∀ t, m.topic = some t → lastConfirmed before t = true

/-- the message the supervisor is about to read is not of a name whose unsubscribe was answered on this connection, carried
out or refused, unless a subscribe of it was answered since -/
def ReadsSubscribed (w : World κ) (e : Event κ) : Prop :=
  match e with
  | .read => ∀ msg rest, w.phase = .selecting → w.cmds = [] → w.link.stream = msg :: rest →
    msg.topic.2 ∉ w.link.dropped msg.topic.1
  | _ => True

/-! ## Following a topic -/

theorem lastConfirmed_append (out more : List PubSubMessage) (t : Topic) :
    lastConfirmed (out ++ more) t = more.foldl (confirmStep t) (lastConfirmed out t) := by
  simp [lastConfirmed, List.foldl_append]

theorem topic_forward (msg : Msg) : (forwardMessage msg).topic = some msg.topic := by
  obtain ⟨channel, payload, pattern⟩ := msg
  cases pattern <;> rfl

/-- a message confirms nothing -/
theorem lastConfirmed_forward (out : List PubSubMessage) (msg : Msg) (t : Topic) :
    lastConfirmed (out ++ [forwardMessage msg]) t = lastConfirmed out t := by
  obtain ⟨channel, payload, pattern⟩ := msg
  rw [lastConfirmed_append]
  cases pattern <;> rfl

theorem emit_eq (kind : PubSubMessageKind) (names : List Bytes) (count : Int) :
    emitSubscribeConfirmations kind names count =
      (confirmedNames names).map fun n => ⟨kind, none, n, .count count⟩ := by
  unfold emitSubscribeConfirmations confirmedNames
  split <;> rfl

theorem confirms_op (op : SubscriptionOp) (n : Bytes) (data : PubSubData) :
    PubSubMessage.confirms ⟨op.kind, none, n, data⟩ = some ((op.side, n), op.adds) := by
  cases op <;> rfl

/-- the confirmations of a command, for a reader of one topic -/
theorem lastConfirmed_emit (out : List PubSubMessage) (op : SubscriptionOp) (names : List Bytes) (count : Int)
    (side : Side) (n : Bytes) :
    lastConfirmed (out ++ emitSubscribeConfirmations op.kind names count) (side, n) =
      if side = op.side ∧ n ∈ confirmedNames names then op.adds else lastConfirmed out (side, n) := by
  rw [lastConfirmed_append, emit_eq]
  generalize confirmedNames names = names'
  generalize lastConfirmed out (side, n) = b
  induction names' generalizing b with
  | nil => simp
  | cons m ms ih =>
    rw [List.map_cons, List.foldl_cons, ih]
    simp only [confirmStep, confirms_op, Prod.mk.injEq, List.mem_cons]
    by_cases hside : side = op.side
    · subst hside
      by_cases hm : m = n
      · subst hm
        simp
      · simp [hm, Ne.symm hm]
    · simp [hside, Ne.symm hside]

theorem inOrder_nil : InOrder [] := fun before m after h => by simp at h

theorem inOrder_snoc {out : List PubSubMessage} {m : PubSubMessage} :
    InOrder (out ++ [m]) ↔ InOrder out ∧ ∀ t, m.topic = some t → lastConfirmed out t = true := by
  constructor
  · intro h
    refine ⟨fun before m' after heq => h before m' (after ++ [m]) (by simp [heq]), ?_⟩
    exact h out m [] rfl
  · rintro ⟨h, hlast⟩ before m' after heq t ht
    rcases List.eq_nil_or_concat after with rfl | ⟨after, x, rfl⟩
    · obtain ⟨rfl, hm⟩ := List.append_inj' heq rfl
      cases hm
      exact hlast t ht
    · rw [List.concat_eq_append, ← List.cons_append, ← List.append_assoc] at heq
      exact h before m' after (List.append_inj' heq rfl).1 t ht

/-- confirmations are always in order -/
theorem inOrder_append {out more : List PubSubMessage} (hmore : ∀ m ∈ more, m.topic = none) :
    InOrder (out ++ more) ↔ InOrder out := by
  induction more generalizing out with
  | nil => rw [List.append_nil]
  | cons m ms ih =>
    have hm : m.topic = none := hmore m List.mem_cons_self
    rw [List.append_cons, ih fun m' hm' => hmore m' (List.mem_cons_of_mem m hm'), inOrder_snoc]
    simp [hm]

theorem topic_emit {op : SubscriptionOp} {names : List Bytes} {count : Int} :
    ∀ m ∈ emitSubscribeConfirmations op.kind names count, m.topic = none := by
  intro m hm
  rw [emit_eq, List.mem_map] at hm
  obtain ⟨n, _, rfl⟩ := hm
  cases op <;> rfl

/-! ## The invariant -/

/-- the connection, the stream and the record are confirmed, as far as the server has confirmed them -/
structure Confirmed (link : Link) (g : SubscriptionState) (out : List PubSubMessage) : Prop where
  subs : link.alive = true → ∀ side, ∀ n ∈ link.subs side,
    lastConfirmed out (side, n) = true ↔ n ∉ link.dropped side
  stream : ∀ msg ∈ link.stream, lastConfirmed out msg.topic = true ↔ msg.topic.2 ∉ link.dropped msg.topic.1
  recorded : ∀ side, ∀ n ∈ g.names side, lastConfirmed out (side, n) = true

/-- the state is confirmed once the command in progress is finished -/
def World.Confirmed (w : World κ) : Prop := PubSub.Confirmed w.link w.settledSubs w.settledOut

theorem confirmed_start : (World.start : World κ).Confirmed := by
  refine ⟨fun _ side n hn => ?_, fun msg hmsg => (nomatch hmsg), fun side n hn => ?_⟩
  · exact absurd hn (Finset.notMem_empty n)
  · cases side <;> exact (nomatch hn)

/-- a reader of one topic after a command, and the names dropped on the connection after it, agree where they did -/
theorem mem_drops {link : Link} {op : SubscriptionOp} {names : List Bytes} {side : Side} {n : Bytes} :
    n ∈ link.drops op names side ↔
      if side = op.side ∧ n ∈ confirmedNames names then op.adds = false else n ∈ link.dropped side := by
  unfold Link.drops
  by_cases hside : side = op.side
  · subst hside
    rw [set_same]
    by_cases hn : n ∈ confirmedNames names
    · cases hadds : op.adds <;> simp [hn]
    · cases hadds : op.adds <;> simp [hn]
  · rw [set_other _ hside]
    simp [hside]

/-- a name that is subscribed after a command was named by it to be added, or is not named by it unless to be added -/
theorem after_cases {op : SubscriptionOp} {names : List Bytes} {side : Side} {P : Prop} {n : Bytes}
    (h : if side = op.side then if op.adds then P ∨ n ∈ names else names ≠ [] ∧ P ∧ n ∉ names else P) :
    (side = op.side ∧ n ∈ confirmedNames names ∧ op.adds = true) ∨
      (¬ (side = op.side ∧ n ∈ confirmedNames names) ∧ P) := by
  by_cases hnamed : side = op.side ∧ n ∈ confirmedNames names
  · obtain ⟨hside, hn⟩ := hnamed
    left
    refine ⟨hside, hn, ?_⟩
    rw [if_pos hside] at h
    by_contra hadds
    rw [if_neg hadds] at h
    rw [confirmedNames, if_neg h.1] at hn
    exact h.2.2 hn
  · right
    refine ⟨hnamed, ?_⟩
    split at h
    · rename_i hside
      split at h
      · refine h.resolve_right fun hn => hnamed ⟨hside, ?_⟩
        rw [confirmedNames, if_neg (List.ne_nil_of_mem hn)]
        exact hn
      · exact h.2.1
    · exact h

/-- after the confirmations of an answered command, a topic is confirmed exactly where it is not dropped, if it was so
before -/
theorem confirmed_drops {link : Link} {out : List PubSubMessage} {side : Side} {n : Bytes}
    (h : lastConfirmed out (side, n) = true ↔ n ∉ link.dropped side) (op : SubscriptionOp) (names : List Bytes)
    (count : Int) :
    lastConfirmed (out ++ emitSubscribeConfirmations op.kind names count) (side, n) = true ↔
      n ∉ link.drops op names side := by
  rw [lastConfirmed_emit, mem_drops]
  split
  · cases op.adds <;> simp
  · exact h

/-- a command the server has answered, whether it carried it out or refused it -/
theorem confirmed_answered {link : Link} {g : SubscriptionState} {out : List PubSubMessage} (h : Confirmed link g out)
    (op : SubscriptionOp) (names : List Bytes) (count : Int) {fate : Fate} (hfate : fate.result = .ok ()) :
    Confirmed (link.serve op names fate) (updateSubscriptionState op.kind names g)
      (out ++ emitSubscribeConfirmations op.kind names count) := by
  have hstream : ∀ msg ∈ link.stream,
      lastConfirmed (out ++ emitSubscribeConfirmations op.kind names count) msg.topic = true ↔
        msg.topic.2 ∉ link.drops op names msg.topic.1 :=
    fun msg hmsg => confirmed_drops (h.stream msg hmsg) op names count
  have hrecorded : ∀ side, ∀ n ∈ (updateSubscriptionState op.kind names g).names side,
      lastConfirmed (out ++ emitSubscribeConfirmations op.kind names count) (side, n) = true := by
    intro side n hn
    rw [mem_names_update] at hn
    rw [lastConfirmed_emit]
    rcases after_cases hn with ⟨hside, hname, hadds⟩ | ⟨hnamed, hold⟩
    · simp [hside, hname, hadds]
    · rw [if_neg hnamed]
      exact h.recorded side n hold
  cases fate with
  | ok =>
    refine ⟨fun halive side n hn => ?_, hstream, hrecorded⟩
    rw [Link.serve, mem_run] at hn
    rcases after_cases hn with ⟨hside, hname, hadds⟩ | ⟨hnamed, hold⟩
    · rw [Link.serve, lastConfirmed_emit, mem_drops]
      simp [hside, hname, hadds]
    · exact confirmed_drops (h.subs halive side n hold) op names count
  | refused => exact ⟨fun halive side n hn => confirmed_drops (h.subs halive side n hn) op names count, hstream, hrecorded⟩
  | lost => cases hfate

/-- a command that broke the connection, whatever it did at the server -/
theorem confirmed_lost {link : Link} {g : SubscriptionState} {out : List PubSubMessage} (h : Confirmed link g out)
    (op : SubscriptionOp) (names : List Bytes) (took : Bool) (e : RedisError) :
    Confirmed (link.serve op names (.lost took e)) g out :=
  ⟨fun halive => (nomatch halive), h.stream, h.recorded⟩

theorem confirmed_serve {w : World κ} (h : w.Confirmed) {r : Request κ} (hphase : w.phase = .sent r) (fate : Fate) :
    (w.serve r fate).Confirmed := by
  unfold World.Confirmed at h ⊢
  obtain ⟨hsubs, hout⟩ := settled_of_none (w := w) (by simp [World.pending, hphase])
  rw [hsubs, hout] at h
  cases hresult : opResult r.op fate.result with
  | ok =>
    obtain ⟨hside, hfate⟩ := ok_of_opResult hresult
    have hlink : (w.serve r fate).link = w.link.serve r.op r.names fate := if_neg hside
    have hpending : (w.serve r fate).pending = some r := by simp [World.serve, World.pending, hresult]
    rw [hlink, World.settledSubs, World.settledOut, hpending]
    exact confirmed_answered h r.op r.names _ hfate
  | error e =>
    have hpending : (w.serve r fate).pending = none := by simp [World.serve, World.pending, hresult]
    obtain ⟨hsubs', hout'⟩ := settled_of_none hpending
    rw [hsubs', hout']
    simp only [World.serve]
    split
    · exact h
    · rename_i hside
      cases fate with
      | ok | refused => cases hop : r.op <;> simp_all [opResult, Fate.result, SubscriptionOp.side]
      | lost took e => exact confirmed_lost h r.op r.names took e

/-- a replay subscribes to nothing that is not recorded -/
theorem replay_recorded {g : SubscriptionState} {attempts : ℕ → Option (ℕ → Fate)} {conn : Subscriptions}
    (h : tryReconnect g attempts = some conn) {side : Side} {n : Bytes} (hn : n ∈ conn side) : n ∈ g.names side := by
  obtain ⟨a, -, -, -, fates, -, rfl⟩ := tryReconnectFrom_eq_some.1 h
  rw [mem_replay (replays_adds g)] at hn
  rcases hn with hn | ⟨j, op, hj, hside, -⟩
  · exact absurd hn (Finset.notMem_empty n)
  · exact names_of_replays (List.mem_of_getElem? hj) hside

theorem link_finish (w : World κ) (r : Request κ) (result : Except RedisError Unit) :
    (w.finish r result).link = w.link := by
  cases result <;> rfl

theorem confirmed_step (w : World κ) (e : Event κ) (h : w.Confirmed) : (step w e).Confirmed := by
  have hmove := step_cases w e
  generalize step w e = w' at hmove
  unfold World.Confirmed at h ⊢
  have hidle : w.pending = none → PubSub.Confirmed w.link w.subs w.out := fun hnone => by
    obtain ⟨hsubs, hout⟩ := settled_of_none hnone
    rwa [hsubs, hout] at h
  cases hmove with
  | serve hphase => exact confirmed_serve h hphase _
  | finish hphase =>
    obtain ⟨hsubs, hout⟩ := settled_finish hphase
    rw [hsubs, hout, link_finish]
    exact h
  | @ack r result hphase => cases result <;> simpa [World.settledSubs, World.settledOut, World.pending, hphase] using h
  | @publish msg halive hsub =>
    refine ⟨h.subs, fun m hm => ?_, h.recorded⟩
    rcases List.mem_append.1 hm with hm | hm
    · exact h.stream m hm
    · cases List.mem_singleton.1 hm
      exact h.subs halive _ _ hsub
  | cut =>
    refine ⟨fun halive => ?_, h.stream, h.recorded⟩
    cases halive
  | @read msg rest hphase hcmds hstream =>
    have hnone : w.pending = none := by simp [World.pending, hphase]
    obtain ⟨hsubs, hstr, hrec⟩ := hidle hnone
    have hlast := lastConfirmed_forward w.out msg
    have hnone' : World.pending { w with
        link := { w.link with stream := rest }, out := w.out ++ [forwardMessage msg] } = none := hnone
    obtain ⟨hs, ho⟩ := settled_of_none hnone'
    rw [hs, ho]
    refine ⟨fun halive side n hn => ?_, fun m hm => ?_, fun side n hn => ?_⟩
    · rw [hlast]
      exact hsubs halive side n hn
    · rw [hlast]
      exact hstr m (by rw [hstream]; exact List.mem_cons_of_mem msg hm)
    · rw [hlast]
      exact hrec side n hn
  | @reconnected attempts conn hphase hconn =>
    have hold := hidle (by simp [World.pending, hphase])
    refine ⟨fun _ side n hn => ?_, fun m hm => ?_, hold.recorded⟩
    · exact iff_of_true (hold.recorded side n (replay_recorded hconn hn)) (Finset.notMem_empty n)
    · cases hm
  | shutdown hphase => exact hidle (by simp [World.pending, hphase])
  | take hphase => exact hidle (by simp [World.pending, hphase])
  | ended hphase => exact hidle (by simp [World.pending, hphase])
  | gaveUp hphase => exact hidle (by simp [World.pending, hphase])
  | _ => exact h

/-! ## Order over runs -/

/-- **One step.** It keeps the channel in order exactly where it reads no message of a dropped name -/
theorem in_order_step (w : World κ) (e : Event κ) (h : w.Confirmed) :
    InOrder (step w e).out ↔ InOrder w.out ∧ ReadsSubscribed w e := by
  by_cases hread : e = .read
  · subst hread
    simp only [step]
    split
    · rename_i msg rest hphase hcmds hstream
      have hold : PubSub.Confirmed w.link w.subs w.out := by
        obtain ⟨hsubs, hout⟩ := settled_of_none (w := w) (by simp [World.pending, hphase])
        unfold World.Confirmed at h
        rwa [hsubs, hout] at h
      have hiff := hold.stream msg (by rw [hstream]; exact List.mem_cons_self)
      rw [inOrder_snoc, topic_forward]
      simp only [Option.some.injEq, forall_eq', hiff, ReadsSubscribed]
      refine and_congr_right fun _ => ⟨?_, fun hk => hk msg rest hphase hcmds hstream⟩
      rintro hdropped msg' rest' - - hstream'
      rw [hstream] at hstream'
      cases hstream'
      exact hdropped
    · rename_i hno
      refine (and_iff_left_of_imp ?_).symm
      exact fun _ msg rest hphase hcmds hstream => (hno msg rest hphase hcmds hstream).elim
  · have htrue : ReadsSubscribed w e := by
      cases e with
      | read => exact absurd rfl hread
      | _ => trivial
    have hmove := step_cases w e
    generalize step w e = w' at hmove
    rw [and_iff_left htrue]
    cases hmove with
    | @finish r result hphase =>
      cases result with
      | ok => exact inOrder_append topic_emit
      | error => exact Iff.rfl
    | read => exact absurd rfl hread
    | _ => exact Iff.rfl

theorem in_order_run {w : World κ} (h : w.Confirmed) (l : List (Event κ)) :
    InOrder (run step w l).out ↔ InOrder w.out ∧ Along step ReadsSubscribed w l :=
  run_iff (G := fun w : World κ => InOrder w.out) confirmed_step in_order_step h l

end RedisRsPy.PubSub
