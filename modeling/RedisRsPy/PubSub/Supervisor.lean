/-
The supervisor of a pub/sub bridge (`supervisor_task`, `handle_command` in `facade/pubsub.rs`), the connection it owns
and the callers around it.

A caller sends a command and waits for its acknowledgement. The supervisor takes commands before messages; it runs a
command on the connection, acknowledges it, and only then updates the record and sends the confirmations. Meanwhile the
server publishes into the stream of the connection, callers see their acknowledgements, and the connection may die.
Each `Event` is one such step; events that are not enabled change nothing, and any order of events is a run.

`World.settled` is the record and the outbound channel as they will be when the command in progress is finished.

Results:
- `step_cases`: what one step can do;
- `settled_finish`: finishing a command leaves the settled state as it is.
-/
import RedisRsPy.PubSub.Reconnect

namespace RedisRsPy.PubSub

open Lib

/-! ## The connection -/

/-- what a message or a confirmation is about: a channel or a pattern -/
abbrev Topic := Side × Bytes

def Msg.topic (msg : Msg) : Topic :=
  match msg.pattern with
  | some p => (.patterns, p)
  | none => (.channels, msg.channel)

/-- the names a command is confirmed with -/
def confirmedNames (names : List Bytes) : List Bytes := if names = [] then [[]] else names

/-- the connection: its subscriptions at the server, the messages the supervisor has not read, whether it is alive, and
the names whose unsubscribe was answered since a subscribe of them was last answered on it -/
structure Link where
  subs : Subscriptions
  stream : List Msg
  alive : Bool
  dropped : Subscriptions

def Link.fresh (conn : Subscriptions) : Link := ⟨conn, [], true, .none⟩

def Link.drops (link : Link) (op : SubscriptionOp) (names : List Bytes) : Subscriptions :=
  link.dropped.set op.side (if op.adds then link.dropped op.side \ (confirmedNames names).toFinset
    else link.dropped op.side ∪ (confirmedNames names).toFinset)

/-- a command of the sink on the connection -/
def Link.serve (link : Link) (op : SubscriptionOp) (names : List Bytes) (fate : Fate) : Link :=
  match fate with
  | .ok => { link with subs := link.subs.run op names, dropped := link.drops op names }
  | .refused _ => { link with dropped := link.drops op names }
  | .lost took _ => { link with subs := if took then link.subs.run op names else link.subs, alive := false }

/-- a dead connection answers nothing -/
def Link.permits (link : Link) : Fate → Bool
  | .lost false _ => true
  | _ => link.alive

/-! ## The bridge -/

/-- a command of a caller, with a number of its own -/
structure Request (κ : Type) where
  id : ℕ
  caller : κ
  op : SubscriptionOp
  names : List Bytes
deriving DecidableEq

inductive BridgeCommand (κ : Type) where
  | request (r : Request κ)
  | shutdown

/-- where the supervisor stands -/
inductive Phase (κ : Type) where
  | selecting
  | sent (r : Request κ)
  | served (r : Request κ) (result : Except RedisError Unit)
  | acked (r : Request κ) (result : Except RedisError Unit)
  | reconnecting
  | stopped

structure World (κ : Type) where
  /-- the Python object has its bridge -/
  isOpen : Bool
  next : ℕ
  cmds : List (BridgeCommand κ)
  phase : Phase κ
  link : Link
  subs : SubscriptionState
  /-- everything sent to the outbound channel -/
  out : List PubSubMessage
  acks : List (Request κ × Except String Unit)
  /-- the commands that have completed successfully for their callers -/
  completed : List (Request κ)
  /-- the commands that succeeded, in the order the server answered them -/
  log : List (Request κ)
  /-- the commands that were handled, in order, with what became of the call on the sink; a shard command makes none -/
  served : List (Request κ × Option Fate)

def World.start {κ : Type} : World κ :=
  ⟨true, 0, [], .selecting, .fresh .none, .empty, [], [], [], [], []⟩

inductive Event (κ : Type) where
  | issue (caller : κ) (op : SubscriptionOp) (names : List Bytes)
  | close
  | take
  | serve (fate : Fate)
  | ack
  | finish
  | publish (msg : Msg)
  | cut
  | read
  | ended
  | ping
  | reconnect (attempts : ℕ → Option (ℕ → Fate))
  | complete (id : ℕ)
  | observe (caller : κ)

def Phase.isStopped {κ : Type} : Phase κ → Bool
  | .stopped => true
  | _ => false

variable {κ : Type}

/-- the call on the sink, or the failure of a shard command that makes none -/
def World.serve (w : World κ) (r : Request κ) (fate : Fate) : World κ :=
  { w with
    phase := .served r (opResult r.op fate.result)
    link := if r.op.side = .shardChannels then w.link else w.link.serve r.op r.names fate
    log := match opResult r.op fate.result with
      | .ok () => w.log ++ [r]
      | .error _ => w.log
    served := w.served ++ [(r, if r.op.side = .shardChannels then none else some fate)] }

/-- the record after a command that succeeded -/
def SubscriptionState.after (g : SubscriptionState) (r : Request κ) : SubscriptionState :=
  updateSubscriptionState r.op.kind r.names g

/-- the end of `handle_command`, and the branch of the loop that follows it -/
def World.finish (w : World κ) (r : Request κ) (result : Except RedisError Unit) : World κ :=
  match result with
  | .ok () =>
    { w with
      phase := .selecting
      subs := w.subs.after r
      out := w.out ++ emitSubscribeConfirmations r.op.kind r.names (subscriberCount (w.subs.after r)) }
  | .error _ => { w with phase := if wasIoError result then .reconnecting else .selecting }

def step (w : World κ) : Event κ → World κ
  | .issue caller op names =>
    if w.isOpen && (checkNames op names).isNone && !w.phase.isStopped then
      { w with cmds := w.cmds ++ [.request ⟨w.next, caller, op, names⟩], next := w.next + 1 }
    else w
  | .close => if w.isOpen then { w with isOpen := false, cmds := w.cmds ++ [.shutdown] } else w
  | .take =>
    match w.phase, w.cmds with
    | .selecting, .shutdown :: rest => { w with phase := .stopped, cmds := rest }
    | .selecting, .request r :: rest => { w with phase := .sent r, cmds := rest }
    | _, _ => w
  | .serve fate =>
    match w.phase with
    | .sent r => if w.link.permits fate then w.serve r fate else w
    | _ => w
  | .ack =>
    match w.phase with
    | .served r result => { w with phase := .acked r result, acks := w.acks ++ [(r, ackOf result)] }
    | _ => w
  | .finish =>
    match w.phase with
    | .acked r result => w.finish r result
    | _ => w
  | .publish msg =>
    if w.link.alive && decide (msg.topic.2 ∈ w.link.subs msg.topic.1) then
      { w with link := { w.link with stream := w.link.stream ++ [msg] } }
    else w
  | .cut => { w with link := { w.link with alive := false } }
  | .read =>
    -- `biased`: the stream is polled only when no command waits
    match w.phase, w.cmds, w.link.stream with
    | .selecting, [], msg :: rest =>
      { w with link := { w.link with stream := rest }, out := w.out ++ [forwardMessage msg] }
    | _, _, _ => w
  | .ended =>
    match w.phase, w.cmds, w.link.stream with
    | .selecting, [], [] => if w.link.alive then w else { w with phase := .reconnecting }
    | _, _, _ => w
  -- the health check drops the result of its PING
  | .ping => w
  | .reconnect attempts =>
    match w.phase with
    | .reconnecting =>
      match tryReconnect w.subs attempts with
      | some conn => { w with phase := .selecting, link := .fresh conn }
      | none => { w with phase := .stopped }
    | _ => w
  | .complete id =>
    match w.acks.find? fun a => decide (a.1.id = id) with
    | some (r, .ok ()) => { w with completed := r :: w.completed }
    | _ => w
  | .observe _ => w

/-! ## What one step can do -/

inductive Move (w : World κ) : Event κ → World κ → Prop
  | issue {caller : κ} {op : SubscriptionOp} {names : List Bytes} (hnames : checkNames op names = none) :
      Move w (.issue caller op names)
        { w with cmds := w.cmds ++ [.request ⟨w.next, caller, op, names⟩], next := w.next + 1 }
  | close : Move w .close { w with isOpen := false, cmds := w.cmds ++ [.shutdown] }
  | shutdown {rest : List (BridgeCommand κ)} (hphase : w.phase = .selecting) (hcmds : w.cmds = .shutdown :: rest) :
      Move w .take { w with phase := .stopped, cmds := rest }
  | take {r : Request κ} {rest : List (BridgeCommand κ)} (hphase : w.phase = .selecting)
      (hcmds : w.cmds = .request r :: rest) : Move w .take { w with phase := .sent r, cmds := rest }
  | serve {r : Request κ} {fate : Fate} (hphase : w.phase = .sent r) (hfate : w.link.permits fate = true) :
      Move w (.serve fate) (w.serve r fate)
  | ack {r : Request κ} {result : Except RedisError Unit} (hphase : w.phase = .served r result) :
      Move w .ack { w with phase := .acked r result, acks := w.acks ++ [(r, ackOf result)] }
  | finish {r : Request κ} {result : Except RedisError Unit} (hphase : w.phase = .acked r result) :
      Move w .finish (w.finish r result)
  | publish {msg : Msg} (halive : w.link.alive = true) (hsub : msg.topic.2 ∈ w.link.subs msg.topic.1) :
      Move w (.publish msg) { w with link := { w.link with stream := w.link.stream ++ [msg] } }
  | cut : Move w .cut { w with link := { w.link with alive := false } }
  | read {msg : Msg} {rest : List Msg} (hphase : w.phase = .selecting) (hcmds : w.cmds = [])
      (hstream : w.link.stream = msg :: rest) :
      Move w .read { w with link := { w.link with stream := rest }, out := w.out ++ [forwardMessage msg] }
  | ended (hphase : w.phase = .selecting) (hdead : w.link.alive = false) :
      Move w .ended { w with phase := .reconnecting }
  | reconnected {attempts : ℕ → Option (ℕ → Fate)} {conn : Subscriptions} (hphase : w.phase = .reconnecting)
      (hconn : tryReconnect w.subs attempts = some conn) :
      Move w (.reconnect attempts) { w with phase := .selecting, link := .fresh conn }
  | gaveUp {attempts : ℕ → Option (ℕ → Fate)} (hphase : w.phase = .reconnecting)
      (hconn : tryReconnect w.subs attempts = none) : Move w (.reconnect attempts) { w with phase := .stopped }
  | complete {r : Request κ} (hack : (r, .ok ()) ∈ w.acks) :
      Move w (.complete r.id) { w with completed := r :: w.completed }
  | still (e : Event κ) : Move w e w

theorem step_cases (w : World κ) (e : Event κ) : Move w e (step w e) := by
  cases e with
  | issue caller op names =>
    simp only [step]
    split
    · rename_i h
      simp only [Bool.and_eq_true, Option.isNone_iff_eq_none] at h
      exact .issue h.1.2
    · exact .still _
  | close =>
    simp only [step]
    split
    · exact .close
    · exact .still _
  | take =>
    simp only [step]
    split
    · rename_i hphase hcmds
      exact .shutdown hphase hcmds
    · rename_i hphase hcmds
      exact .take hphase hcmds
    · exact .still _
  | serve fate =>
    simp only [step]
    split
    · rename_i hphase
      split
      · rename_i hfate
        exact .serve hphase hfate
      · exact .still _
    · exact .still _
  | ack =>
    simp only [step]
    split
    · rename_i hphase
      exact .ack hphase
    · exact .still _
  | finish =>
    simp only [step]
    split
    · rename_i hphase
      exact .finish hphase
    · exact .still _
  | publish msg =>
    simp only [step]
    split
    · rename_i h
      simp only [Bool.and_eq_true, decide_eq_true_eq] at h
      exact .publish h.1 h.2
    · exact .still _
  | cut => exact .cut
  | read =>
    simp only [step]
    split
    · rename_i hphase hcmds hstream
      exact .read hphase hcmds hstream
    · exact .still _
  | ended =>
    simp only [step]
    split
    · rename_i hphase hcmds hstream
      split
      · exact .still _
      · rename_i halive
        exact .ended hphase (by simpa using halive)
    · exact .still _
  | ping => exact .still _
  | reconnect attempts =>
    simp only [step]
    split
    · rename_i hphase
      split
      · rename_i hconn
        exact .reconnected hphase hconn
      · rename_i hconn
        exact .gaveUp hphase hconn
    · exact .still _
  | complete id =>
    simp only [step]
    split
    · rename_i r hfind
      obtain ⟨hmem, hid⟩ : (r, .ok ()) ∈ w.acks ∧ r.id = id :=
        ⟨List.mem_of_find?_eq_some hfind, by simpa using List.find?_some hfind⟩
      subst hid
      exact .complete hmem
    · exact .still _
  | observe caller => exact .still _

/-! ## The settled state -/

/-- the command that has succeeded and is not yet in the record -/
def World.pending (w : World κ) : Option (Request κ) :=
  match w.phase with
  | .served r (.ok ()) => some r
  | .acked r (.ok ()) => some r
  | _ => none

/-- the record when the command in progress is finished -/
def World.settledSubs (w : World κ) : SubscriptionState :=
  match w.pending with
  | some r => w.subs.after r
  | none => w.subs

/-- the outbound channel when the command in progress is finished -/
def World.settledOut (w : World κ) : List PubSubMessage :=
  match w.pending with
  | some r => w.out ++ emitSubscribeConfirmations r.op.kind r.names (subscriberCount (w.subs.after r))
  | none => w.out

theorem phase_of_pending {w : World κ} {r : Request κ} (h : w.pending = some r) :
    w.phase = .served r (.ok ()) ∨ w.phase = .acked r (.ok ()) := by
  unfold World.pending at h
  split at h
  · rename_i hphase
    exact .inl (Option.some.inj h ▸ hphase)
  · rename_i hphase
    exact .inr (Option.some.inj h ▸ hphase)
  · cases h

theorem settled_of_none {w : World κ} (h : w.pending = none) : w.settledSubs = w.subs ∧ w.settledOut = w.out := by
  simp [World.settledSubs, World.settledOut, h]

/-- a command succeeds when the server has answered, whether it carried it out or refused it -/
theorem ok_of_opResult {op : SubscriptionOp} {fate : Fate} (h : opResult op fate.result = .ok ()) :
    op.side ≠ .shardChannels ∧ fate.result = .ok () := by
  refine ⟨side_of_ok h, ?_⟩
  cases fate with
  | ok | refused => rfl
  | lost => cases op <;> cases h

/-- finishing a command leaves the settled state as it is -/
theorem settled_finish {w : World κ} {r : Request κ} {result : Except RedisError Unit}
    (hphase : w.phase = .acked r result) :
    (w.finish r result).settledSubs = w.settledSubs ∧ (w.finish r result).settledOut = w.settledOut := by
  cases result with
  | ok => simp [World.settledSubs, World.settledOut, World.pending, World.finish, hphase]
  | error e =>
    cases hio : wasIoError (.error e) <;>
      simp [World.settledSubs, World.settledOut, World.pending, World.finish, hphase, hio]

end RedisRsPy.PubSub
