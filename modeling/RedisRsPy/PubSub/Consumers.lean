/-
Several consumers of one pub/sub bridge (`facade/pubsub.rs`): `get_message` and `__next__`, which wait for a message in
their own thread, and `aget_message` and `__anext__`, which spawn a task that takes the message and sends it to the
awaitable the caller got.

The supervisor sends messages into the outbound channel, and calls take them out under its lock. A step is one move of
the supervisor, a call or an awaitable, so a run is any interleaving of them. A caller makes one call after the other;
several callers, or one that is its own caller for each call, go on at the same time. An awaitable is a
`RedisRsAwaitable` with everything that can happen to it, cancelled or not.
-/
import RedisRsPy.Bridge.Live
import RedisRsPy.PubSub.Message

namespace RedisRsPy.PubSub.Consumers

open Lib

/-! ## Calls -/

/-- what `aget_message` sends to its awaitable -/
inductive RawResult where
  | nil
  | pubSubMessage (msg : PubSubMessage)
deriving DecidableEq, Repr

/-- what Python gets of it -/
inductive PyValue where
  | none
  | dict (d : PyMessage)
deriving DecidableEq, Repr

def RawResult.intoPy : RawResult → Except Empty PyValue
  | .nil => .ok .none
  | .pubSubMessage msg => .ok (.dict msg.intoPyDict)

/-- the message, if it is one -/
def RawResult.dicts : RawResult → List PyMessage
  | .nil => []
  | .pubSubMessage msg => [msg.intoPyDict]

abbrev Awaited : Type := Bridge.World RawResult PyValue Empty

/-- the task of `aget_message`: it looks for a message, has one it has not sent yet, or has sent it -/
inductive Task where
  | running
  | holding (raw : RawResult)
  | sent (raw : RawResult)
deriving DecidableEq, Repr

/-- a call; `timed` says that it has a timeout -/
inductive Call where
  | idle
  /-- `get_message` or `__next__` waits for a message -/
  | waiting (ignore timed : Bool)
  /-- and has one it has not returned yet -/
  | got (msg : PubSubMessage)
  | returned
  | task (ignore timed : Bool) (t : Task) (aw : Awaited)

/-- the methods that take messages, with `ignore_subscribe_messages` and `timeout` where they have them -/
inductive Method where
  | getMessage (ignore : Bool) (timeout : Option Float)
  | next
  | agetMessage (ignore : Bool) (timeout : Option Float)
  | anext

def Method.agetCall (selfIgnore ignore : Bool) (timeout : Option Float) : Call :=
  .task (ignore || selfIgnore) (timeoutDuration timeout).isSome .running .new

/-- the call, on an object with this `ignore_subscribe_messages` -/
def Method.call (selfIgnore : Bool) : Method → Call
  | .getMessage ignore timeout => .waiting (ignore || selfIgnore) (timeoutDuration timeout).isSome
  | .next => .waiting selfIgnore false
  | .agetMessage ignore timeout => agetCall selfIgnore ignore timeout
  | .anext => agetCall selfIgnore false none

/-- the call looks for a message, ignoring confirmations or not, with a timeout or not -/
def Call.looking : Call → Option (Bool × Bool)
  | .waiting ignore timed => some (ignore, timed)
  | .task ignore timed .running _ => some (ignore, timed)
  | _ => none

/-- a message for Python has been taken -/
def Call.receive (msg : PubSubMessage) : Call → Call
  | .waiting _ _ => .got msg
  | .task ignore timed .running aw => .task ignore timed (.holding (.pubSubMessage msg)) aw
  | call => call

/-- the timeout is over, or the sender is gone -/
def Call.giveUp : Call → Call
  | .waiting _ _ => .returned
  | .task ignore timed .running aw => .task ignore timed (.holding .nil) aw
  | call => call

/-- the caller is not in the call; its task may go on -/
def Call.ended : Call → Bool
  | .idle | .returned => true
  | .waiting _ _ | .got _ => false
  | .task _ _ _ aw => aw.aw.done

/-! ## The bridge -/

/-- a message leaves the channel, for this call -/
structure Taken (κ : Type) where
  call : κ
  ignore : Bool
  message : PubSubMessage
deriving DecidableEq

/-- the bridge of an object. `outbound` is the call that holds the lock of the outbound channel; `current` is the last
call of a caller. The last three are records of what has happened: messages sent into the channel, messages taken out of it,
and messages handed to Python. -/
structure World (ι κ : Type) where
  isOpen : Bool
  gone : Bool
  queue : List PubSubMessage
  outbound : Option κ
  calls : κ → Call
  current : ι → Option κ
  sent : List PubSubMessage
  taken : List (Taken κ)
  handed : List (κ × PyMessage)

inductive Event (κ : Type) where
  /-- the supervisor sends a message: one of the stream, or a confirmation -/
  | arrive (msg : PubSubMessage)
  /-- the supervisor has returned, and dropped the sender -/
  | down
  /-- `close` or `aclose` -/
  | close
  | begin (c : κ) (method : Method)
  /-- the call gets the lock of the channel -/
  | lock (c : κ)
  /-- its `recv` gets the first message of the channel -/
  | take (c : κ)
  /-- its `recv` ends without one -/
  | elapse (c : κ)
  /-- a sync call returns its message, a task sends to its awaitable -/
  | finish (c : κ)
  /-- an event of the call's awaitable -/
  | await (c : κ) (e : Bridge.Event RawResult)

variable {ι κ : Type} [DecidableEq ι] [DecidableEq κ]

def World.start : World ι κ := ⟨true, false, [], none, fun _ => .idle, fun _ => none, [], [], []⟩

def World.set (w : World ι κ) (c : κ) (call : Call) : World ι κ := { w with calls := Function.update w.calls c call }

/-- the caller is in no call -/
def World.free (w : World ι κ) (i : ι) : Bool :=
  match w.current i with
  | some c => (w.calls c).ended
  | none => true

/-- what the event hands to Python: a poll that finishes the awaitable with a message -/
def delivered (aw : Awaited) : Bridge.Event RawResult → List PyMessage
  | .poll loop =>
    match aw.aw.done, (aw.poll RawResult.intoPy loop).1 with
    | false, .stop (.dict d) => [d]
    | _, _ => []
  | _ => []

/-- the sender end of the oneshot is the task's -/
def ofSender : Bridge.Event RawResult → Bool
  | .send _ | .drop => true
  | _ => false

section Steps

variable (caller : κ → ι) (selfIgnore : Bool)

def step (w : World ι κ) : Event κ → World ι κ
  | .arrive msg => if w.gone then w else { w with queue := w.queue ++ [msg], sent := w.sent ++ [msg] }
  | .down => { w with gone := true }
  | .close => { w with isOpen := false }
  | .begin c method =>
    match w.isOpen, w.calls c, w.free (caller c) with
    | true, .idle, true =>
      { w.set c (method.call selfIgnore) with current := Function.update w.current (caller c) (some c) }
    | _, _, _ => w
  | .lock c => if w.outbound = none ∧ (w.calls c).looking.isSome = true then { w with outbound := some c } else w
  | .take c =>
    match decide (w.outbound = some c), (w.calls c).looking, w.queue with
    | true, some (ignore, _), msg :: rest =>
      -- a message that is not for Python sends the call back for the lock
      { w.set c (if skips ignore msg then w.calls c else (w.calls c).receive msg) with
        queue := rest
        outbound := none
        taken := w.taken ++ [⟨c, ignore, msg⟩] }
    | _, _, _ => w
  | .elapse c =>
    match decide (w.outbound = some c), (w.calls c).looking, w.queue with
    | true, some (_, timed), [] =>
      if timed || w.gone then { w.set c (w.calls c).giveUp with outbound := none } else w
    | _, _, _ => w
  | .finish c =>
    match w.calls c with
    | .got msg => { w.set c .returned with handed := w.handed ++ [(c, msg.intoPyDict)] }
    | .task ignore timed (.holding raw) aw =>
      w.set c (.task ignore timed (.sent raw) (Bridge.step RawResult.intoPy aw (.send raw)))
    | _ => w
  | .await c e =>
    match w.calls c, ofSender e with
    | .task ignore timed t aw, false =>
      { w.set c (.task ignore timed t (Bridge.step RawResult.intoPy aw e)) with
        handed := w.handed ++ (delivered aw e).map fun d => (c, d) }
    | _, _ => w

end Steps

end RedisRsPy.PubSub.Consumers
