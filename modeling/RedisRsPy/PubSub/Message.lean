/-
Pub/sub messages, commands and the recorded subscriptions (`facade/pubsub.rs`).

The six subscription commands differ in the list they work on (`Side`) and in whether they add to it. The bridge keeps
three lists of names, updates them when a command has succeeded, and makes up the confirmations Python sees.

Results:
- `names_update`: what a successful command does to each of the three lists;
- `nodup_update`: no list ever holds a name twice;
- `shard_update`: no command that can succeed records a shard channel.
-/
import RedisRsPy.Errors
import Mathlib.Data.List.Nodup

namespace RedisRsPy.PubSub

/-! ## Messages -/

/-- `PubSubMessageKind` -/
inductive PubSubMessageKind where
  | subscribe
  | unsubscribe
  | psubscribe
  | punsubscribe
  | ssubscribe
  | sunsubscribe
  | message
  | pmessage
  | smessage
  | pong
deriving DecidableEq, Repr

def PubSubMessageKind.typeStr : PubSubMessageKind → String
  | .subscribe => "subscribe"
  | .unsubscribe => "unsubscribe"
  | .psubscribe => "psubscribe"
  | .punsubscribe => "punsubscribe"
  | .ssubscribe => "ssubscribe"
  | .sunsubscribe => "sunsubscribe"
  | .message => "message"
  | .pmessage => "pmessage"
  | .smessage => "smessage"
  | .pong => "pong"

def PubSubMessageKind.isSubscribeConfirmation : PubSubMessageKind → Bool
  | .subscribe | .unsubscribe | .psubscribe | .punsubscribe | .ssubscribe | .sunsubscribe => true
  | _ => false

/-- `PubSubData` -/
inductive PubSubData where
  | bytes (b : Bytes)
  | count (n : Int)
deriving DecidableEq, Repr

/-- `PubSubMessage` -/
structure PubSubMessage where
  kind : PubSubMessageKind
  pattern : Option Bytes
  channel : Bytes
  data : PubSubData
deriving DecidableEq, Repr

/-- the dict a message becomes, by its items -/
structure PyMessage where
  type : String
  pattern : Option Bytes
  channel : Bytes
  data : PubSubData
deriving DecidableEq, Repr

def PubSubMessage.intoPyDict (msg : PubSubMessage) : PyMessage := ⟨msg.kind.typeStr, msg.pattern, msg.channel, msg.data⟩

/-- `redis::Msg`, by what `forward_message` reads of it: the name `get_channel_name` gives, the payload, and the pattern
of a message `from_pattern` -/
structure Msg where
  channel : Bytes
  payload : Bytes
  pattern : Option Bytes
deriving DecidableEq, Repr

/-- `forward_message` -/
def forwardMessage (msg : Msg) : PubSubMessage :=
  ⟨if msg.pattern.isSome then .pmessage else .message, msg.pattern, msg.channel, .bytes msg.payload⟩

/-! ## Taking a message -/

/-- a message that is not for Python -/
def skips (ignore : Bool) (m : PubSubMessage) : Bool :=
  decide (m.kind = .pong) || (ignore && m.kind.isSubscribeConfirmation)

/-- `Duration::from_millis(1)`, in seconds -/
def oneMilli : Float := 0.001

/-- `parse_timeout`, of a number of seconds -/
def parseTimeout (secs : Float) : Float := if secs ≤ 0 then oneMilli else secs

/-- the timeout of `get_message` and `aget_message`, in seconds: none waits for ever -/
def timeoutDuration (timeout : Option Float) : Option Float :=
  match timeout with
  | none => some oneMilli
  | some t => some (parseTimeout t)

/-! ## Commands -/

/-- the `BridgeCommand` variants that subscribe or unsubscribe -/
inductive SubscriptionOp where
  | subscribe
  | unsubscribe
  | psubscribe
  | punsubscribe
  | ssubscribe
  | sunsubscribe
deriving DecidableEq, Repr

/-- the kind of its confirmation -/
def SubscriptionOp.kind : SubscriptionOp → PubSubMessageKind
  | .subscribe => .subscribe
  | .unsubscribe => .unsubscribe
  | .psubscribe => .psubscribe
  | .punsubscribe => .punsubscribe
  | .ssubscribe => .ssubscribe
  | .sunsubscribe => .sunsubscribe

/-- the list of names a command works on -/
inductive Side where
  | channels
  | patterns
  | shardChannels
deriving DecidableEq, Repr

def SubscriptionOp.side : SubscriptionOp → Side
  | .subscribe | .unsubscribe => .channels
  | .psubscribe | .punsubscribe => .patterns
  | .ssubscribe | .sunsubscribe => .shardChannels

def SubscriptionOp.adds : SubscriptionOp → Bool
  | .subscribe | .psubscribe | .ssubscribe => true
  | .unsubscribe | .punsubscribe | .sunsubscribe => false

/-- the method of the Python class refuses an empty list where it subscribes -/
def checkNames (op : SubscriptionOp) (names : List Bytes) : Option String :=
  if names = [] then
    match op with
    | .subscribe => some "subscribe() requires at least one channel"
    | .psubscribe => some "psubscribe() requires at least one pattern"
    | .ssubscribe => some "ssubscribe() requires at least one shard channel"
    | _ => none
  else none

/-- the command's result, from the result of the call on the sink; shard commands fail without one -/
def opResult (op : SubscriptionOp) (r : Except RedisError Unit) : Except RedisError Unit :=
  match op with
  | .ssubscribe => .error (.fromKind .client "ssubscribe not yet supported in redis-rs 1.2 PubSub")
  | .sunsubscribe => .error (.fromKind .client "sunsubscribe not yet supported in redis-rs 1.2 PubSub")
  | _ => r

/-- `r.map(|_| ()).map_err(|e| e.to_string())` -/
def ackOf (r : Except RedisError Unit) : Except String Unit := r.mapError RedisError.text

/-- `was_io_error` -/
def wasIoError : Except RedisError Unit → Bool
  | .error e => decide (e.kind = .io)
  | .ok () => false

/-! ## The recorded subscriptions -/

/-- `SubscriptionState` -/
structure SubscriptionState where
  channels : List Bytes
  patterns : List Bytes
  shardChannels : List Bytes
deriving DecidableEq, Repr

def SubscriptionState.empty : SubscriptionState := ⟨[], [], []⟩

/-- `if !g.iter().any(|c| c == n) { g.push(n.clone()) }` -/
def pushNew (g : List Bytes) (n : Bytes) : List Bytes := if n ∈ g then g else g ++ [n]

/-- `if names.is_empty() { g.clear() } else { g.retain(|c| !names.iter().any(|n| n == c)) }` -/
def retainOthers (g names : List Bytes) : List Bytes := if names = [] then [] else g.filter fun c => decide (c ∉ names)

/-- `update_subscription_state` -/
def updateSubscriptionState (kind : PubSubMessageKind) (names : List Bytes) (g : SubscriptionState) :
    SubscriptionState :=
  match kind with
  | .subscribe => { g with channels := names.foldl pushNew g.channels }
  | .unsubscribe => { g with channels := retainOthers g.channels names }
  | .psubscribe => { g with patterns := names.foldl pushNew g.patterns }
  | .punsubscribe => { g with patterns := retainOthers g.patterns names }
  | .ssubscribe => { g with shardChannels := names.foldl pushNew g.shardChannels }
  | .sunsubscribe => { g with shardChannels := retainOthers g.shardChannels names }
  | _ => g

/-- `subscriber_count` -/
def subscriberCount (g : SubscriptionState) : Int := (g.channels.length + g.patterns.length + g.shardChannels.length : ℕ)

/-- `emit_subscribe_confirmations` -/
def emitSubscribeConfirmations (kind : PubSubMessageKind) (names : List Bytes) (count : Int) : List PubSubMessage :=
  if names = [] then [⟨kind, none, [], .count count⟩] else names.map fun n => ⟨kind, none, n, .count count⟩

/-- `PubSub::subscribed`, on an open bridge -/
def SubscriptionState.subscribed (g : SubscriptionState) : Bool :=
  !g.channels.isEmpty || !g.patterns.isEmpty || !g.shardChannels.isEmpty

/-! ## One lemma for the six commands -/

def SubscriptionState.names (g : SubscriptionState) : Side → List Bytes
  | .channels => g.channels
  | .patterns => g.patterns
  | .shardChannels => g.shardChannels

/-- what a command does to its list -/
def SubscriptionOp.apply (op : SubscriptionOp) (names g : List Bytes) : List Bytes :=
  if op.adds then names.foldl pushNew g else retainOthers g names

theorem names_update (op : SubscriptionOp) (names : List Bytes) (g : SubscriptionState) (side : Side) :
    (updateSubscriptionState op.kind names g).names side =
      if side = op.side then op.apply names (g.names side) else g.names side := by
  cases op <;> cases side <;> rfl

theorem mem_pushNew {g : List Bytes} {n m : Bytes} : m ∈ pushNew g n ↔ m ∈ g ∨ m = n := by
  unfold pushNew
  split
  · rename_i hn
    exact ⟨.inl, fun h => h.elim id fun e => e ▸ hn⟩
  · simp

theorem mem_pushAll {names g : List Bytes} {m : Bytes} : m ∈ names.foldl pushNew g ↔ m ∈ g ∨ m ∈ names := by
  induction names generalizing g with
  | nil => simp
  | cons n ns ih => rw [List.foldl_cons, ih, mem_pushNew, List.mem_cons, or_assoc]

theorem nodup_pushNew {g : List Bytes} (h : g.Nodup) (n : Bytes) : (pushNew g n).Nodup := by
  unfold pushNew
  split
  · exact h
  · rename_i hn
    exact List.Nodup.append h (List.nodup_singleton n) (by simpa using hn)

theorem nodup_apply {g : List Bytes} (h : g.Nodup) (op : SubscriptionOp) (names : List Bytes) :
    (op.apply names g).Nodup := by
  unfold SubscriptionOp.apply
  split
  · induction names generalizing g with
    | nil => exact h
    | cons n ns ih => exact ih (nodup_pushNew h n)
  · unfold retainOthers
    split
    · exact List.nodup_nil
    · exact h.filter _

/-- the names of a list after a command -/
theorem mem_apply {op : SubscriptionOp} {names g : List Bytes} {m : Bytes} :
    m ∈ op.apply names g ↔ if op.adds then m ∈ g ∨ m ∈ names else names ≠ [] ∧ m ∈ g ∧ m ∉ names := by
  unfold SubscriptionOp.apply
  split
  · exact mem_pushAll
  · unfold retainOthers
    split
    · rename_i hnil
      simp [hnil]
    · rename_i hnil
      simp [hnil]

theorem mem_names_update {op : SubscriptionOp} {names : List Bytes} {g : SubscriptionState} {side : Side} {n : Bytes} :
    n ∈ (updateSubscriptionState op.kind names g).names side ↔
      if side = op.side then if op.adds then n ∈ g.names side ∨ n ∈ names else names ≠ [] ∧ n ∈ g.names side ∧ n ∉ names
      else n ∈ g.names side := by
  rw [names_update]
  split
  · exact mem_apply
  · rfl

/-- no list holds a name twice -/
def SubscriptionState.Nodup (g : SubscriptionState) : Prop := ∀ side, (g.names side).Nodup

theorem nodup_empty : SubscriptionState.empty.Nodup := by
  intro side
  cases side <;> exact List.nodup_nil

theorem nodup_update {g : SubscriptionState} (h : g.Nodup) (op : SubscriptionOp) (names : List Bytes) :
    (updateSubscriptionState op.kind names g).Nodup := by
  intro side
  rw [names_update]
  split
  · exact nodup_apply (h side) op names
  · exact h side

/-- a command that succeeds is not a shard command -/
theorem side_of_ok {op : SubscriptionOp} {r : Except RedisError Unit} (h : opResult op r = .ok ()) :
    op.side ≠ .shardChannels := by
  cases op with
  | ssubscribe => cases h
  | sunsubscribe => cases h
  | _ => decide

theorem shard_update {g : SubscriptionState} {op : SubscriptionOp} (hop : op.side ≠ .shardChannels)
    (names : List Bytes) : (updateSubscriptionState op.kind names g).shardChannels = g.shardChannels := by
  have h := names_update op names g .shardChannels
  rwa [if_neg (Ne.symm hop)] at h

end RedisRsPy.PubSub
