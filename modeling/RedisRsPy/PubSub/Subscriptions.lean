/-
What a connection is subscribed to, as the Redis server keeps it, and the confirmations the server pushes.

The server works on sets of names, one name at a time, and pushes a confirmation after each: the name and the number of
channels and patterns the connection is subscribed to from then on. Without names, an unsubscribe goes through all names
of its set, in an order of the server's own, or is confirmed once when there are none. This is the abstract side of
`SubscriptionState`: the lists of the bridge stand for these sets.

Results:
- `sets_update`: after a successful command the recorded lists stand for the server's sets;
- `recorded_exact`: so after any sequence of them, and no list holds a name twice;
- `replies_sets`: whatever the server pushes for a command, its sets afterwards are `run`'s.
-/
import RedisRsPy.PubSub.Message
import Mathlib.Data.Finset.Card
import Mathlib.Data.List.Induction

namespace RedisRsPy.PubSub

/-! ## Sets of names -/

abbrev Subscriptions := Side → Finset Bytes

def Subscriptions.none : Subscriptions := fun _ => ∅

/-- the sets with those of one side replaced -/
def Subscriptions.set (s : Subscriptions) (side : Side) (names : Finset Bytes) : Subscriptions :=
  fun side' => if side' = side then names else s side'

@[simp] theorem set_same (s : Subscriptions) (side : Side) (names : Finset Bytes) : s.set side names side = names :=
  if_pos rfl

theorem set_other (s : Subscriptions) {side side' : Side} (h : side' ≠ side) (names : Finset Bytes) :
    s.set side names side' = s side' :=
  if_neg h

@[simp] theorem set_set (s : Subscriptions) (side : Side) (names names' : Finset Bytes) :
    (s.set side names).set side names' = s.set side names' := by
  funext side'
  unfold Subscriptions.set
  split <;> rfl

@[simp] theorem set_self (s : Subscriptions) (side : Side) : s.set side (s side) = s := by
  funext side'
  unfold Subscriptions.set
  split
  · rename_i h
    rw [h]
  · rfl

/-- one name of a command -/
def Subscriptions.process (op : SubscriptionOp) (s : Subscriptions) (n : Bytes) : Subscriptions :=
  s.set op.side (if op.adds then insert n (s op.side) else (s op.side).erase n)

/-- a command as a whole -/
def Subscriptions.run (op : SubscriptionOp) (names : List Bytes) (s : Subscriptions) : Subscriptions :=
  s.set op.side (if op.adds then s op.side ∪ names.toFinset
    else if names = [] then ∅ else s op.side \ names.toFinset)

theorem mem_run {op : SubscriptionOp} {names : List Bytes} {s : Subscriptions} {side : Side} {n : Bytes} :
    n ∈ s.run op names side ↔
      if side = op.side then if op.adds then n ∈ s side ∨ n ∈ names else names ≠ [] ∧ n ∈ s side ∧ n ∉ names
      else n ∈ s side := by
  unfold Subscriptions.run
  by_cases hside : side = op.side
  · subst hside
    rw [set_same, if_pos rfl]
    split
    · simp
    · split <;> simp_all
  · rw [set_other _ hside, if_neg hside]

theorem foldl_process (op : SubscriptionOp) (names : List Bytes) (s : Subscriptions) :
    names.foldl (Subscriptions.process op) s =
      s.set op.side (if op.adds then s op.side ∪ names.toFinset else s op.side \ names.toFinset) := by
  induction names generalizing s with
  | nil => simp
  | cons n ns ih =>
    rw [List.foldl_cons, ih]
    simp only [Subscriptions.process, set_same, set_set]
    congr 1
    split
    · ext m
      simp
    · ext m
      simp only [Finset.mem_sdiff, Finset.mem_erase, List.mem_toFinset, List.mem_cons, not_or]
      tauto

/-- the sets the recorded lists stand for -/
def SubscriptionState.sets (g : SubscriptionState) : Subscriptions := fun side => (g.names side).toFinset

@[simp] theorem sets_empty : SubscriptionState.empty.sets = Subscriptions.none := by
  funext side
  cases side <;> rfl

/-- **The record is the server's.** A successful command does to the recorded lists what it does to the sets. -/
theorem sets_update (op : SubscriptionOp) (names : List Bytes) (g : SubscriptionState) :
    (updateSubscriptionState op.kind names g).sets = g.sets.run op names := by
  funext side
  ext m
  simp only [mem_run, SubscriptionState.sets, List.mem_toFinset, mem_names_update]

/-! ## Any sequence of commands -/

/-- the commands of a sequence that the server took, with their names -/
abbrev Updates := List (SubscriptionOp × List Bytes)

/-- what `update_subscription_state` makes of them, from the empty record on -/
def recorded (updates : Updates) : SubscriptionState :=
  updates.foldl (fun g u => updateSubscriptionState u.1.kind u.2 g) .empty

/-- the subscriptions on all three sides -/
def Subscriptions.total (s : Subscriptions) : ℕ :=
  (s .channels).card + (s .patterns).card + (s .shardChannels).card

theorem recorded_concat (updates : Updates) (op : SubscriptionOp) (names : List Bytes) :
    recorded (updates ++ [(op, names)]) = updateSubscriptionState op.kind names (recorded updates) := by
  unfold recorded
  rw [List.foldl_append]
  rfl

theorem nodup_recorded (updates : Updates) : (recorded updates).Nodup := by
  induction updates using List.reverseRecOn with
  | nil => exact nodup_empty
  | append_singleton updates u ih =>
    rw [recorded_concat]
    exact nodup_update ih u.1 u.2

theorem sets_recorded (updates : Updates) :
    (recorded updates).sets = updates.foldl (fun s u => s.run u.1 u.2) Subscriptions.none := by
  induction updates using List.reverseRecOn with
  | nil => exact sets_empty
  | append_singleton updates u ih =>
    rw [recorded_concat, sets_update, ih, List.foldl_append]
    rfl

/-- without duplicates the lengths of the lists are the sizes of their sets -/
theorem subscriberCount_eq_total {g : SubscriptionState} (h : g.Nodup) : subscriberCount g = (g.sets.total : Int) := by
  have hcard : ∀ side, (g.sets side).card = (g.names side).length := fun side => List.toFinset_card_of_nodup (h side)
  unfold subscriberCount Subscriptions.total
  rw [hcard, hcard, hcard]
  rfl

/-- **The record is the exact fold.** After any sequence of commands that succeeded, no list holds a name twice, the lists
are the sets that Redis folds the sequence to, the count is that of the distinct subscriptions, and the next command
leaves the lists of the other sides alone. -/
theorem recorded_exact (updates : Updates) :
    (recorded updates).Nodup ∧
      (recorded updates).sets = updates.foldl (fun s u => s.run u.1 u.2) Subscriptions.none ∧
      subscriberCount (recorded updates) = ((recorded updates).sets.total : Int) ∧
      ∀ (op : SubscriptionOp) (names : List Bytes) (side : Side), side ≠ op.side →
        (updateSubscriptionState op.kind names (recorded updates)).names side = (recorded updates).names side := by
  refine ⟨nodup_recorded updates, sets_recorded updates, subscriberCount_eq_total (nodup_recorded updates), ?_⟩
  intro op names side hside
  rw [names_update, if_neg hside]

/-! ## Confirmations -/

/-- the number the server sends with a confirmation: channels and patterns -/
def Subscriptions.count (s : Subscriptions) : Int := ((s .channels).card + (s .patterns).card : ℕ)

/-- the confirmations for these names, one after the other -/
def pushes (op : SubscriptionOp) : Subscriptions → List Bytes → List PubSubMessage
  | _, [] => []
  | s, n :: ns => ⟨op.kind, none, n, .count (s.process op n).count⟩ :: pushes op (s.process op n) ns

@[simp] theorem length_pushes (op : SubscriptionOp) (s : Subscriptions) (names : List Bytes) :
    (pushes op s names).length = names.length := by
  induction names generalizing s with
  | nil => rfl
  | cons n ns ih => simp [pushes, ih]

/-- what the server may push for a command, and its sets afterwards; a name that is not there is sent as empty -/
inductive Replies (op : SubscriptionOp) (s : Subscriptions) : List Bytes → List PubSubMessage → Subscriptions → Prop
  | named {names : List Bytes} (h : names ≠ []) :
      Replies op s names (pushes op s names) (names.foldl (Subscriptions.process op) s)
  | nothing (hop : op.adds = false) (h : s op.side = ∅) : Replies op s [] [⟨op.kind, none, [], .count s.count⟩] s
  | all {order : List Bytes} (hop : op.adds = false) (h : s op.side = order.toFinset) (hnodup : order.Nodup)
      (hne : order ≠ []) : Replies op s [] (pushes op s order) (order.foldl (Subscriptions.process op) s)

theorem replies_sets {op : SubscriptionOp} {s s' : Subscriptions} {names : List Bytes} {out : List PubSubMessage}
    (h : Replies op s names out s') : s' = s.run op names := by
  cases h with
  | named h => simp [foldl_process, Subscriptions.run, h]
  | nothing hop h => simp [Subscriptions.run, hop, ← h]
  | all hop h => simp [foldl_process, Subscriptions.run, hop, h]

end RedisRsPy.PubSub
