/-
The confirmations of subscription commands: those the bridge makes up, and those the server pushes.

The bridge updates its record with the whole command first and then sends one confirmation per name, each with the
final count; for a command without names it sends one confirmation with an empty name. The server confirms name by name
with the count so far, and one by one all it was subscribed to where the command has no names.

Result (`confirmations_match_iff`): over any list of successful commands, what the bridge sends is something the server
could push if and only if, in each command, the names after the first change nothing any more, and each command without
names meets at most one subscription, under the empty name.
Witness (`two_channels`): subscribing to two channels is confirmed with 2 and 2; the server pushes 1 and 2.
-/
import RedisRsPy.Lib.Runs
import RedisRsPy.PubSub.Subscriptions

namespace RedisRsPy.PubSub

open Lib

/-! ## Commands that succeed -/

/-- a command the Python classes send and the sink can carry out -/
structure Command where
  op : SubscriptionOp
  names : List Bytes
  accepted : checkNames op names = none
  supported : op.side ≠ .shardChannels

/-- the success path of `handle_command`: the record afterwards -/
def SubscriptionState.recorded (g : SubscriptionState) (c : Command) : SubscriptionState :=
  updateSubscriptionState c.op.kind c.names g

/-- the success path of `handle_command`: the messages put on the outbound channel -/
def Command.confirmations (c : Command) (g : SubscriptionState) : List PubSubMessage :=
  emitSubscribeConfirmations c.op.kind c.names (subscriberCount (g.recorded c))

/-- the outbound channel over a list of commands -/
def confirmations : SubscriptionState → List Command → List PubSubMessage
  | _, [] => []
  | g, c :: cs => c.confirmations g ++ confirmations (g.recorded c) cs

/-- what a server may push over a list of commands -/
inductive Pushed : Subscriptions → List Command → List PubSubMessage → Prop
  | nil (s : Subscriptions) : Pushed s [] []
  | cons {s s' : Subscriptions} {c : Command} {cs : List Command} {out rest : List PubSubMessage}
      (h : Replies c.op s c.names out s') (hrest : Pushed s' cs rest) : Pushed s (c :: cs) (out ++ rest)

/-- the command's confirmations agree with the server's: after its first name all its names are settled; without names
there is nothing to unsubscribe but the empty name -/
def Agrees (g : SubscriptionState) (c : Command) : Prop :=
  match c.names with
  | [] => g.names c.op.side = [] ∨ g.names c.op.side = [[]]
  | n :: ns => ∀ m ∈ ns, m = n ∨ (m ∈ g.names c.op.side ↔ c.op.adds = true)

instance (g : SubscriptionState) (c : Command) : Decidable (Agrees g c) := by
  unfold Agrees
  split <;> infer_instance

/-! ## Counting -/

/-- a record whose length is the server's count -/
structure Counted (g : SubscriptionState) : Prop where
  nodup : g.Nodup
  shard : g.shardChannels = []

theorem counted_empty : Counted .empty := ⟨nodup_empty, rfl⟩

theorem counted_recorded {g : SubscriptionState} (h : Counted g) (c : Command) : Counted (g.recorded c) :=
  ⟨nodup_update h.nodup c.op c.names, by rw [SubscriptionState.recorded, shard_update c.supported, h.shard]⟩

theorem count_sets {g : SubscriptionState} (h : Counted g) : subscriberCount g = g.sets.count := by
  have hc : (g.sets .channels).card = g.channels.length := List.toFinset_card_of_nodup (h.nodup .channels)
  have hp : (g.sets .patterns).card = g.patterns.length := List.toFinset_card_of_nodup (h.nodup .patterns)
  simp [subscriberCount, Subscriptions.count, hc, hp, h.shard]

theorem count_set_inj {s : Subscriptions} {side : Side} (hside : side ≠ .shardChannels) {a b : Finset Bytes} :
    (s.set side a).count = (s.set side b).count ↔ a.card = b.card := by
  unfold Subscriptions.count
  rw [Int.natCast_inj]
  cases side with
  | channels => simp [Subscriptions.set]
  | patterns => simp [Subscriptions.set]
  | shardChannels => exact absurd rfl hside

/-! ## Named commands -/

/-- a name that is where the command wants it -/
def Settled (op : SubscriptionOp) (s : Subscriptions) (m : Bytes) : Prop := m ∈ s op.side ↔ op.adds = true

theorem process_settled {op : SubscriptionOp} {s : Subscriptions} {m : Bytes} (h : Settled op s m) :
    s.process op m = s := by
  unfold Subscriptions.process
  unfold Settled at h
  split
  · rename_i hadds
    rw [Finset.insert_eq_of_mem (h.2 hadds), set_self]
  · rename_i hadds
    rw [Finset.erase_eq_of_notMem fun hm => hadds (h.1 hm), set_self]

theorem settled_process {op : SubscriptionOp} {s : Subscriptions} {n m : Bytes} :
    Settled op (s.process op n) m ↔ m = n ∨ Settled op s m := by
  unfold Settled Subscriptions.process
  rw [set_same]
  cases op.adds with
  | true => simp
  | false =>
    simp
    tauto

theorem foldl_settled {op : SubscriptionOp} {s : Subscriptions} {names : List Bytes}
    (h : ∀ m ∈ names, Settled op s m) : names.foldl (Subscriptions.process op) s = s := by
  induction names with
  | nil => rfl
  | cons n ns ih =>
    rw [List.foldl_cons, process_settled (h n List.mem_cons_self)]
    exact ih fun m hm => h m (List.mem_cons_of_mem n hm)

/-- names that are settled are all confirmed with the same count -/
theorem pushes_settled {op : SubscriptionOp} {s : Subscriptions} {names : List Bytes}
    (h : ∀ m ∈ names, Settled op s m) : pushes op s names = names.map fun n => ⟨op.kind, none, n, .count s.count⟩ := by
  induction names with
  | nil => rfl
  | cons n ns ih =>
    rw [pushes, process_settled (h n List.mem_cons_self), ih fun m hm => h m (List.mem_cons_of_mem n hm), List.map_cons]

/-- the count stays the same over names only where they are settled -/
theorem settled_of_count {op : SubscriptionOp} (hside : op.side ≠ .shardChannels) {s : Subscriptions}
    {names : List Bytes} (h : s.count = (names.foldl (Subscriptions.process op) s).count) :
    ∀ m ∈ names, Settled op s m := by
  rw [foldl_process] at h
  nth_rewrite 1 [← set_self s op.side] at h
  rw [count_set_inj hside] at h
  unfold Settled
  intro m hm
  split at h
  · rename_i hadds
    have heq : s op.side = s op.side ∪ names.toFinset := Finset.eq_of_subset_of_card_le Finset.subset_union_left h.ge
    simp only [hadds, iff_true]
    rw [heq]
    exact Finset.mem_union_right _ (List.mem_toFinset.2 hm)
  · rename_i hadds
    have heq : s op.side \ names.toFinset = s op.side := Finset.eq_of_subset_of_card_le Finset.sdiff_subset h.le
    simp only [hadds]
    rw [← heq]
    simp [hm]

/-- one count for all names is what the server pushes where the names after the first are settled -/
theorem emit_named_iff {op : SubscriptionOp} (hside : op.side ≠ .shardChannels) {s : Subscriptions} {n : Bytes}
    {ns : List Bytes} :
    emitSubscribeConfirmations op.kind (n :: ns) ((n :: ns).foldl (Subscriptions.process op) s).count =
        pushes op s (n :: ns) ↔ ∀ m ∈ ns, Settled op (s.process op n) m := by
  constructor
  · intro h
    simp only [emitSubscribeConfirmations, pushes, reduceCtorEq, if_false, List.map_cons, List.cons.injEq,
      PubSubMessage.mk.injEq, PubSubData.count.injEq, List.foldl_cons] at h
    exact settled_of_count hside h.1.2.2.2.symm
  · intro h
    rw [List.foldl_cons, foldl_settled h, pushes, pushes_settled h]
    simp [emitSubscribeConfirmations]

theorem named_of_accepted {c : Command} (h : c.names = []) : c.op.adds = false := by
  have hacc := c.accepted
  rw [h] at hacc
  cases hop : c.op <;> simp_all [checkNames, SubscriptionOp.adds]

theorem run_of_sets {c : Command} {g : SubscriptionState} (h : c.names ≠ []) :
    (g.recorded c).sets = c.names.foldl (Subscriptions.process c.op) g.sets := by
  rw [SubscriptionState.recorded, sets_update, foldl_process]
  simp [Subscriptions.run, h]

theorem replies_named {op : SubscriptionOp} {s : Subscriptions} {names : List Bytes} {out : List PubSubMessage}
    (h : names ≠ []) : (∃ s', Replies op s names out s') ↔ out = pushes op s names := by
  constructor
  · rintro ⟨s', hr⟩
    cases hr with
    | named => rfl
    | nothing => exact absurd rfl h
    | all => exact absurd rfl h
  · rintro rfl
    exact ⟨_, .named h⟩

/-- a single confirmation of an unsubscribe without names, under the empty name -/
theorem replies_bare {op : SubscriptionOp} (hop : op.adds = false) {g : SubscriptionState} (hg : g.Nodup) :
    (∃ s', Replies op g.sets [] [⟨op.kind, none, [], .count (g.sets.set op.side ∅).count⟩] s') ↔
      g.names op.side = [] ∨ g.names op.side = [[]] := by
  constructor
  · rintro ⟨s', hr⟩
    generalize hout : [(⟨op.kind, none, [], .count (g.sets.set op.side ∅).count⟩ : PubSubMessage)] = out at hr
    cases hr with
    | named h => exact absurd rfl h
    | nothing _ h => exact .inl (List.toFinset_eq_empty_iff _ |>.1 h)
    | @all order _ h hnodup hne =>
      match order, hne with
      | [x], _ =>
        simp only [pushes, List.cons.injEq, PubSubMessage.mk.injEq] at hout
        obtain ⟨⟨-, -, rfl, -⟩, -⟩ := hout
        have hlen : (g.names op.side).length = 1 := by
          rw [← List.toFinset_card_of_nodup (hg op.side)]
          exact congrArg Finset.card h
        obtain ⟨y, hy⟩ := List.length_eq_one_iff.1 hlen
        have hmem : y ∈ g.sets op.side := by simp [SubscriptionState.sets, hy]
        rw [h] at hmem
        right
        rw [hy]
        simpa using hmem
      | x :: y :: order, _ => simp [pushes] at hout
  · rintro (h | h)
    · have hempty : g.sets op.side = ∅ := by simp [SubscriptionState.sets, h]
      have hsame : g.sets.set op.side ∅ = g.sets := by rw [← hempty, set_self]
      rw [hsame]
      exact ⟨_, .nothing hop hempty⟩
    · have hone : g.sets op.side = [[]].toFinset := by simp [SubscriptionState.sets, h]
      have hall := Replies.all hop hone (List.nodup_singleton _) (by simp)
      simp only [pushes, Subscriptions.process, hop, hone] at hall
      exact ⟨_, hall⟩

/-- **One command.** What the bridge sends for it is something the server could push -/
theorem replies_iff {g : SubscriptionState} (hg : Counted g) (c : Command) :
    (∃ s', Replies c.op g.sets c.names (c.confirmations g) s') ↔ Agrees g c := by
  have hcount := count_sets (counted_recorded hg c)
  unfold Command.confirmations Agrees
  rw [hcount]
  split
  · rename_i hnil
    have hop := named_of_accepted hnil
    have hsets : (g.recorded c).sets = g.sets.set c.op.side ∅ := by
      rw [SubscriptionState.recorded, sets_update]
      simp [Subscriptions.run, hop, hnil]
    rw [hsets, hnil, ← replies_bare hop hg.nodup]
    rfl
  · rename_i n ns hnames
    have hne : c.names ≠ [] := by simp [hnames]
    rw [replies_named hne, run_of_sets hne, hnames, emit_named_iff c.supported]
    refine forall₂_congr fun m _ => ?_
    rw [settled_process]
    simp [Settled, SubscriptionState.sets]

/-! ## Lists of commands -/

theorem pushed_cons {s : Subscriptions} {c : Command} {cs : List Command} {out : List PubSubMessage} :
    Pushed s (c :: cs) out ↔
      ∃ first rest s', out = first ++ rest ∧ Replies c.op s c.names first s' ∧ Pushed s' cs rest := by
  constructor
  · intro h
    cases h with
    | cons h hrest => exact ⟨_, _, _, rfl, h, hrest⟩
  · rintro ⟨first, rest, s', rfl, h, hrest⟩
    exact .cons h hrest

theorem sets_of_replies {g : SubscriptionState} {c : Command} {out : List PubSubMessage} {s' : Subscriptions}
    (h : Replies c.op g.sets c.names out s') : s' = (g.recorded c).sets := by
  rw [replies_sets h, SubscriptionState.recorded, sets_update]

/-- the bridge never sends more than the server -/
theorem length_confirmations {g : SubscriptionState} {c : Command} {out : List PubSubMessage} {s' : Subscriptions}
    (h : Replies c.op g.sets c.names out s') : (c.confirmations g).length ≤ out.length := by
  unfold Command.confirmations emitSubscribeConfirmations
  obtain ⟨op, names, hacc, hop⟩ := c
  cases h with
  | named h => simp [h]
  | nothing => simp
  | @all order _ _ _ hne =>
    have := List.length_pos_iff.2 hne
    simp
    omega

theorem length_pushed {g : SubscriptionState} {cs : List Command} {out : List PubSubMessage}
    (h : Pushed g.sets cs out) : (confirmations g cs).length ≤ out.length := by
  induction cs generalizing g out with
  | nil => exact Nat.zero_le _
  | cons c cs ih =>
    obtain ⟨first, rest, s', rfl, hr, hrest⟩ := pushed_cons.1 h
    rw [sets_of_replies hr] at hrest
    have hfirst := length_confirmations hr
    have := ih hrest
    simp only [confirmations, List.length_append]
    omega

theorem pushed_iff {g : SubscriptionState} (hg : Counted g) (cs : List Command) :
    Pushed g.sets cs (confirmations g cs) ↔ Along SubscriptionState.recorded Agrees g cs := by
  induction cs generalizing g with
  | nil => exact ⟨fun _ => trivial, fun _ => .nil _⟩
  | cons c cs ih =>
    have hnext := ih (counted_recorded hg c)
    rw [Along, ← hnext, ← replies_iff hg c]
    constructor
    · intro h
      obtain ⟨first, rest, s', heq, hr, hrest⟩ := pushed_cons.1 h
      cases sets_of_replies hr
      -- neither part of the server's output is shorter than the bridge's, so the parts are the same
      have hfirst := length_confirmations hr
      have hlater := length_pushed hrest
      have htotal := congrArg List.length heq
      simp only [confirmations, List.length_append] at htotal
      obtain ⟨rfl, rfl⟩ := List.append_inj heq (by omega)
      exact ⟨⟨_, hr⟩, hrest⟩
    · rintro ⟨⟨s', hr⟩, hrest⟩
      exact .cons hr (sets_of_replies hr ▸ hrest)

/-- **Fabricated confirmations.** Over any list of successful commands on a fresh bridge -/
theorem confirmations_match_iff (cs : List Command) :
    Pushed .none cs (confirmations .empty cs) ↔ Along SubscriptionState.recorded Agrees .empty cs := by
  rw [← sets_empty]
  exact pushed_iff counted_empty cs

/-- subscribing to two channels at once: the first confirmation carries 2, the server's 1 -/
theorem two_channels : ¬ ∀ cs, Pushed .none cs (confirmations .empty cs) := by
  intro h
  have hboth := h [⟨.subscribe, [[97], [98]], rfl, by decide⟩]
  rw [← sets_empty, pushed_iff counted_empty] at hboth
  exact absurd hboth (by decide)

end RedisRsPy.PubSub
