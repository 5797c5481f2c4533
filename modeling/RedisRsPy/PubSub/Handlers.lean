/-
Handlers: the calls that subscribe and unsubscribe, as Python makes them (`PubSub::subscribe` to `PubSub::sunsubscribe`
and the same six methods of `AsyncPubSub` in `facade/pubsub.rs`).

A call names channels or patterns by position, or by keyword with a handler. It coerces the names, edits the handler map of
its side while it does so, sends its command, and waits for the acknowledgement. The sync methods turn that into their
result; the async ones send it to an awaitable.

Results:
- `edit_eq_iff`: which calls leave the handler maps as they are;
- `failed_call_no_trace_iff`: a call that ends in an exception leaves no trace in the handler maps and in the record if
  and only if its edit changes nothing.
Witness (`failed_unsubscribe_drops_handler`): an `unsubscribe` under which the connection breaks drops the handler of a
channel that stays in the record.
-/
import RedisRsPy.Lib.Fallible
import RedisRsPy.PubSub.ReadYourWrites
import RedisRsPy.Text

namespace RedisRsPy.PubSub

open Lib Lib.Fallible

/-! ## Names and keywords -/

/-- what `coerce_name` sees of a Python object; a `str` with a lone surrogate has no UTF-8 form and is `other` -/
inductive PyName where
  | bytes (b : Bytes)
  | str (s : String)
  | other
deriving DecidableEq, Repr

/-- `coerce_name` -/
def coerceName : PyName → PyResult Bytes
  | .bytes b => .ok b
  | .str s => .ok (asBytes s)
  | .other => raise .DataError "channel/pattern names must be str or bytes"

/-- the key of a keyword argument: a `str`, none when it has no UTF-8 form -/
abbrev Keyword := Option String

def Keyword.name : Keyword → PyName
  | some s => .str s
  | none => .other

/-- keyword arguments: no keyword is given twice -/
structure Kwargs (η : Type) where
  items : List (Keyword × η)
  nodup : (items.filterMap (·.1)).Nodup

def Kwargs.empty {η : Type} : Kwargs η := ⟨[], List.nodup_nil⟩

/-! ## Handler maps -/

/-- `HashMap<Vec<u8>, Py<PyAny>>` -/
abbrev HandlerMap (η : Type) := Bytes → Option η

/-- `channel_handlers`, `pattern_handlers` and `shard_handlers` -/
abbrev Handlers (η : Type) := Side → HandlerMap η

variable {κ η : Type}

/-- the loop over the keyword arguments, which inserts a handler as soon as it has its name -/
def insertHandlers : List (Keyword × η) → HandlerMap η → HandlerMap η × PyResult (List Bytes)
  | [], h => (h, .ok [])
  | (k, v) :: rest, h =>
    match coerceName k.name with
    | .error e => (h, .error e)
    | .ok name =>
      let (h, names) := insertHandlers rest (Function.update h name (some v))
      (h, names.map (name :: ·))

/-- `if !names.is_empty() { for n in &names { h.remove(n); } } else { h.clear() }` -/
def removeHandlers (names : List Bytes) (h : HandlerMap η) : HandlerMap η :=
  if names = [] then fun _ => none else names.foldl (fun h n => Function.update h n none) h

/-! ## The object and its calls -/

/-- an object of `PubSub` or `AsyncPubSub`: the bridge with its supervisor, and the handler maps -/
structure PyPubSub (κ η : Type) where
  world : World κ
  handlers : Handlers η

def PyPubSub.setHandlers (ps : PyPubSub κ η) (side : Side) (h : HandlerMap η) : PyPubSub κ η :=
  { ps with handlers := Function.update ps.handlers side h }

/-- what the subscribing methods do before they send: the names to send -/
def PyPubSub.addNames (op : SubscriptionOp) (ps : PyPubSub κ η) (args : List PyName) (kwargs : Kwargs η) :
    PyPubSub κ η × PyResult (List Bytes) :=
  match args.mapM coerceName with
  | .error e => (ps, .error e)
  | .ok names =>
    let (h, more) := insertHandlers kwargs.items (ps.handlers op.side)
    (ps.setHandlers op.side h, do
      let names := names ++ (← more)
      match checkNames op names with
      | some msg => raise .DataError msg
      | none => .ok names)

/-- what the unsubscribing methods do before they send -/
def PyPubSub.removeNames (op : SubscriptionOp) (ps : PyPubSub κ η) (args : List PyName) :
    PyPubSub κ η × PyResult (List Bytes) :=
  match args.mapM coerceName with
  | .error e => (ps, .error e)
  | .ok names => (ps.setHandlers op.side (removeHandlers names (ps.handlers op.side)), .ok names)

/-- a call from Python; the shard methods drop their `target_node` -/
inductive Call (η : Type) where
  | subscribe (args : List PyName) (kwargs : Kwargs η)
  | unsubscribe (args : List PyName)
  | psubscribe (args : List PyName) (kwargs : Kwargs η)
  | punsubscribe (args : List PyName)
  | ssubscribe (args : List PyName) (kwargs : Kwargs η)
  | sunsubscribe (args : List PyName)

def Call.op : Call η → SubscriptionOp
  | .subscribe .. => .subscribe
  | .unsubscribe _ => .unsubscribe
  | .psubscribe .. => .psubscribe
  | .punsubscribe _ => .punsubscribe
  | .ssubscribe .. => .ssubscribe
  | .sunsubscribe _ => .sunsubscribe

def PyPubSub.prepare (ps : PyPubSub κ η) : Call η → PyPubSub κ η × PyResult (List Bytes)
  | .subscribe args kwargs => ps.addNames .subscribe args kwargs
  | .unsubscribe args => ps.removeNames .unsubscribe args
  | .psubscribe args kwargs => ps.addNames .psubscribe args kwargs
  | .punsubscribe args => ps.removeNames .punsubscribe args
  | .ssubscribe args kwargs => ps.addNames .ssubscribe args kwargs
  | .sunsubscribe args => ps.removeNames .sunsubscribe args

/-- `send_command` and `async_send_command` up to the wait: the number of the command that was sent -/
def sendCommand (w : World κ) (caller : κ) (op : SubscriptionOp) (names : List Bytes) : World κ × PyResult ℕ :=
  if w.isOpen = false then (w, raise .PubSubError "pubsub is closed")
  else if w.phase.isStopped = true then (w, raise .PubSubError "pubsub bridge has shut down")
  else (step w (.issue caller op names), .ok w.next)

/-- `ack_rx.await`, once it is over -/
def World.ackResult (w : World κ) (id : ℕ) : Option (Except String (Except String Unit)) :=
  match w.acks.find? fun a => decide (a.1.id = id) with
  | some (_, r) => some (.ok r)
  | none => if w.phase.isStopped then some (.error "ack channel dropped") else none

/-- what `send_command` returns -/
def syncResult : Except String (Except String Unit) → PyResult Unit
  | .ok (.ok ()) => .ok ()
  | .ok (.error e) => raise .PubSubError e
  | .error e => raise .PubSubError e

/-- what the task of `async_send_command` sends to the awaitable -/
def asyncResult : Except String (Except String Unit) → RawResult
  | .ok (.ok ()) => .nil
  | .ok (.error e) => .error .PubSubError e
  | .error e => .error .PubSubError e

/-- the method of `PubSub`, or that of `AsyncPubSub` with its awaitable awaited -/
inductive Facade where
  | sync
  | async
deriving DecidableEq, Repr

def Facade.result : Facade → Except String (Except String Unit) → PyResult Unit
  | .sync, ack => syncResult ack
  | .async, ack => (asyncResult ack).outcome.map fun _ => ()

/-- the call up to the wait -/
def PyPubSub.start (ps : PyPubSub κ η) (caller : κ) (c : Call η) : PyPubSub κ η × PyResult ℕ :=
  match ps.prepare c with
  | (ps, .error e) => (ps, .error e)
  | (ps, .ok names) =>
    let (w, id) := sendCommand ps.world caller c.op names
    ({ ps with world := w }, id)

/-- the call, with all that happens on the bridge until the caller looks at its result; none while it waits -/
def PyPubSub.call (facade : Facade) (ps : PyPubSub κ η) (caller : κ) (c : Call η) (meanwhile : List (Event κ)) :
    PyPubSub κ η × Option (PyResult Unit) :=
  match ps.start caller c with
  | (ps, .error e) => (ps, some (.error e))
  | (ps, .ok id) =>
    let w := run step ps.world meanwhile
    ({ ps with world := w }, (w.ackResult id).map facade.result)

/-- the handler the worker of `run_in_thread` calls for a message -/
def PyPubSub.handlerFor (ps : PyPubSub κ η) (msg : PyMessage) : Option η :=
  match msg.type, msg.pattern with
  | "message", _ => ps.handlers .channels msg.channel
  | "pmessage", some pattern => ps.handlers .patterns pattern
  | "smessage", _ => ps.handlers .shardChannels msg.channel
  | _, _ => none

/-! ## The edit of a call -/

/-- the call's edit of the handler maps changes nothing: a name by position is bad; or every keyword before the first bad
one has this handler already; or no channel to be unsubscribed has a handler -/
def Call.Harmless (c : Call η) (h : Handlers η) : Prop :=
  match c with
  | .subscribe args kwargs | .psubscribe args kwargs | .ssubscribe args kwargs =>
    .other ∈ args ∨
      ∀ s v, (some s, v) ∈ kwargs.items.takeWhile (·.1.isSome) → h c.op.side (asBytes s) = some v
  | .unsubscribe args | .punsubscribe args | .sunsubscribe args =>
    .other ∈ args ∨ (args = [] ∧ ∀ n, h c.op.side n = none) ∨
      (args ≠ [] ∧ ∀ a ∈ args, ∀ n, coerceName a = .ok n → h c.op.side n = none)

theorem coerceNames_error_iff {args : List PyName} :
    (∃ e, args.mapM coerceName = .error e) ↔ .other ∈ args := by
  induction args with
  | nil => simp [pure, Except.pure]
  | cons a args ih =>
    rw [List.mapM_cons, List.mem_cons, ← ih]
    cases a with
    | other => simp [coerceName, raise, bind, Except.bind]
    | _ => cases hrest : args.mapM coerceName <;> simp [coerceName, bind, Except.bind, pure, Except.pure]

/-- a name that no keyword gives keeps its handler -/
theorem insertHandlers_of_not_mem {items : List (Keyword × η)} {n : Bytes}
    (hn : ∀ s, some s ∈ items.map (·.1) → asBytes s ≠ n) (h : HandlerMap η) : (insertHandlers items h).1 n = h n := by
  induction items generalizing h with
  | nil => rfl
  | cons kv items ih =>
    obtain ⟨k, v⟩ := kv
    cases k with
    | none => rfl
    | some s =>
      have hs : n ≠ asBytes s := fun e => hn s (by simp) e.symm
      simp only [insertHandlers, Keyword.name, coerceName]
      rw [ih (fun s' hs' => hn s' (List.mem_cons_of_mem _ hs')), Function.update_of_ne hs]

theorem insertHandlers_eq_iff {items : List (Keyword × η)} (hnodup : (items.filterMap (·.1)).Nodup)
    (h : HandlerMap η) :
    (insertHandlers items h).1 = h ↔ ∀ s v, (some s, v) ∈ items.takeWhile (·.1.isSome) → h (asBytes s) = some v := by
  induction items generalizing h with
  | nil => simp [insertHandlers]
  | cons kv items ih =>
    obtain ⟨k, v⟩ := kv
    cases k with
    | none => simp [insertHandlers, Keyword.name, coerceName, raise]
    | some s =>
      obtain ⟨hs, hrest⟩ : s ∉ items.filterMap (·.1) ∧ (items.filterMap (·.1)).Nodup := by
        simpa [List.filterMap_cons] using hnodup
      have hfresh : ∀ s', some s' ∈ items.map (·.1) → asBytes s' ≠ asBytes s := by
        intro s' hs' he
        obtain rfl := asBytes_injective he
        obtain ⟨kv, hkv, hk⟩ := List.mem_map.1 hs'
        exact hs (List.mem_filterMap.2 ⟨kv, hkv, hk⟩)
      simp only [insertHandlers, Keyword.name, coerceName]
      constructor
      · intro heq
        have hv : h (asBytes s) = some v := by
          rw [← heq, insertHandlers_of_not_mem hfresh, Function.update_self]
        have hsame : Function.update h (asBytes s) (some v) = h := by rw [← hv, Function.update_eq_self]
        rw [hsame] at heq
        intro s' v' hmem
        rw [List.takeWhile_cons_of_pos rfl] at hmem
        rcases List.mem_cons.1 hmem with hhead | htail
        · cases hhead
          exact hv
        · exact (ih hrest h).1 heq s' v' htail
      · intro hall
        have hv : h (asBytes s) = some v := hall s v (by simp)
        have hsame : Function.update h (asBytes s) (some v) = h := by rw [← hv, Function.update_eq_self]
        rw [hsame]
        refine (ih hrest h).2 fun s' v' hmem => hall s' v' ?_
        rw [List.takeWhile_cons_of_pos rfl]
        exact List.mem_cons_of_mem _ hmem

theorem removeAll_apply (names : List Bytes) (h : HandlerMap η) (m : Bytes) :
    names.foldl (fun h n => Function.update h n none) h m = if m ∈ names then none else h m := by
  induction names generalizing h with
  | nil => rfl
  | cons n names ih =>
    rw [List.foldl_cons, ih]
    by_cases hm : m = n <;> simp [hm, Function.update]

theorem removeHandlers_eq_iff {names : List Bytes} {h : HandlerMap η} :
    removeHandlers names h = h ↔ (names = [] ∧ ∀ n, h n = none) ∨ (names ≠ [] ∧ ∀ n ∈ names, h n = none) := by
  unfold removeHandlers
  by_cases hnil : names = []
  · simp [hnil, funext_iff, eq_comm]
  · simp only [hnil, if_false, false_and, not_false_eq_true, true_and, false_or, ne_eq]
    rw [funext_iff]
    refine forall_congr' fun n => ?_
    rw [removeAll_apply]
    by_cases hn : n ∈ names <;> simp [hn, eq_comm]

theorem setHandlers_eq_iff {ps : PyPubSub κ η} {side : Side} {h : HandlerMap η} :
    (ps.setHandlers side h).handlers = ps.handlers ↔ h = ps.handlers side := by
  constructor
  · intro heq
    have hside : Function.update ps.handlers side h side = ps.handlers side := congrFun heq side
    rwa [Function.update_self] at hside
  · intro heq
    rw [PyPubSub.setHandlers, heq, Function.update_eq_self]

theorem coerceNames_ok {args : List PyName} {names : List Bytes} (h : args.mapM coerceName = .ok names) :
    .other ∉ args ∧ (names = [] ↔ args = []) := by
  have hgood : .other ∉ args := fun hbad => by
    obtain ⟨e, he⟩ := coerceNames_error_iff.2 hbad
    rw [h] at he
    cases he
  refine ⟨hgood, fun hnil => ?_, fun hnil => ?_⟩
  · refine List.eq_nil_iff_forall_not_mem.2 fun a ha => ?_
    have hname : ∃ n, coerceName a = .ok n := by
      cases a with
      | bytes b => exact ⟨b, rfl⟩
      | str s => exact ⟨asBytes s, rfl⟩
      | other => exact absurd ha hgood
    obtain ⟨n, hn⟩ := hname
    have hmem : n ∈ names := (mem_of_mapM h).2 ⟨a, ha, hn⟩
    rw [hnil] at hmem
    cases hmem
  · subst hnil
    cases h
    rfl

theorem addNames_eq_iff (ps : PyPubSub κ η) (op : SubscriptionOp) (args : List PyName) (kwargs : Kwargs η) :
    (ps.addNames op args kwargs).1.handlers = ps.handlers ↔ .other ∈ args ∨
      ∀ s v, (some s, v) ∈ kwargs.items.takeWhile (·.1.isSome) → ps.handlers op.side (asBytes s) = some v := by
  unfold PyPubSub.addNames
  cases hargs : args.mapM coerceName with
  | error e => exact iff_of_true rfl (.inl (coerceNames_error_iff.1 ⟨e, hargs⟩))
  | ok names =>
    rw [or_iff_right (coerceNames_ok hargs).1, ← insertHandlers_eq_iff kwargs.nodup]
    exact setHandlers_eq_iff

theorem removeNames_eq_iff (ps : PyPubSub κ η) (op : SubscriptionOp) (args : List PyName) :
    (ps.removeNames op args).1.handlers = ps.handlers ↔ .other ∈ args ∨
      (args = [] ∧ ∀ n, ps.handlers op.side n = none) ∨
        (args ≠ [] ∧ ∀ a ∈ args, ∀ n, coerceName a = .ok n → ps.handlers op.side n = none) := by
  unfold PyPubSub.removeNames
  cases hargs : args.mapM coerceName with
  | error e => exact iff_of_true rfl (.inl (coerceNames_error_iff.1 ⟨e, hargs⟩))
  | ok names =>
    obtain ⟨hgood, hnil⟩ := coerceNames_ok hargs
    have hall : (∀ n ∈ names, ps.handlers op.side n = none) ↔
        ∀ a ∈ args, ∀ n, coerceName a = .ok n → ps.handlers op.side n = none :=
      ⟨fun h a ha n hn => h n ((mem_of_mapM hargs).2 ⟨a, ha, hn⟩), fun h n hn => by
        obtain ⟨a, ha, hcoerce⟩ := (mem_of_mapM hargs).1 hn
        exact h a ha n hcoerce⟩
    simp only [or_iff_right hgood, setHandlers_eq_iff, removeHandlers_eq_iff, ne_eq, hnil, hall]

/-- **The edit of a call.** It changes no handler exactly where it is harmless -/
theorem edit_eq_iff (ps : PyPubSub κ η) (c : Call η) :
    (ps.prepare c).1.handlers = ps.handlers ↔ c.Harmless ps.handlers := by
  cases c with
  | subscribe args kwargs => exact addNames_eq_iff ps .subscribe args kwargs
  | unsubscribe args => exact removeNames_eq_iff ps .unsubscribe args
  | psubscribe args kwargs => exact addNames_eq_iff ps .psubscribe args kwargs
  | punsubscribe args => exact removeNames_eq_iff ps .punsubscribe args
  | ssubscribe args kwargs => exact addNames_eq_iff ps .ssubscribe args kwargs
  | sunsubscribe args => exact removeNames_eq_iff ps .sunsubscribe args

/-! ## The command of a call -/

theorem prepare_world (ps : PyPubSub κ η) (c : Call η) : (ps.prepare c).1.world = ps.world := by
  have hadd : ∀ op args (kwargs : Kwargs η), (ps.addNames op args kwargs).1.world = ps.world := by
    intro op args kwargs
    unfold PyPubSub.addNames
    split <;> rfl
  have hremove : ∀ op args, (ps.removeNames op args).1.world = ps.world := by
    intro op args
    unfold PyPubSub.removeNames
    split <;> rfl
  cases c with
  | subscribe | psubscribe | ssubscribe => exact hadd _ _ _
  | unsubscribe | punsubscribe | sunsubscribe => exact hremove _ _

theorem sendCommand_cases (w : World κ) (caller : κ) (op : SubscriptionOp) (names : List Bytes) :
    (∃ e, sendCommand w caller op names = (w, .error e)) ∨
      sendCommand w caller op names = (step w (.issue caller op names), .ok w.next) := by
  unfold sendCommand
  split
  · exact .inl ⟨_, rfl⟩
  · split
    · exact .inl ⟨_, rfl⟩
    · exact .inr rfl

/-- a call leaves the handler maps as its edit has left them. It ends at once with an exception, or its command is in the
world, and its acknowledgement is the result -/
theorem call_spec (facade : Facade) (ps : PyPubSub κ η) (caller : κ) (c : Call η) (meanwhile : List (Event κ)) :
    (∃ e, ps.call facade caller c meanwhile = (⟨ps.world, (ps.prepare c).1.handlers⟩, some (.error e))) ∨
      ∃ names, ps.call facade caller c meanwhile =
        (⟨run step ps.world (.issue caller c.op names :: meanwhile), (ps.prepare c).1.handlers⟩,
          ((run step ps.world (.issue caller c.op names :: meanwhile)).ackResult ps.world.next).map facade.result) := by
  have hworld := prepare_world ps c
  unfold PyPubSub.call PyPubSub.start
  rcases hprep : ps.prepare c with ⟨⟨w, h⟩, e | names⟩
  all_goals
    rw [hprep] at hworld
    obtain rfl : w = ps.world := hworld
  · exact .inl ⟨e, rfl⟩
  · rcases sendCommand_cases ps.world caller c.op names with ⟨e, he⟩ | hsent
    · simp only [he]
      exact .inl ⟨e, rfl⟩
    · simp only [hsent]
      exact .inr ⟨names, rfl⟩

/-- the log only grows -/
theorem log_step (w : World κ) (e : Event κ) : ∃ others, (step w e).log = w.log ++ others := by
  have hmove := step_cases w e
  generalize step w e = w' at hmove
  cases hmove with
  | @serve r fate hphase hfate =>
    unfold World.serve
    cases opResult r.op fate.result with
    | ok => exact ⟨[r], rfl⟩
    | error => exact ⟨[], (List.append_nil _).symm⟩
  | @finish r result hphase =>
    refine ⟨[], ?_⟩
    cases result <;> simp [World.finish]
  | _ => exact ⟨[], (List.append_nil _).symm⟩

theorem log_run (w : World κ) (l : List (Event κ)) : ∃ others, (run step w l).log = w.log ++ others := by
  induction l generalizing w with
  | nil => exact ⟨[], (List.append_nil _).symm⟩
  | cons e l ih =>
    obtain ⟨first, hfirst⟩ := log_step w e
    obtain ⟨rest, hrest⟩ := ih (step w e)
    exact ⟨first ++ rest, by rw [run_cons, hrest, hfirst, List.append_assoc]⟩

/-- the record, once it is settled, is what the commands of the log have made of it -/
theorem settledSubs_eq {w : World κ} (h : Logged w) : w.settledSubs = recordOf w.log := by
  unfold World.settledSubs
  cases hpending : w.pending with
  | none => exact h.settled hpending
  | some r =>
    obtain ⟨before, hlog, hsubs⟩ := h.pending r hpending
    rw [hlog, recordOf_snoc, hsubs]

@[simp] theorem facade_result_ok (facade : Facade) : facade.result (.ok (.ok ())) = .ok () := by
  cases facade <;> rfl

theorem find_ack {acks : List (Request κ × Except String Unit)} (hnodup : (acks.map (·.1.id)).Nodup)
    {a : Request κ × Except String Unit} (ha : a ∈ acks) : acks.find? (fun b => decide (b.1.id = a.1.id)) = some a := by
  induction acks with
  | nil => cases ha
  | cons b acks ih =>
    obtain ⟨hfresh, hrest⟩ := List.nodup_cons.1 hnodup
    rcases List.mem_cons.1 ha with rfl | htail
    · simp
    · have hne : b.1.id ≠ a.1.id := fun he => hfresh (List.mem_map.2 ⟨a, htail, he.symm⟩)
      rw [List.find?_cons_of_neg (by simpa using hne)]
      exact ih hrest htail

/-- the acknowledgement of a command that succeeded is the one its caller gets -/
theorem ackResult_of_acknowledged {w : World κ} (h : Logged w) {r : Request κ} (hr : r ∈ acknowledged w.acks) :
    w.ackResult r.id = some (.ok (.ok ())) := by
  obtain ⟨⟨r', result⟩, hmem, hok⟩ := List.mem_filterMap.1 hr
  cases result with
  | error => cases hok
  | ok =>
    obtain rfl := Option.some.inj hok
    have hfind := find_ack (List.nodup_append.1 h.nodup).1 hmem
    simp only [World.ackResult, hfind]

/-- the command the supervisor has not acknowledged gives its caller nothing yet -/
theorem ackResult_of_unacked {w : World κ} (h : Logged w) {r : Request κ} (hr : r ∈ w.phase.unacked) :
    w.ackResult r.id = none := by
  have hphase : w.phase = .served r (.ok ()) := by
    revert hr
    unfold Phase.unacked
    split
    · rename_i hphase
      intro hr
      rw [hphase, List.mem_singleton.1 hr]
    · intro hr
      cases hr
  have hnodup := (List.nodup_append.1 h.nodup).2.2
  have hfind : w.acks.find? (fun a => decide (a.1.id = r.id)) = none := by
    refine List.find?_eq_none.2 fun a ha => ?_
    have hne := hnodup a.1.id (List.mem_map.2 ⟨a, ha, rfl⟩) r.id (by simp [hphase, Phase.inHand])
    simpa using hne
  simp only [World.ackResult, hfind, hphase]
  rfl

/-- a command whose caller sees an exception is not in the log -/
theorem not_logged_of_error {w : World κ} (h : Logged w) {facade : Facade} {id : ℕ} {e : Fault}
    (herr : (w.ackResult id).map facade.result = some (.error e)) : ∀ r ∈ w.log, r.id ≠ id := by
  rintro r hr rfl
  rw [h.log, List.mem_append] at hr
  rcases hr with hr | hr
  · rw [ackResult_of_acknowledged h hr, Option.map_some, facade_result_ok] at herr
    cases herr
  · rw [ackResult_of_unacked h hr] at herr
    cases herr

/-! ## No trace -/

/-- nothing is left of a call that sent its command, if it did, under this number: the handler maps are as before, so
`run_in_thread` finds the same handler for every message, and the record has only changed by other commands -/
structure NoTrace (ps ps' : PyPubSub κ η) (id : ℕ) : Prop where
  handlers : ps'.handlers = ps.handlers
  handlerFor : ∀ msg, ps'.handlerFor msg = ps.handlerFor msg
  subs : ∃ others : List (Request κ), (∀ r ∈ others, r.id ≠ id) ∧
    ps'.world.settledSubs = others.foldl SubscriptionState.after ps.world.settledSubs

/-- a call that ends in an exception leaves nothing in the record -/
theorem failed_call_subs {ps : PyPubSub κ η} (h : Logged ps.world) {facade : Facade} {caller : κ} {c : Call η}
    {meanwhile : List (Event κ)} {e : Fault} (herr : (ps.call facade caller c meanwhile).2 = some (.error e)) :
    ∃ others : List (Request κ), (∀ r ∈ others, r.id ≠ ps.world.next) ∧
      (ps.call facade caller c meanwhile).1.world.settledSubs =
        others.foldl SubscriptionState.after ps.world.settledSubs := by
  rcases call_spec facade ps caller c meanwhile with ⟨e', hcall⟩ | ⟨names, hcall⟩
  · rw [hcall]
    exact ⟨[], fun _ hr => (nomatch hr), rfl⟩
  · rw [hcall] at herr ⊢
    obtain ⟨others, hlog⟩ := log_run ps.world (.issue caller c.op names :: meanwhile)
    have hlogged := run_invariant' logged_step (.issue caller c.op names :: meanwhile) h
    refine ⟨others, fun r hr => not_logged_of_error hlogged herr r ?_, ?_⟩
    · rw [hlog]
      exact List.mem_append_right _ hr
    · calc (run step ps.world (.issue caller c.op names :: meanwhile)).settledSubs
          = recordOf (ps.world.log ++ others) := by rw [settledSubs_eq hlogged, hlog]
        _ = others.foldl SubscriptionState.after (recordOf ps.world.log) := List.foldl_append
        _ = others.foldl SubscriptionState.after ps.world.settledSubs := by rw [settledSubs_eq h]

/-- **Failed calls leave no trace.** In every state a run reaches, whatever happens until the call is over, a call of any
of the twelve methods that ends in an exception leaves no trace if and only if its edit of the handler maps is harmless. -/
theorem failed_call_no_trace_iff (facade : Facade) (ps : PyPubSub κ η) (before : List (Event κ))
    (hreach : ps.world = run step .start before) (caller : κ) (c : Call η) (meanwhile : List (Event κ)) (e : Fault)
    (herr : (ps.call facade caller c meanwhile).2 = some (.error e)) :
    NoTrace ps (ps.call facade caller c meanwhile).1 ps.world.next ↔ c.Harmless ps.handlers := by
  have hlogged : Logged ps.world := hreach ▸ run_invariant' logged_step before logged_start
  have hhandlers : (ps.call facade caller c meanwhile).1.handlers = (ps.prepare c).1.handlers := by
    rcases call_spec facade ps caller c meanwhile with ⟨e', hcall⟩ | ⟨names, hcall⟩ <;> rw [hcall]
  rw [← edit_eq_iff, ← hhandlers]
  refine ⟨NoTrace.handlers, fun hsame => ⟨hsame, fun msg => ?_, failed_call_subs hlogged herr⟩⟩
  unfold PyPubSub.handlerFor
  rw [hsame]

/-- a new object, as `pubsub()` returns it -/
def PyPubSub.new : PyPubSub κ η := ⟨.start, fun _ _ => none⟩

/-- an object after `subscribe(a=handler)` has succeeded -/
def subscribedToA : PyPubSub ℕ ℕ :=
  (PyPubSub.new.call .sync 0 (.subscribe [] ⟨[(some "a", 7)], List.nodup_singleton _⟩)
    [.take, .serve .ok, .ack, .finish]).1

/-- the connection breaks under the UNSUBSCRIBE -/
def breaks : List (Event ℕ) := [.take, .serve (.lost false ⟨.io, none, false, true, false, "broken pipe"⟩), .ack, .finish]

theorem failed_call_no_trace_iff_subscribed :
    NoTrace subscribedToA (subscribedToA.call .sync 0 (.unsubscribe [.other]) breaks).1 1 ↔
      (Call.unsubscribe [.other]).Harmless subscribedToA.handlers :=
  failed_call_no_trace_iff .sync subscribedToA [.issue 0 .subscribe [[97]], .take, .serve .ok, .ack, .finish] rfl 0
    (.unsubscribe [.other]) breaks (.raised ⟨.DataError, "channel/pattern names must be str or bytes"⟩) rfl

/-- `unsubscribe("a")` fails, "a" stays in the record, and its handler is gone -/
theorem failed_unsubscribe_drops_handler :
    ¬ ∀ (facade : Facade) (ps : PyPubSub ℕ ℕ) (before : List (Event ℕ)), ps.world = run step .start before →
      ∀ (caller : ℕ) (c : Call ℕ) (meanwhile : List (Event ℕ)) (e : Fault),
        (ps.call facade caller c meanwhile).2 = some (.error e) →
          NoTrace ps (ps.call facade caller c meanwhile).1 ps.world.next := by
  intro h
  have htrace := h .sync subscribedToA [.issue 0 .subscribe [[97]], .take, .serve .ok, .ack, .finish] rfl 0
    (.unsubscribe [.bytes [97]]) breaks (.raised ⟨.PubSubError, "broken pipe"⟩) rfl
  have hkept := congrFun (congrFun htrace.handlers .channels) [97]
  exact absurd hkept (by decide)

end RedisRsPy.PubSub
