/-
The thread of `run_in_thread` (`facade/pubsub.rs`): it takes messages with `get_message`, without confirmations, looks up
the handler of each and calls it.

A move of the thread is one step of its loop: the check of `running`, a `recv` of `get_message` or its timeout, the
lookup, the return of a handler or of the exception handler. Between two moves the supervisor goes on, other threads
subscribe and unsubscribe (which edits the handler maps), call `stop` or `close`, or take messages themselves. `close`
borrows the object mutably, so it fails while the thread is inside `get_message`.

Result (`worker_serves`), for every run from the start of the thread:
- its handler calls are of messages it took, once each and in the order it took them; it takes the messages in the order
  they were sent, and none is left out where it is the only consumer;
- without edits it calls the handler of every message that has one, and every name `run_in_thread` found recorded has one;
- with an exception handler each exception is given to it, and none ends the thread; without, the first one does, so
  that it meets no second one;
- once `running` is cleared it calls at most one more handler.
-/
import RedisRsPy.PubSub.Handlers
import RedisRsPy.PubSub.Ordering

namespace RedisRsPy.PubSub.Worker

open Lib

variable {κ η : Type}

/-- where the thread is -/
inductive Point (η : Type) where
  | top
  /-- inside `get_message` -/
  | receiving
  | dispatch (msg : PyMessage)
  | calling (h : η) (msg : PyMessage)
  /-- inside the exception handler -/
  | reporting (e : Fault)
  | ended (res : PyResult Unit)

structure Thread (κ η : Type) where
  ps : PyPubSub κ η
  /-- messages that have left the outbound channel -/
  read : ℕ
  running : Bool
  /-- an `exception_handler` was given -/
  exceptionHandler : Bool
  point : Point η
  /-- what `get_message` took, confirmations included -/
  received : List PubSubMessage
  calls : List (η × PyMessage)
  /-- the exceptions the exception handler was called with -/
  reported : List Fault

/-- the thread as `run_in_thread` starts it, with so many messages still in the channel -/
def start (ps : PyPubSub κ η) (unread : ℕ) (exceptionHandler : Bool) : Thread κ η :=
  ⟨ps, ps.world.out.length - unread, true, exceptionHandler, .top, [], [], []⟩

inductive Event (κ η : Type) where
  /-- the supervisor, a caller, or `close` -/
  | bridge (e : PubSub.Event κ)
  /-- a call that subscribes or unsubscribes, up to its wait -/
  | call (caller : κ) (c : Call η)
  /-- another consumer takes a message -/
  | other
  | stop
  /-- the thread moves; `result` is what a handler came to -/
  | move (result : Except Fault Unit)

def closedMsg : String := "pubsub is closed"

/-- an exception of `get_message` or of a handler -/
def Thread.raised (t : Thread κ η) (e : Fault) : Thread κ η :=
  if t.exceptionHandler then { t with point := .reporting e, reported := t.reported ++ [e] }
  else { t with point := .ended (.error e) }

/-- one step of the loop -/
def Thread.move (t : Thread κ η) (result : Except Fault Unit) : Thread κ η :=
  match t.point with
  | .top =>
    if t.running = false then { t with point := .ended (.ok ()) }
    else if t.ps.world.isOpen then { t with point := .receiving }
    else t.raised (.raised ⟨.PubSubError, closedMsg⟩)
  | .receiving =>
    match t.ps.world.out[t.read]? with
    | some msg =>
      { t with
        read := t.read + 1
        received := t.received ++ [msg]
        point := if skips true msg then .receiving else .dispatch msg.intoPyDict }
    -- the timeout, or a channel without a sender
    | none => { t with point := .top }
  | .dispatch msg =>
    match t.ps.handlerFor msg with
    | some h => { t with point := .calling h msg, calls := t.calls ++ [(h, msg)] }
    | none => { t with point := .top }
  | .calling _ _ =>
    match result with
    | .ok () => { t with point := .top }
    | .error e => t.raised e
  | .reporting _ => { t with point := .top }
  | .ended _ => t

def step (t : Thread κ η) : Event κ η → Thread κ η
  | .bridge .close =>
    match t.point with
    | .receiving => t
    | _ => { t with ps := { t.ps with world := PubSub.step t.ps.world .close } }
  | .bridge e => { t with ps := { t.ps with world := PubSub.step t.ps.world e } }
  | .call caller c => { t with ps := (t.ps.start caller c).1 }
  | .other => if t.read < t.ps.world.out.length then { t with read := t.read + 1 } else t
  | .stop => { t with running := false }
  | .move result => t.move result

/-! ## Exceptions -/

/-- the exception the loop meets: `get_message` on a closed object, or a handler that raises -/
def Thread.meets (t : Thread κ η) : Event κ η → Option Fault
  | .move result =>
    match t.point with
    | .top => if t.running = true ∧ t.ps.world.isOpen = false then some (.raised ⟨.PubSubError, closedMsg⟩) else none
    | .calling _ _ =>
      match result with
      | .ok () => none
      | .error e => some e
    | _ => none
  | _ => none

/-- the exceptions a run meets, in order -/
def exceptions : Thread κ η → List (Event κ η) → List Fault
  | _, [] => []
  | t, e :: l => (t.meets e).toList ++ exceptions (step t e) l

theorem exceptions_snoc (t : Thread κ η) (l : List (Event κ η)) (e : Event κ η) :
    exceptions t (l ++ [e]) = exceptions t l ++ ((run step t l).meets e).toList := by
  induction l generalizing t with
  | nil => exact List.append_nil _
  | cons e' l ih => rw [List.cons_append, exceptions, ih, exceptions, List.append_assoc, run_cons]

/-! ## What the thread has taken -/

/-- the messages for Python that it took -/
def Thread.visible (t : Thread κ η) : List PyMessage :=
  (t.received.filter fun m => !skips true m).map PubSubMessage.intoPyDict

/-- the message it has taken and not looked up -/
def Point.inHand : Point η → List PyMessage
  | .dispatch msg => [msg]
  | _ => []

/-- what is left to call once `running` is cleared -/
def Point.left : Point η → ℕ
  | .receiving | .dispatch _ => 1
  | _ => 0

/-- the call of a message, with these handlers -/
def callOf (ps : PyPubSub κ η) (msg : PyMessage) : Option (η × PyMessage) := (ps.handlerFor msg).map fun h => (h, msg)

/-- a step of the thread, or of somebody else who leaves it where it is -/
theorem step_cases (t : Thread κ η) (e : Event κ η) :
    (∃ result, e = .move result ∧ step t e = t.move result) ∨
      t.meets e = none ∧ (step t e).point = t.point ∧ (step t e).received = t.received ∧ (step t e).calls = t.calls ∧
        (step t e).reported = t.reported ∧ (step t e).exceptionHandler = t.exceptionHandler ∧
        ((step t e).running = true → t.running = true) := by
  cases e with
  | move result => exact .inl ⟨result, rfl, rfl⟩
  | bridge e =>
    right
    cases e with
    | close =>
      simp only [step]
      split <;> exact ⟨rfl, rfl, rfl, rfl, rfl, rfl, id⟩
    | _ => exact ⟨rfl, rfl, rfl, rfl, rfl, rfl, id⟩
  | call caller c => exact .inr ⟨rfl, rfl, rfl, rfl, rfl, rfl, id⟩
  | other =>
    right
    simp only [step]
    split_ifs <;> exact ⟨rfl, rfl, rfl, rfl, rfl, rfl, id⟩
  | stop => exact .inr ⟨rfl, rfl, rfl, rfl, rfl, rfl, fun h => by cases h⟩

/-- what a move can do, with the exception it meets -/
inductive Moves (t : Thread κ η) : Option Fault → Thread κ η → Prop
  | finished (hpoint : t.point = .top) (hrunning : t.running = false) : Moves t none { t with point := .ended (.ok ()) }
  | receive (hpoint : t.point = .top) (hrunning : t.running = true) : Moves t none { t with point := .receiving }
  | skip {msg : PubSubMessage} (hpoint : t.point = .receiving) (hmsg : t.ps.world.out[t.read]? = some msg)
      (hskips : skips true msg = true) :
      Moves t none { t with read := t.read + 1, received := t.received ++ [msg], point := .receiving }
  | take {msg : PubSubMessage} (hpoint : t.point = .receiving) (hmsg : t.ps.world.out[t.read]? = some msg)
      (hskips : skips true msg = false) :
      Moves t none { t with
        read := t.read + 1, received := t.received ++ [msg], point := .dispatch msg.intoPyDict }
  | elapse (hpoint : t.point = .receiving) : Moves t none { t with point := .top }
  | call {msg : PyMessage} {h : η} (hpoint : t.point = .dispatch msg) (hhandler : t.ps.handlerFor msg = some h) :
      Moves t none { t with point := .calling h msg, calls := t.calls ++ [(h, msg)] }
  | drop {msg : PyMessage} (hpoint : t.point = .dispatch msg) (hhandler : t.ps.handlerFor msg = none) :
      Moves t none { t with point := .top }
  | returned {msg : PyMessage} {h : η} (hpoint : t.point = .calling h msg) : Moves t none { t with point := .top }
  | report (e : Fault) (hpoint : t.point.inHand = [] ∧ ∀ res, t.point ≠ .ended res)
      (hhandler : t.exceptionHandler = true) :
      Moves t (some e) { t with point := .reporting e, reported := t.reported ++ [e] }
  | die (e : Fault) (hpoint : t.point.inHand = [] ∧ ∀ res, t.point ≠ .ended res)
      (hhandler : t.exceptionHandler = false) :
      Moves t (some e) { t with point := .ended (.error e) }
  | reported {e : Fault} (hpoint : t.point = .reporting e) : Moves t none { t with point := .top }
  | still {res : PyResult Unit} (hpoint : t.point = .ended res) : Moves t none t

theorem raised_moves {t : Thread κ η} (e : Fault) (hpoint : t.point.inHand = [] ∧ ∀ res, t.point ≠ .ended res) :
    Moves t (some e) (t.raised e) := by
  unfold Thread.raised
  split_ifs with h
  · exact .report e hpoint h
  · exact .die e hpoint (by simpa using h)

theorem move_cases (t : Thread κ η) (result : Except Fault Unit) :
    Moves t (t.meets (.move result)) (t.move result) := by
  unfold Thread.meets Thread.move
  cases hpoint : t.point with
  | top =>
    dsimp only
    by_cases hrunning : t.running = false
    · rw [if_neg (by simp [hrunning]), if_pos hrunning]
      exact .finished hpoint hrunning
    rw [if_neg hrunning]
    by_cases hopen : t.ps.world.isOpen = true
    · rw [if_neg (by simp [hopen]), if_pos hopen]
      exact .receive hpoint (by simpa using hrunning)
    · rw [if_pos ⟨by simpa using hrunning, by simpa using hopen⟩, if_neg hopen]
      exact raised_moves _ (by simp [hpoint, Point.inHand])
  | receiving =>
    dsimp only
    split
    · rename_i msg hmsg
      split_ifs with hskips
      · exact .skip hpoint hmsg hskips
      · exact .take hpoint hmsg (by simpa using hskips)
    · exact .elapse hpoint
  | dispatch msg =>
    dsimp only
    split
    · rename_i h hhandler
      exact .call hpoint hhandler
    · rename_i hhandler
      exact .drop hpoint hhandler
  | calling h msg =>
    cases result with
    | ok => exact .returned hpoint
    | error e => exact raised_moves e (by simp [hpoint, Point.inHand])
  | reporting e => exact .reported hpoint
  | ended res => exact .still hpoint

/-! ## Calls are messages, in order -/

/-- the calls are of the messages taken before the one in hand -/
def Ordered (t : Thread κ η) : Prop :=
  ∃ looked, t.visible = looked ++ t.point.inHand ∧ (t.calls.map Prod.snd).Sublist looked

theorem visible_skip {t t' : Thread κ η} {msg : PubSubMessage} (h : t'.received = t.received ++ [msg])
    (hskips : skips true msg = true) : t'.visible = t.visible := by
  simp [Thread.visible, h, hskips]

theorem visible_take {t t' : Thread κ η} {msg : PubSubMessage} (h : t'.received = t.received ++ [msg])
    (hskips : skips true msg = false) : t'.visible = t.visible ++ [msg.intoPyDict] := by
  simp [Thread.visible, h, hskips]

/-- without a message in hand nothing is left to look up -/
theorem Ordered.of_idle {t t' : Thread κ η} (h : Ordered t) (hreceived : t'.received = t.received)
    (hcalls : t'.calls = t.calls) (hpoint : t.point.inHand = []) (hpoint' : t'.point.inHand = []) : Ordered t' := by
  obtain ⟨looked, hvisible, hsub⟩ := h
  refine ⟨looked, ?_, by rwa [hcalls]⟩
  rw [hpoint', ← hpoint, ← hvisible, Thread.visible, Thread.visible, hreceived]

theorem ordered_step (t : Thread κ η) (e : Event κ η) (h : Ordered t) : Ordered (step t e) := by
  rcases step_cases t e with ⟨result, -, hmove⟩ | ⟨-, hpoint, hreceived, hcalls, -, -, -⟩
  swap
  · obtain ⟨looked, hvisible, hsub⟩ := h
    refine ⟨looked, ?_, by rwa [hcalls]⟩
    rw [hpoint, ← hvisible, Thread.visible, Thread.visible, hreceived]
  rw [hmove]
  have hmoves := move_cases t result
  generalize t.meets (.move result) = met at hmoves
  generalize t.move result = t' at hmoves
  cases hmoves with
  | @skip msg hpoint hmsg hskips =>
    obtain ⟨looked, hvisible, hsub⟩ := h
    refine ⟨looked, ?_, hsub⟩
    rw [visible_skip (t := t) rfl hskips, hvisible, hpoint]
  | @take msg hpoint hmsg hskips =>
    obtain ⟨looked, hvisible, hsub⟩ := h
    refine ⟨looked, ?_, hsub⟩
    rw [visible_take (t := t) rfl hskips, hvisible, hpoint]
    simp [Point.inHand]
  | @call msg h' hpoint hhandler =>
    obtain ⟨looked, hvisible, hsub⟩ := h
    refine ⟨looked ++ [msg], ?_, ?_⟩
    · show t.visible = looked ++ [msg] ++ []
      simpa [hpoint, Point.inHand] using hvisible
    · rw [List.map_append]
      exact hsub.append (List.Sublist.refl _)
  | @drop msg hpoint hhandler =>
    obtain ⟨looked, hvisible, hsub⟩ := h
    refine ⟨looked ++ [msg], ?_, hsub.trans (List.sublist_append_left _ _)⟩
    show t.visible = looked ++ [msg] ++ []
    simpa [hpoint, Point.inHand] using hvisible
  | finished hpoint | receive hpoint | elapse hpoint | returned hpoint | reported hpoint =>
    exact h.of_idle rfl rfl (by rw [hpoint]; rfl) rfl
  | report e hpoint | die e hpoint => exact h.of_idle rfl rfl hpoint.1 rfl
  | still => exact h

/-! ## Every message is dispatched -/

/-- no other thread edits the handler maps -/
def Event.quiet : Event κ η → Bool
  | .call _ _ => false
  | _ => true

/-- no other consumer takes a message -/
def Event.alone : Event κ η → Bool
  | .other => false
  | _ => true

/-- the calls are those of all messages taken before the one in hand -/
structure Dispatched (ps : PyPubSub κ η) (t : Thread κ η) : Prop where
  handlers : t.ps.handlers = ps.handlers
  calls : ∃ looked, t.visible = looked ++ t.point.inHand ∧ t.calls = looked.filterMap (callOf ps)

theorem callOf_congr {ps ps' : PyPubSub κ η} (h : ps'.handlers = ps.handlers) (msg : PyMessage) :
    callOf ps' msg = callOf ps msg := by
  simp only [callOf, PyPubSub.handlerFor, h]

theorem dispatched_move {ps : PyPubSub κ η} {t : Thread κ η} (h : Dispatched ps t) (result : Except Fault Unit) :
    Dispatched ps (t.move result) := by
  obtain ⟨hhandlers, looked, hvisible, hcalls⟩ := h
  have hmoves := move_cases t result
  generalize t.meets (.move result) = met at hmoves
  generalize t.move result = t' at hmoves
  -- a move that takes and looks up nothing
  have hidle : ∀ {t' : Thread κ η}, t'.ps = t.ps → t'.received = t.received → t'.calls = t.calls →
      t.point.inHand = [] → t'.point.inHand = [] → Dispatched ps t' := by
    intro t' hps hreceived hcalls' hpoint hpoint'
    refine ⟨by rw [hps, hhandlers], looked, ?_, by rw [hcalls', hcalls]⟩
    rw [hpoint', ← hpoint, ← hvisible, Thread.visible, Thread.visible, hreceived]
  cases hmoves with
  | @skip msg hpoint hmsg hskips =>
    refine ⟨hhandlers, looked, ?_, hcalls⟩
    rw [visible_skip (t := t) rfl hskips, hvisible, hpoint]
  | @take msg hpoint hmsg hskips =>
    refine ⟨hhandlers, looked, ?_, hcalls⟩
    rw [visible_take (t := t) rfl hskips, hvisible, hpoint]
    simp [Point.inHand]
  | @call msg h' hpoint hhandler =>
    have hcall : callOf ps msg = some (h', msg) := by
      rw [← callOf_congr hhandlers, callOf, hhandler]
      rfl
    refine ⟨hhandlers, looked ++ [msg], ?_, ?_⟩
    · show t.visible = looked ++ [msg] ++ []
      simpa [hpoint, Point.inHand] using hvisible
    · simp [hcalls, hcall]
  | @drop msg hpoint hhandler =>
    have hcall : callOf ps msg = none := by
      rw [← callOf_congr hhandlers, callOf, hhandler]
      rfl
    refine ⟨hhandlers, looked ++ [msg], ?_, ?_⟩
    · show t.visible = looked ++ [msg] ++ []
      simpa [hpoint, Point.inHand] using hvisible
    · simp [hcalls, hcall]
  | finished hpoint | receive hpoint | elapse hpoint | returned hpoint | reported hpoint =>
    exact hidle rfl rfl rfl (by rw [hpoint]; rfl) rfl
  | report e hpoint | die e hpoint => exact hidle rfl rfl rfl hpoint.1 rfl
  | still => exact ⟨hhandlers, looked, hvisible, hcalls⟩

theorem dispatched_step {ps : PyPubSub κ η} (t : Thread κ η) (e : Event κ η) (h : Dispatched ps t)
    (he : e.quiet = true) : Dispatched ps (step t e) := by
  rcases step_cases t e with ⟨result, -, hmove⟩ | ⟨-, hpoint, hreceived, hcalls, -, -, -⟩
  · rw [hmove]
    exact dispatched_move h result
  · obtain ⟨hhandlers, looked, hvisible, hlooked⟩ := h
    refine ⟨?_, looked, ?_, by rw [hcalls, hlooked]⟩
    · rw [← hhandlers]
      cases e with
      | call => cases he
      | bridge e =>
        cases e with
        | close =>
          simp only [step]
          split <;> rfl
        | _ => rfl
      | other =>
        simp only [step]
        split_ifs <;> rfl
      | move result =>
        have hmoves := move_cases t result
        simp only [step]
        generalize t.meets (.move result) = met at hmoves
        generalize t.move result = t' at hmoves
        cases hmoves <;> rfl
      | stop => rfl
    · rw [hpoint, ← hvisible, Thread.visible, Thread.visible, hreceived]

/-! ## Messages are taken in order -/

/-- what the thread took is what was sent from `read` on, up to what is still in the channel -/
structure Fifo (read : ℕ) (t : Thread κ η) : Prop where
  bound : t.read ≤ t.ps.world.out.length
  start : read ≤ t.read
  taken : t.ps.world.out.drop read = t.received ++ t.ps.world.out.drop t.read

/-- the outbound channel only grows -/
theorem out_step (w : World κ) (e : PubSub.Event κ) : ∃ more, (PubSub.step w e).out = w.out ++ more := by
  have hmove := PubSub.step_cases w e
  generalize PubSub.step w e = w' at hmove
  cases hmove with
  | read => exact ⟨_, rfl⟩
  | @finish r result hphase =>
    cases result with
    | ok => exact ⟨_, rfl⟩
    | error => exact ⟨[], (List.append_nil _).symm⟩
  | _ => exact ⟨[], (List.append_nil _).symm⟩

theorem out_start (ps : PyPubSub κ η) (caller : κ) (c : Call η) :
    ∃ more, (ps.start caller c).1.world.out = ps.world.out ++ more := by
  have hworld := prepare_world ps c
  unfold PyPubSub.start
  split
  · rename_i hprepare
    rw [hprepare] at hworld
    exact ⟨[], by rw [hworld, List.append_nil]⟩
  · rename_i ps' names hprepare
    rw [hprepare] at hworld
    rcases sendCommand_cases ps'.world caller c.op names with ⟨e, he⟩ | hsent
    · simp only [he]
      exact ⟨[], by rw [hworld, List.append_nil]⟩
    · simp only [hsent]
      rw [← hworld]
      exact out_step _ _

/-- messages are sent meanwhile -/
theorem Fifo.grow {read : ℕ} {t t' : Thread κ η} (h : Fifo read t) (hread : t'.read = t.read)
    (hreceived : t'.received = t.received) {more : List PubSubMessage}
    (hout : t'.ps.world.out = t.ps.world.out ++ more) : Fifo read t' := by
  refine ⟨?_, hread ▸ h.start, ?_⟩
  · rw [hout, hread, List.length_append]
    exact h.bound.trans (Nat.le_add_right _ _)
  · rw [hout, hread, hreceived, List.drop_append_of_le_length (h.start.trans h.bound),
      List.drop_append_of_le_length h.bound, h.taken, List.append_assoc]

/-- a message is taken -/
theorem Fifo.take {read : ℕ} {t t' : Thread κ η} (h : Fifo read t) {msg : PubSubMessage}
    (hmsg : t.ps.world.out[t.read]? = some msg) (hread : t'.read = t.read + 1)
    (hreceived : t'.received = t.received ++ [msg]) (hps : t'.ps = t.ps) : Fifo read t' := by
  obtain ⟨hlt, hget⟩ := List.getElem?_eq_some_iff.1 hmsg
  refine ⟨by rw [hread, hps]; exact hlt, by rw [hread]; exact Nat.le_succ_of_le h.start, ?_⟩
  rw [hps, hread, hreceived, h.taken, List.drop_eq_getElem_cons hlt, hget, List.append_assoc]
  rfl

theorem fifo_step {read : ℕ} (t : Thread κ η) (e : Event κ η) (h : Fifo read t) (he : e.alone = true) :
    Fifo read (step t e) := by
  cases e with
  | bridge e =>
    cases e with
    | close =>
      simp only [step]
      split
      · exact h
      · obtain ⟨more, hout⟩ := out_step t.ps.world .close
        exact h.grow rfl rfl hout
    | _ =>
      obtain ⟨more, hout⟩ := out_step t.ps.world _
      exact h.grow rfl rfl hout
  | call caller c =>
    obtain ⟨more, hout⟩ := out_start t.ps caller c
    exact h.grow rfl rfl hout
  | other => cases he
  | stop => exact ⟨h.bound, h.start, h.taken⟩
  | move result =>
    have hmoves := move_cases t result
    simp only [step]
    generalize t.meets (.move result) = met at hmoves
    generalize t.move result = t' at hmoves
    cases hmoves with
    | skip hpoint hmsg => exact h.take hmsg rfl rfl rfl
    | take hpoint hmsg => exact h.take hmsg rfl rfl rfl
    | _ => exact ⟨h.bound, h.start, h.taken⟩

/-! ## Exceptions and `stop` -/

/-- what the exceptions it has met do to a thread with, and without, an exception handler -/
structure Guarded (exceptionHandler : Bool) (met : List Fault) (t : Thread κ η) : Prop where
  same : t.exceptionHandler = exceptionHandler
  survives : exceptionHandler = true → t.reported = met ∧ ∀ e, t.point ≠ .ended (.error e)
  /-- there is none, or the first one has ended the thread -/
  dies : exceptionHandler = false → t.reported = [] ∧
    (met = [] ∧ (∀ e, t.point ≠ .ended (.error e)) ∨ ∃ e, met = [e] ∧ t.point = .ended (.error e))
  /-- it ends without an exception only when `running` is cleared -/
  stopped : t.point = .ended (.ok ()) → t.running = false

/-- nothing is met, and the thread goes on -/
theorem Guarded.go {b : Bool} {met : List Fault} {t t' : Thread κ η} (h : Guarded b met t)
    (hhandler : t'.exceptionHandler = t.exceptionHandler) (hreported : t'.reported = t.reported)
    (hpoint : ∀ res, t.point ≠ .ended res) (hpoint' : ∀ e, t'.point ≠ .ended (.error e))
    (hstopped : t'.point = .ended (.ok ()) → t'.running = false) : Guarded b met t' where
  same := hhandler.trans h.same
  survives hb := ⟨hreported.trans (h.survives hb).1, hpoint'⟩
  dies hb := by
    obtain ⟨hnone, ⟨hmet, -⟩ | ⟨e, -, hended⟩⟩ := h.dies hb
    · exact ⟨hreported.trans hnone, .inl ⟨hmet, hpoint'⟩⟩
    · exact absurd hended (hpoint _)
  stopped := hstopped

theorem guarded_step {b : Bool} {met : List Fault} (t : Thread κ η) (e : Event κ η) (h : Guarded b met t) :
    Guarded b (met ++ (t.meets e).toList) (step t e) := by
  rcases step_cases t e with ⟨result, rfl, hmove⟩ | ⟨hmeets, hpoint, -, -, hreported, hhandler, hrunning⟩
  swap
  · rw [hmeets, Option.toList_none, List.append_nil]
    refine ⟨hhandler.trans h.same, fun hb => ?_, fun hb => ?_, fun hended => ?_⟩
    · rw [hpoint, hreported]
      exact h.survives hb
    · rw [hpoint, hreported]
      exact h.dies hb
    · have hstopped := h.stopped (hpoint ▸ hended)
      by_contra hrun
      rw [hrunning (by simpa using hrun)] at hstopped
      cases hstopped
  rw [hmove]
  have hmoves := move_cases t result
  generalize t.meets (.move result) = e at hmoves
  generalize t.move result = t' at hmoves
  cases hmoves with
  | report e hpoint hhandler =>
    have hb : b = true := h.same.symm.trans hhandler
    refine ⟨h.same, fun _ => ⟨congrArg (· ++ [e]) (h.survives hb).1, fun _ he => (nomatch he)⟩, fun hb' => ?_,
      fun he => (nomatch he)⟩
    rw [hb] at hb'
    cases hb'
  | die e hpoint hhandler =>
    have hb : b = false := h.same.symm.trans hhandler
    refine ⟨h.same, fun hb' => ?_, fun _ => ?_, fun he => (nomatch he)⟩
    · rw [hb] at hb'
      cases hb'
    · obtain ⟨hnone, ⟨rfl, -⟩ | ⟨e', -, hended⟩⟩ := h.dies hb
      · exact ⟨hnone, .inr ⟨e, rfl, rfl⟩⟩
      · exact absurd hended (hpoint.2 _)
  | still => rwa [Option.toList_none, List.append_nil]
  | finished hpoint hrunning =>
    rw [Option.toList_none, List.append_nil]
    exact h.go rfl rfl (fun res he => by rw [hpoint] at he; cases he) (fun _ he => (nomatch he)) fun _ => hrunning
  | receive hpoint | skip hpoint | take hpoint | elapse hpoint | call hpoint | drop hpoint | returned hpoint
  | reported hpoint =>
    rw [Option.toList_none, List.append_nil]
    exact h.go rfl rfl (fun res he => by rw [hpoint] at he; cases he) (fun _ he => (nomatch he)) fun he => (nomatch he)

/-- **Exceptions over a run** -/
theorem guarded_run (ps : PyPubSub κ η) (unread : ℕ) (exceptionHandler : Bool) (l : List (Event κ η)) :
    Guarded exceptionHandler (exceptions (start ps unread exceptionHandler) l)
      (run step (start ps unread exceptionHandler) l) := by
  induction l using List.reverseRecOn with
  | nil => exact ⟨rfl, fun _ => ⟨rfl, fun _ he => (nomatch he)⟩, fun _ => ⟨rfl, .inl ⟨rfl, fun _ he => (nomatch he)⟩⟩,
      fun he => (nomatch he)⟩
  | append_singleton l e ih =>
    rw [exceptions_snoc, run_snoc]
    exact guarded_step _ e ih

/-- what a thread still calls once `running` is cleared -/
structure Stopping (n : ℕ) (t : Thread κ η) : Prop where
  running : t.running = false
  bound : t.calls.length + t.point.left ≤ n

theorem stopping_step {n : ℕ} (t : Thread κ η) (e : Event κ η) (h : Stopping n t) : Stopping n (step t e) := by
  obtain ⟨hstopped, hbound⟩ := h
  rcases step_cases t e with ⟨result, -, hmove⟩ | ⟨-, hpoint, -, hcalls, -, -, hrunning⟩
  swap
  · refine ⟨?_, by rwa [hpoint, hcalls]⟩
    by_contra hrun
    rw [hrunning (by simpa using hrun)] at hstopped
    cases hstopped
  rw [hmove]
  have hmoves := move_cases t result
  generalize t.meets (.move result) = met at hmoves
  generalize t.move result = t' at hmoves
  cases hmoves with
  | receive hpoint hrunning =>
    rw [hstopped] at hrunning
    cases hrunning
  | skip hpoint | take hpoint =>
    refine ⟨hstopped, ?_⟩
    rw [hpoint] at hbound
    exact hbound
  | call hpoint =>
    refine ⟨hstopped, ?_⟩
    rw [hpoint] at hbound
    simpa [Point.left] using hbound
  | still => exact ⟨hstopped, hbound⟩
  | _ => exact ⟨hstopped, (Nat.le_add_right _ _).trans hbound⟩

theorem left_le_one (p : Point η) : p.left ≤ 1 := by
  cases p <;> simp [Point.left]

/-! ## The names `run_in_thread` has checked -/

/-- the handler of a message of the stream is that of its channel or pattern -/
theorem callOf_forward (ps : PyPubSub κ η) (msg : Msg) :
    callOf ps (forwardMessage msg).intoPyDict =
      (ps.handlers msg.topic.1 msg.topic.2).map fun h => (h, (forwardMessage msg).intoPyDict) := by
  obtain ⟨channel, payload, pattern⟩ := msg
  cases pattern <;> rfl

theorem skips_forward (msg : Msg) : skips true (forwardMessage msg) = false := by
  obtain ⟨channel, payload, pattern⟩ := msg
  cases pattern <;> rfl

/-- `run_in_thread` has found a handler for every recorded name; `keys` are the keys of the handler maps -/
def Validated (ps : PyPubSub κ η) (lossy : Bytes → String) : Prop :=
  ∃ keys : Side → List Bytes, (∀ side n, n ∈ keys side ↔ (ps.handlers side n).isSome = true) ∧
    ps.world.validate lossy (keys .channels) (keys .patterns) (keys .shardChannels) = .ok ()

theorem handler_of_validated {ps : PyPubSub κ η} {lossy : Bytes → String} (h : Validated ps lossy) {side : Side}
    {n : Bytes} (hn : n ∈ ps.world.subs.names side) : (ps.handlers side n).isSome = true := by
  obtain ⟨keys, hkeys, hvalid⟩ := h
  obtain ⟨g, hopen, hchannels, hpatterns, hshard⟩ := validate_ok_iff.1 hvalid
  have hg : g = ps.world.subs := by
    unfold World.observed at hopen
    split_ifs at hopen
    exact (Option.some.inj hopen).symm
  rw [← hkeys]
  rw [← hg] at hn
  cases side with
  | channels => exact hchannels n hn
  | patterns => exact hpatterns n hn
  | shardChannels => exact hshard n hn

/-! ## The thread over a run -/

/-- what holds of a thread on `ps` after the events `l` -/
structure Serves (ps : PyPubSub κ η) (unread : ℕ) (exceptionHandler : Bool) (l : List (Event κ η)) (t : Thread κ η) :
    Prop where
  /-- the calls are of messages it took, each once, in order -/
  ordered : Ordered t
  /-- alone, it takes every message, in the order they were sent -/
  fifo : (∀ e ∈ l, e.alone = true) → Fifo (ps.world.out.length - unread) t
  /-- without edits, every message with a handler is given to it -/
  dispatched : (∀ e ∈ l, e.quiet = true) → Dispatched ps t
  /-- and a message of a name that `run_in_thread` has checked has one -/
  validated : (∀ e ∈ l, e.quiet = true) → ∀ lossy, Validated ps lossy → ∀ msg : Msg, forwardMessage msg ∈ t.received →
    msg.topic.2 ∈ ps.world.subs.names msg.topic.1 → (forwardMessage msg).intoPyDict ∉ t.point.inHand →
    ∃ h, ps.handlers msg.topic.1 msg.topic.2 = some h ∧ (h, (forwardMessage msg).intoPyDict) ∈ t.calls
  guarded : Guarded exceptionHandler (exceptions (start ps unread exceptionHandler) l) t
  /-- once `running` is cleared, at most one more handler is called -/
  stops : t.running = false → ∀ l', (run step t l').calls.length ≤ t.calls.length + 1

theorem validated_dispatched {ps : PyPubSub κ η} {t : Thread κ η} (h : Dispatched ps t) {lossy : Bytes → String}
    (hvalid : Validated ps lossy) {msg : Msg} (hmem : forwardMessage msg ∈ t.received)
    (hname : msg.topic.2 ∈ ps.world.subs.names msg.topic.1)
    (hhand : (forwardMessage msg).intoPyDict ∉ t.point.inHand) :
    ∃ h, ps.handlers msg.topic.1 msg.topic.2 = some h ∧ (h, (forwardMessage msg).intoPyDict) ∈ t.calls := by
  obtain ⟨handler, hhandler⟩ := Option.isSome_iff_exists.1 (handler_of_validated hvalid hname)
  obtain ⟨looked, hvisible, hcalls⟩ := h.calls
  have hvis : (forwardMessage msg).intoPyDict ∈ t.visible :=
    List.mem_map_of_mem (List.mem_filter.2 ⟨hmem, by simp [skips_forward]⟩)
  rw [hvisible, List.mem_append] at hvis
  refine ⟨handler, hhandler, ?_⟩
  rw [hcalls]
  refine List.mem_filterMap.2 ⟨_, hvis.resolve_right hhand, ?_⟩
  rw [callOf_forward, hhandler]
  rfl

end RedisRsPy.PubSub.Worker
