/-
Iterating over a pub/sub object: `PubSub.__next__` and `AsyncPubSub.__anext__` (`facade/pubsub.rs`).

Both iterators take messages from the outbound channel and skip what is not for Python. `__next__` waits for a message
as long as it takes. `__anext__` calls `aget_message` without a timeout, which means one of a millisecond there: when it
runs out, or when the sender side is gone, the awaitable resolves to None instead of waiting or ending the iteration.

Two objects, one of each kind, meet the same messages, shutdowns and turns.

Result (`async_refines_iff`): over any run, the async iterator yields what the sync one yields, never None, and ends
exactly when the sender side is gone and the queue is empty, if and only if no turn of a waiting call finds the queue
empty and the sender side gone or the timeout over.
Witness (`yields_none`): no message comes within a millisecond.
-/
import RedisRsPy.Lib.Runs
import RedisRsPy.PubSub.Message

namespace RedisRsPy.PubSub.Iteration

open Lib

/-! ## One object -/

/-- what an iteration gives its loop: a message dict, None, or its end -/
inductive Yield where
  | item (dict : PyMessage)
  | none
  | stop
deriving DecidableEq, Repr

/-- the iterator between two calls, in a call, and after its end -/
inductive Phase where
  | idle
  | waiting
  | ended
deriving DecidableEq, Repr

/-- a pub/sub object, as its iterator sees it: whether it has its bridge, whether the sender of the outbound channel is
gone, the messages in the channel, and everything the iteration has yielded -/
structure Consumer where
  isOpen : Bool
  gone : Bool
  queue : List PubSubMessage
  phase : Phase
  yields : List Yield
deriving DecidableEq

def Consumer.new : Consumer := ⟨true, false, [], .idle, []⟩

/-- a closed object that is in no call has dropped the bridge, and with it the channel -/
def Consumer.release (c : Consumer) : Consumer :=
  if c.isOpen || decide (c.phase = .waiting) then c else { c with gone := true, queue := [] }

/-- a message of the supervisor -/
def Consumer.arrive (c : Consumer) (m : PubSubMessage) : Consumer :=
  if c.gone then c else { c with queue := c.queue ++ [m] }

/-- the supervisor has returned -/
def Consumer.down (c : Consumer) : Consumer := { c with gone := true }

/-- `close` and `aclose`; a call that is waiting keeps the bridge alive -/
def Consumer.close (c : Consumer) : Consumer := { c with isOpen := false }.release

/-- the call returns, and gives up its hold on the bridge -/
def Consumer.yield (c : Consumer) (y : Yield) (phase : Phase) : Consumer :=
  { c with phase := phase, yields := c.yields ++ [y] }.release

/-- a waiting call takes a message -/
def Consumer.receive (c : Consumer) (ignore : Bool) (m : PubSubMessage) (rest : List PubSubMessage) : Consumer :=
  if skips ignore m then { c with queue := rest } else { c with queue := rest }.yield (.item m.intoPyDict) .idle

/-! ## The two iterators -/

/-- a turn of `__next__`: the call, or one look at the channel -/
def Consumer.next (ignore : Bool) (c : Consumer) : Consumer :=
  match c.phase with
  | .idle => if c.isOpen then { c with phase := .waiting } else c.yield .stop .ended
  | .waiting =>
    match c.queue with
    | m :: rest => c.receive ignore m rest
    | [] => if c.gone then c.yield .stop .ended else c
  | .ended => c

/-- one look at the channel by the task of `aget_message`; `late` says that the timeout, if there is one, is over -/
def Consumer.agetMessage (ignore : Bool) (timeout : Option Float) (late : Bool) (c : Consumer) : Consumer :=
  match c.queue with
  | m :: rest => c.receive ignore m rest
  | [] => if c.gone || ((timeoutDuration timeout).isSome && late) then c.yield .none .idle else c

/-- a turn of `__anext__`: the call, or one look at the channel by its task -/
def Consumer.anext (ignore late : Bool) (c : Consumer) : Consumer :=
  match c.phase with
  | .idle => if c.isOpen then { c with phase := .waiting } else c.yield .stop .ended
  | .waiting => c.agetMessage ignore none late
  | .ended => c

/-! ## Both on the same events -/

structure World where
  sync : Consumer
  async : Consumer
deriving DecidableEq

def World.start : World := ⟨.new, .new⟩

inductive Event where
  | arrive (m : PubSubMessage)
  | down
  | close
  | turn (late : Bool)
deriving DecidableEq

def step (ignore : Bool) (w : World) : Event → World
  | .arrive m => ⟨w.sync.arrive m, w.async.arrive m⟩
  | .down => ⟨w.sync.down, w.async.down⟩
  | .close => ⟨w.sync.close, w.async.close⟩
  | .turn late => ⟨w.sync.next ignore, w.async.anext ignore late⟩

/-- the sender side is gone and the queue is drained -/
def Consumer.Exhausted (c : Consumer) : Prop := c.gone = true ∧ c.queue = []

instance (c : Consumer) : Decidable c.Exhausted := inferInstanceAs (Decidable (_ ∧ _))

/-- after the step the async iterator has yielded what the sync one has, and never None; it has ended only where nothing
more can come, and does end there; it waits while there is nothing and something can come -/
structure Refines (ignore : Bool) (w : World) (e : Event) : Prop where
  same : (step ignore w e).async.yields = (step ignore w e).sync.yields
  item : .none ∉ (step ignore w e).async.yields
  ended : (step ignore w e).async.phase = .ended → (step ignore w e).async.Exhausted
  ends : ∀ late, e = .turn late → w.async.phase = .waiting → w.async.Exhausted →
    (step ignore w e).async.phase = .ended
  waits : ∀ late, e = .turn late → w.async.phase = .waiting → w.async.queue = [] → w.async.gone = false →
    (step ignore w e).async.phase = .waiting

/-- the turn of a waiting call does not find the queue empty and the sender side gone or the timeout over -/
def Delivers (w : World) (e : Event) : Prop :=
  match e with
  | .turn late => w.async.phase = .waiting → w.async.queue = [] → w.async.gone = false ∧ late = false
  | _ => True

instance (w : World) (e : Event) : Decidable (Delivers w e) := by
  unfold Delivers
  split <;> infer_instance

/-! ## One object keeps -/

structure Sound (c : Consumer) : Prop where
  item : .none ∉ c.yields
  ended : c.phase = .ended → c.Exhausted
  closed : c.isOpen = false → c.phase ≠ .waiting → c.Exhausted

theorem sound_new : Sound .new :=
  ⟨fun h => (nomatch h), fun h => (nomatch h), fun h => (nomatch h)⟩

/-- releasing the bridge, where the iteration has ended only on a closed object or an empty channel -/
theorem sound_release {c : Consumer} (hitem : .none ∉ c.yields)
    (hended : c.phase = .ended → c.isOpen = false ∨ c.Exhausted) : Sound c.release := by
  unfold Consumer.release
  split
  · rename_i h
    refine ⟨hitem, fun hp => ?_, fun hopen hp => ?_⟩
    · refine (hended hp).resolve_left fun hopen => ?_
      simp [hopen, hp] at h
    · simp [hopen, hp] at h
  · exact ⟨hitem, fun _ => ⟨rfl, rfl⟩, fun _ _ => ⟨rfl, rfl⟩⟩

theorem sound_yield {c : Consumer} (hitem : .none ∉ c.yields) {y : Yield} (hy : y ≠ .none) {phase : Phase}
    (hphase : phase = .ended → c.isOpen = false ∨ c.Exhausted) : Sound (c.yield y phase) := by
  refine sound_release ?_ hphase
  simpa [Ne.symm hy] using hitem

theorem sound_arrive {c : Consumer} (h : Sound c) (m : PubSubMessage) : Sound (c.arrive m) := by
  unfold Consumer.arrive
  split
  · exact h
  · rename_i hgone
    exact ⟨h.item, fun hp => absurd (h.ended hp).1 hgone, fun hopen hp => absurd (h.closed hopen hp).1 hgone⟩

theorem sound_down {c : Consumer} (h : Sound c) : Sound c.down :=
  ⟨h.item, fun hp => ⟨rfl, (h.ended hp).2⟩, fun hopen hp => ⟨rfl, (h.closed hopen hp).2⟩⟩

theorem sound_close {c : Consumer} (h : Sound c) : Sound c.close :=
  sound_release h.item fun _ => .inl rfl

theorem sound_receive {c : Consumer} (h : Sound c) (hphase : c.phase = .waiting) (ignore : Bool) (m : PubSubMessage)
    (rest : List PubSubMessage) : Sound (c.receive ignore m rest) := by
  unfold Consumer.receive
  split
  · exact ⟨h.item, fun hp => absurd (hphase.symm.trans hp) (by decide), fun _ hp => absurd hphase hp⟩
  · have hnext : Phase.idle ≠ .ended := by decide
    exact sound_yield (c := { c with queue := rest }) h.item Yield.noConfusion fun hp => absurd hp hnext

theorem sound_next {c : Consumer} (h : Sound c) (ignore : Bool) : Sound (c.next ignore) := by
  unfold Consumer.next
  split
  · split
    · rename_i hopen
      exact ⟨h.item, fun hp => (nomatch hp), fun hclosed => absurd (hclosed.symm.trans hopen) (by decide)⟩
    · rename_i hopen
      exact sound_yield h.item (by simp) fun _ => .inl (by simpa using hopen)
  · rename_i hphase
    split
    · exact sound_receive h hphase ignore _ _
    · rename_i hqueue
      split
      · rename_i hgone
        exact sound_yield h.item (by simp) fun _ => .inr ⟨hgone, hqueue⟩
      · exact h
  · exact h

/-! ## Both keep together -/

/-- the two iterators stand at the same point -/
structure Together (w : World) : Prop where
  same : w.async = w.sync
  sound : Sound w.sync

/-- a turn that does not give up is the same for both -/
theorem anext_eq_next {c : Consumer} {ignore late : Bool}
    (h : c.phase = .waiting → c.queue = [] → c.gone = false ∧ late = false) : c.anext ignore late = c.next ignore := by
  unfold Consumer.anext Consumer.next
  split
  · rfl
  · rename_i hphase
    unfold Consumer.agetMessage
    split
    · rfl
    · rename_i hqueue
      obtain ⟨hgone, rfl⟩ := h hphase hqueue
      simp [hgone]
  · rfl

theorem together_step (ignore : Bool) (w : World) (e : Event) (h : Together w) (hd : Delivers w e) :
    Together (step ignore w e) := by
  obtain ⟨hsame, hsound⟩ := h
  cases e with
  | arrive m => exact ⟨congrArg (Consumer.arrive · m) hsame, sound_arrive hsound m⟩
  | down => exact ⟨congrArg Consumer.down hsame, sound_down hsound⟩
  | close => exact ⟨congrArg Consumer.close hsame, sound_close hsound⟩
  | turn late =>
    refine ⟨?_, sound_next hsound ignore⟩
    calc w.async.anext ignore late = w.async.next ignore := anext_eq_next hd
      _ = w.sync.next ignore := by rw [hsame]

/-- a waiting call that gives up yields None -/
theorem anext_gives_up {c : Consumer} {ignore late : Bool} (hphase : c.phase = .waiting) (hqueue : c.queue = [])
    (h : c.gone = true ∨ late = true) : .none ∈ (c.anext ignore late).yields := by
  have hgive : (c.gone || ((timeoutDuration none).isSome && late)) = true := by
    rcases h with h | h <;> simp [h, timeoutDuration]
  have hyield : c.anext ignore late = c.yield .none .idle := by
    simp [Consumer.anext, Consumer.agetMessage, hphase, hqueue, hgive]
  have hyields : (c.yield .none .idle).yields = c.yields ++ [.none] := by
    unfold Consumer.yield Consumer.release
    split <;> rfl
  rw [hyield, hyields]
  exact List.mem_append_right _ List.mem_cons_self

theorem refines_iff (ignore : Bool) (w : World) (e : Event) (h : Together w) : Refines ignore w e ↔ Delivers w e := by
  constructor
  · intro hr
    cases e with
    | turn late =>
      intro hphase hqueue
      by_contra hgive
      refine hr.item (anext_gives_up hphase hqueue ?_)
      cases hgone : w.async.gone <;> cases hlate : late <;> simp_all
    | _ => trivial
  · intro hd
    obtain ⟨hsame, hsound⟩ := together_step ignore w e h hd
    refine ⟨by rw [hsame], by rw [hsame]; exact hsound.item, by rw [hsame]; exact hsound.ended, ?_, ?_⟩
    · rintro late rfl hphase ⟨hgone, hqueue⟩
      exact absurd (hgone.symm.trans (hd hphase hqueue).1) (by decide)
    · rintro late rfl hphase hqueue hgone
      obtain ⟨-, rfl⟩ := hd hphase hqueue
      simp [step, Consumer.anext, Consumer.agetMessage, hphase, hqueue, hgone]

theorem together_start : Together .start := ⟨rfl, sound_new⟩

theorem along_refines_iff (ignore : Bool) {w : World} (h : Together w) (l : List Event) :
    Along (step ignore) (Refines ignore) w l ↔ Along (step ignore) Delivers w l :=
  along_iff (A := fun _ => True) (fun w e _ h hd => together_step ignore w e h hd)
    (fun w e _ h => refines_iff ignore w e h) (fun _ _ => trivial) h

/-- **Async iteration.** Over any run of two fresh objects that meet the same messages, shutdowns, closes and turns, the
async iterator yields what the sync one yields, never None, and ends exactly where nothing more can come, if and only if
no turn of a waiting call finds the queue empty and the sender side gone or the timeout over. -/
theorem async_refines_iff (ignore : Bool) (l : List Event) :
    Along (step ignore) (Refines ignore) .start l ↔ Along (step ignore) Delivers .start l :=
  along_refines_iff ignore together_start l

/-- the call finds the channel empty for a millisecond -/
theorem yields_none : ¬ ∀ (ignore : Bool) (l : List Event), Along (step ignore) (Refines ignore) .start l := by
  intro h
  have hruns := (along_refines_iff false together_start _).1 (h false [.turn false, .turn true])
  exact absurd hruns (by decide)

end RedisRsPy.PubSub.Iteration
