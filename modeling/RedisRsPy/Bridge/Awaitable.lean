/-
`RedisRsAwaitable` (`async_bridge.rs`): the object a Python coroutine awaits while a tokio task produces its outcome.

The world holds the awaitable, the oneshot channel, the task that bridges the two in callback mode (it stores the outcome
in `result_slot`, then schedules `_wake` on the event loop), the ready queue of the loop, and the callbacks that a
running `_wake` has still to call. A step is one call on the awaitable or one move of channel, task or loop, so a run is
any interleaving of them. Calls on the awaitable hold the GIL and are one step each, except `_wake`: it takes the
callbacks and calls the first in one step, and the rest one by one, since a callback may itself call the awaitable.

What `RawResult::into_py` makes of an outcome is a parameter. Scheduling on the loop does not fail.
-/
import Mathlib.Data.List.Basic
import RedisRsPy.Lib.Runs

namespace RedisRsPy.Bridge

/-! ## Data -/

/-- an exception: one that `into_py` raises, a RuntimeError, or `asyncio.CancelledError` -/
inductive Exn (X : Type) where
  | error (x : X)
  | runtime (msg : String)
  | cancelled
deriving DecidableEq, Repr

def droppedMsg : String := "operation was dropped"

def consumedMsg : String := "awaitable already consumed"

/-- the text of `asyncio.get_running_loop` outside a loop -/
def noLoopMsg : String := "no running event loop"

/-- the callback passed in the `callback`-th registration, and the context it runs in -/
structure DoneCallback where
  callback : ℕ
  context : Option ℕ
deriving DecidableEq, Repr

/-- `result_slot` is shared with the bridge task, so it is kept in the world -/
structure CallbackState where
  eventLoop : ℕ
  callbacks : List DoneCallback
deriving DecidableEq, Repr

/-- `RedisRsAwaitable`; `rx` is whether it still holds its end of the channel -/
structure Awaitable (V X : Type) where
  rx : Bool
  value : Option V
  error : Option (Exn X)
  resolved : Bool
  cancelled : Bool
  asyncioFutureBlocking : Bool
  polls : UInt8
  cb : Option CallbackState
deriving DecidableEq, Repr

/-- the oneshot channel, as the producer left it -/
inductive Channel (R : Type) where
  | empty
  | sent (raw : R)
  | closed
deriving DecidableEq, Repr

/-- the task spawned on entering callback mode -/
inductive BridgeTask where
  | unspawned
  /-- `rx.await` -/
  | awaiting
  /-- the outcome is in the slot, `_wake` is not scheduled yet -/
  | stored
  | finished
deriving DecidableEq, Repr

/-- an entry of the loop's ready queue -/
inductive Handle where
  | wake
  | call (cb : DoneCallback)
deriving DecidableEq, Repr

/-- what `__next__` does: `None`, the awaitable itself, StopIteration, or another exception -/
inductive Polled (V X : Type) where
  | none
  | slf
  | stop (v : V)
  | raise (e : Exn X)
deriving DecidableEq, Repr

/-- what Python observes -/
inductive Obs (R V X : Type) where
  | polled (out : Polled V X)
  /-- a callback is called, and this is the awaitable it finds and what the producer did so far -/
  | called (cb : DoneCallback) (aw : Awaitable V X) (chan : Channel R)
  /-- `result()` on an awaitable that is done or not -/
  | result (done : Bool) (ans : Except (Exn X) (Option V))
  | exception (done : Bool) (ans : Option (Exn X))
  | cancel (ans : Bool)

structure World (R V X : Type) where
  aw : Awaitable V X
  chan : Channel R
  /-- `result_slot`; `Err(())` is a dropped sender -/
  slot : Option (Except Unit R)
  task : BridgeTask
  ready : List Handle
  /-- taken by `_wake` and not called yet -/
  waking : List DoneCallback
  /-- registrations so far -/
  registered : ℕ
  /-- callbacks called by `_wake` or handed to `loop.call_soon` -/
  fired : List ℕ
  log : List (Obs R V X)

inductive Event (R : Type) where
  /-- `__next__`, under the running loop if there is one -/
  | poll (loop : Option ℕ)
  /-- `add_done_callback` -/
  | register (context : Option ℕ)
  | send (raw : R)
  /-- the sender is dropped -/
  | drop
  /-- the bridge task stores the outcome -/
  | store
  /-- and has `_wake` scheduled -/
  | schedule
  /-- the loop runs the first ready handle -/
  | run
  /-- `_wake` goes on to its next callback -/
  | next
  | cancel
  | result
  | exception
deriving DecidableEq, Repr

variable {R V X : Type}

/-! ## Methods -/

namespace Awaitable

/-- `RedisRsAwaitable::new` -/
def new : Awaitable V X := ⟨true, none, none, false, false, false, 0, none⟩

def done (this : Awaitable V X) : Bool := this.resolved || this.cancelled

/-- `Ok(None)` is the placeholder for a value that is not there -/
def result (this : Awaitable V X) : Except (Exn X) (Option V) :=
  if this.cancelled then .error .cancelled
  else
    match this.error with
    | some exc => .error exc
    | none => .ok this.value

def exception (this : Awaitable V X) : Option (Exn X) :=
  if this.cancelled then some .cancelled else this.error

/-- without a callback state the callback is forgotten -/
def addDoneCallback (this : Awaitable V X) (fnCb : DoneCallback) : Awaitable V X :=
  match this.cb with
  | some cb => { this with cb := some { cb with callbacks := cb.callbacks ++ [fnCb] } }
  | none => this

/-- the callbacks waiting for `_wake` -/
def callbacks (this : Awaitable V X) : List DoneCallback :=
  match this.cb with
  | some cb => cb.callbacks
  | none => []

end Awaitable

def deliverValue (this : Awaitable V X) (val : V) : Polled V X × Awaitable V X :=
  (.stop val, { this with resolved := true, value := some val })

def deliverError (this : Awaitable V X) (err : Exn X) : Polled V X × Awaitable V X :=
  (.raise err, { this with resolved := true, error := some err })

def deliver (this : Awaitable V X) : Except (Exn X) V → Polled V X × Awaitable V X
  | .ok val => deliverValue this val
  | .error err => deliverError this err

section Methods

variable (intoPy : R → Except X V)

/-- `raw.into_py(py)` -/
def converted (raw : R) : Except (Exn X) V :=
  match intoPy raw with
  | .ok val => .ok val
  | .error x => .error (.error x)

/-- a raw result, or a dropped sender -/
def outcomeOf : Except Unit R → Except (Exn X) V
  | .ok raw => converted intoPy raw
  | .error () => .error (.runtime droppedMsg)

/-- the end of `__next__` when there is no outcome yet -/
def World.miss (w : World R V X) (loop : Option ℕ) : Polled V X × World R V X :=
  let this := { w.aw with polls := w.aw.polls + 1 }
  if this.polls ≤ 5 then (.none, { w with aw := this })
  else if this.rx = false then (.raise (.runtime consumedMsg), { w with aw := this })
  else
    -- `rx` is taken before the loop is asked for
    match loop with
    | none => (.raise (.runtime noLoopMsg), { w with aw := { this with rx := false } })
    | some l =>
      (.slf, { w with
        aw := { this with rx := false, asyncioFutureBlocking := true, cb := some ⟨l, []⟩ }
        slot := none
        task := .awaiting })

/-- `__next__` -/
def World.poll (w : World R V X) (loop : Option ℕ) : Polled V X × World R V X :=
  let this := w.aw
  if this.cancelled then (.raise .cancelled, w)
  else if this.resolved then
    match this.error, this.value with
    | some exc, _ => (.raise exc, w)
    | none, some value => (.stop value, w)
    | none, none => (.raise (.runtime consumedMsg), w)
  else
    match this.cb, w.slot with
    | some _, some raw =>
      -- the callback state goes, and its callbacks with it
      let o := deliver { this with cb := none } (outcomeOf intoPy raw)
      (o.1, { w with aw := o.2, slot := none })
    | _, _ =>
      if this.rx then
        match w.chan with
        | .sent raw =>
          let o := deliver { this with rx := false } (outcomeOf intoPy (.ok raw))
          (o.1, { w with aw := o.2 })
        | .closed =>
          let o := deliver { this with rx := false } (outcomeOf intoPy (.error ()))
          (o.1, { w with aw := o.2 })
        | .empty => w.miss loop
      else w.miss loop

end Methods

/-- a callback is called -/
def World.call (w : World R V X) (cb : DoneCallback) : World R V X :=
  { w with log := w.log ++ [.called cb w.aw w.chan] }

/-- `_wake` calls a callback -/
def World.fire (w : World R V X) (cb : DoneCallback) : World R V X :=
  { w.call cb with fired := w.fired ++ [cb.callback] }

/-- `std::mem::take(&mut cb.callbacks)` -/
def World.takeCallbacks (w : World R V X) : World R V X :=
  { w with aw := { w.aw with cb := w.aw.cb.map fun cb => { cb with callbacks := [] } } }

/-- `_wake` takes the callbacks and calls the first -/
def World.wake (w : World R V X) : World R V X :=
  match w.aw.callbacks with
  | [] => w.takeCallbacks
  | cb :: cbs => { w.takeCallbacks with waking := cbs }.fire cb

def World.cancel (w : World R V X) : Bool × World R V X :=
  if w.aw.resolved || w.aw.cancelled then (false, w)
  else
    let cbs := w.aw.callbacks
    (true, { w with
      aw := { w.aw with cancelled := true, rx := false, cb := none }
      ready := w.ready ++ cbs.map .call
      fired := w.fired ++ cbs.map DoneCallback.callback })

/-! ## Steps -/

def World.new : World R V X := ⟨.new, .empty, none, .unspawned, [], [], 0, [], []⟩

def step (intoPy : R → Except X V) (w : World R V X) : Event R → World R V X
  | .poll loop =>
    let o := w.poll intoPy loop
    { o.2 with log := o.2.log ++ [.polled o.1] }
  | .register context =>
    { w with aw := w.aw.addDoneCallback ⟨w.registered, context⟩, registered := w.registered + 1 }
  | .send raw =>
    match w.chan with
    | .empty => { w with chan := .sent raw }
    | _ => w
  | .drop =>
    match w.chan with
    | .empty => { w with chan := .closed }
    | _ => w
  | .store =>
    match w.task, w.chan with
    | .awaiting, .sent raw => { w with slot := some (.ok raw), task := .stored }
    | .awaiting, .closed => { w with slot := some (.error ()), task := .stored }
    | _, _ => w
  | .schedule => if w.task = .stored then { w with task := .finished, ready := w.ready ++ [.wake] } else w
  | .run =>
    -- the loop is busy while `_wake` runs
    if w.waking = [] then
      match w.ready with
      | [] => w
      | .wake :: rest => { w with ready := rest }.wake
      | .call cb :: rest => { w with ready := rest }.call cb
    else w
  | .next =>
    match w.waking with
    | [] => w
    | cb :: cbs => { w with waking := cbs }.fire cb
  | .cancel =>
    let o := w.cancel
    { o.2 with log := o.2.log ++ [.cancel o.1] }
  | .result => { w with log := w.log ++ [.result w.aw.done w.aw.result] }
  | .exception => { w with log := w.log ++ [.exception w.aw.done w.aw.exception] }

/-! ## What `__next__` can do -/

section Spec

variable (intoPy : R → Except X V)

/-- what the producer did, as Python gets it -/
def outcome : Channel R → Option (Except (Exn X) V)
  | .empty => none
  | .sent raw => some (outcomeOf intoPy (.ok raw))
  | .closed => some (outcomeOf intoPy (.error ()))

/-- value and error say the outcome -/
def Awaitable.Tells (this : Awaitable V X) : Except (Exn X) V → Prop
  | .ok v => this.value = some v ∧ this.error = none
  | .error e => this.value = none ∧ this.error = some e

/-- where the outcome was taken from, it is delivered and nothing else changes -/
def Awaitable.settled (this : Awaitable V X) (o : Except (Exn X) V) : Awaitable V X := (deliver this o).2

@[simp] theorem settled_cb (this : Awaitable V X) (o : Except (Exn X) V) : (this.settled o).cb = this.cb := by
  cases o <;> rfl

@[simp] theorem settled_rx (this : Awaitable V X) (o : Except (Exn X) V) : (this.settled o).rx = this.rx := by
  cases o <;> rfl

@[simp] theorem settled_resolved (this : Awaitable V X) (o : Except (Exn X) V) : (this.settled o).resolved = true := by
  cases o <;> rfl

@[simp] theorem settled_cancelled (this : Awaitable V X) (o : Except (Exn X) V) :
    (this.settled o).cancelled = this.cancelled := by
  cases o <;> rfl

theorem settled_tells (this : Awaitable V X) (hv : this.value = none) (he : this.error = none)
    (o : Except (Exn X) V) : (this.settled o).Tells o := by
  cases o with
  | ok v => exact ⟨rfl, he⟩
  | error e => exact ⟨hv, rfl⟩

/-- a poll that counts, and perhaps loses `rx` -/
def World.counted (w : World R V X) (rx : Bool) : World R V X :=
  { w with aw := { w.aw with polls := w.aw.polls + 1, rx := rx } }

/-- the poll that enters callback mode -/
def World.entered (w : World R V X) (l : ℕ) : World R V X :=
  { w with
    aw := { w.aw with polls := w.aw.polls + 1, rx := false, asyncioFutureBlocking := true, cb := some ⟨l, []⟩ }
    slot := none
    task := .awaiting }

/-- the ways a poll can change the world -/
inductive Poll (w : World R V X) : World R V X → Prop where
  /-- the awaitable is done -/
  | idle (hdone : w.aw.done = true) : Poll w w
  /-- the outcome comes from the slot -/
  | slot {raw : Except Unit R} (hdone : w.aw.done = false) (hcb : w.aw.cb.isSome = true) (hslot : w.slot = some raw) :
      Poll w { w with aw := { w.aw with cb := none }.settled (outcomeOf intoPy raw), slot := none }
  /-- the outcome comes from the channel -/
  | chan {o : Except (Exn X) V} (hdone : w.aw.done = false) (hrx : w.aw.rx = true) (ho : outcome intoPy w.chan = some o) :
      Poll w { w with aw := { w.aw with rx := false }.settled o }
  | count (hdone : w.aw.done = false) : Poll w (w.counted w.aw.rx)
  | lose (hdone : w.aw.done = false) (hrx : w.aw.rx = true) : Poll w (w.counted false)
  | enter (l : ℕ) (hdone : w.aw.done = false) (hrx : w.aw.rx = true) : Poll w (w.entered l)

/-- the ways a poll can miss -/
inductive Missed (w : World R V X) : Option ℕ → Polled V X × World R V X → Prop where
  | wait {loop : Option ℕ} (hp : w.aw.polls + 1 ≤ 5) : Missed w loop (.none, w.counted w.aw.rx)
  | consumed {loop : Option ℕ} (hrx : w.aw.rx = false) :
      Missed w loop (.raise (.runtime consumedMsg), w.counted w.aw.rx)
  | lose (hp : ¬ w.aw.polls + 1 ≤ 5) (hrx : w.aw.rx = true) :
      Missed w none (.raise (.runtime noLoopMsg), w.counted false)
  | enter (l : ℕ) (hrx : w.aw.rx = true) : Missed w (some l) (.slf, w.entered l)

theorem miss_cases (w : World R V X) (loop : Option ℕ) : Missed w loop (w.miss loop) := by
  unfold World.miss
  by_cases hp : w.aw.polls + 1 ≤ 5
  · rw [if_pos hp]
    exact .wait hp
  · rw [if_neg hp]
    by_cases hrx : w.aw.rx = false
    · rw [if_pos hrx]
      exact .consumed hrx
    · rw [if_neg hrx]
      have hrx : w.aw.rx = true := by simpa using hrx
      cases loop with
      | none => exact .lose hp hrx
      | some l => exact .enter l hrx

theorem poll_miss {w : World R V X} (hdone : w.aw.done = false) (loop : Option ℕ) : Poll intoPy w (w.miss loop).2 := by
  have hm := miss_cases w loop
  generalize w.miss loop = out at hm
  cases hm with
  | wait hp => exact .count hdone
  | consumed hrx => exact .count hdone
  | lose hp hrx => exact .lose hdone hrx
  | enter l hrx => exact .enter l hdone hrx

theorem poll_cases (w : World R V X) (loop : Option ℕ) : Poll intoPy w (w.poll intoPy loop).2 := by
  unfold World.poll
  by_cases hc : w.aw.cancelled = true
  · rw [if_pos hc]
    exact .idle (by simp [Awaitable.done, hc])
  rw [if_neg hc]
  by_cases hr : w.aw.resolved = true
  · rw [if_pos hr]
    have hdone : w.aw.done = true := by simp [Awaitable.done, hr]
    cases w.aw.error with
    | some exc => exact .idle hdone
    | none =>
      cases w.aw.value with
      | some v => exact .idle hdone
      | none => exact .idle hdone
  rw [if_neg hr]
  have hdone : w.aw.done = false := by simp_all [Awaitable.done]
  -- no outcome in the slot: the channel is tried
  have htry : Poll intoPy w (if w.aw.rx = true then
        match w.chan with
        | .sent raw =>
          let o := deliver { w.aw with rx := false } (outcomeOf intoPy (.ok raw))
          (o.1, { w with aw := o.2 })
        | .closed =>
          let o := deliver { w.aw with rx := false } (outcomeOf intoPy (.error ()))
          (o.1, { w with aw := o.2 })
        | .empty => w.miss loop
      else w.miss loop).2 := by
    by_cases hrx : w.aw.rx = true
    · rw [if_pos hrx]
      split
      · rename_i raw hch
        exact .chan hdone hrx (by rw [hch]; rfl)
      · rename_i hch
        exact .chan hdone hrx (by rw [hch]; rfl)
      · exact poll_miss intoPy hdone loop
    · rw [if_neg hrx]
      exact poll_miss intoPy hdone loop
  split
  · rename_i cb raw hcb hs
    exact .slot hdone (by rw [hcb]; rfl) hs
  · exact htry

/-! ## What a step can do -/

/-- the ways a step can change the world -/
inductive Move (w : World R V X) : Event R → World R V X → Prop where
  /-- a call that is only observed, or a move with nothing to do -/
  | still {e : Event R} (log : List (Obs R V X)) : Move w e { w with log := log }
  | poll {loop : Option ℕ} {w' : World R V X} (hp : Poll intoPy w w') (log : List (Obs R V X)) :
      Move w (.poll loop) { w' with log := log }
  | register (context : Option ℕ) :
      Move w (.register context)
        { w with aw := w.aw.addDoneCallback ⟨w.registered, context⟩, registered := w.registered + 1 }
  /-- the producer acts once -/
  | produce {e : Event R} {ch : Channel R} (hch : w.chan = .empty) : Move w e { w with chan := ch }
  | store {raw : Except Unit R} (ht : w.task = .awaiting)
      (hraw : outcome intoPy w.chan = some (outcomeOf intoPy raw)) :
      Move w .store { w with slot := some raw, task := .stored }
  | schedule (ht : w.task = .stored) : Move w .schedule { w with task := .finished, ready := w.ready ++ [.wake] }
  | wake {rest : List Handle} (hwaking : w.waking = []) (hr : w.ready = .wake :: rest) :
      Move w .run { w with ready := rest }.wake
  | call {cb : DoneCallback} {rest : List Handle} (hwaking : w.waking = []) (hr : w.ready = .call cb :: rest) :
      Move w .run ({ w with ready := rest }.call cb)
  | next {cb : DoneCallback} {cbs : List DoneCallback} (hwaking : w.waking = cb :: cbs) :
      Move w .next ({ w with waking := cbs }.fire cb)
  | cancel (hdone : w.aw.done = false) (log : List (Obs R V X)) :
      Move w .cancel { w with
        aw := { w.aw with cancelled := true, rx := false, cb := none }
        ready := w.ready ++ w.aw.callbacks.map .call
        fired := w.fired ++ w.aw.callbacks.map DoneCallback.callback
        log := log }

theorem step_cases (w : World R V X) (e : Event R) : Move intoPy w e (step intoPy w e) := by
  cases e with
  | poll loop => exact .poll (poll_cases intoPy w loop) _
  | register context => exact .register context
  | send raw =>
    simp only [step]
    split
    · rename_i hch
      exact .produce hch
    · exact .still w.log
  | drop =>
    simp only [step]
    split
    · rename_i hch
      exact .produce hch
    · exact .still w.log
  | store =>
    simp only [step]
    split
    · rename_i raw ht hch
      exact .store ht (by rw [hch]; rfl)
    · rename_i ht hch
      exact .store ht (by rw [hch]; rfl)
    · exact .still w.log
  | schedule =>
    simp only [step]
    split_ifs with ht
    · exact .schedule ht
    · exact .still w.log
  | run =>
    simp only [step]
    split_ifs with hwaking
    · split
      · exact .still w.log
      · rename_i rest hr
        exact .wake hwaking hr
      · rename_i cb rest hr
        exact .call hwaking hr
    · exact .still w.log
  | next =>
    simp only [step]
    split
    · exact .still w.log
    · rename_i cb cbs hwaking
      exact .next hwaking
  | cancel =>
    simp only [step, World.cancel]
    split_ifs with hdone
    · exact .still _
    · exact .cancel (by simpa [Awaitable.done] using hdone) _
  | result => exact .still _
  | exception => exact .still _

end Spec

end RedisRsPy.Bridge
