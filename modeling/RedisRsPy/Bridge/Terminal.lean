/-
The terminal state of a `RedisRsAwaitable`, over every run, cancellation included.

An awaitable that is done keeps everything but its (empty) list of callbacks, whatever the producer, the bridge task,
the loop and other awaiters do afterwards. A callback is moved from place to place (its list, a running `_wake`, the
loop's queue) and never copied.

Result (`terminal_stable`): no awaitable is resolved and cancelled; a resolved one keeps its value or error, and every
poll repeats it; a cancelled one answers every poll and `result()` with CancelledError; `cancel()` returns true at most
once, and not after either; no callback is called or handed to the loop twice.
-/
import RedisRsPy.Bridge.Callbacks
import RedisRsPy.Bridge.Outcome

namespace RedisRsPy.Bridge

open Lib

variable {R V X : Type} {intoPy : R → Except X V} {w w' : World R V X}

/-! ## Done is for good -/

theorem cancel_done (hdone : w.aw.done = true) : w.cancel = (false, w) :=
  if_pos hdone

/-- no step changes an awaitable that is done, its callbacks apart -/
theorem core_step_done (intoPy : R → Except X V) (hdone : w.aw.done = true) (e : Event R) :
    (step intoPy w e).aw.core = w.aw.core := by
  obtain ⟨loop, rfl⟩ | rfl | ⟨hpoll, hcancel⟩ := event_kinds e
  · have hsame : (w.poll intoPy loop).2 = w := poll_done hdone loop
    simp only [step, hsame]
  · simp only [step, cancel_done hdone]
  · exact core_move hpoll hcancel (step_cases intoPy w e)

/-- **Done is for good**, and what is told with it -/
theorem core_run_done (intoPy : R → Except X V) (hdone : w.aw.done = true) (m : List (Event R)) :
    (run (step intoPy) w m).aw.core = w.aw.core := by
  refine run_invariant' (I := fun w' : World R V X => w'.aw.core = w.aw.core) (fun w' e h => ?_) m rfl
  have hdone' : w'.aw.done = true := by rw [core_congr Awaitable.done (fun _ => rfl) h, hdone]
  rw [core_step_done intoPy hdone', h]

theorem poll_cancelled (hc : w.aw.cancelled = true) (loop : Option ℕ) : w.poll intoPy loop = (.raise .cancelled, w) :=
  if_pos hc

/-- resolved and cancelled exclude each other -/
def Exclusive (w : World R V X) : Prop := ¬ (w.aw.resolved = true ∧ w.aw.cancelled = true)

theorem exclusive_step (h : Exclusive w) (e : Event R) : Exclusive (step intoPy w e) := by
  cases hdone : w.aw.done with
  | true =>
    have hcore := core_step_done intoPy hdone e
    unfold Exclusive
    rw [core_congr Awaitable.resolved (fun _ => rfl) hcore, core_congr Awaitable.cancelled (fun _ => rfl) hcore]
    exact h
  | false =>
    obtain ⟨hr, hc⟩ := done_eq_false.1 hdone
    unfold Exclusive
    obtain ⟨loop, rfl⟩ | rfl | ⟨hpoll, hcancel⟩ := event_kinds e
    · have hsame : (step intoPy w (.poll loop)).aw.cancelled = false := by
        have hp := poll_cases intoPy w loop
        have haw : (w.poll intoPy loop).2.aw.cancelled = false := by
          generalize (w.poll intoPy loop).2 = w' at hp
          cases hp <;> simp [hc, World.counted, World.entered]
        exact haw
      simp [hsame]
    · simp [step, World.cancel, hr, hc]
    · have hcore := core_move hpoll hcancel (step_cases intoPy w e)
      rw [core_congr Awaitable.resolved (fun _ => rfl) hcore, hr]
      simp

theorem run_exclusive (intoPy : R → Except X V) (l : List (Event R)) :
    Exclusive (run (step intoPy) World.new l) :=
  run_invariant' (I := Exclusive) (fun _ e h => exclusive_step h e) l (by simp [Exclusive, World.new, Awaitable.new])

/-! ## One cancellation -/

/-- a `cancel()` that returned true -/
def Obs.cancels : Obs R V X → Bool
  | .cancel ans => ans
  | _ => false

theorem cancels_observed {e : Event R} (he : e ≠ .cancel) : (observed intoPy w e).countP Obs.cancels = 0 := by
  have hcalled : ∀ (cbs : List DoneCallback) (aw : Awaitable V X),
      (cbs.map fun cb => (Obs.called cb aw w.chan : Obs R V X)).countP Obs.cancels = 0 := by
    intro cbs aw
    rw [List.countP_map]
    exact List.countP_eq_zero.2 fun cb _ => Bool.false_ne_true
  cases e with
  | cancel => exact absurd rfl he
  | run =>
    simp only [observed]
    split_ifs
    · split
      · rfl
      · exact hcalled _ _
      · rfl
    · rfl
  | next => exact hcalled _ _
  | _ => rfl

/-- the cancellations so far that succeeded -/
def Cancels (w : World R V X) : Prop := w.log.countP Obs.cancels ≤ if w.aw.cancelled = true then 1 else 0

theorem cancels_step (h : Cancels w) (e : Event R) : Cancels (step intoPy w e) := by
  unfold Cancels at h ⊢
  rw [log_step, List.countP_append]
  by_cases he : e = .cancel
  · subst he
    cases hdone : w.aw.done with
    | true =>
      simp only [step, observed, cancel_done hdone]
      exact h
    | false =>
      have hc := (done_eq_false.1 hdone).2
      rw [if_neg (by simp [hc])] at h
      have hopen : ¬ (w.aw.resolved || w.aw.cancelled) = true := by simpa [Awaitable.done] using hdone
      simp only [step, observed, World.cancel, if_neg hopen, if_pos]
      simpa [Obs.cancels] using h
  · rw [cancels_observed he, Nat.add_zero]
    cases hc : w.aw.cancelled with
    | true =>
      have hcore := core_step_done intoPy (w := w) (by simp [Awaitable.done, hc]) e
      rw [core_congr Awaitable.cancelled (fun _ => rfl) hcore]
      exact h
    | false =>
      rw [if_neg (by simp [hc])] at h
      exact Nat.le_trans h (Nat.zero_le _)

/-! ## One call for each callback -/

/-- the callbacks called so far -/
def calls (log : List (Obs R V X)) : List ℕ :=
  log.filterMap fun
    | .called cb _ _ => some cb.callback
    | _ => none

/-- the callbacks in the loop's queue -/
def queued (ready : List Handle) : List ℕ :=
  ready.filterMap fun
    | .call cb => some cb.callback
    | .wake => none

/-- the places that hold callback `i`: fired, in the list, inside a running `_wake` -/
def World.places (w : World R V X) (i : ℕ) : ℕ :=
  w.fired.count i + (w.aw.callbacks.map DoneCallback.callback).count i + (w.waking.map DoneCallback.callback).count i

/-- a callback has fired once at most, and if not it waits in one place at most -/
structure Once (w : World R V X) : Prop where
  place : ∀ i, w.places i ≤ if i < w.registered then 1 else 0
  handed : ∀ i, w.fired.count i = (calls w.log).count i + (queued w.ready).count i

theorem Once.new : Once (World.new : World R V X) := by
  constructor <;> intro i <;> simp [World.new, World.places, Awaitable.callbacks, Awaitable.new, calls, queued]

theorem callbacks_poll (hp : Poll intoPy w w') : w'.aw.callbacks = w.aw.callbacks ∨ w'.aw.callbacks = [] := by
  cases hp with
  | idle hdone => exact Or.inl rfl
  | slot hdone hcb hslot => exact Or.inr (by simp [Awaitable.callbacks])
  | chan hdone hrx ho => exact Or.inl (by simp [Awaitable.callbacks])
  | count hdone => exact Or.inl rfl
  | lose hdone hrx => exact Or.inl rfl
  | enter l hdone hrx => exact Or.inr rfl

theorem callbacks_register (this : Awaitable V X) (cb : DoneCallback) :
    (this.addDoneCallback cb).callbacks = this.callbacks ++ [cb] ∨
      (this.addDoneCallback cb).callbacks = this.callbacks := by
  cases hcb : this.cb with
  | none => exact Or.inr (by simp [Awaitable.addDoneCallback, hcb])
  | some st => exact Or.inl (by simp [Awaitable.addDoneCallback, Awaitable.callbacks, hcb])

theorem registered_poll (hp : Poll intoPy w w') : w'.registered = w.registered ∧ w'.fired = w.fired := by
  cases hp <;> exact ⟨rfl, rfl⟩

theorem callbacks_takeCallbacks (w : World R V X) : w.takeCallbacks.aw.callbacks = [] := by
  cases hcb : w.aw.cb <;> simp [World.takeCallbacks, Awaitable.callbacks, hcb]

theorem places_wake (hwaking : w.waking = []) (rest : List Handle) (i : ℕ) :
    ({ w with ready := rest }.wake).places i ≤ w.places i := by
  unfold World.wake
  split
  · show w.fired.count i + ({ w with ready := rest }.takeCallbacks.aw.callbacks.map DoneCallback.callback).count i +
      (w.waking.map DoneCallback.callback).count i ≤ w.places i
    rw [callbacks_takeCallbacks, World.places, List.map_nil, List.count_nil]
    omega
  · rename_i cb cbs hcons
    have hcons : w.aw.callbacks = cb :: cbs := hcons
    show (w.fired ++ [cb.callback]).count i +
      ({ w with ready := rest }.takeCallbacks.aw.callbacks.map DoneCallback.callback).count i +
      (cbs.map DoneCallback.callback).count i ≤ w.places i
    rw [callbacks_takeCallbacks, World.places, hcons, hwaking, List.count_append, List.count_singleton, List.map_nil,
      List.count_nil, List.map_cons, List.count_cons]
    omega

/-- **No step copies a callback**; a registration adds one -/
theorem places_move {e : Event R} (hm : Move intoPy w e w') (i : ℕ) :
    w'.registered = w.registered ∧ w'.places i ≤ w.places i ∨
      w'.registered = w.registered + 1 ∧ w'.places i ≤ w.places i + if i = w.registered then 1 else 0 := by
  cases hm with
  | poll hp log =>
    obtain ⟨hreg, hfired⟩ := registered_poll hp
    have hwaking := waking_poll hp
    refine Or.inl ⟨hreg, ?_⟩
    simp only [World.places, hfired, hwaking]
    rcases callbacks_poll hp with hcbs | hcbs
    · simp only [hcbs, Nat.le_refl]
    · rw [hcbs, List.map_nil, List.count_nil]
      omega
  | @register context =>
    refine Or.inr ⟨rfl, ?_⟩
    simp only [World.places]
    rcases callbacks_register w.aw ⟨w.registered, context⟩ with hcbs | hcbs
    · rw [hcbs, List.map_append, List.count_append, List.map_singleton, List.count_singleton]
      simp only [beq_iff_eq, eq_comm (a := w.registered)]
      omega
    · rw [hcbs]
      omega
  | @wake rest hwaking hr =>
    have hmove : Move intoPy w .run ({ w with ready := rest }.wake) := .wake hwaking hr
    have hinner : Inner (.run : Event R) := trivial
    have hreg : ({ w with ready := rest }.wake).registered = w.registered := registered_move hinner hmove
    exact Or.inl ⟨hreg, places_wake hwaking rest i⟩
  | @next cb cbs hwaking =>
    refine Or.inl ⟨rfl, ?_⟩
    simp only [World.places, World.fire, World.call, hwaking, List.map_cons, List.count_cons, List.count_append,
      List.count_nil]
    omega
  | cancel hdone log =>
    refine Or.inl ⟨rfl, ?_⟩
    simp only [World.places, List.count_append, Awaitable.callbacks, List.map_nil, List.count_nil]
    omega
  | still log => exact Or.inl ⟨rfl, Nat.le_refl _⟩
  | produce hch => exact Or.inl ⟨rfl, Nat.le_refl _⟩
  | store ht hraw => exact Or.inl ⟨rfl, Nat.le_refl _⟩
  | schedule ht => exact Or.inl ⟨rfl, Nat.le_refl _⟩
  | call hwaking hr => exact Or.inl ⟨rfl, Nat.le_refl _⟩

theorem calls_called (cbs : List DoneCallback) (aw : Awaitable V X) (ch : Channel R) :
    calls (cbs.map fun cb => (Obs.called cb aw ch : Obs R V X)) = cbs.map DoneCallback.callback := by
  induction cbs with
  | nil => rfl
  | cons cb cbs ih => exact congrArg (cb.callback :: ·) ih

theorem queued_call (cbs : List DoneCallback) : queued (cbs.map .call) = cbs.map DoneCallback.callback := by
  induction cbs with
  | nil => rfl
  | cons cb cbs ih => exact congrArg (cb.callback :: ·) ih

/-- what fires is called at once, or handed to the loop and called when its turn comes -/
theorem handed_step (intoPy : R → Except X V) (w : World R V X) (e : Event R) (i : ℕ) :
    (step intoPy w e).fired.count i + (queued w.ready).count i =
      w.fired.count i + (calls (observed intoPy w e)).count i + (queued (step intoPy w e).ready).count i := by
  cases e with
  | poll loop =>
    have hp := poll_cases intoPy w loop
    have hfired := (registered_poll hp).2
    have hready : (w.poll intoPy loop).2.ready = w.ready := by
      generalize (w.poll intoPy loop).2 = w' at hp
      cases hp <;> rfl
    simp only [step, observed, calls, hfired, hready]
    rfl
  | run =>
    simp only [step, observed]
    split_ifs with hwaking
    · cases hr : w.ready with
      | nil => simp [calls, hr]
      | cons handle rest =>
        cases handle with
        | call cb =>
          have hq : queued (.call cb :: rest) = cb.callback :: queued rest := rfl
          simp only [World.call, hq, calls, List.filterMap_cons, List.filterMap_nil, List.count_cons, List.count_nil]
          omega
        | wake =>
          have hq : queued (.wake :: rest) = queued rest := rfl
          simp only [calls_called, hq]
          unfold World.wake
          split
          · rename_i hnil
            have hnil : w.aw.callbacks = [] := hnil
            simp [hnil, World.takeCallbacks]
          · rename_i cb cbs hcons
            have hcons : w.aw.callbacks = cb :: cbs := hcons
            simp [hcons, World.fire, World.call, World.takeCallbacks]
    · simp [calls]
  | next =>
    simp only [step, observed, calls_called]
    cases hw : w.waking with
    | nil => simp
    | cons cb cbs => simp [World.fire, World.call]
  | cancel =>
    simp only [step, observed, World.cancel]
    split_ifs
    · simp [calls]
    · have hq : queued (w.ready ++ w.aw.callbacks.map .call) = queued w.ready ++ queued (w.aw.callbacks.map .call) :=
        List.filterMap_append
      simp only [hq, queued_call, List.count_append, calls, List.filterMap_cons, List.filterMap_nil, List.count_nil]
      omega
  | schedule =>
    simp only [step, observed]
    split_ifs
    · simp [calls, queued]
    · simp [calls]
  | store =>
    simp only [step, observed]
    split <;> simp [calls]
  | send raw =>
    simp only [step, observed]
    split <;> simp [calls]
  | drop =>
    simp only [step, observed]
    split <;> simp [calls]
  | register context => simp [step, observed, calls]
  | result => simp [step, observed, calls]
  | exception => simp [step, observed, calls]

theorem once_step (h : Once w) (e : Event R) : Once (step intoPy w e) := by
  constructor
  · intro i
    have hi := h.place i
    rcases places_move (step_cases intoPy w e) i with ⟨hreg, hplaces⟩ | ⟨hreg, hplaces⟩
    · rw [hreg]
      exact Nat.le_trans hplaces hi
    · rw [hreg]
      split_ifs at hi hplaces ⊢ <;> omega
  · intro i
    have hstep := handed_step intoPy w e i
    have hi := h.handed i
    have happend : calls (w.log ++ observed intoPy w e) = calls w.log ++ calls (observed intoPy w e) :=
      List.filterMap_append
    rw [log_step, happend, List.count_append]
    omega

/-! ## The terminal state -/

/-- what holds in a reached state `w'`, and what an earlier state `w` settled for it -/
structure Settled (intoPy : R → Except X V) (w w' : World R V X) : Prop where
  exclusive : ¬ (w'.aw.resolved = true ∧ w'.aw.cancelled = true)
  /-- value and error are what they were, and each poll repeats them -/
  resolved : w.aw.resolved = true → w'.aw.value = w.aw.value ∧ w'.aw.error = w.aw.error ∧
    ∃ o, w.aw.Tells o ∧ ∀ loop, w'.poll intoPy loop = (.of o, w')
  cancelled : w.aw.cancelled = true → (∀ loop, w'.poll intoPy loop = (.raise .cancelled, w')) ∧
    w'.aw.result = .error .cancelled ∧ w'.aw.exception = some .cancelled
  /-- `cancel()` does nothing to an awaitable that is done -/
  cancel : w.aw.done = true → w'.cancel = (false, w')
  cancels : w'.log.countP Obs.cancels ≤ 1
  /-- no callback is called twice, or called and handed to the loop as well -/
  called : ∀ i, (calls w'.log).count i + (queued w'.ready).count i ≤ 1
  fired : ∀ i, w'.fired.count i ≤ 1

/-- **The terminal state is stable.** For every run and every continuation of it. -/
theorem terminal_stable (intoPy : R → Except X V) (l m : List (Event R)) :
    let w := run (step intoPy) World.new l
    Settled intoPy w (run (step intoPy) w m) := by
  intro w
  have hlater : run (step intoPy) w m = run (step intoPy) World.new (l ++ m) := (run_append _ _ _ _).symm
  have hexclusive := run_exclusive intoPy (l ++ m)
  have honce : Once (run (step intoPy) w m) := by
    rw [hlater]
    exact run_invariant' (I := Once) (fun _ e h => once_step h e) _ Once.new
  have hcancels : Cancels (run (step intoPy) w m) := by
    rw [hlater]
    exact run_invariant' (I := Cancels) (fun _ e h => cancels_step h e) _ (by simp [Cancels, World.new])
  rw [← hlater] at hexclusive
  have hfired : ∀ i, (run (step intoPy) w m).fired.count i ≤ 1 := by
    intro i
    have hplace := honce.place i
    unfold World.places at hplace
    split_ifs at hplace <;> omega
  refine ⟨hexclusive, fun hr => ?_, fun hc => ?_, fun hdone => ?_, ?_, fun i => ?_, hfired⟩
  · have hcore := core_run_done intoPy (w := w) (by simp [Awaitable.done, hr]) m
    have hvalue := core_congr Awaitable.value (fun _ => rfl) hcore
    have herror := core_congr Awaitable.error (fun _ => rfl) hcore
    have hr' := (core_congr Awaitable.resolved (fun _ => rfl) hcore).trans hr
    have hc' : (run (step intoPy) w m).aw.cancelled = false := by
      by_contra hc
      exact hexclusive ⟨hr', by simpa using hc⟩
    obtain ⟨o, -, htells⟩ := (run_sound intoPy l).tells hr
    have htells' : (run (step intoPy) w m).aw.Tells o := by
      cases o with
      | ok v => exact ⟨hvalue.trans htells.1, herror.trans htells.2⟩
      | error x => exact ⟨hvalue.trans htells.1, herror.trans htells.2⟩
    exact ⟨hvalue, herror, o, htells, fun loop => poll_resolved intoPy hc' hr' htells' loop⟩
  · have hcore := core_run_done intoPy (w := w) (by simp [Awaitable.done, hc]) m
    have hc' := (core_congr Awaitable.cancelled (fun _ => rfl) hcore).trans hc
    exact ⟨fun loop => poll_cancelled hc' loop, if_pos hc', if_pos hc'⟩
  · have hcore := core_run_done intoPy hdone m
    exact cancel_done ((core_congr Awaitable.done (fun _ => rfl) hcore).trans hdone)
  · unfold Cancels at hcancels
    split_ifs at hcancels <;> omega
  · rw [← honce.handed i]
    exact hfired i

end RedisRsPy.Bridge
