/-
Done-callbacks of `RedisRsAwaitable`: whether each is called exactly once, and what it finds.

Two places lose a callback: `add_done_callback` forgets it when there is no callback state, and a poll that takes the
outcome from the slot drops the callback state with the callbacks in it. A callback registered after `_wake` stays where
it is. And `_wake` calls the callbacks while the outcome is still in the slot.

Results:
- `callbacks_fire_once`: in every run that registers callbacks only in callback mode and ahead of `_wake`, and takes no
  outcome from the slot past waiting callbacks, each callback fires exactly once;
- `truthful_iff`: in every run, callbacks are called on a finished awaitable that tells the outcome, and no placeholder
  is given away, exactly when `_wake` never finds a callback and `result()` and `exception()` are asked when done.
-/
import Mathlib.Data.List.Count
import Mathlib.Data.List.Induction
import Mathlib.Data.List.Nodup
import Mathlib.Data.List.Perm.Basic
import RedisRsPy.Bridge.Invariant

namespace RedisRsPy.Bridge

open Lib
open scoped List

variable {R V X : Type} {intoPy : R → Except X V} {w w' : World R V X}

/-! ## Exactly once -/

/-- the outcome has arrived, or the awaitable was cancelled -/
def Completed (w : World R V X) : Prop := w.aw.done = true ∨ w.slot.isSome = true

/-- channel, task and loop have nothing left to do -/
def Quiet (w : World R V X) : Prop :=
  w.ready = [] ∧ w.waking = [] ∧ w.task ≠ .stored ∧ (w.task = .awaiting → w.chan = .empty)

/-- callbacks fire once, not before completion, and after it all of them -/
structure FiredOnce (w : World R V X) : Prop where
  registered : ∀ i ∈ w.fired, i < w.registered
  once : ∀ i, w.fired.count i ≤ 1
  completed : w.fired ≠ [] → Completed w
  all : Completed w → Quiet w → ∀ i, i < w.registered → w.fired.count i = 1

/-- `_wake` is still to run -/
def WakeAhead (w : World R V X) : Prop := w.task = .awaiting ∨ w.task = .stored ∨ .wake ∈ w.ready

/-- the steps that lose no callback -/
def Kept (w : World R V X) : Event R → Prop
  | .register _ => w.aw.cb.isSome = true ∧ WakeAhead w
  | .poll _ => w.aw.cb.isSome = true → w.slot.isSome = true → w.aw.callbacks = []
  | _ => True

instance (w : World R V X) : Decidable (Completed w) := by unfold Completed; infer_instance

instance (w : World R V X) : Decidable (WakeAhead w) := by unfold WakeAhead; infer_instance

instance (w : World R V X) : (e : Event R) → Decidable (Kept w e)
  | .register _ => inferInstanceAs (Decidable (_ ∧ _))
  | .poll _ => inferInstanceAs (Decidable (_ → _))
  | .send _ | .drop | .store | .schedule | .run | .next | .cancel | .result | .exception =>
    inferInstanceAs (Decidable True)

theorem completed_poll (hs : Sound intoPy w) (hp : Poll intoPy w w') (h : Completed w) : Completed w' := by
  cases hp with
  | idle hdone => exact h
  | slot hdone hcb hslot => exact Or.inl (by simp [Awaitable.done])
  | chan hdone hrx ho => exact Or.inl (by simp [Awaitable.done])
  | count hdone => exact h
  | lose hdone hrx => exact h
  | enter l hdone hrx =>
    rcases h with h | h
    · rw [hdone] at h
      cases h
    · rw [hs.unstored (Or.inl (hs.rx_task hrx))] at h
      cases h

/-- completion is for good -/
theorem completed_move (hs : Sound intoPy w) {e : Event R} (hm : Move intoPy w e w') (h : Completed w) :
    Completed w' := by
  cases hm with
  | poll hp log =>
    have hp' := completed_poll hs hp h
    exact hp'
  | register context =>
    simp only [Completed, Awaitable.addDoneCallback]
    split <;> exact h
  | store ht hraw => exact Or.inr rfl
  | wake hwaking hr =>
    simp only [World.wake]
    split <;> exact h
  | cancel hdone log => exact Or.inl (by simp [Awaitable.done])
  | still log => exact h
  | produce hch => exact h
  | schedule ht => exact h
  | call hwaking hr => exact h
  | next hwaking => exact h

/-- no callback is lost: each waits for `_wake`, waits inside it, or has fired -/
structure Held (w : World R V X) : Prop where
  perm : ((w.aw.callbacks ++ w.waking).map DoneCallback.callback ++ w.fired).Perm (List.range w.registered)
  ahead : w.aw.callbacks ≠ [] → WakeAhead w
  completed : w.fired ≠ [] ∨ w.waking ≠ [] → Completed w

theorem Held.new : Held (World.new : World R V X) := by
  refine ⟨List.Perm.refl _, fun h => absurd rfl h, ?_⟩
  rintro (h | h) <;> exact absurd rfl h

/-- a step that moves no callback -/
theorem Held.still (h : Held w) (hcb : w'.aw.callbacks = w.aw.callbacks) (hwaking : w'.waking = w.waking)
    (hfired : w'.fired = w.fired) (hreg : w'.registered = w.registered)
    (hahead : w.aw.callbacks ≠ [] → WakeAhead w → WakeAhead w') (hcompleted : Completed w → Completed w') : Held w' where
  perm := by rw [hcb, hwaking, hfired, hreg]; exact h.perm
  ahead hne := by rw [hcb] at hne; exact hahead hne (h.ahead hne)
  completed hne := by rw [hwaking, hfired] at hne; exact hcompleted (h.completed hne)

theorem Held.poll (h : Held w) (hs : Sound intoPy w) {loop : Option ℕ} (hk : Kept w (.poll loop))
    (hp : Poll intoPy w w') : Held w' := by
  have hcompleted := completed_poll hs hp
  cases hp with
  | idle hdone => exact h
  | @slot raw hdone hcb hslot =>
    have hnil : w.aw.callbacks = [] := hk hcb (by rw [hslot]; rfl)
    refine h.still ?_ rfl rfl rfl (fun hne => absurd hnil hne) hcompleted
    rw [hnil]
    simp [Awaitable.callbacks]
  | chan hdone hrx ho => exact h.still (by simp [Awaitable.callbacks]) rfl rfl rfl (fun _ ha => ha) hcompleted
  | count hdone => exact h.still rfl rfl rfl rfl (fun _ ha => ha) hcompleted
  | lose hdone hrx => exact h.still rfl rfl rfl rfl (fun _ ha => ha) hcompleted
  | enter l hdone hrx =>
    have hnone : w.aw.cb = none := by
      cases hcb : w.aw.cb with
      | none => rfl
      | some st =>
        have hrx' := (hs.cb_open (by rw [hcb]; rfl)).2
        rw [hrx] at hrx'
        cases hrx'
    have hnil : w.aw.callbacks = [] := by simp [Awaitable.callbacks, hnone]
    exact h.still hnil.symm rfl rfl rfl (fun hne => absurd hnil hne) hcompleted

theorem Held.register (h : Held w) (context : Option ℕ) (hk : Kept w (.register context)) :
    Held { w with aw := w.aw.addDoneCallback ⟨w.registered, context⟩, registered := w.registered + 1 } := by
  obtain ⟨hcb, hahead⟩ := hk
  obtain ⟨st, hst⟩ := Option.isSome_iff_exists.1 hcb
  have hcbs : (w.aw.addDoneCallback ⟨w.registered, context⟩).callbacks = w.aw.callbacks ++ [⟨w.registered, context⟩] := by
    simp [Awaitable.addDoneCallback, Awaitable.callbacks, hst]
  refine ⟨?_, fun _ => hahead, fun hne => ?_⟩
  · simp only [hcbs]
    calc (w.aw.callbacks ++ [DoneCallback.mk w.registered context] ++ w.waking).map DoneCallback.callback ++ w.fired
        = w.aw.callbacks.map DoneCallback.callback ++
            ([w.registered] ++ (w.waking.map DoneCallback.callback ++ w.fired)) := by simp
      _ ~ w.aw.callbacks.map DoneCallback.callback ++
            ((w.waking.map DoneCallback.callback ++ w.fired) ++ [w.registered]) := List.perm_append_comm.append_left _
      _ = ((w.aw.callbacks ++ w.waking).map DoneCallback.callback ++ w.fired) ++ [w.registered] := by simp
      _ ~ List.range w.registered ++ [w.registered] := h.perm.append_right _
      _ = List.range (w.registered + 1) := List.range_succ.symm
  · have hold := h.completed hne
    rcases hold with hd | hd
    · refine Or.inl ?_
      simpa [Awaitable.addDoneCallback, Awaitable.done, hst] using hd
    · exact Or.inr hd

/-- the next callback of a list fires -/
theorem perm_fire (a b : List DoneCallback) (cb : DoneCallback) (fired : List ℕ) :
    ((a ++ b).map DoneCallback.callback ++ (fired ++ [cb.callback])).Perm
      ((a ++ cb :: b).map DoneCallback.callback ++ fired) := by
  simp only [List.map_append, List.map_cons, List.append_assoc]
  refine List.Perm.append_left _ ?_
  rw [← List.append_assoc]
  exact List.perm_append_singleton _ _

theorem Held.wake (h : Held w) (hwaking : w.waking = []) (hdone : Completed w) (rest : List Handle) :
    Held { w with ready := rest }.wake := by
  have htake : w.takeCallbacks.aw.callbacks = [] := by
    cases hcb : w.aw.cb <;> simp [World.takeCallbacks, Awaitable.callbacks, hcb]
  unfold World.wake
  split
  · rename_i hnil
    exact h.still (htake.trans hnil.symm) rfl rfl rfl (fun hne => absurd hnil hne) id
  · rename_i cb cbs hcons
    have hcons : w.aw.callbacks = cb :: cbs := hcons
    have hperm := h.perm
    rw [hcons, hwaking, List.append_nil] at hperm
    refine ⟨?_, fun hne => absurd htake hne, fun _ => hdone⟩
    have hnow : ((w.takeCallbacks.aw.callbacks ++ cbs).map DoneCallback.callback ++ (w.fired ++ [cb.callback])).Perm
        (List.range w.registered) := by
      rw [htake]
      exact (perm_fire [] cbs cb w.fired).trans hperm
    exact hnow

theorem Held.next (h : Held w) {cb : DoneCallback} {cbs : List DoneCallback} (hwaking : w.waking = cb :: cbs) :
    Held ({ w with waking := cbs }.fire cb) := by
  have hperm := h.perm
  rw [hwaking] at hperm
  refine ⟨(perm_fire _ _ _ _).trans hperm, h.ahead, fun _ => h.completed (Or.inr ?_)⟩
  rw [hwaking]
  exact List.cons_ne_nil _ _

theorem Held.move (h : Held w) (hs : Sound intoPy w) {e : Event R} (hk : Kept w e) (hm : Move intoPy w e w') :
    Held w' := by
  have hcompleted := completed_move hs hm
  cases hm with
  | still log => exact ⟨h.perm, h.ahead, h.completed⟩
  | poll hp log =>
    have hp' := h.poll hs hk hp
    exact ⟨hp'.perm, hp'.ahead, hp'.completed⟩
  | register context => exact h.register context hk
  | produce hch => exact ⟨h.perm, h.ahead, h.completed⟩
  | store ht hraw => exact ⟨h.perm, fun _ => Or.inr (Or.inl rfl), fun _ => Or.inr rfl⟩
  | schedule ht => exact ⟨h.perm, fun _ => Or.inr (Or.inr (by simp)), h.completed⟩
  | @wake rest hwaking hr =>
    have hfinished : w.task = .finished := hs.wake_finished (by rw [hr]; exact List.mem_cons_self)
    have hdone : Completed w := (hs.stored (Or.inr hfinished)).symm
    exact h.wake hwaking hdone rest
  | @call cb rest hwaking hr =>
    refine ⟨h.perm, fun hne => ?_, h.completed⟩
    rcases h.ahead hne with ha | ha | ha
    · exact Or.inl ha
    · exact Or.inr (Or.inl ha)
    · rw [hr] at ha
      have hrest : Handle.wake ∈ rest := by simpa using ha
      exact Or.inr (Or.inr hrest)
  | next hwaking => exact h.next hwaking
  | cancel hdone log =>
    refine ⟨?_, fun hne => absurd rfl hne, fun _ => Or.inl (by simp [Awaitable.done])⟩
    -- what was waiting for `_wake` is handed to the loop
    have hhanded : (w.waking.map DoneCallback.callback ++ (w.fired ++ w.aw.callbacks.map DoneCallback.callback)).Perm
        ((w.aw.callbacks ++ w.waking).map DoneCallback.callback ++ w.fired) := by
      rw [List.map_append, List.append_assoc, ← List.append_assoc]
      exact List.perm_append_comm
    exact hhanded.trans h.perm

theorem firedOnce_of_held (h : Held w) (hs : Sound intoPy w) : FiredOnce w := by
  have hnodup : ((w.aw.callbacks ++ w.waking).map DoneCallback.callback ++ w.fired).Nodup :=
    h.perm.nodup_iff.2 List.nodup_range
  refine ⟨fun i hi => ?_, fun i => ?_, fun hne => h.completed (Or.inl hne), fun hc hq i hi => ?_⟩
  · exact List.mem_range.1 (h.perm.mem_iff.1 (List.mem_append_right _ hi))
  · exact List.nodup_iff_count_le_one.1 (List.nodup_append.1 hnodup).2.1 i
  · obtain ⟨hready, hwaking, hstored, hawaiting⟩ := hq
    -- no callback waits: `_wake` would be ahead of it
    have hnil : w.aw.callbacks = [] := by
      by_contra hne
      rcases h.ahead hne with ha | ha | ha
      · have hempty := hs.empty (hawaiting ha)
        have hcb : w.aw.cb.isSome = true := by
          cases hcb : w.aw.cb with
          | none => exact absurd (by simp [Awaitable.callbacks, hcb]) hne
          | some st => rfl
        rcases hc with hd | hd
        · rw [(hs.cb_open hcb).1] at hd
          cases hd
        · rw [hempty.2] at hd
          cases hd
      · exact hstored ha
      · rw [hready] at ha
        cases ha
    have hperm := h.perm
    rw [hnil, hwaking] at hperm
    have hmem : i ∈ w.fired := hperm.mem_iff.2 (List.mem_range.2 hi)
    exact List.count_eq_one_of_mem (List.nodup_append.1 hnodup).2.1 hmem

/-! ## Nothing is left hanging -/

/-- the moves of channel, task and loop by themselves -/
def Inner : Event R → Prop
  | .store | .schedule | .run | .next => True
  | _ => False

theorem kept_of_inner {e : Event R} (h : Inner e) : Kept w e := by
  cases e <;> trivial

/-- `_wake` comes to its end -/
theorem drain_waking (intoPy : R → Except X V) (w : World R V X) : ∃ l : List (Event R), (∀ e ∈ l, Inner e) ∧
    (run (step intoPy) w l).waking = [] ∧ (run (step intoPy) w l).ready = w.ready ∧
    (run (step intoPy) w l).task = w.task ∧ (run (step intoPy) w l).chan = w.chan := by
  induction hw : w.waking generalizing w with
  | nil => exact ⟨[], by simp, hw, rfl, rfl, rfl⟩
  | cons cb cbs ih =>
    have hstep : step intoPy w .next = { w with waking := cbs }.fire cb := by simp only [step, hw]
    obtain ⟨l, hl, hwaking, hready, htask, hchan⟩ := ih ({ w with waking := cbs }.fire cb) rfl
    refine ⟨.next :: l, List.forall_mem_cons.2 ⟨trivial, hl⟩, ?_⟩
    rw [run_cons, hstep]
    exact ⟨hwaking, hready, htask, hchan⟩

/-- the loop empties its queue -/
theorem drain_ready (intoPy : R → Except X V) (w : World R V X) (hwaking : w.waking = []) : ∃ l : List (Event R),
    (∀ e ∈ l, Inner e) ∧ (run (step intoPy) w l).waking = [] ∧ (run (step intoPy) w l).ready = [] ∧
    (run (step intoPy) w l).task = w.task ∧ (run (step intoPy) w l).chan = w.chan := by
  induction hr : w.ready generalizing w with
  | nil => exact ⟨[], by simp, hwaking, hr, rfl, rfl⟩
  | cons handle rest ih =>
    have hstep : (step intoPy w .run).ready = rest ∧ (step intoPy w .run).task = w.task ∧
        (step intoPy w .run).chan = w.chan := by
      cases handle with
      | wake =>
        simp only [step, hwaking, hr, if_pos, World.wake]
        split <;> exact ⟨rfl, rfl, rfl⟩
      | call cb =>
        simp only [step, hwaking, hr, if_pos]
        exact ⟨rfl, rfl, rfl⟩
    obtain ⟨l, hl, hwaking₁, hready₁, htask₁, hchan₁⟩ := drain_waking intoPy (step intoPy w .run)
    obtain ⟨m, hm, hwaking₂, hready₂, htask₂, hchan₂⟩ := ih _ hwaking₁ (hready₁.trans hstep.1)
    refine ⟨.run :: (l ++ m), List.forall_mem_cons.2 ⟨trivial, List.forall_mem_append.2 ⟨hl, hm⟩⟩, ?_⟩
    rw [run_cons, run_append]
    exact ⟨hwaking₂, hready₂, htask₂.trans (htask₁.trans hstep.2.1), hchan₂.trans (hchan₁.trans hstep.2.2)⟩

/-- **From every state the world comes to rest by itself.** -/
theorem comes_to_rest (intoPy : R → Except X V) (w : World R V X) :
    ∃ l : List (Event R), (∀ e ∈ l, Inner e) ∧ Quiet (run (step intoPy) w l) := by
  -- the task finishes its work first
  obtain ⟨l, hl, hstored, hawaiting⟩ : ∃ l : List (Event R), (∀ e ∈ l, Inner e) ∧
      (run (step intoPy) w l).task ≠ .stored ∧
      ((run (step intoPy) w l).task = .awaiting → (run (step intoPy) w l).chan = .empty) := by
    refine ⟨[.store, .schedule], by simp [Inner], ?_⟩
    simp only [run_cons, run_nil, step]
    cases ht : w.task <;> cases hch : w.chan <;> simp [ht, hch]
  obtain ⟨m, hm, hwaking, -, htask, hchan⟩ := drain_waking intoPy (run (step intoPy) w l)
  obtain ⟨n, hn, hwaking', hready', htask', hchan'⟩ := drain_ready intoPy _ hwaking
  refine ⟨l ++ (m ++ n), List.forall_mem_append.2 ⟨hl, List.forall_mem_append.2 ⟨hm, hn⟩⟩, ?_⟩
  rw [run_append, run_append]
  have hsame : (run (step intoPy) (run (step intoPy) (run (step intoPy) w l) m) n).task = (run (step intoPy) w l).task :=
    htask'.trans htask
  refine ⟨hready', hwaking', by rw [hsame]; exact hstored, fun ht => ?_⟩
  rw [hsame] at ht
  rw [hchan', hchan]
  exact hawaiting ht

/-- an inner move registers nothing -/
theorem registered_move {e : Event R} (he : Inner e) (hm : Move intoPy w e w') : w'.registered = w.registered := by
  cases hm with
  | poll hp log => exact he.elim
  | register context => exact he.elim
  | wake hwaking hr =>
    simp only [World.wake]
    split <;> rfl
  | still log => rfl
  | produce hch => rfl
  | store ht hraw => rfl
  | schedule ht => rfl
  | call hwaking hr => rfl
  | next hwaking => rfl
  | cancel hdone log => rfl

theorem run_held {l : List (Event R)} (hl : Along (step intoPy) Kept World.new l) :
    Held (run (step intoPy) World.new l) ∧ Sound intoPy (run (step intoPy) World.new l) :=
  run_invariant (I := fun w => Held w ∧ Sound intoPy w)
    (fun w e h hk => ⟨h.1.move h.2 hk (step_cases intoPy w e), sound_step h.2 e⟩)
    ⟨Held.new, Sound.new⟩ hl

/-- **Exactly once.** In every run whose steps lose no callback, callbacks fire at most once and not before completion;
and once the awaitable is complete, channel, task and loop by themselves reach a state in which each callback that was
registered has fired exactly once. -/
theorem callbacks_fire_once (intoPy : R → Except X V) (l : List (Event R))
    (hl : Along (step intoPy) Kept World.new l) :
    let w := run (step intoPy) World.new l
    FiredOnce w ∧ (Completed w → ∃ m, (∀ e ∈ m, Inner e) ∧ Quiet (run (step intoPy) w m) ∧
      ∀ i, i < w.registered → (run (step intoPy) w m).fired.count i = 1) := by
  intro w
  obtain ⟨hheld, hsound⟩ := run_held hl
  refine ⟨firedOnce_of_held hheld hsound, fun hc => ?_⟩
  obtain ⟨m, hm, hq⟩ := comes_to_rest intoPy w
  have halong : Along (step intoPy) (fun _ e => Inner e) w m := along_of_forall hm
  -- inner moves lose no callback and undo no completion
  have hend : Held (run (step intoPy) w m) ∧ Sound intoPy (run (step intoPy) w m) ∧ Completed (run (step intoPy) w m) :=
    run_invariant (I := fun w => Held w ∧ Sound intoPy w ∧ Completed w)
      (fun w e h he =>
        have hm := step_cases intoPy w e
        ⟨h.1.move h.2.1 (kept_of_inner he) hm, sound_step h.2.1 e, completed_move h.2.1 hm h.2.2⟩)
      ⟨hheld, hsound, hc⟩ halong
  have hreg : (run (step intoPy) w m).registered = w.registered :=
    run_invariant (I := fun w' => w'.registered = w.registered)
      (fun w' e h he => (registered_move he (step_cases intoPy w' e)).trans h) rfl halong
  obtain ⟨hheld', hsound', hc'⟩ := hend
  refine ⟨m, hm, hq, fun i hi => ?_⟩
  exact (firedOnce_of_held hheld' hsound').all hc' hq i (by rw [hreg]; exact hi)

/-- outcomes that are Python objects as they are -/
def plain (n : ℕ) : Except Unit ℕ := .ok n

/-- six polls: the awaitable is in callback mode -/
def sixPolls : List (Event ℕ) := List.replicate 6 (.poll (some 0))

/-- a callback registered in callback mode, ahead of the outcome -/
def inTime : List (Event ℕ) := sixPolls ++ [.register none, .send 7, .store, .schedule, .run]

theorem in_time_fires : (run (step plain) World.new inTime).fired.count 0 = 1 := by
  have h := (callbacks_fire_once plain inTime (by decide)).1
  exact h.all (by decide) ⟨rfl, rfl, by decide, by decide⟩ 0 (by decide)

/-- a callback registered before callback mode, one whose callback state a poll drops ahead of `_wake`, and one
registered when the awaitable is done: the awaitable is complete, nothing is left to do, and they have not fired -/
theorem callbacks_lost :
    ¬ FiredOnce (run (step plain) World.new [.register none, .send 7, .poll (some 0)]) ∧
      ¬ FiredOnce (run (step plain) World.new
        (sixPolls ++ [.register none, .send 7, .store, .poll (some 0), .schedule, .run])) ∧
      ¬ FiredOnce (run (step plain) World.new [.send 7, .poll (some 0), .register none]) := by
  refine ⟨fun h => ?_, fun h => ?_, fun h => ?_⟩
  · exact absurd (h.all (by decide) ⟨rfl, rfl, by decide, by decide⟩ 0 (by decide)) (by decide)
  · exact absurd (h.all (by decide) ⟨rfl, rfl, by decide, by decide⟩ 0 (by decide)) (by decide)
  · exact absurd (h.all (by decide) ⟨rfl, rfl, by decide, by decide⟩ 0 (by decide)) (by decide)

/-! ## The truth -/

/-- the awaitable is done and tells what the producer did, or that it was cancelled -/
def Truthful (intoPy : R → Except X V) (aw : Awaitable V X) (chan : Channel R) : Prop :=
  aw.done = true ∧
    if aw.cancelled = true then aw.result = .error .cancelled ∧ aw.exception = some .cancelled
    else
      match outcome intoPy chan with
      | some (.ok v) => aw.result = .ok (some v) ∧ aw.exception = none
      | some (.error e) => aw.result = .error e ∧ aw.exception = some e
      | none => False

/-- a callback finds the truth, and no placeholder is given away -/
def Obs.Good (intoPy : R → Except X V) : Obs R V X → Prop
  | .called _ aw chan => Truthful intoPy aw chan
  | .result done ans => done = false → ans ≠ .ok none
  | .exception done ans => done = false → ans ≠ none
  | .polled _ | .cancel _ => True

/-- the steps on which the code keeps to that -/
def Honest (w : World R V X) : Event R → Prop
  | .run => w.waking = [] → w.ready.head? = some .wake → w.aw.callbacks = []
  | .result | .exception => w.aw.done = true
  | _ => True

/-- what a step adds to the log -/
def observed (intoPy : R → Except X V) (w : World R V X) : Event R → List (Obs R V X)
  | .poll loop => [.polled (w.poll intoPy loop).1]
  | .run =>
    if w.waking = [] then
      match w.ready with
      | [] => []
      | .wake :: _ => (w.aw.callbacks.take 1).map fun cb => .called cb w.takeCallbacks.aw w.chan
      | .call cb :: _ => [.called cb w.aw w.chan]
    else []
  | .next => (w.waking.take 1).map fun cb => .called cb w.aw w.chan
  | .cancel => [.cancel w.cancel.1]
  | .result => [.result w.aw.done w.aw.result]
  | .exception => [.exception w.aw.done w.aw.exception]
  | .register _ | .send _ | .drop | .store | .schedule => []

theorem log_poll (hp : Poll intoPy w w') : w'.log = w.log := by
  cases hp <;> rfl

theorem waking_poll (hp : Poll intoPy w w') : w'.waking = w.waking := by
  cases hp <;> rfl

theorem log_step (intoPy : R → Except X V) (w : World R V X) (e : Event R) :
    (step intoPy w e).log = w.log ++ observed intoPy w e := by
  cases e with
  | poll loop =>
    simp only [step, observed]
    rw [log_poll (poll_cases intoPy w loop)]
  | register context => simp [step, observed]
  | send raw =>
    simp only [step, observed, List.append_nil]
    split <;> rfl
  | drop =>
    simp only [step, observed, List.append_nil]
    split <;> rfl
  | store =>
    simp only [step, observed, List.append_nil]
    split <;> rfl
  | schedule =>
    simp only [step, observed, List.append_nil]
    split <;> rfl
  | run =>
    simp only [step, observed]
    split_ifs with hwaking
    · cases hr : w.ready with
      | nil => simp
      | cons handle rest =>
        cases handle with
        | wake =>
          simp only [World.wake]
          cases hcb : w.aw.callbacks <;> simp [World.fire, World.call, World.takeCallbacks]
        | call cb => simp [World.call]
    · simp
  | next =>
    simp only [step, observed]
    cases hw : w.waking <;> simp [World.fire, World.call]
  | cancel =>
    simp only [step, observed, World.cancel]
    split_ifs <;> rfl
  | result => rfl
  | exception => rfl

theorem truthful_of_cancelled {aw : Awaitable V X} (h : aw.cancelled = true) (chan : Channel R) :
    Truthful intoPy aw chan := by
  simp [Truthful, Awaitable.done, Awaitable.result, Awaitable.exception, h]

/-- on an open awaitable there is only the placeholder to give -/
theorem Sound.placeholder (h : Sound intoPy w) (hd : w.aw.done = false) :
    w.aw.result = .ok none ∧ w.aw.exception = none := by
  obtain ⟨hr, hc⟩ := done_eq_false.1 hd
  obtain ⟨hv, he⟩ := h.open_empty hr
  simp [Awaitable.result, Awaitable.exception, hc, hv, he]

/-- **One step**: what it shows is good exactly when it is honest -/
theorem observed_good_iff (h : Sound intoPy w) (hwaking : w.waking = []) (e : Event R) :
    (∀ o ∈ observed intoPy w e, o.Good intoPy) ↔ Honest w e := by
  cases e with
  | poll loop => simp [observed, Honest, Obs.Good]
  | register context => simp [observed, Honest]
  | send raw => simp [observed, Honest]
  | drop => simp [observed, Honest]
  | store => simp [observed, Honest]
  | schedule => simp [observed, Honest]
  | cancel => simp [observed, Honest, Obs.Good]
  | next => simp [observed, Honest, hwaking]
  | result =>
    simp only [observed, Honest, List.mem_singleton, forall_eq, Obs.Good]
    cases hd : w.aw.done with
    | true => simp
    | false => simp [(h.placeholder hd).1]
  | exception =>
    simp only [observed, Honest, List.mem_singleton, forall_eq, Obs.Good]
    cases hd : w.aw.done with
    | true => simp
    | false => simp [(h.placeholder hd).2]
  | run =>
    cases hr : w.ready with
    | nil => simp [observed, Honest, hwaking, hr]
    | cons handle rest =>
      cases handle with
      | call cb =>
        have hc := h.call_cancelled cb (by rw [hr]; exact List.mem_cons_self)
        simp [observed, Honest, hwaking, hr, Obs.Good, truthful_of_cancelled hc]
      | wake =>
        cases hcbs : w.aw.callbacks with
        | nil => simp [observed, Honest, hwaking, hr, hcbs]
        | cons cb cbs =>
          -- a callback is waiting, so the awaitable is open, and the callback finds it so
          have hcb : w.aw.cb.isSome = true := by
            cases hcb : w.aw.cb with
            | none => simp [Awaitable.callbacks, hcb] at hcbs
            | some st => rfl
          have hopen : w.takeCallbacks.aw.done = false := (h.cb_open hcb).1
          simp [observed, Honest, hwaking, hr, hcbs, Obs.Good, Truthful, hopen]

/-- an honest step leaves `_wake` nothing to call -/
theorem waking_move (hwaking : w.waking = []) {e : Event R} (he : Honest w e) (hm : Move intoPy w e w') :
    w'.waking = [] := by
  cases hm with
  | poll hp log => exact (waking_poll hp).trans hwaking
  | wake _ hr =>
    have hnil : w.aw.callbacks = [] := he hwaking (by rw [hr]; rfl)
    simp [hwaking, World.wake, hnil, World.takeCallbacks]
  | next hcons =>
    rw [hwaking] at hcons
    cases hcons
  | still log => exact hwaking
  | register context => exact hwaking
  | produce hch => exact hwaking
  | store ht hraw => exact hwaking
  | schedule ht => exact hwaking
  | call _ hr => exact hwaking
  | cancel hdone log => exact hwaking

/-- **The truth.** In every run: each callback is called on a finished awaitable that tells the outcome, and neither
`result()` nor `exception()` gives the placeholder of an open one, if and only if no step that runs `_wake` finds a
callback and both are asked only when the awaitable is done. -/
theorem truthful_iff (intoPy : R → Except X V) (l : List (Event R)) :
    (∀ o ∈ (run (step intoPy) World.new l).log, o.Good intoPy) ↔ Along (step intoPy) Honest World.new l := by
  induction l using List.reverseRecOn with
  | nil => simp [World.new, Along]
  | append_singleton l e ih =>
    have hsplit : (∀ o ∈ (run (step intoPy) World.new (l ++ [e])).log, o.Good intoPy) ↔
        (∀ o ∈ (run (step intoPy) World.new l).log, o.Good intoPy) ∧
          ∀ o ∈ observed intoPy (run (step intoPy) World.new l) e, o.Good intoPy := by
      rw [run_snoc, log_step]
      simp only [List.mem_append, or_imp, forall_and]
    rw [hsplit, ih, along_append]
    refine and_congr_right fun hl => ?_
    have hwaking : (run (step intoPy) (World.new (V := V) (X := X)) l).waking = [] :=
      run_invariant (I := fun w => w.waking = []) (fun w e hw he => waking_move hw he (step_cases intoPy w e)) rfl hl
    rw [observed_good_iff (run_sound intoPy l) hwaking]
    simp [Along]

/-- the callback of `inTime` finds the awaitable open -/
theorem wake_before_done : ¬ ∀ o ∈ (run (step plain) World.new inTime).log, o.Good plain := by
  intro h
  have hlog : ∃ aw, Obs.called ⟨0, none⟩ aw (.sent 7) ∈ (run (step plain) World.new inTime).log ∧ aw.done = false := by
    refine ⟨_, List.mem_of_getLast? (by rfl), rfl⟩
  obtain ⟨aw, hmem, hopen⟩ := hlog
  have hdone := (h _ hmem).1
  rw [hopen] at hdone
  cases hdone

end RedisRsPy.Bridge
