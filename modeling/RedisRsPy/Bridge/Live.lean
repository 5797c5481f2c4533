/-
Whether a `RedisRsAwaitable` can still receive its outcome.

It is LIVE while it is not done and either has its receiver, or is in callback mode, where the bridge task has the
receiver and fills the slot. A cancelled awaitable is not, nor is one that has lost the receiver to a poll without a loop.
What a producer sends to such an awaitable nobody gets.

Results:
- `arrives_of_live`: an outcome that is there reaches a live awaitable;
- `live_step`, `live_miss`, `done_cancel`: which steps keep an awaitable live.
-/
import RedisRsPy.Bridge.Outcome

namespace RedisRsPy.Bridge

open Lib

variable {R V X : Type} {intoPy : R → Except X V} {w w' : World R V X}

def World.live (w : World R V X) : Bool := !w.aw.done && (w.aw.rx || w.aw.cb.isSome)

/-- in callback mode the bridge task is there -/
def Spawned (w : World R V X) : Prop := w.aw.cb.isSome = true → w.task ≠ .unspawned

/-- the poll is among the first five, or can enter callback mode -/
def World.Keeps (w : World R V X) (loop : Option ℕ) : Prop :=
  w.aw.rx = true → w.aw.polls + 1 ≤ 5 ∨ loop.isSome = true

instance (w : World R V X) (loop : Option ℕ) : Decidable (w.Keeps loop) :=
  inferInstanceAs (Decidable (_ → _))

/-! ## The task is there -/

theorem Spawned.new : Spawned (World.new : World R V X) := by
  simp [Spawned, World.new, Awaitable.new]

theorem Spawned.poll (h : Spawned w) (hp : Poll intoPy w w') : Spawned w' := by
  cases hp with
  | idle hdone => exact h
  | slot hdone hcb hslot =>
    intro hcb'
    rw [settled_cb] at hcb'
    cases hcb'
  | chan hdone hrx ho =>
    intro hcb
    rw [settled_cb] at hcb
    exact h hcb
  | count hdone => exact h
  | lose hdone hrx => exact h
  | enter l hdone hrx => exact fun _ => by simp [World.entered]

theorem spawned_step (h : Spawned w) (e : Event R) : Spawned (step intoPy w e) := by
  obtain ⟨loop, rfl⟩ | rfl | ⟨hpoll, hcancel⟩ := event_kinds e
  · have hspawned : Spawned (w.poll intoPy loop).2 := h.poll (poll_cases intoPy w loop)
    exact hspawned
  · simp only [step, World.cancel]
    split_ifs
    · exact h
    · intro hcb
      cases hcb
  · have hm := step_cases intoPy w e
    intro hcb
    rw [core_congr (fun this => this.cb.isSome) isSome_core (core_move hpoll hcancel hm)] at hcb
    exact task_move hpoll hm (h hcb)

/-! ## What keeps an awaitable live -/

theorem live_iff : w.live = true ↔ w.aw.done = false ∧ (w.aw.rx = true ∨ w.aw.cb.isSome = true) := by
  simp [World.live]

/-- a step other than a poll or `cancel` -/
theorem live_step (intoPy : R → Except X V) (w : World R V X) {e : Event R} (hpoll : ∀ loop, e ≠ .poll loop)
    (hcancel : e ≠ .cancel) :
    (step intoPy w e).live = w.live ∧ (step intoPy w e).aw.done = w.aw.done := by
  have hcore := core_move hpoll hcancel (step_cases intoPy w e)
  have hdone := core_congr Awaitable.done (fun _ => rfl) hcore
  have hrx := core_congr Awaitable.rx (fun _ => rfl) hcore
  have hcb := core_congr (fun this => this.cb.isSome) isSome_core hcore
  exact ⟨by simp only [World.live, hdone, hrx, hcb], hdone⟩

theorem done_cancel (intoPy : R → Except X V) (w : World R V X) : (step intoPy w .cancel).aw.done = true := by
  simp only [step, World.cancel]
  split_ifs with hdone
  · exact hdone
  · simp [Awaitable.done]

theorem live_of_available (hdone : w.aw.done = false) {o : Except (Exn X) V} (ho : w.available intoPy = some o) :
    w.live = true := by
  refine live_iff.2 ⟨hdone, ?_⟩
  unfold World.available at ho
  split at ho
  · rename_i hcb _
    exact .inr (by rw [hcb]; rfl)
  · split_ifs at ho with hrx
    exact .inl hrx

theorem done_miss (w : World R V X) (loop : Option ℕ) : (w.miss loop).2.aw.done = w.aw.done := by
  have hm := miss_cases w loop
  generalize w.miss loop = out at hm
  cases hm <;> rfl

/-- a miss finishes with no value -/
theorem miss_ne_stop (w : World R V X) (loop : Option ℕ) (v : V) : (w.miss loop).1 ≠ .stop v := by
  have hm := miss_cases w loop
  generalize w.miss loop = out at hm
  cases hm <;> exact fun h => (nomatch h)

theorem live_miss (hs : Sound intoPy w) (loop : Option ℕ) :
    (w.miss loop).2.live = true ↔ w.live = true ∧ w.Keeps loop := by
  rw [live_iff, live_iff, done_miss, and_assoc]
  refine and_congr_right fun hdone => ?_
  have hm := miss_cases w loop
  generalize w.miss loop = out at hm
  cases hm with
  | wait hp => exact ⟨fun h => ⟨h, fun _ => .inl hp⟩, And.left⟩
  | consumed hrx => exact ⟨fun h => ⟨h, fun hrx' => absurd (hrx.symm.trans hrx') (by decide)⟩, And.left⟩
  | lose hp hrx =>
    -- the receiver is still there, so the awaitable is not in callback mode
    have hcb : w.aw.cb.isSome ≠ true := fun hcb => absurd ((hs.cb_open hcb).2.symm.trans hrx) (by decide)
    refine iff_of_false ?_ fun h => (h.2 hrx).elim hp (by decide)
    rintro (hfalse | hsome)
    · cases hfalse
    · exact hcb hsome
  | enter l hrx => exact iff_of_true (.inr rfl) ⟨.inl hrx, fun _ => .inr rfl⟩

/-! ## What reaches a live awaitable -/

theorem chan_step {e : Event R} (hsend : ∀ raw, e ≠ .send raw) (hdrop : e ≠ .drop) :
    (step intoPy w e).chan = w.chan := by
  cases e with
  | send raw => exact absurd rfl (hsend raw)
  | drop => exact absurd rfl hdrop
  | poll loop =>
    have hp := poll_cases intoPy w loop
    have hchan : (w.poll intoPy loop).2.chan = w.chan := by
      generalize (w.poll intoPy loop).2 = w' at hp
      cases hp <;> rfl
    exact hchan
  | register context => rfl
  | store => simp only [step]; split <;> rfl
  | schedule => simp only [step]; split <;> rfl
  | run =>
    simp only [step]
    split
    · split
      · rfl
      · unfold World.wake
        split <;> rfl
      · rfl
    · rfl
  | next => simp only [step]; split <;> rfl
  | cancel => simp only [step, World.cancel]; split <;> rfl
  | result => rfl
  | exception => rfl

/-- an outcome that is there reaches a live awaitable, once the bridge task has stored it -/
theorem arrives_of_live (hs : Sound intoPy w) (hspawned : Spawned w) (hlive : w.live = true) : Arrives intoPy w := by
  obtain ⟨hdone, hheld⟩ := live_iff.1 hlive
  intro o ho loop
  have hstored : w.aw.rx = false → w.aw.cb.isSome = true ∧ w.task ≠ .unspawned := by
    intro hrx
    have hcb := hheld.resolve_left (by simp [hrx])
    exact ⟨hcb, hspawned hcb⟩
  obtain ⟨this, hp, -⟩ := poll_available (by rw [store_aw]; exact hdone) (available_stored hs hdone hstored ho) loop
  exact hp

end RedisRsPy.Bridge
