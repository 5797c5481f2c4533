/-
What holds of a `RedisRsAwaitable` in every reachable state: where its outcome is (in the channel, in the slot, or in
`value` and `error`), that the outcome is the producer's, and what is on its way to the loop.
-/
import RedisRsPy.Bridge.Awaitable

namespace RedisRsPy.Bridge

open Lib

variable {R V X : Type} {intoPy : R → Except X V} {w w' : World R V X}

/-! ## Reachable states -/

structure Sound (intoPy : R → Except X V) (w : World R V X) : Prop where
  cb_open : w.aw.cb.isSome = true → w.aw.done = false ∧ w.aw.rx = false
  rx_task : w.aw.rx = true → w.task = .unspawned
  open_empty : w.aw.resolved = false → w.aw.value = none ∧ w.aw.error = none
  tells : w.aw.resolved = true → ∃ o, outcome intoPy w.chan = some o ∧ w.aw.Tells o
  slot_tells : ∀ raw, w.slot = some raw → outcome intoPy w.chan = some (outcomeOf intoPy raw)
  stored : w.task = .stored ∨ w.task = .finished → w.slot.isSome = true ∨ w.aw.done = true
  unstored : w.task = .unspawned ∨ w.task = .awaiting → w.slot = none
  wake_finished : .wake ∈ w.ready → w.task = .finished
  call_cancelled : ∀ cb, .call cb ∈ w.ready → w.aw.cancelled = true

theorem Sound.new : Sound intoPy World.new := by
  constructor <;> simp [World.new, Awaitable.new]

/-- the ghosts do not matter -/
theorem Sound.congr (h : Sound intoPy w) (haw : w'.aw = w.aw) (hchan : w'.chan = w.chan) (hslot : w'.slot = w.slot)
    (htask : w'.task = w.task) (hready : w'.ready = w.ready) : Sound intoPy w' where
  cb_open := by rw [haw]; exact h.cb_open
  rx_task := by rw [haw, htask]; exact h.rx_task
  open_empty := by rw [haw]; exact h.open_empty
  tells := by rw [haw, hchan]; exact h.tells
  slot_tells := by rw [hslot, hchan]; exact h.slot_tells
  stored := by rw [haw, hslot, htask]; exact h.stored
  unstored := by rw [hslot, htask]; exact h.unstored
  wake_finished := by rw [hready, htask]; exact h.wake_finished
  call_cancelled := by rw [hready, haw]; exact h.call_cancelled

theorem done_eq_false {this : Awaitable V X} : this.done = false ↔ this.resolved = false ∧ this.cancelled = false := by
  simp [Awaitable.done]

theorem Sound.poll (h : Sound intoPy w) (hp : Poll intoPy w w') : Sound intoPy w' := by
  cases hp with
  | idle hdone => exact h
  | @slot raw hdone hcb hslot =>
    obtain ⟨hr, hc⟩ := done_eq_false.1 hdone
    obtain ⟨hv, he⟩ := h.open_empty hr
    constructor
    · simp
    · intro hrx
      exact h.rx_task (by simpa using hrx)
    · simp
    · intro _
      exact ⟨_, h.slot_tells raw hslot, settled_tells { w.aw with cb := none } hv he _⟩
    · simp
    · intro _
      exact Or.inr (by simp [Awaitable.done])
    · exact fun _ => rfl
    · exact h.wake_finished
    · intro cb hcb'
      simpa using h.call_cancelled cb hcb'
  | @chan o hdone hrx ho =>
    obtain ⟨hr, hc⟩ := done_eq_false.1 hdone
    obtain ⟨hv, he⟩ := h.open_empty hr
    have htask := h.rx_task hrx
    constructor
    · intro hcb
      have hrx' := (h.cb_open (by simpa using hcb)).2
      rw [hrx] at hrx'
      cases hrx'
    · simp
    · simp
    · intro _
      exact ⟨o, ho, settled_tells { w.aw with rx := false } hv he o⟩
    · exact h.slot_tells
    · intro _
      exact Or.inr (by simp [Awaitable.done])
    · exact h.unstored
    · exact h.wake_finished
    · intro cb hcb'
      simpa using h.call_cancelled cb hcb'
  | count hdone =>
    exact ⟨h.cb_open, h.rx_task, h.open_empty, h.tells, h.slot_tells, h.stored, h.unstored, h.wake_finished,
      h.call_cancelled⟩
  | lose hdone hrx =>
    exact ⟨fun hcb => ⟨hdone, rfl⟩, fun hrx' => absurd hrx' (by simp [World.counted]), h.open_empty, h.tells,
      h.slot_tells, h.stored, h.unstored, h.wake_finished, h.call_cancelled⟩
  | enter l hdone hrx =>
    have htask := h.rx_task hrx
    refine ⟨fun _ => ⟨hdone, rfl⟩, fun hrx' => absurd hrx' (by simp [World.entered]), h.open_empty, h.tells, ?_, ?_,
      fun _ => rfl, fun hw => ?_, h.call_cancelled⟩
    · intro raw hraw
      simp [World.entered] at hraw
    · rintro (ht | ht) <;> simp [World.entered] at ht
    · have hf := h.wake_finished hw
      rw [htask] at hf
      cases hf

/-- before the producer acts, nothing has an outcome -/
theorem Sound.empty (h : Sound intoPy w) (hch : w.chan = .empty) : w.aw.resolved = false ∧ w.slot = none := by
  constructor
  · by_contra hr
    obtain ⟨o, ho, -⟩ := h.tells (by simpa using hr)
    rw [hch] at ho
    cases ho
  · cases hs : w.slot with
    | none => rfl
    | some raw =>
      have ho := h.slot_tells raw hs
      rw [hch] at ho
      cases ho

/-- the producer acts once -/
theorem Sound.produce (h : Sound intoPy w) (hch : w.chan = .empty) (ch : Channel R) :
    Sound intoPy { w with chan := ch } := by
  obtain ⟨hr, hs⟩ := h.empty hch
  refine ⟨h.cb_open, h.rx_task, h.open_empty, fun hr' => ?_, fun raw hraw => ?_, h.stored, h.unstored, h.wake_finished,
    h.call_cancelled⟩
  · have hr' : w.aw.resolved = true := hr'
    rw [hr] at hr'
    cases hr'
  · have hraw : w.slot = some raw := hraw
    rw [hs] at hraw
    cases hraw

theorem Sound.store (h : Sound intoPy w) (ht : w.task = .awaiting) {raw : Except Unit R}
    (hraw : outcome intoPy w.chan = some (outcomeOf intoPy raw)) :
    Sound intoPy { w with slot := some raw, task := .stored } := by
  refine ⟨h.cb_open, fun hrx => ?_, h.open_empty, h.tells, ?_, fun _ => Or.inl rfl, ?_, fun hw => ?_, h.call_cancelled⟩
  · have hu := h.rx_task hrx
    rw [ht] at hu
    cases hu
  · rintro raw' ⟨⟩
    exact hraw
  · rintro (hu | hu) <;> cases hu
  · have hf := h.wake_finished hw
    rw [ht] at hf
    cases hf

theorem Sound.takeCallbacks (h : Sound intoPy w) : Sound intoPy w.takeCallbacks := by
  refine ⟨fun hcb => h.cb_open ?_, h.rx_task, h.open_empty, h.tells, h.slot_tells, h.stored, h.unstored, h.wake_finished,
    h.call_cancelled⟩
  simpa [World.takeCallbacks] using hcb

theorem Sound.wake (h : Sound intoPy w) : Sound intoPy w.wake := by
  unfold World.wake
  split
  · exact h.takeCallbacks
  · exact h.takeCallbacks.congr rfl rfl rfl rfl rfl

theorem Sound.pop (h : Sound intoPy w) {handle : Handle} {rest : List Handle} (hr : w.ready = handle :: rest) :
    Sound intoPy { w with ready := rest } := by
  refine ⟨h.cb_open, h.rx_task, h.open_empty, h.tells, h.slot_tells, h.stored, h.unstored, fun hw => h.wake_finished ?_,
    fun cb hcb => h.call_cancelled cb ?_⟩
  · rw [hr]
    exact List.mem_cons_of_mem _ hw
  · rw [hr]
    exact List.mem_cons_of_mem _ hcb

theorem Sound.addDoneCallback (h : Sound intoPy w) (cb : DoneCallback) :
    Sound intoPy { w with aw := w.aw.addDoneCallback cb } := by
  unfold Awaitable.addDoneCallback
  split
  · rename_i st hst
    exact ⟨fun _ => h.cb_open (by rw [hst]; rfl), h.rx_task, h.open_empty, h.tells, h.slot_tells, h.stored, h.unstored,
      h.wake_finished, h.call_cancelled⟩
  · exact h

theorem Sound.move (h : Sound intoPy w) {e : Event R} (hm : Move intoPy w e w') : Sound intoPy w' := by
  cases hm with
  | still log => exact h.congr rfl rfl rfl rfl rfl
  | poll hp log => exact (h.poll hp).congr rfl rfl rfl rfl rfl
  | register context => exact (h.addDoneCallback _).congr rfl rfl rfl rfl rfl
  | produce hch => exact h.produce hch _
  | store ht hraw => exact h.store ht hraw
  | schedule ht =>
    refine ⟨h.cb_open, fun hrx => ?_, h.open_empty, h.tells, h.slot_tells, fun _ => h.stored (Or.inl ht), ?_,
      fun _ => rfl, fun cb hcb => h.call_cancelled cb (by simpa using hcb)⟩
    · have hu := h.rx_task hrx
      rw [ht] at hu
      cases hu
    · rintro (hu | hu) <;> cases hu
  | wake hwaking hr => exact (h.pop hr).wake
  | call hwaking hr => exact (h.pop hr).congr rfl rfl rfl rfl rfl
  | next hwaking => exact h.congr rfl rfl rfl rfl rfl
  | cancel hdone log =>
    refine ⟨by simp, by simp, h.open_empty, h.tells, h.slot_tells, fun _ => Or.inr ?_, h.unstored, fun hw => ?_, ?_⟩
    · simp [Awaitable.done]
    · apply h.wake_finished
      simpa using hw
    · exact fun _ _ => rfl

/-- **Every step keeps `Sound`** -/
theorem sound_step (h : Sound intoPy w) (e : Event R) : Sound intoPy (step intoPy w e) :=
  h.move (step_cases intoPy w e)

theorem run_sound (intoPy : R → Except X V) (l : List (Event R)) :
    Sound intoPy (run (step intoPy) World.new l) :=
  run_invariant' (I := Sound intoPy) (fun _ e h => sound_step h e) l Sound.new

end RedisRsPy.Bridge
