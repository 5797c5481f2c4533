/-
What the polls of a `RedisRsAwaitable` give, and whether the outcome reaches them.

A poll that finds no outcome counts, up to 255. The first five ask the caller to wait; the sixth takes the receiver and
enters callback mode, if there is a running loop to wake. Without one the receiver is dropped, and the outcome with it.
A poll in callback mode that finds the slot empty has neither, and raises `awaitable already consumed`.

Result (`outcome_kept_iff`), for every run without `cancel()`: each poll asks to wait or finishes with the producer's
outcome, the counter never overflows, and the outcome can be polled once it is there, if and only if every poll without
an outcome finds the receiver and, from the sixth on, a running loop.
-/
import RedisRsPy.Bridge.Invariant

namespace RedisRsPy.Bridge

open Lib

variable {R V X : Type} {intoPy : R → Except X V} {w : World R V X}

/-! ## Polls -/

/-- a finished poll with this outcome -/
def Polled.of : Except (Exn X) V → Polled V X
  | .ok v => .stop v
  | .error e => .raise e

/-- the caller is asked to wait: a bare `None`, or the awaitable itself as a future -/
def Polled.waits : Polled V X → Bool
  | .none | .slf => true
  | .stop _ | .raise _ => false

/-- the outcome a poll can take now: from the slot, else from the channel -/
def World.available (intoPy : R → Except X V) (w : World R V X) : Option (Except (Exn X) V) :=
  match w.aw.cb, w.slot with
  | some _, some raw => some (outcomeOf intoPy raw)
  | _, _ => if w.aw.rx then outcome intoPy w.chan else none

theorem deliver_polled (this : Awaitable V X) (o : Except (Exn X) V) : (deliver this o).1 = .of o := by
  cases o <;> rfl

/-- in callback mode the outcome is in the slot -/
theorem available_slot {st : CallbackState} {raw : Except Unit R} (hcb : w.aw.cb = some st) (hs : w.slot = some raw) :
    w.available intoPy = some (outcomeOf intoPy raw) := by
  simp only [World.available, hcb, hs]

theorem available_channel (h : w.aw.cb = none ∨ w.slot = none) :
    w.available intoPy = if w.aw.rx then outcome intoPy w.chan else none := by
  rcases h with h | h
  · simp only [World.available, h]
  · cases hcb : w.aw.cb <;> simp only [World.available, hcb, h]

theorem settled_polls (this : Awaitable V X) (o : Except (Exn X) V) : (this.settled o).polls = this.polls := by
  cases o <;> rfl

/-- the poll takes `o` and resolves the awaitable -/
def Takes (intoPy : R → Except X V) (w : World R V X) (loop : Option ℕ) (o : Except (Exn X) V) : Prop :=
  ∃ this : Awaitable V X, (w.poll intoPy loop).1 = .of o ∧ (w.poll intoPy loop).2.aw = this.settled o ∧
    this.polls = w.aw.polls ∧ this.cancelled = w.aw.cancelled

theorem poll_slot (hdone : w.aw.done = false) {st : CallbackState} {raw : Except Unit R} (hcb : w.aw.cb = some st)
    (hs : w.slot = some raw) (loop : Option ℕ) : Takes intoPy w loop (outcomeOf intoPy raw) := by
  obtain ⟨hr, hc⟩ := done_eq_false.1 hdone
  refine ⟨{ w.aw with cb := none }, ?_, ?_, rfl, rfl⟩
  · simp only [World.poll, hc, hr, hcb, hs, Bool.false_eq_true, if_false, deliver_polled]
  · simp only [World.poll, hc, hr, hcb, hs, Bool.false_eq_true, if_false]
    rfl

/-- without a slot to take from, the channel is tried -/
theorem poll_channel (hdone : w.aw.done = false) (h : w.aw.cb = none ∨ w.slot = none) (loop : Option ℕ) :
    w.poll intoPy loop = if w.aw.rx = true then
        match w.chan with
        | .sent raw =>
          let o := deliver { w.aw with rx := false } (outcomeOf intoPy (.ok raw))
          (o.1, { w with aw := o.2 })
        | .closed =>
          let o := deliver { w.aw with rx := false } (outcomeOf intoPy (.error ()))
          (o.1, { w with aw := o.2 })
        | .empty => w.miss loop
      else w.miss loop := by
  obtain ⟨hr, hc⟩ := done_eq_false.1 hdone
  unfold World.poll
  rw [if_neg (by simp [hc]), if_neg (by simp [hr])]
  rcases h with h | h
  · split
    · rename_i hcb _
      rw [h] at hcb
      cases hcb
    · rfl
  · split
    · rename_i hs
      rw [h] at hs
      cases hs
    · rfl

/-- a poll of an open awaitable takes the outcome that is there -/
theorem poll_available (hdone : w.aw.done = false) {o : Except (Exn X) V} (ho : w.available intoPy = some o)
    (loop : Option ℕ) : Takes intoPy w loop o := by
  by_cases h : w.aw.cb = none ∨ w.slot = none
  · rw [available_channel h] at ho
    unfold Takes
    rw [poll_channel hdone h]
    split_ifs at ho ⊢ with hrx
    cases hch : w.chan with
    | empty => rw [hch] at ho; cases ho
    | sent raw =>
      rw [hch] at ho
      obtain rfl : outcomeOf intoPy (.ok raw) = o := Option.some.inj ho
      exact ⟨{ w.aw with rx := false }, deliver_polled _ _, rfl, rfl, rfl⟩
    | closed =>
      rw [hch] at ho
      obtain rfl : outcomeOf intoPy (.error ()) = o := Option.some.inj ho
      exact ⟨{ w.aw with rx := false }, deliver_polled _ _, rfl, rfl, rfl⟩
  · obtain ⟨hcb, hs⟩ := not_or.1 h
    obtain ⟨st, hcb⟩ := Option.ne_none_iff_exists'.1 hcb
    obtain ⟨raw, hs⟩ := Option.ne_none_iff_exists'.1 hs
    rw [available_slot hcb hs] at ho
    obtain rfl : outcomeOf intoPy raw = o := Option.some.inj ho
    exact poll_slot hdone hcb hs loop

/-- and misses without one -/
theorem poll_unavailable (hdone : w.aw.done = false) (ho : w.available intoPy = none) (loop : Option ℕ) :
    w.poll intoPy loop = w.miss loop := by
  by_cases h : w.aw.cb = none ∨ w.slot = none
  · rw [available_channel h] at ho
    rw [poll_channel hdone h]
    split_ifs at ho ⊢ with hrx
    · cases hch : w.chan with
      | empty => rfl
      | sent raw => rw [hch] at ho; cases ho
      | closed => rw [hch] at ho; cases ho
    · rfl
  · obtain ⟨hcb, hs⟩ := not_or.1 h
    obtain ⟨st, hcb⟩ := Option.ne_none_iff_exists'.1 hcb
    obtain ⟨raw, hs⟩ := Option.ne_none_iff_exists'.1 hs
    rw [available_slot hcb hs] at ho
    cases ho

/-- a resolved awaitable repeats its outcome -/
theorem poll_resolved (intoPy : R → Except X V) (hc : w.aw.cancelled = false) (hr : w.aw.resolved = true)
    {o : Except (Exn X) V} (ho : w.aw.Tells o) (loop : Option ℕ) : w.poll intoPy loop = (.of o, w) := by
  unfold World.poll
  simp only [hc, hr, Bool.false_eq_true, if_false, if_true]
  cases o with
  | ok v => simp only [ho.2, ho.1, Polled.of]
  | error e => simp only [ho.2, Polled.of]

/-! ## A miss -/

theorem toNat_succ {n : UInt8} (h : n.toNat < 255) : (n + 1).toNat = n.toNat + 1 := by
  have hone : (1 : UInt8).toNat = 1 := rfl
  rw [UInt8.toNat_add, hone]
  omega

theorem succ_le_five_iff {n : UInt8} (h : n.toNat < 255) : n + 1 ≤ 5 ↔ n.toNat < 5 := by
  have hfive : (5 : UInt8).toNat = 5 := rfl
  rw [UInt8.le_iff_toNat_le, toNat_succ h, hfive]
  omega

/-- the first five ask to wait -/
theorem miss_wait (hp : w.aw.polls.toNat < 5) (loop : Option ℕ) : w.miss loop = (.none, w.counted w.aw.rx) := by
  unfold World.miss
  rw [if_pos ((succ_le_five_iff (by omega)).2 hp)]
  rfl

/-- the sixth enters callback mode -/
theorem miss_enter (hp : 5 ≤ w.aw.polls.toNat) (hp' : w.aw.polls.toNat < 255) (hrx : w.aw.rx = true) (l : ℕ) :
    w.miss (some l) = (.slf, w.entered l) := by
  unfold World.miss
  rw [if_neg (mt (succ_le_five_iff hp').1 (Nat.not_lt.2 hp)), if_neg (by simp [hrx])]
  rfl

/-- or loses the receiver -/
theorem miss_off_loop (hp : 5 ≤ w.aw.polls.toNat) (hp' : w.aw.polls.toNat < 255) (hrx : w.aw.rx = true) :
    (w.miss none).1 = .raise (.runtime noLoopMsg) := by
  unfold World.miss
  rw [if_neg (mt (succ_le_five_iff hp').1 (Nat.not_lt.2 hp)), if_neg (by simp [hrx])]

/-- and there is none after it -/
theorem miss_consumed (hp : 5 ≤ w.aw.polls.toNat) (hp' : w.aw.polls.toNat < 255) (hrx : w.aw.rx = false)
    (loop : Option ℕ) : (w.miss loop).1 = .raise (.runtime consumedMsg) := by
  unfold World.miss
  rw [if_neg (mt (succ_le_five_iff hp').1 (Nat.not_lt.2 hp)), if_pos hrx]

/-! ## What only polls and `cancel` change -/

/-- the awaitable without its list of callbacks -/
def Awaitable.core (this : Awaitable V X) : Awaitable V X :=
  { this with cb := this.cb.map fun cb => { cb with callbacks := [] } }

@[simp] theorem core_core (this : Awaitable V X) : this.core.core = this.core := by
  cases hcb : this.cb <;> simp [Awaitable.core, hcb]

/-- a field that is not in the list of callbacks -/
theorem core_congr {β : Type} {this this' : Awaitable V X} (g : Awaitable V X → β) (hg : ∀ this, g this.core = g this)
    (h : this'.core = this.core) : g this' = g this := by
  rw [← hg this', h, hg]

theorem isSome_core (this : Awaitable V X) : this.core.cb.isSome = this.cb.isSome := by
  simp [Awaitable.core]

theorem core_addDoneCallback (this : Awaitable V X) (cb : DoneCallback) : (this.addDoneCallback cb).core = this.core := by
  unfold Awaitable.addDoneCallback
  split
  · rename_i st hst
    simp [Awaitable.core, hst]
  · rfl

/-- polls and `cancel` are the events apart -/
theorem event_kinds (e : Event R) :
    (∃ loop, e = .poll loop) ∨ e = .cancel ∨ ((∀ loop, e ≠ .poll loop) ∧ e ≠ .cancel) := by
  cases e with
  | poll loop => exact .inl ⟨loop, rfl⟩
  | cancel => exact .inr (.inl rfl)
  | _ => exact .inr (.inr ⟨fun _ h => (nomatch h), fun h => (nomatch h)⟩)

theorem core_move {w' : World R V X} {e : Event R} (hpoll : ∀ loop, e ≠ .poll loop) (hcancel : e ≠ .cancel)
    (hm : Move intoPy w e w') : w'.aw.core = w.aw.core := by
  cases hm with
  | poll hp log => exact absurd rfl (hpoll _)
  | cancel hdone log => exact absurd rfl hcancel
  | register context => exact core_addDoneCallback _ _
  | wake hwaking hr =>
    unfold World.wake
    split <;> exact core_core w.aw
  | still log => rfl
  | produce hch => rfl
  | store ht hraw => rfl
  | schedule ht => rfl
  | call hwaking hr => rfl
  | next hwaking => rfl

/-! ## Polls in turn -/

/-- what a poll should give and leave -/
structure Faithful (intoPy : R → Except X V) (w : World R V X) (loop : Option ℕ) : Prop where
  /-- the caller waits, or gets what the producer did -/
  answer : (w.poll intoPy loop).1.waits = true ∨
    ∃ o, outcome intoPy w.chan = some o ∧ (w.poll intoPy loop).1 = .of o
  dropped : (w.poll intoPy loop).1.waits = false →
    ((w.poll intoPy loop).1 = .raise (.runtime droppedMsg) ↔ w.chan = .closed)
  /-- the counter does not overflow -/
  fits : w.aw.polls.toNat + 1 < 256

def FaithfulAt (intoPy : R → Except X V) (w : World R V X) : Event R → Prop
  | .poll loop => Faithful intoPy w loop
  | _ => True

/-- the outcome is there for the next poll, once the bridge task has stored it -/
def Arrives (intoPy : R → Except X V) (w : World R V X) : Prop :=
  ∀ o, outcome intoPy w.chan = some o → ∀ loop, ((step intoPy w .store).poll intoPy loop).1 = .of o

/-- a poll without an outcome finds the receiver, and a running loop if it is not among the first five -/
def InTurn (intoPy : R → Except X V) (w : World R V X) : Event R → Prop
  | .poll loop => w.aw.done = false → w.available intoPy = none →
      w.aw.rx = true ∧ (w.aw.polls.toNat < 5 ∨ loop.isSome = true)
  | _ => True

/-- the polls counted so far -/
structure Counted (w : World R V X) : Prop where
  uncancelled : w.aw.cancelled = false
  held : w.aw.done = false → w.aw.rx = true → w.aw.polls.toNat ≤ 5
  freed : w.aw.done = false → w.aw.rx = false → w.aw.cb.isSome = true ∧ w.task ≠ .unspawned ∧ 5 ≤ w.aw.polls.toNat
  bound : w.aw.polls.toNat ≤ 6

theorem Counted.new : Counted (World.new : World R V X) := by
  constructor <;> simp [World.new, Awaitable.new]

/-- a step that leaves the awaitable, and does not undo the spawn of the task -/
theorem Counted.congr {w' : World R V X} (h : Counted w) (hcore : w'.aw.core = w.aw.core)
    (htask : w.task ≠ .unspawned → w'.task ≠ .unspawned) : Counted w' := by
  have hdone : w'.aw.done = w.aw.done := core_congr Awaitable.done (fun _ => rfl) hcore
  have hrx : w'.aw.rx = w.aw.rx := core_congr Awaitable.rx (fun _ => rfl) hcore
  have hpolls : w'.aw.polls = w.aw.polls := core_congr Awaitable.polls (fun _ => rfl) hcore
  have hcancelled : w'.aw.cancelled = w.aw.cancelled := core_congr Awaitable.cancelled (fun _ => rfl) hcore
  have hcb : w'.aw.cb.isSome = w.aw.cb.isSome := core_congr (fun this => this.cb.isSome) isSome_core hcore
  refine ⟨hcancelled.trans h.uncancelled, ?_, ?_, by rw [hpolls]; exact h.bound⟩
  · rw [hdone, hrx, hpolls]
    exact h.held
  · rw [hdone, hrx, hpolls, hcb]
    intro hd hr
    obtain ⟨hsome, hspawned, hcount⟩ := h.freed hd hr
    exact ⟨hsome, htask hspawned, hcount⟩

theorem task_move {w' : World R V X} {e : Event R} (hpoll : ∀ loop, e ≠ .poll loop) (hm : Move intoPy w e w')
    (ht : w.task ≠ .unspawned) : w'.task ≠ .unspawned := by
  cases hm with
  | poll hp log => exact absurd rfl (hpoll _)
  | store hawaiting hraw => simp
  | schedule hstored => simp
  | wake hwaking hr =>
    unfold World.wake
    split <;> exact ht
  | still log => exact ht
  | register context => exact ht
  | produce hch => exact ht
  | call hwaking hr => exact ht
  | next hwaking => exact ht
  | cancel hdone log => exact ht

/-- an awaitable that is done stays as it is -/
theorem poll_done (hdone : w.aw.done = true) (loop : Option ℕ) : (w.poll intoPy loop).2 = w := by
  have hp := poll_cases intoPy w loop
  generalize (w.poll intoPy loop).2 = w' at hp
  cases hp with
  | idle _ => rfl
  | slot hopen => rw [hdone] at hopen; cases hopen
  | chan hopen => rw [hdone] at hopen; cases hopen
  | count hopen => rw [hdone] at hopen; cases hopen
  | lose hopen => rw [hdone] at hopen; cases hopen
  | enter l hopen => rw [hdone] at hopen; cases hopen

theorem Counted.poll (h : Counted w) {loop : Option ℕ} (ht : InTurn intoPy w (.poll loop)) :
    Counted (w.poll intoPy loop).2 := by
  cases hdone : w.aw.done with
  | true =>
    rw [poll_done hdone]
    exact h
  | false =>
    cases ho : w.available intoPy with
    | some o =>
      obtain ⟨this, -, haw, hpolls, hcancelled⟩ := poll_available hdone ho loop
      have hresolved : (w.poll intoPy loop).2.aw.done = true := by
        rw [haw]
        simp [Awaitable.done]
      refine ⟨?_, fun hopen => ?_, fun hopen => ?_, ?_⟩
      · rw [haw, settled_cancelled, hcancelled]
        exact h.uncancelled
      · rw [hresolved] at hopen
        cases hopen
      · rw [hresolved] at hopen
        cases hopen
      · rw [haw, settled_polls, hpolls]
        exact h.bound
    | none =>
      obtain ⟨hrx, hturn⟩ := ht hdone ho
      rw [poll_unavailable hdone ho]
      have hheld := h.held hdone hrx
      have hsucc := toNat_succ (n := w.aw.polls) (by omega)
      rcases Nat.lt_or_ge w.aw.polls.toNat 5 with hp | hp
      · rw [miss_wait hp]
        refine ⟨h.uncancelled, fun _ _ => ?_, fun _ hfreed => ?_, ?_⟩
        · show (w.aw.polls + 1).toNat ≤ 5
          omega
        · have hfreed : w.aw.rx = false := hfreed
          rw [hrx] at hfreed
          cases hfreed
        · show (w.aw.polls + 1).toNat ≤ 6
          omega
      · obtain ⟨l, rfl⟩ := Option.isSome_iff_exists.1 (hturn.resolve_left (by omega))
        rw [miss_enter hp (by omega) hrx]
        refine ⟨h.uncancelled, fun _ hrx' => ?_, fun _ _ => ⟨rfl, ?_, ?_⟩, ?_⟩
        · cases hrx'
        · simp [World.entered]
        · show 5 ≤ (w.aw.polls + 1).toNat
          omega
        · show (w.aw.polls + 1).toNat ≤ 6
          omega

theorem counted_step (h : Counted w) {e : Event R} (hcancel : e ≠ .cancel) (ht : InTurn intoPy w e) :
    Counted (step intoPy w e) := by
  obtain ⟨loop, rfl⟩ | rfl | ⟨hpoll, -⟩ := event_kinds e
  · exact (h.poll ht).congr rfl id
  · exact absurd rfl hcancel
  · have hm := step_cases intoPy w e
    exact h.congr (core_move hpoll hcancel hm) (task_move hpoll hm)

/-- only a dropped sender is an operation that was dropped -/
theorem of_dropped_iff {ch : Channel R} {o : Except (Exn X) V} (ho : outcome intoPy ch = some o) :
    Polled.of o = .raise (.runtime droppedMsg) ↔ ch = .closed := by
  cases ch with
  | empty => cases ho
  | sent raw =>
    obtain rfl : converted intoPy raw = o := Option.some.inj ho
    simp only [converted, reduceCtorEq, iff_false]
    cases intoPy raw <;> simp [Polled.of]
  | closed =>
    obtain rfl : outcomeOf intoPy (.error ()) = o := Option.some.inj ho
    simp [outcomeOf, Polled.of]

theorem available_outcome (hs : Sound intoPy w) {o : Except (Exn X) V} (ho : w.available intoPy = some o) :
    outcome intoPy w.chan = some o := by
  unfold World.available at ho
  split at ho
  · rename_i hslot
    rw [← ho]
    exact hs.slot_tells _ hslot
  · split_ifs at ho
    exact ho

/-- a finishing poll with the producer's outcome is faithful -/
theorem faithful_of {loop : Option ℕ} (h : Counted w) {o : Except (Exn X) V} (ho : outcome intoPy w.chan = some o)
    (hp : (w.poll intoPy loop).1 = .of o) : Faithful intoPy w loop := by
  have hbound := h.bound
  refine ⟨Or.inr ⟨o, ho, hp⟩, fun _ => ?_, by omega⟩
  rw [hp]
  exact of_dropped_iff ho

/-- no producer says that the awaitable is consumed -/
theorem of_ne_consumed {ch : Channel R} {o : Except (Exn X) V} (ho : outcome intoPy ch = some o) :
    Polled.of o ≠ .raise (.runtime consumedMsg) := by
  cases ch with
  | empty => cases ho
  | sent raw =>
    obtain rfl : converted intoPy raw = o := Option.some.inj ho
    unfold converted
    cases intoPy raw <;> simp [Polled.of]
  | closed =>
    obtain rfl : outcomeOf intoPy (.error ()) = o := Option.some.inj ho
    simp [outcomeOf, Polled.of, droppedMsg, consumedMsg]

/-- **One poll** is faithful exactly when it is in turn -/
theorem faithful_iff (h : Counted w) (hs : Sound intoPy w) (loop : Option ℕ) :
    Faithful intoPy w loop ↔ InTurn intoPy w (.poll loop) := by
  have hbound := h.bound
  cases hdone : w.aw.done with
  | true =>
    have hr : w.aw.resolved = true := by simpa [Awaitable.done, h.uncancelled] using hdone
    obtain ⟨o, ho, htells⟩ := hs.tells hr
    have hp := congrArg Prod.fst (poll_resolved intoPy h.uncancelled hr htells loop)
    refine iff_of_true (faithful_of h ho hp) fun hopen => ?_
    rw [hdone] at hopen
    cases hopen
  | false =>
    cases hav : w.available intoPy with
    | some o =>
      obtain ⟨this, hp, -⟩ := poll_available hdone hav loop
      refine iff_of_true (faithful_of h (available_outcome hs hav) hp) fun _ hnone => ?_
      rw [hav] at hnone
      cases hnone
    | none =>
      constructor
      · intro hf _ _
        have hanswer := hf.answer
        rw [poll_unavailable hdone hav] at hanswer
        cases hrx : w.aw.rx with
        | false =>
          -- neither a receiver nor a result: the awaitable calls itself consumed
          obtain ⟨-, -, hp⟩ := h.freed hdone hrx
          rw [miss_consumed hp (by omega) hrx] at hanswer
          rcases hanswer with hw | ⟨o, ho, hof⟩
          · cases hw
          · exact absurd hof.symm (of_ne_consumed ho)
        | true =>
          refine ⟨rfl, ?_⟩
          by_contra hturn
          obtain ⟨hp, hloop⟩ := not_or.1 hturn
          obtain rfl : loop = none := by simpa using hloop
          rw [miss_off_loop (by omega) (by omega) hrx] at hanswer
          have hempty : outcome intoPy w.chan = none := by
            have hslot := hs.unstored (Or.inl (hs.rx_task hrx))
            rwa [available_channel (Or.inr hslot), if_pos hrx] at hav
          rcases hanswer with hw | ⟨o, ho, -⟩
          · cases hw
          · rw [hempty] at ho
            cases ho
      · intro ht
        obtain ⟨hrx, hturn⟩ := ht hdone hav
        have hheld := h.held hdone hrx
        have hwaits : (w.poll intoPy loop).1.waits = true := by
          rw [poll_unavailable hdone hav]
          rcases Nat.lt_or_ge w.aw.polls.toNat 5 with hp | hp
          · rw [miss_wait hp]
            rfl
          · obtain ⟨l, rfl⟩ := Option.isSome_iff_exists.1 (hturn.resolve_left (by omega))
            rw [miss_enter hp (by omega) hrx]
            rfl
        refine ⟨Or.inl hwaits, fun hfin => ?_, by omega⟩
        rw [hwaits] at hfin
        cases hfin

/-! ## The outcome arrives -/

theorem store_aw (intoPy : R → Except X V) (w : World R V X) : (step intoPy w .store).aw = w.aw := by
  simp only [step]
  split <;> rfl

/-- once the task has stored it, an outcome that is there can be taken by an awaitable that has its receiver, or has given
it to the task -/
theorem available_stored (hs : Sound intoPy w) (hdone : w.aw.done = false)
    (hlive : w.aw.rx = false → w.aw.cb.isSome = true ∧ w.task ≠ .unspawned) {o : Except (Exn X) V}
    (ho : outcome intoPy w.chan = some o) : (step intoPy w .store).available intoPy = some o := by
  cases hrx : w.aw.rx with
  | true =>
    have htask := hs.rx_task hrx
    have hsame : step intoPy w .store = w := by simp only [step, htask]
    rw [hsame, available_channel (Or.inr (hs.unstored (Or.inl htask))), if_pos hrx, ho]
  | false =>
    obtain ⟨hcb, hspawned⟩ := hlive hrx
    obtain ⟨st, hcb⟩ := Option.isSome_iff_exists.1 hcb
    have hcb' : (step intoPy w .store).aw.cb = some st := by rw [store_aw, hcb]
    -- the slot holds an outcome now, and it is the producer's
    obtain ⟨raw, hslot⟩ : ∃ raw, (step intoPy w .store).slot = some raw := by
      have hstored : w.task ≠ .awaiting → w.slot.isSome = true := by
        intro hne
        have htask : w.task = .stored ∨ w.task = .finished := by
          cases ht : w.task <;> simp_all
        exact (hs.stored htask).resolve_right (by simp [hdone])
      cases ht : w.task with
      | awaiting =>
        cases hch : w.chan with
        | empty => rw [hch] at ho; cases ho
        | sent raw => exact ⟨.ok raw, by simp only [step, ht, hch]⟩
        | closed => exact ⟨.error (), by simp only [step, ht, hch]⟩
      | unspawned => exact absurd ht hspawned
      | stored =>
        obtain ⟨raw, hraw⟩ := Option.isSome_iff_exists.1 (hstored (by simp [ht]))
        exact ⟨raw, by simp only [step, ht, hraw]⟩
      | finished =>
        obtain ⟨raw, hraw⟩ := Option.isSome_iff_exists.1 (hstored (by simp [ht]))
        exact ⟨raw, by simp only [step, ht, hraw]⟩
    have hchan : (step intoPy w .store).chan = w.chan := by
      simp only [step]
      split <;> simp_all
    have htells := (sound_step hs .store).slot_tells raw hslot
    rw [hchan, ho] at htells
    rw [available_slot hcb' hslot, ← Option.some.inj htells]

theorem arrives_of_counted (h : Counted w) (hs : Sound intoPy w) : Arrives intoPy w := by
  intro o ho loop
  cases hdone : w.aw.done with
  | true =>
    have hr : w.aw.resolved = true := by simpa [Awaitable.done, h.uncancelled] using hdone
    obtain ⟨o', ho', htells⟩ := hs.tells hr
    obtain rfl : o = o' := Option.some.inj (ho.symm.trans ho')
    have hp := poll_resolved intoPy (w := step intoPy w .store) (by rw [store_aw]; exact h.uncancelled)
      (by rw [store_aw]; exact hr) (by rw [store_aw]; exact htells) loop
    rw [hp]
  | false =>
    have hlive : w.aw.rx = false → w.aw.cb.isSome = true ∧ w.task ≠ .unspawned :=
      fun hrx => ⟨(h.freed hdone hrx).1, (h.freed hdone hrx).2.1⟩
    obtain ⟨this, hp, -⟩ := poll_available (by rw [store_aw]; exact hdone) (available_stored hs hdone hlive ho) loop
    exact hp

theorem run_counted {l : List (Event R)} (hl : .cancel ∉ l) (ht : Along (step intoPy) (InTurn intoPy) World.new l) :
    Counted (run (step intoPy) World.new l) := by
  have hlabel : Along (step intoPy) (fun _ e => e ≠ .cancel) World.new l :=
    along_of_forall fun e he hc => hl (by rw [← hc]; exact he)
  exact run_invariant (I := Counted) (fun w e h hp => counted_step h hp.1 hp.2) Counted.new (along_and.2 ⟨hlabel, ht⟩)

/-- **No outcome is lost or made up.** In every run without `cancel()`: each poll asks to wait or finishes with the
producer's outcome, `operation was dropped` being that of a dropped sender alone, the counter never overflows, and an
outcome that is there can be polled once the bridge task has stored it, if and only if every poll of the open awaitable
that finds no outcome finds the receiver, and from the sixth on a running loop. -/
theorem outcome_kept_iff (intoPy : R → Except X V) (l : List (Event R)) (hl : .cancel ∉ l) :
    (Along (step intoPy) (FaithfulAt intoPy) World.new l ∧ Arrives intoPy (run (step intoPy) World.new l)) ↔
      Along (step intoPy) (InTurn intoPy) World.new l := by
  have hiff : Along (step intoPy) (FaithfulAt intoPy) World.new l ↔ Along (step intoPy) (InTurn intoPy) World.new l := by
    refine along_iff (I := fun w => Counted w ∧ Sound intoPy w) (A := fun e => e ≠ .cancel) ?_ ?_
      (fun e he hc => hl (by rw [← hc]; exact he)) ⟨Counted.new, Sound.new⟩
    · exact fun w e hc h ht => ⟨counted_step h.1 hc ht, sound_step h.2 e⟩
    · intro w e _ h
      cases e with
      | poll loop => exact faithful_iff h.1 h.2 loop
      | _ => exact Iff.rfl
  rw [hiff]
  exact and_iff_left_of_imp fun ht => arrives_of_counted (run_counted hl ht) (run_sound intoPy l)

/-- outcomes that are Python objects as they are -/
def asIs (n : ℕ) : Except Unit ℕ := .ok n

/-- six polls under a loop, and the outcome after them -/
def sixThenSend : List (Event ℕ) := List.replicate 6 (.poll (some 0)) ++ [.send 7, .store]

theorem outcome_kept_six : ((run (step asIs) World.new sixThenSend).poll asIs none).1 = .stop 7 := by
  have hturn : Along (step asIs) (InTurn asIs) World.new sixThenSend := by
    refine ⟨fun _ _ => ?_, fun _ _ => ?_, fun _ _ => ?_, fun _ _ => ?_, fun _ _ => ?_, fun _ _ => ?_, trivial, trivial,
      trivial⟩ <;> decide
  have harrives := ((outcome_kept_iff asIs sixThenSend (by decide)).2 hturn).2 (.ok 7) rfl none
  exact harrives

/-- a seventh poll ahead of the outcome; and six polls without a loop: the outcome sent afterwards cannot be polled -/
theorem outcome_lost :
    ¬ Along (step asIs) (FaithfulAt asIs) World.new (List.replicate 7 (.poll (some 0))) ∧
      ¬ Arrives asIs (run (step asIs) World.new (List.replicate 6 (.poll none) ++ [.send 7])) := by
  constructor
  · intro h
    have hlast := h.2.2.2.2.2.2.1.answer
    rcases hlast with hw | ⟨o, ho, -⟩
    · exact absurd hw (by decide)
    · cases ho
  · intro h
    exact absurd (h (.ok 7) rfl none) (by decide)

end RedisRsPy.Bridge
