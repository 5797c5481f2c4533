/-
Whether the consumers of a bridge get its messages: each one, once, in order.

Every message the supervisor sends leaves the channel for one call. Per caller, what its calls took (without what is not
for Python) is a PASSAGE: it enters with the `recv` of a call, is held while the call can still hand it on, and leaves
when Python gets it. A message in the hands of a task is held as long as its awaitable is live: the task pops it before
it knows whether anybody receives it, and `let _ = tx.send` drops it when nobody does.

Result (`delivery_iff`): in any run of any consumers, nothing is lost, doubled or reordered if and only if no task takes
a message for an awaitable that is not live, no awaitable is cancelled with a message on its way, and no poll that comes
between the taking and the sending loses the receiver.
Witness (`cancelled_takes`): an awaitable is cancelled, and its task takes the next message.
-/
import RedisRsPy.Lib.Passage
import RedisRsPy.PubSub.Consumers

namespace RedisRsPy.PubSub.Consumers

open Lib

/-! ## What is delivered -/

def Task.dicts : Task → List PyMessage
  | .running => []
  | .holding raw | .sent raw => raw.dicts

/-- the message a call has taken and can still hand to its caller -/
def Call.onItsWay : Call → List PyMessage
  | .got msg => [msg.intoPyDict]
  | .task _ _ t aw => if aw.live then t.dicts else []
  | _ => []

variable {ι κ : Type} [DecidableEq ι] [DecidableEq κ]

section Passages

variable (caller : κ → ι)

/-- the messages for Python that calls of the caller took -/
def World.visible (w : World ι κ) (i : ι) : List PyMessage :=
  (w.taken.filter fun t => decide (caller t.call = i) && !skips t.ignore t.message).map fun t => t.message.intoPyDict

def World.handedTo (w : World ι κ) (i : ι) : List PyMessage :=
  (w.handed.filter fun h => decide (caller h.1 = i)).map Prod.snd

def World.onItsWay (w : World ι κ) (i : ι) : List PyMessage :=
  match w.current i with
  | some c => (w.calls c).onItsWay
  | none => []

def World.passage (w : World ι κ) (i : ι) : Passage PyMessage := ⟨w.visible caller i, w.onItsWay i, w.handedTo caller i⟩

structure Delivery (w : World ι κ) : Prop where
  /-- every message that was sent is in the channel, or left it for one call, in order -/
  channel : w.taken.map Taken.message ++ w.queue = w.sent
  /-- a caller was handed the messages its calls took, in order, but one that is on its way and those not for Python -/
  shown : ∀ i, (w.passage caller i).Intact
  /-- any poll gives the message on its way, once it is sent and the bridge task has stored it -/
  arrives : ∀ c ignore timed raw aw, w.calls c = .task ignore timed (.sent raw) aw → aw.live = true →
    aw.chan = .sent raw ∧ Bridge.Arrives RawResult.intoPy aw

/-- a message taken by the call can reach its caller -/
def Call.receives : Call → Bool
  | .task _ _ _ aw => aw.live
  | _ => true

/-- an event of the awaitable loses no message: there is none, or it is not `cancel`, nor a poll that finds nothing and
loses the receiver -/
def Call.Keeps (call : Call) (e : Bridge.Event RawResult) : Prop :=
  match call, e with
  | .task _ _ _ _, .cancel => call.onItsWay = []
  | .task _ _ _ aw, .poll loop => call.onItsWay ≠ [] → aw.available RawResult.intoPy = none → aw.Keeps loop
  | _, _ => True

/-- the step loses no message -/
def Keeps (w : World ι κ) : Event κ → Prop
  | .take c =>
    match decide (w.outbound = some c), (w.calls c).looking, w.queue with
    | true, some (ignore, _), msg :: _ => skips ignore msg = false → (w.calls c).receives = true
    | _, _, _ => True
  | .await c e => (w.calls c).Keeps e
  | _ => True

end Passages

/-! ## One call -/

/-- the channel of the awaitable, as its task left it -/
def Task.chan : Task → Bridge.Channel RawResult
  | .running | .holding _ => .empty
  | .sent raw => .sent raw

def Call.Sound : Call → Prop
  | .task _ _ t aw => Bridge.Sound RawResult.intoPy aw ∧ Bridge.Spawned aw ∧ aw.chan = t.chan
  | _ => True

/-- nothing is on its way in a call that has ended -/
theorem onItsWay_ended {call : Call} (h : call.ended = true) : call.onItsWay = [] := by
  cases call with
  | task ignore timed t aw =>
    have hlive : aw.live = false := by simp [Bridge.World.live, show aw.aw.done = true from h]
    simp [Call.onItsWay, hlive]
  | got msg => cases h
  | _ => rfl

/-- a call moves on: `v` is what it takes for Python, and `h` what it hands over -/
structure CallMove (K : Prop) (call call' : Call) (v h : List PyMessage) : Prop where
  sound : call'.Sound
  ended : call.ended = true → call'.ended = true
  passes : ∀ entered left, Passage.Move K ⟨entered, call.onItsWay, left⟩ ⟨entered ++ v, call'.onItsWay, left ++ h⟩

theorem callMove_quiet {K : Prop} (hk : K) {call call' : Call} (hsound : call'.Sound)
    (hended : call.ended = true → call'.ended = true) (hway : call'.onItsWay = call.onItsWay) :
    CallMove K call call' [] [] := by
  refine ⟨hsound, hended, fun entered left => ?_⟩
  rw [hway, List.append_nil, List.append_nil]
  exact .quiet hk

theorem sound_call (selfIgnore : Bool) (method : Method) : (method.call selfIgnore).Sound := by
  cases method with
  | agetMessage ignore timeout => exact ⟨Bridge.Sound.new, Bridge.Spawned.new, rfl⟩
  | anext => exact ⟨Bridge.Sound.new, Bridge.Spawned.new, rfl⟩
  | _ => trivial

theorem onItsWay_call (selfIgnore : Bool) (method : Method) : (method.call selfIgnore).onItsWay = [] := by
  cases method <;> rfl

theorem callMove_receive {call : Call} (hs : call.Sound) {ignore timed : Bool} (hl : call.looking = some (ignore, timed))
    (msg : PubSubMessage) : CallMove (call.receives = true) call (call.receive msg) [msg.intoPyDict] [] := by
  cases call with
  | waiting ig ti =>
    refine ⟨trivial, fun h => (nomatch h), fun entered left => ?_⟩
    rw [List.append_nil]
    exact .enter _ rfl
  | task ig ti t aw =>
    cases t with
    | running =>
      refine ⟨hs, id, fun entered left => ?_⟩
      rw [List.append_nil]
      cases hlive : aw.live with
      | true =>
        have hreceives : Call.receives (.task ig ti .running aw) = true := hlive
        simpa [Call.onItsWay, Call.receive, Task.dicts, RawResult.dicts, hlive] using
          Passage.Move.enter (p := ⟨entered, [], left⟩) msg.intoPyDict hreceives
      | false =>
        have hreceives : ¬ Call.receives (.task ig ti .running aw) = true := by simp [Call.receives, hlive]
        simpa [Call.onItsWay, Call.receive, Task.dicts, RawResult.dicts, hlive] using
          Passage.Move.miss (p := ⟨entered, [], left⟩) msg.intoPyDict hreceives
    | holding raw => cases hl
    | sent raw => cases hl
  | idle => cases hl
  | got m => cases hl
  | returned => cases hl

theorem callMove_giveUp {call : Call} (hs : call.Sound) {out : Bool × Bool} (hl : call.looking = some out) :
    CallMove True call call.giveUp [] [] := by
  cases call with
  | waiting ig ti => exact callMove_quiet trivial trivial (fun h => (nomatch h)) rfl
  | task ig ti t aw =>
    cases t with
    | running => exact callMove_quiet trivial hs id rfl
    | holding raw => cases hl
    | sent raw => cases hl
  | idle => cases hl
  | got m => cases hl
  | returned => cases hl

theorem callMove_return (msg : PubSubMessage) : CallMove True (.got msg) .returned [] [msg.intoPyDict] := by
  refine ⟨trivial, fun _ => rfl, fun entered left => ?_⟩
  rw [List.append_nil]
  exact .leave _ [] trivial rfl

/-! ## One awaitable -/

variable {ignore timed : Bool} {t : Task} {aw : Awaited}

theorem onItsWay_task : (Call.task ignore timed t aw).onItsWay = if aw.live then t.dicts else [] := rfl

theorem onItsWay_dead (hlive : aw.live = false) : (Call.task ignore timed t aw).onItsWay = [] := by
  rw [onItsWay_task, hlive]
  rfl

theorem live_of_onItsWay (h : (Call.task ignore timed t aw).onItsWay ≠ []) : aw.live = true := by
  by_contra hlive
  exact h (onItsWay_dead (by simpa using hlive))

/-- the task sends: whether the awaitable receives it stays as it was -/
theorem callMove_send {raw : RawResult} (hs : (Call.task ignore timed (.holding raw) aw).Sound) :
    CallMove True (.task ignore timed (.holding raw) aw)
      (.task ignore timed (.sent raw) (Bridge.step RawResult.intoPy aw (.send raw))) [] [] := by
  obtain ⟨hsound, hspawned, hchan⟩ := hs
  obtain ⟨hlive, hdone⟩ := Bridge.live_step RawResult.intoPy aw (e := .send raw)
    (fun _ h => (nomatch h)) (fun h => (nomatch h))
  refine callMove_quiet trivial ⟨Bridge.sound_step hsound _, Bridge.spawned_step hspawned _, ?_⟩ ?_ ?_
  · have hempty : aw.chan = .empty := hchan
    simp only [Bridge.step, hempty]
    rfl
  · exact fun h => hdone.trans h
  · rw [onItsWay_task, onItsWay_task, hlive]
    rfl

/-- after an event that leaves its sender alone the awaitable is sound -/
theorem sound_await (hs : (Call.task ignore timed t aw).Sound) {e : Bridge.Event RawResult} (he : ofSender e = false) :
    (Call.task ignore timed t (Bridge.step RawResult.intoPy aw e)).Sound := by
  obtain ⟨hsound, hspawned, hchan⟩ := hs
  refine ⟨Bridge.sound_step hsound e, Bridge.spawned_step hspawned e, ?_⟩
  rw [← hchan]
  refine Bridge.chan_step ?_ ?_
  · rintro raw rfl
    cases he
  · rintro rfl
    cases he

/-- an awaitable that is done drops what is on its way -/
theorem callMove_cancel (hs : (Call.task ignore timed t aw).Sound) :
    CallMove ((Call.task ignore timed t aw).Keeps .cancel) (.task ignore timed t aw)
      (.task ignore timed t (Bridge.step RawResult.intoPy aw .cancel)) [] [] := by
  have hdone := Bridge.done_cancel RawResult.intoPy aw
  have hended : (Call.task ignore timed t (Bridge.step RawResult.intoPy aw .cancel)).ended = true := hdone
  have hsound := sound_await hs (e := .cancel) rfl
  by_cases hway : (Call.task ignore timed t aw).onItsWay = []
  · exact callMove_quiet hway hsound (fun _ => hended) ((onItsWay_ended hended).trans hway.symm)
  · refine ⟨hsound, fun _ => hended, fun entered left => ?_⟩
    rw [onItsWay_ended hended, List.append_nil, List.append_nil]
    exact Passage.Move.lose (p := ⟨entered, _, left⟩) hway hway

/-- a poll that takes the outcome hands over what is on its way -/
theorem callMove_take (hs : (Call.task ignore timed t aw).Sound) (hdone : aw.aw.done = false)
    {o : Except (Bridge.Exn Empty) PyValue} (ho : aw.available RawResult.intoPy = some o) (loop : Option ℕ) :
    CallMove ((Call.task ignore timed t aw).Keeps (.poll loop)) (.task ignore timed t aw)
      (.task ignore timed t (Bridge.step RawResult.intoPy aw (.poll loop))) [] (delivered aw (.poll loop)) := by
  obtain ⟨hsound, hspawned, hchan⟩ := hs
  have hkeeps : (Call.task ignore timed t aw).Keeps (.poll loop) := by
    intro hway hnone
    rw [ho] at hnone
    cases hnone
  have hlive := Bridge.live_of_available hdone ho
  obtain ⟨this, hpolled, haw, -⟩ := Bridge.poll_available hdone ho loop
  have hdone' : (Bridge.step RawResult.intoPy aw (.poll loop)).aw.done = true := by
    have hsettled : (this.settled o).done = true := by simp [Bridge.Awaitable.done]
    exact (congrArg Bridge.Awaitable.done haw).trans hsettled
  have hended : (Call.task ignore timed t (Bridge.step RawResult.intoPy aw (.poll loop))).ended = true := hdone'
  -- the outcome is what the task sent
  have hsent : delivered aw (.poll loop) = t.dicts := by
    have hout := Bridge.available_outcome hsound ho
    rw [hchan] at hout
    cases t with
    | running => cases hout
    | holding raw => cases hout
    | sent raw =>
      obtain rfl : Bridge.outcomeOf RawResult.intoPy (.ok raw) = o := Option.some.inj hout
      simp only [delivered, hdone, hpolled]
      cases raw <;> rfl
  refine ⟨sound_await ⟨hsound, hspawned, hchan⟩ rfl, fun _ => hended, fun entered left => ?_⟩
  rw [onItsWay_ended hended, onItsWay_task, if_pos hlive, hsent, List.append_nil]
  cases hd : t.dicts with
  | nil =>
    rw [List.append_nil]
    exact .quiet hkeeps
  | cons d rest =>
    have hrest : rest = [] := by
      cases t with
      | running => cases hd
      | holding raw => cases raw <;> cases hd; rfl
      | sent raw => cases raw <;> cases hd; rfl
    rw [hrest]
    exact .leave d [] hkeeps rfl

/-- a poll that misses loses what is on its way where it loses the receiver -/
theorem callMove_miss (hs : (Call.task ignore timed t aw).Sound) (hdone : aw.aw.done = false)
    (ho : aw.available RawResult.intoPy = none) (loop : Option ℕ) :
    CallMove ((Call.task ignore timed t aw).Keeps (.poll loop)) (.task ignore timed t aw)
      (.task ignore timed t (Bridge.step RawResult.intoPy aw (.poll loop))) [] (delivered aw (.poll loop)) := by
  have hmiss := Bridge.poll_unavailable hdone ho loop
  have hnothing : delivered aw (.poll loop) = [] := by
    simp only [delivered, hmiss]
    split
    · rename_i d _ hstop
      exact absurd hstop (Bridge.miss_ne_stop aw loop _)
    · rfl
  have hlive : (Bridge.step RawResult.intoPy aw (.poll loop)).live = (aw.miss loop).2.live := by
    rw [← hmiss]
    rfl
  have hiff := Bridge.live_miss hs.1 loop
  have hopen : (Bridge.step RawResult.intoPy aw (.poll loop)).aw.done = false := by
    calc (aw.poll RawResult.intoPy loop).2.aw.done = (aw.miss loop).2.aw.done := by rw [hmiss]
      _ = false := (Bridge.done_miss aw loop).trans hdone
  have hsound := sound_await hs (e := .poll loop) rfl
  have hended : (Call.task ignore timed t aw).ended = true →
      (Call.task ignore timed t (Bridge.step RawResult.intoPy aw (.poll loop))).ended = true :=
    fun h => absurd (h.symm.trans hdone) (by decide)
  rw [hnothing]
  by_cases hway : (Call.task ignore timed t aw).onItsWay = []
  · refine callMove_quiet (fun h => absurd hway h) hsound hended ?_
    rw [hway]
    by_contra hway'
    have hlive' := hiff.1 (hlive.symm.trans (live_of_onItsWay hway'))
    rw [onItsWay_task, if_pos hlive'.1] at hway
    rw [onItsWay_task, hway, ite_self] at hway'
    exact hway' rfl
  · have hlive₀ := live_of_onItsWay hway
    by_cases hk : aw.Keeps loop
    · refine callMove_quiet (fun _ _ => hk) hsound hended ?_
      rw [onItsWay_task, onItsWay_task, hlive, hiff.2 ⟨hlive₀, hk⟩, hlive₀]
    · refine ⟨hsound, hended, fun entered left => ?_⟩
      have hdead : (Bridge.step RawResult.intoPy aw (.poll loop)).live = false := by
        rw [hlive]
        simpa [hlive₀] using mt hiff.1 (fun h => hk h.2)
      rw [onItsWay_dead hdead, List.append_nil, List.append_nil]
      exact Passage.Move.lose (p := ⟨entered, _, left⟩) (fun h => hk (h hway ho)) hway

theorem callMove_poll (hs : (Call.task ignore timed t aw).Sound) (loop : Option ℕ) :
    CallMove ((Call.task ignore timed t aw).Keeps (.poll loop)) (.task ignore timed t aw)
      (.task ignore timed t (Bridge.step RawResult.intoPy aw (.poll loop))) [] (delivered aw (.poll loop)) := by
  cases hdone : aw.aw.done with
  | true =>
    have hnothing : delivered aw (.poll loop) = [] := by simp [delivered, hdone]
    have hsame : (Bridge.step RawResult.intoPy aw (.poll loop)).aw = aw.aw := by
      have hpoll : (aw.poll RawResult.intoPy loop).2 = aw := Bridge.poll_done hdone loop
      have haw : (aw.poll RawResult.intoPy loop).2.aw = aw.aw := congrArg Bridge.World.aw hpoll
      exact haw
    have hended : (Call.task ignore timed t aw).ended = true := hdone
    have hended' : (Call.task ignore timed t (Bridge.step RawResult.intoPy aw (.poll loop))).ended = true :=
      (congrArg Bridge.Awaitable.done hsame).trans hdone
    rw [hnothing]
    refine callMove_quiet ?_ (sound_await hs rfl) (fun _ => hended') ?_
    · exact fun hway => absurd (onItsWay_ended hended) hway
    · rw [onItsWay_ended hended, onItsWay_ended hended']
  | false =>
    cases ho : aw.available RawResult.intoPy with
    | some o => exact callMove_take hs hdone ho loop
    | none => exact callMove_miss hs hdone ho loop

/-- **One event of an awaitable.** -/
theorem callMove_await (hs : (Call.task ignore timed t aw).Sound) {e : Bridge.Event RawResult}
    (he : ofSender e = false) :
    CallMove ((Call.task ignore timed t aw).Keeps e) (.task ignore timed t aw)
      (.task ignore timed t (Bridge.step RawResult.intoPy aw e)) [] (delivered aw e) := by
  obtain ⟨loop, rfl⟩ | rfl | ⟨hpoll, hcancel⟩ := Bridge.event_kinds e
  · exact callMove_poll hs loop
  · exact callMove_cancel hs
  · obtain ⟨hlive, hdone⟩ := Bridge.live_step RawResult.intoPy aw hpoll hcancel
    have hnothing : delivered aw e = [] := by
      cases e with
      | poll loop => exact absurd rfl (hpoll loop)
      | _ => rfl
    have hkeeps : (Call.task ignore timed t aw).Keeps e := by
      cases e with
      | poll loop => exact absurd rfl (hpoll loop)
      | cancel => exact absurd rfl hcancel
      | _ => trivial
    rw [hnothing]
    refine callMove_quiet hkeeps (sound_await hs he) (fun h => hdone.trans h) ?_
    rw [onItsWay_task, onItsWay_task, hlive]

/-! ## All calls -/

section Worlds

variable {caller : κ → ι} {selfIgnore : Bool} {w w' : World ι κ} {K : Prop}

/-- what holds after every run -/
structure Kept (caller : κ → ι) (w : World ι κ) : Prop where
  calls : ∀ c, (w.calls c).Sound
  /-- a caller is in one call at most, the last it made -/
  busy : ∀ c, (w.calls c).ended = false → w.current (caller c) = some c
  own : ∀ i c, w.current i = some c → caller c = i
  channel : w.taken.map Taken.message ++ w.queue = w.sent
  bounded : ∀ i, (w.passage caller i).Bounded

/-- a step that keeps the invariant, and moves one passage at most -/
structure Passes (caller : κ → ι) (K : Prop) (w w' : World ι κ) : Prop where
  kept : Kept caller w'
  shift : Passage.Shift K (w.passage caller) (w'.passage caller)

omit [DecidableEq κ] in
theorem kept_start : Kept caller World.start :=
  ⟨fun _ => trivial, fun _ h => (nomatch h), fun _ _ h => (nomatch h), rfl, fun _ => Nat.le_refl 0⟩

omit [DecidableEq κ] in
theorem passes_refl (h : Kept caller w) (hk : K) : Passes caller K w w := ⟨h, .quiet hk fun _ => rfl⟩

omit [DecidableEq κ] in
/-- nothing happens to the calls -/
theorem passes_same (h : Kept caller w) (hk : K) (hcalls : w'.calls = w.calls) (hcurrent : w'.current = w.current)
    (htaken : w'.taken = w.taken) (hhanded : w'.handed = w.handed)
    (hchannel : w'.taken.map Taken.message ++ w'.queue = w'.sent) : Passes caller K w w' := by
  have hsame : ∀ i, w'.passage caller i = w.passage caller i := by
    intro i
    simp only [World.passage, World.visible, World.onItsWay, World.handedTo, hcalls, hcurrent, htaken, hhanded]
  refine ⟨⟨?_, ?_, ?_, hchannel, fun i => ?_⟩, .quiet hk hsame⟩
  · rw [hcalls]
    exact h.calls
  · rw [hcalls, hcurrent]
    exact h.busy
  · rw [hcurrent]
    exact h.own
  · rw [hsame i]
    exact h.bounded i

/-- one call goes on: `v` is what it takes for Python, and `h` what it hands over -/
structure Acts (caller : κ → ι) (w : World ι κ) (c : κ) (call' : Call) (v h : List PyMessage) (w' : World ι κ) :
    Prop where
  calls : w'.calls = Function.update w.calls c call'
  current : w'.current = w.current
  channel : w'.taken.map Taken.message ++ w'.queue = w'.sent
  visible : ∀ i, w'.visible caller i = w.visible caller i ++ if caller c = i then v else []
  handed : ∀ i, w'.handedTo caller i = w.handedTo caller i ++ if caller c = i then h else []

variable {c : κ} {call' : Call} {v o : List PyMessage}

theorem calls_of_ne {c' : κ} (ha : Acts caller w c call' v o w') (hne : c' ≠ c) : w'.calls c' = w.calls c' := by
  rw [ha.calls, Function.update_of_ne hne]

theorem onItsWay_of_ne (h : Kept caller w) (ha : Acts caller w c call' v o w') {i : ι} (hi : i ≠ caller c) :
    w'.onItsWay i = w.onItsWay i := by
  unfold World.onItsWay
  rw [ha.current]
  cases hcurrent : w.current i with
  | none => rfl
  | some c' =>
    have hne : c' ≠ c := by
      rintro rfl
      exact hi (h.own i c' hcurrent).symm
    simp only [calls_of_ne ha hne]

theorem shift_of_acts (h : Kept caller w) (ha : Acts caller w c call' v o w')
    (hm : CallMove K (w.calls c) call' v o) : Passage.Shift K (w.passage caller) (w'.passage caller) := by
  refine .move (caller c) ?_ fun i hi => ?_
  · unfold World.passage
    rw [ha.visible, ha.handed, if_pos rfl, if_pos rfl]
    by_cases hcurrent : w.current (caller c) = some c
    · have hway : w.onItsWay (caller c) = (w.calls c).onItsWay := by simp only [World.onItsWay, hcurrent]
      have hway' : w'.onItsWay (caller c) = call'.onItsWay := by
        simp only [World.onItsWay, ha.current, hcurrent, ha.calls, Function.update_self]
      rw [hway, hway']
      exact hm.passes _ _
    · -- the call has ended, and only its task is left
      have hended : (w.calls c).ended = true := by
        by_contra hopen
        exact hcurrent (h.busy c (by simpa using hopen))
      have hsame : w'.onItsWay (caller c) = w.onItsWay (caller c) := by
        unfold World.onItsWay
        rw [ha.current]
        cases hc : w.current (caller c) with
        | none => rfl
        | some c' =>
          have hne : c' ≠ c := fun heq => hcurrent (by rw [hc, heq])
          simp only [calls_of_ne ha hne]
      have hpasses := hm.passes (w.visible caller (caller c)) (w.handedTo caller (caller c))
      rw [onItsWay_ended hended, onItsWay_ended (hm.ended hended)] at hpasses
      rw [hsame]
      exact hpasses.frame _
  · simp only [World.passage, ha.visible, ha.handed, onItsWay_of_ne h ha hi, if_neg (Ne.symm hi), List.append_nil]

theorem passes_of_acts (h : Kept caller w) (ha : Acts caller w c call' v o w')
    (hm : CallMove K (w.calls c) call' v o) : Passes caller K w w' := by
  have hshift := shift_of_acts h ha hm
  refine ⟨⟨fun c' => ?_, fun c' hopen => ?_, ?_, ha.channel, hshift.bounded h.bounded⟩, hshift⟩
  · by_cases hc : c' = c
    · rw [hc, ha.calls, Function.update_self]
      exact hm.sound
    · rw [calls_of_ne ha hc]
      exact h.calls c'
  · rw [ha.current]
    by_cases hc : c' = c
    · subst hc
      rw [ha.calls, Function.update_self] at hopen
      refine h.busy c' ?_
      by_contra hended
      exact absurd (hopen.symm.trans (hm.ended (by simpa using hended))) (by decide)
    · rw [calls_of_ne ha hc] at hopen
      exact h.busy c' hopen
  · rw [ha.current]
    exact h.own

/-! ## One step -/

omit [DecidableEq κ] in
/-- a message leaves the channel for a call -/
theorem visible_take {ignore : Bool} {msg : PubSubMessage} (htaken : w'.taken = w.taken ++ [⟨c, ignore, msg⟩]) (i : ι) :
    w'.visible caller i =
      w.visible caller i ++ if caller c = i then (if skips ignore msg then [] else [msg.intoPyDict]) else [] := by
  unfold World.visible
  rw [htaken, List.filter_append, List.map_append]
  congr 1
  by_cases hi : caller c = i
  · cases hskip : skips ignore msg <;> simp [hi, hskip]
  · simp [hi]

omit [DecidableEq κ] in
theorem handedTo_append (hhanded : w'.handed = w.handed ++ o.map fun d => (c, d)) (i : ι) :
    w'.handedTo caller i = w.handedTo caller i ++ if caller c = i then o else [] := by
  unfold World.handedTo
  rw [hhanded, List.filter_append, List.map_append]
  congr 1
  by_cases hi : caller c = i
  · simp [hi, List.filter_map, Function.comp_def]
  · simp [hi, List.filter_map, Function.comp_def]

/-- a call goes on without taking a message -/
theorem acts_hand (h : Kept caller w) (hcalls : w'.calls = Function.update w.calls c call')
    (hcurrent : w'.current = w.current) (hqueue : w'.queue = w.queue) (hsent : w'.sent = w.sent)
    (htaken : w'.taken = w.taken) (hhanded : w'.handed = w.handed ++ o.map fun d => (c, d)) :
    Acts caller w c call' [] o w' := by
  refine ⟨hcalls, hcurrent, ?_, fun i => ?_, handedTo_append hhanded⟩
  · rw [htaken, hqueue, hsent]
    exact h.channel
  · simp only [World.visible, htaken, ite_self, List.append_nil]

omit [DecidableEq ι] [DecidableEq κ] in
/-- nothing is on its way to a caller that is in no call -/
theorem onItsWay_free {i : ι} (hfree : w.free i = true) : w.onItsWay i = [] := by
  unfold World.free at hfree
  unfold World.onItsWay
  cases hcurrent : w.current i with
  | none => rfl
  | some c =>
    rw [hcurrent] at hfree
    exact onItsWay_ended hfree

/-- a caller that is in no call begins one -/
theorem kept_begin (h : Kept caller w) {c : κ} (hfree : w.free (caller c) = true)
    {call : Call} (hsound : call.Sound)
    (hcalls : w'.calls = Function.update w.calls c call)
    (hcurrent : w'.current = Function.update w.current (caller c) (some c))
    (hpassage : ∀ i, w'.passage caller i = w.passage caller i)
    (hchannel : w'.taken.map Taken.message ++ w'.queue = w'.sent) : Kept caller w' := by
  refine ⟨fun c' => ?_, fun c' hopen => ?_, fun i c' hc' => ?_, hchannel, fun i => ?_⟩
  · rw [hcalls]
    by_cases hc : c' = c
    · rw [hc, Function.update_self]
      exact hsound
    · rw [Function.update_of_ne hc]
      exact h.calls c'
  · rw [hcurrent]
    by_cases hc : c' = c
    · rw [hc, Function.update_self]
    · rw [hcalls, Function.update_of_ne hc] at hopen
      have hbusy := h.busy c' hopen
      have hne : caller c' ≠ caller c := by
        intro heq
        rw [heq] at hbusy
        simp only [World.free, hbusy] at hfree
        exact absurd (hfree.symm.trans hopen) (by decide)
      rw [Function.update_of_ne hne]
      exact hbusy
  · rw [hcurrent] at hc'
    by_cases hi : i = caller c
    · rw [hi, Function.update_self] at hc'
      rw [hi, Option.some.inj hc']
    · rw [Function.update_of_ne hi] at hc'
      exact h.own i c' hc'
  · rw [hpassage i]
    exact h.bounded i

theorem passes_begin (h : Kept caller w) (c : κ) (method : Method) :
    Passes caller True w (step caller selfIgnore w (.begin c method)) := by
  simp only [step]
  split
  · rename_i hfree
    have hpassage : ∀ i, World.passage caller
        { w.set c (method.call selfIgnore) with current := Function.update w.current (caller c) (some c) } i =
          w.passage caller i := by
      intro i
      simp only [World.passage, Passage.mk.injEq]
      refine ⟨rfl, ?_, rfl⟩
      by_cases hi : i = caller c
      · subst hi
        rw [onItsWay_free hfree]
        simp only [World.onItsWay, Function.update_self, World.set, onItsWay_call]
      · simp only [World.onItsWay, Function.update_of_ne hi, World.set]
        cases hcurrent : w.current i with
        | none => rfl
        | some c' =>
          have hne : c' ≠ c := by
            rintro rfl
            exact hi (h.own i c' hcurrent).symm
          simp only [Function.update_of_ne hne]
    exact ⟨kept_begin h hfree (sound_call selfIgnore method) rfl rfl hpassage h.channel, .quiet trivial hpassage⟩
  · exact passes_refl h trivial

theorem passes_take (h : Kept caller w) (c : κ) :
    Passes caller (Keeps w (.take c)) w (step caller selfIgnore w (.take c)) := by
  cases hlock : decide (w.outbound = some c) with
  | false =>
    simp only [step, Keeps, hlock]
    exact passes_refl h trivial
  | true =>
    cases hlooking : (w.calls c).looking with
    | none =>
      simp only [step, Keeps, hlock, hlooking]
      exact passes_refl h trivial
    | some out =>
      obtain ⟨ignore, timed⟩ := out
      cases hqueue : w.queue with
      | nil =>
        simp only [step, Keeps, hlock, hlooking, hqueue]
        exact passes_refl h trivial
      | cons msg rest =>
        simp only [step, Keeps, hlock, hlooking, hqueue]
        have hchannel : (w.taken ++ [(⟨c, ignore, msg⟩ : Taken κ)]).map Taken.message ++ rest = w.sent := by
          rw [← h.channel, hqueue, List.map_append, List.append_assoc]
          rfl
        cases hskip : skips ignore msg with
        | true =>
          refine passes_of_acts (v := []) (o := []) h ⟨rfl, rfl, hchannel, fun i => ?_, fun i => ?_⟩
            (callMove_quiet (fun hfalse => (nomatch hfalse)) (h.calls c) id rfl)
          · rw [visible_take rfl i, hskip]
            rfl
          · rw [ite_self, List.append_nil]
            rfl
        | false =>
          simp only [forall_const]
          refine passes_of_acts (v := [msg.intoPyDict]) (o := []) h ⟨rfl, rfl, hchannel, fun i => ?_, fun i => ?_⟩
            (callMove_receive (h.calls c) hlooking msg)
          · rw [visible_take rfl i, hskip]
            rfl
          · rw [ite_self, List.append_nil]
            rfl

theorem passes_elapse (h : Kept caller w) (c : κ) : Passes caller True w (step caller selfIgnore w (.elapse c)) := by
  simp only [step]
  split
  · rename_i hlock hlooking hqueue
    split_ifs
    · exact passes_of_acts h (acts_hand h rfl rfl rfl rfl rfl (List.append_nil _).symm)
        (callMove_giveUp (h.calls c) hlooking)
    · exact passes_refl h trivial
  · exact passes_refl h trivial

theorem passes_finish (h : Kept caller w) (c : κ) : Passes caller True w (step caller selfIgnore w (.finish c)) := by
  have hsound := h.calls c
  simp only [step]
  split
  · rename_i msg hc
    have hm := callMove_return msg
    rw [← hc] at hm
    exact passes_of_acts h (acts_hand h rfl rfl rfl rfl rfl rfl) hm
  · rename_i ignore timed raw aw hc
    rw [hc] at hsound
    have hm := callMove_send hsound
    rw [← hc] at hm
    exact passes_of_acts h (acts_hand h rfl rfl rfl rfl rfl (List.append_nil _).symm) hm
  · exact passes_refl h trivial

theorem passes_await (h : Kept caller w) (c : κ) (e : Bridge.Event RawResult) :
    Passes caller ((w.calls c).Keeps e) w (step caller selfIgnore w (.await c e)) := by
  have hsound := h.calls c
  simp only [step]
  split
  · rename_i ignore timed t aw hc hsender
    rw [hc] at hsound
    have hm := callMove_await hsound hsender
    rw [← hc] at hm
    exact passes_of_acts h (acts_hand h rfl rfl rfl rfl rfl rfl) hm
  · rename_i hnot
    refine passes_refl h ?_
    unfold Call.Keeps
    split
    · rename_i hc
      exact (hnot _ _ _ _ hc rfl).elim
    · rename_i hc
      exact (hnot _ _ _ _ hc rfl).elim
    · trivial

/-- **One step.** -/
theorem passes_step (selfIgnore : Bool) (h : Kept caller w) (e : Event κ) :
    Passes caller (Keeps w e) w (step caller selfIgnore w e) := by
  cases e with
  | arrive msg =>
    simp only [step]
    split_ifs
    · exact passes_refl h trivial
    · refine passes_same h trivial rfl rfl rfl rfl ?_
      rw [← List.append_assoc, h.channel]
  | down => exact passes_same h trivial rfl rfl rfl rfl h.channel
  | close => exact passes_same h trivial rfl rfl rfl rfl h.channel
  | lock c =>
    simp only [step]
    split_ifs
    · exact passes_same h trivial rfl rfl rfl rfl h.channel
    · exact passes_refl h trivial
  | begin c method => exact passes_begin h c method
  | take c => exact passes_take h c
  | elapse c => exact passes_elapse h c
  | finish c => exact passes_finish h c
  | await c e => exact passes_await h c e

omit [DecidableEq κ] in
/-- what the invariant leaves to show -/
theorem delivery_iff_intact (h : Kept caller w) : Delivery caller w ↔ ∀ i, (w.passage caller i).Intact := by
  refine ⟨Delivery.shown, fun hshown => ⟨h.channel, hshown, fun c ignore timed raw aw hc hlive => ?_⟩⟩
  have hsound := h.calls c
  rw [hc] at hsound
  obtain ⟨hsound, hspawned, hchan⟩ := hsound
  exact ⟨hchan, Bridge.arrives_of_live hsound hspawned hlive⟩

end Worlds

/-! ## Runs -/

/-- the only awaitable is cancelled before a message comes, and its task takes the message -/
def cancelThenArrive : List (Event ℕ) :=
  [.begin 0 (.agetMessage false (some 5)), .await 0 .cancel, .arrive (forwardMessage ⟨[97], [1], none⟩), .lock 0, .take 0,
    .finish 0]

end RedisRsPy.PubSub.Consumers
