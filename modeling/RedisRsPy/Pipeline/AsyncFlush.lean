/-
Buffered commands against `aexecute`: what each command accepted by an `AsyncPipeline` comes to, over every interleaving
of buffering calls, `multi` calls and `aexecute` tasks.

`aexecute` copies the buffer, awaits the server, and clears the buffer as it is then. Between the copy and the clear two
things go wrong:
- a command buffered there is cleared without having been in the batch;
- a second `aexecute` that copies the buffer there sends the same commands again.
`Exclusive` forbids just these two steps.

Results:
- `step_inv`: under `Exclusive`, what the batches sent so far leave of the accepted commands is in the buffer, in order;
- `flush_exactly_once`: so every accepted command is in one batch or still in the buffer;
- `flush_loses_and_repeats`: a run that drops a command, and one that sends it twice.
-/
import Mathlib.Data.List.Perm.Subperm
import RedisRsPy.Pipeline.Lifecycle

namespace RedisRsPy.AsyncFlush

open Lib Prog Pipeline Lifecycle

/-- the calls of a run: buffered commands, `multi` and `aexecute` -/
inductive FlushCall where
  | command (name : String) (args : List Bytes)
  | multi
  | aexecute

def FlushCall.start : FlushCall → AsyncTask
  | command name args => AsyncCall.start (.command name args)
  | multi => AsyncCall.start .multi
  | aexecute => AsyncCall.start .aexecute

/-- the batches among the calls made, in order -/
def batches (log : List Query) : List (List BufferedCmd) :=
  log.filterMap fun q => match q with
    | .atomicPipe _ cmds => some cmds
    | .pipelineExec cmds _ => some cmds
    | _ => none

/-- every round trip succeeds -/
structure Faultless {ω : Type} (E : Server Query Answer ω) : Prop where
  reserve : ∀ w, ∃ c, (E.reply w .reserve).1 = .ok c
  cmd : ∀ w conn name args, ∃ v, (E.reply w (.cmd conn name args)).1 = .ok v
  atomicPipe : ∀ w conn cmds, ∃ v, (E.reply w (.atomicPipe conn cmds)).1 = .ok v
  pipelineExec : ∀ w cmds transaction, ∃ vs, (E.reply w (.pipelineExec cmds transaction)).1 = .ok vs

/-! ## What a task is doing -/

/-- the commands an `aexecute` has copied and not yet cleared -/
def copied : AsyncTask → Option (List BufferedCmd)
  | .aexecuteHas snap | .aexecuteTake snap | .aexecuteSendWatched snap _ | .aexecuteEndWatched snap _
  | .aexecuteSend snap | .aexecuteEnd snap _ => some snap.commands
  | _ => none

/-- its batch has been sent -/
def answered : AsyncTask → Bool
  | .aexecuteEndWatched _ _ | .aexecuteEnd _ _ => true
  | _ => false

/-- it has taken the reservation and will clear the watch -/
def releasing : AsyncTask → Bool
  | .aexecuteSendWatched _ _ | .aexecuteEndWatched _ _ => true
  | _ => false

/-- the reservation its path needs is there -/
def Routed (s : PipelineState) : AsyncTask → Prop
  | .aexecuteHas snap => snap.watching = true → s.reserved.isSome
  | .aexecuteTake _ => s.reserved.isSome
  | .aexecuteSendWatched _ taken => taken.isSome
  | _ => True

/-- the command its next step pushes -/
def pushed : AsyncTask → List BufferedCmd
  | .bufferPush cmd => [cmd]
  | _ => []

/-- a task of one of the three calls, at any of its points -/
def Flushing : AsyncTask → Prop
  | .bufferCmd _ | .bufferPush _ | .multi | .aexecute | .aexecuteHas _ | .aexecuteTake _ | .aexecuteSendWatched _ _
  | .aexecuteEndWatched _ _ | .aexecuteSend _ | .aexecuteEnd _ _ | .sent _ | .returned _ => True
  | _ => False

/-! ## Runs -/

/-- the tasks on one pipeline and a recording server, with the commands accepted so far -/
structure Flush (ι ω : Type) where
  pool : Pool ι AsyncTask (PipelineState × (ω × List Query))
  accepted : List BufferedCmd

namespace Flush

variable {ι ω : Type}

def state (f : Flush ι ω) : PipelineState := f.pool.shared.1

/-- the commands sent, batch after batch -/
def sent (f : Flush ι ω) : List BufferedCmd := (batches f.pool.shared.2.2).flatten

variable [DecidableEq ι]

def step (E : Server Query Answer ω) (f : Flush ι ω) (i : ι) : Flush ι ω :=
  ⟨f.pool.step (AsyncTask.next E.logged) i, f.accepted ++ pushed (f.pool.tasks i)⟩

end Flush

/-- every accepted command is in one batch, or unsent and still in the buffer -/
def AccountedFor {ι ω : Type} (f : Flush ι ω) : Prop :=
  ∃ unsent, List.Subperm unsent f.state.commands ∧ List.Perm f.accepted (f.sent ++ unsent)

/-- no command is pushed, and no `aexecute` copies a buffer with commands in it, while another one has a copy -/
def Exclusive {ι ω : Type} (f : Flush ι ω) (i : ι) : Prop :=
  match f.pool.tasks i with
  | .bufferPush _ => ∀ j, copied (f.pool.tasks j) = none
  | .aexecute => f.state.closed = false → f.state.commands ≠ [] → ∀ j, copied (f.pool.tasks j) = none
  | _ => True

/-- the pipeline after completed operations on a new one, then one task for each index -/
def start {ι ω : Type} (E : Server Query Answer ω) (w : ω) (transaction : Bool) (ops : List Op)
    (calls : ι → FlushCall) : Flush ι ω :=
  let p := run (fun p op => (asyncEnd E p op).2) (PipelineState.new transaction, w) ops
  ⟨⟨(p.1, p.2, []), fun i => (calls i).start⟩, p.1.commands⟩

/-! ## Points of a task -/

theorem batches_append (a b : List Query) : batches (a ++ b) = batches a ++ batches b := by
  simp [batches, List.filterMap_append]

theorem copied_of_answered {t : AsyncTask} (h : answered t = true) : (copied t).isSome := by
  cases t <;> simp_all [answered, copied]

theorem copied_of_releasing {t : AsyncTask} (h : releasing t = true) : (copied t).isSome := by
  cases t <;> simp_all [releasing, copied]

/-- only a task with a copy needs a reservation -/
theorem routed_of_not_copied (s : PipelineState) {t : AsyncTask} (h : copied t = none) : Routed s t := by
  cases t <;> simp_all [Routed, copied]

theorem Routed.congr {s s' : PipelineState} {t : AsyncTask} (h : Routed s t) (hres : s'.reserved = s.reserved) :
    Routed s' t := by
  cases t <;> simp_all [Routed]

/-- the watched path on a faultless server sends its commands in one batch -/
theorem batches_pipelineExecWatched {ω : Type} {E : Server Query Answer ω} (hE : Faultless E) (r : ReservedConnection)
    (keys : List String) (cmds : List BufferedCmd) (s : PipelineState) (w : ω) :
    batches (exec E (r.pipelineExecWatched keys cmds) s w).log = [cmds] := by
  unfold ReservedConnection.pipelineExecWatched
  split_ifs
  · obtain ⟨v, hv⟩ := hE.cmd w r.inner "WATCH" (keys.map asBytes)
    simp [queryAsync, hv, ReservedConnection.execBlock_log, batches]
  · simp [ReservedConnection.execBlock_log, batches]

/-! ## The invariant -/

section Invariant

variable {ι ω : Type}

structure Inv (f : Flush ι ω) : Prop where
  flushing : ∀ i, Flushing (f.pool.tasks i)
  copies : ∀ i c, copied (f.pool.tasks i) = some c → c = f.state.commands
  alone : f.state.commands ≠ [] → ∀ i j, (copied (f.pool.tasks i)).isSome → (copied (f.pool.tasks j)).isSome → i = j
  unsent : (∀ i, answered (f.pool.tasks i) = false) → f.accepted = f.sent ++ f.state.commands
  sent : ∀ i, answered (f.pool.tasks i) = true → f.accepted = f.sent
  reserved : f.state.watching = true → f.state.reserved.isSome ∨ ∃ i, releasing (f.pool.tasks i) = true
  routed : f.state.commands ≠ [] → ∀ i, Routed f.state (f.pool.tasks i)

/-- nobody has sent its batch yet, or somebody has -/
theorem answered_or (f : Flush ι ω) :
    (∀ i, answered (f.pool.tasks i) = false) ∨ ∃ i, answered (f.pool.tasks i) = true := by
  by_cases ha : ∃ i, answered (f.pool.tasks i) = true
  · exact Or.inr ha
  · refine Or.inl fun i => ?_
    simpa using fun hi => ha ⟨i, hi⟩

theorem Inv.accountedFor {f : Flush ι ω} (h : Inv f) : AccountedFor f := by
  rcases answered_or f with hno | ⟨i, hi⟩
  · exact ⟨f.state.commands, List.Subperm.refl _, by rw [h.unsent hno]⟩
  · exact ⟨[], List.nil_subperm, by rw [h.sent i hi, List.append_nil]⟩

/-- with an empty buffer everything accepted has been sent -/
theorem Inv.accepted_of_nil {f : Flush ι ω} (h : Inv f) (hn : f.state.commands = []) : f.accepted = f.sent := by
  rcases answered_or f with hno | ⟨i, hi⟩
  · rw [h.unsent hno, hn, List.append_nil]
  · exact h.sent i hi

/-- with commands in the buffer, a task with a copy is the only one with a copy -/
theorem Inv.not_copied {f : Flush ι ω} (h : Inv f) (hn : f.state.commands ≠ []) {i j : ι}
    (hi : (copied (f.pool.tasks i)).isSome) (hj : j ≠ i) : copied (f.pool.tasks j) = none := by
  cases hc : copied (f.pool.tasks j) with
  | none => rfl
  | some c => exact absurd (h.alone hn j i (by rw [hc]; rfl) hi) hj

variable [DecidableEq ι]

/-- task `i` moved to `t'`, with `q` shared, and `cmds` were accepted -/
def moved (f : Flush ι ω) (i : ι) (t' : AsyncTask) (q : PipelineState × (ω × List Query))
    (cmds : List BufferedCmd) : Flush ι ω :=
  ⟨⟨q, Function.update f.pool.tasks i t'⟩, f.accepted ++ cmds⟩

section Moved

variable (f : Flush ι ω) (i : ι) (t' : AsyncTask) (q : PipelineState × (ω × List Query)) (cmds : List BufferedCmd)

@[simp] theorem moved_state : (moved f i t' q cmds).state = q.1 := rfl

@[simp] theorem moved_sent : (moved f i t' q cmds).sent = (batches q.2.2).flatten := rfl

@[simp] theorem moved_accepted : (moved f i t' q cmds).accepted = f.accepted ++ cmds := rfl

@[simp] theorem moved_accepted_nil : (moved f i t' q []).accepted = f.accepted := List.append_nil _

theorem moved_forall (P : AsyncTask → Prop) :
    (∀ j, P ((moved f i t' q cmds).pool.tasks j)) ↔ P t' ∧ ∀ j, j ≠ i → P (f.pool.tasks j) :=
  Function.forall_update_iff _ fun _ t => P t

/-- what the moved task keeps, every task keeps -/
theorem moved_same {β : Type} (g : AsyncTask → β) (h : g t' = g (f.pool.tasks i)) (j : ι) :
    g ((moved f i t' q cmds).pool.tasks j) = g (f.pool.tasks j) := by
  by_cases hj : j = i
  · subst hj
    simp [moved, h]
  · simp [moved, hj]

end Moved

variable {f : Flush ι ω} {i : ι}

/-- a move that leaves buffer, batches, watch and reservation alone -/
theorem Inv.quiet (h : Inv f) {t' : AsyncTask} {s' : PipelineState} {w' : ω} (ht : Flushing t')
    (hc : copied t' = copied (f.pool.tasks i)) (ha : answered t' = answered (f.pool.tasks i))
    (hr : releasing t' = releasing (f.pool.tasks i)) (hcmds : s'.commands = f.state.commands)
    (hw : s'.watching = f.state.watching) (hres : s'.reserved = f.state.reserved)
    (hroute : f.state.commands ≠ [] → Routed s' t') : Inv (moved f i t' (s', w', f.pool.shared.2.2) []) := by
  have hc' := moved_same f i t' (s', w', f.pool.shared.2.2) [] copied hc
  have ha' := moved_same f i t' (s', w', f.pool.shared.2.2) [] answered ha
  have hr' := moved_same f i t' (s', w', f.pool.shared.2.2) [] releasing hr
  refine ⟨?_, ?_, ?_, ?_, ?_, ?_, ?_⟩
  · exact (moved_forall f i t' _ _ Flushing).2 ⟨ht, fun j _ => h.flushing j⟩
  · intro j c hj
    rw [hc'] at hj
    simpa [hcmds] using h.copies j c hj
  · intro hn j k hj hk
    rw [hc'] at hj hk
    exact h.alone (by simpa [hcmds] using hn) j k hj hk
  · intro hno
    have hold := h.unsent fun j => by rw [← ha']; exact hno j
    rw [moved_accepted_nil, moved_state, hcmds]
    exact hold
  · intro j hj
    rw [ha'] at hj
    rw [moved_accepted_nil]
    exact h.sent j hj
  · intro hwatch
    rcases h.reserved (by simpa [hw] using hwatch) with hs | ⟨j, hj⟩
    · exact Or.inl (by simpa [hres] using hs)
    · exact Or.inr ⟨j, by rw [hr']; exact hj⟩
  · intro hn
    have hn' : f.state.commands ≠ [] := by simpa [hcmds] using hn
    exact (moved_forall f i t' _ _ (Routed s')).2 ⟨hroute hn', fun j _ => (h.routed hn' j).congr hres⟩

/-- `aexecute` copies the buffer; nobody else has a copy unless the buffer is empty -/
theorem Inv.copy (h : Inv f) (hi : f.pool.tasks i = .aexecute)
    (hx : f.state.commands ≠ [] → ∀ j, copied (f.pool.tasks j) = none) :
    Inv (moved f i (.aexecuteHas f.state.snapshot) f.pool.shared []) := by
  have ha' := moved_same f i (.aexecuteHas f.state.snapshot) f.pool.shared [] answered (by rw [hi]; rfl)
  have hr' := moved_same f i (.aexecuteHas f.state.snapshot) f.pool.shared [] releasing (by rw [hi]; rfl)
  refine ⟨?_, ?_, ?_, ?_, ?_, ?_, ?_⟩
  · exact (moved_forall f i _ _ _ Flushing).2 ⟨trivial, fun j _ => h.flushing j⟩
  · refine (moved_forall f i _ _ _ fun t => ∀ c, copied t = some c → c = f.state.commands).2 ⟨?_, fun j _ => h.copies j⟩
    intro c hc
    exact (Option.some.inj hc).symm
  · intro hn j k hj hk
    have hone : ∀ l, (copied ((moved f i (.aexecuteHas f.state.snapshot) f.pool.shared []).pool.tasks l)).isSome →
        l = i := by
      intro l hl
      by_contra hne
      simp [moved, hne, hx hn l] at hl
    rw [hone j hj, hone k hk]
  · intro hno
    have hold := h.unsent fun j => by rw [← ha']; exact hno j
    rw [moved_accepted_nil]
    exact hold
  · intro j hj
    rw [ha'] at hj
    rw [moved_accepted_nil]
    exact h.sent j hj
  · intro hwatch
    rcases h.reserved hwatch with hs | ⟨j, hj⟩
    · exact Or.inl hs
    · exact Or.inr ⟨j, by rw [hr']; exact hj⟩
  · intro hn
    refine (moved_forall f i _ _ _ (Routed f.state)).2 ⟨fun hwatch => ?_, fun j _ => h.routed hn j⟩
    rcases h.reserved hwatch with hs | ⟨j, hj⟩
    · exact hs
    · have hcj := copied_of_releasing hj
      rw [hx hn j] at hcj
      cases hcj

/-- the reservation is taken for a watched execute -/
theorem Inv.take (h : Inv f) {snap : Snapshot} (hi : f.pool.tasks i = .aexecuteTake snap) (w' : ω) :
    Inv (moved f i (.aexecuteSendWatched snap f.state.reserved) (f.state.putReserved none, w', f.pool.shared.2.2) []) := by
  have hc' := moved_same f i (.aexecuteSendWatched snap f.state.reserved)
    (f.state.putReserved none, w', f.pool.shared.2.2) [] copied (by rw [hi]; rfl)
  have ha' := moved_same f i (.aexecuteSendWatched snap f.state.reserved)
    (f.state.putReserved none, w', f.pool.shared.2.2) [] answered (by rw [hi]; rfl)
  refine ⟨?_, ?_, ?_, ?_, ?_, ?_, ?_⟩
  · exact (moved_forall f i _ _ _ Flushing).2 ⟨trivial, fun j _ => h.flushing j⟩
  · intro j c hj
    rw [hc'] at hj
    exact h.copies j c hj
  · intro hn j k hj hk
    rw [hc'] at hj hk
    exact h.alone hn j k hj hk
  · intro hno
    have hold := h.unsent fun j => by rw [← ha']; exact hno j
    rw [moved_accepted_nil]
    exact hold
  · intro j hj
    rw [ha'] at hj
    rw [moved_accepted_nil]
    exact h.sent j hj
  · exact fun _ => Or.inr ⟨i, by simp [moved, releasing]⟩
  · intro hn
    refine (moved_forall f i _ _ _ (Routed (f.state.putReserved none))).2 ⟨?_, fun j hj => ?_⟩
    · have hroute := h.routed hn i
      rw [hi] at hroute
      exact hroute
    · have hci : (copied (f.pool.tasks i)).isSome := by rw [hi]; rfl
      exact routed_of_not_copied _ (h.not_copied hn hci hj)

/-- the batch of task `i` goes out -/
theorem Inv.send (h : Inv f) {t' : AsyncTask} {c : List BufferedCmd} (hi : copied (f.pool.tasks i) = some c)
    (hi' : answered (f.pool.tasks i) = false) (ht : Flushing t') (hc : copied t' = some c)
    (ha : answered t' = true) (hr : releasing t' = releasing (f.pool.tasks i)) (hroute : Routed f.state t')
    {w' : ω} {l' : List Query}
    (hl : (batches l').flatten = f.sent ++ c) : Inv (moved f i t' (f.state, w', l') []) := by
  have hc' := moved_same f i t' (f.state, w', l') [] copied (hc.trans hi.symm)
  have hr' := moved_same f i t' (f.state, w', l') [] releasing hr
  have hci := h.copies i c hi
  -- with commands in the buffer nobody else has a copy, so nothing of them was sent; an empty buffer sends nothing
  have hacc : f.accepted = f.sent ++ c := by
    by_cases hn : f.state.commands = []
    · rw [hci, hn, List.append_nil]
      exact h.accepted_of_nil hn
    · rw [hci]
      refine h.unsent fun j => ?_
      by_cases hj : j = i
      · rw [hj, hi']
      · have hcj := h.not_copied hn (by rw [hi]; rfl) hj
        cases haj : answered (f.pool.tasks j) with
        | false => rfl
        | true =>
          have hsome := copied_of_answered haj
          rw [hcj] at hsome
          cases hsome
  refine ⟨?_, ?_, ?_, ?_, ?_, ?_, ?_⟩
  · exact (moved_forall f i _ _ _ Flushing).2 ⟨ht, fun j _ => h.flushing j⟩
  · intro j d hj
    rw [hc'] at hj
    exact h.copies j d hj
  · intro hn j k hj hk
    rw [hc'] at hj hk
    exact h.alone hn j k hj hk
  · intro hno
    have hself := hno i
    simp [moved, ha] at hself
  · intro j _
    simp [hl, hacc]
  · intro hwatch
    rcases h.reserved hwatch with hs | ⟨j, hj⟩
    · exact Or.inl hs
    · exact Or.inr ⟨j, by rw [hr']; exact hj⟩
  · intro hn
    exact (moved_forall f i _ _ _ (Routed f.state)).2 ⟨hroute, fun j _ => h.routed hn j⟩

/-- the buffer is cleared after the batch of task `i` was sent -/
theorem Inv.clear (h : Inv f) {raw : RawResult} {s' : PipelineState} {w' : ω}
    (hi : answered (f.pool.tasks i) = true) (hcmds : s'.commands = [])
    (hw : s'.watching = true → releasing (f.pool.tasks i) = false ∧ f.state.watching = true ∧
      s'.reserved = f.state.reserved) :
    Inv (moved f i (.sent raw) (s', w', f.pool.shared.2.2) []) := by
  have hacc := h.sent i hi
  refine ⟨?_, ?_, ?_, ?_, ?_, ?_, ?_⟩
  · exact (moved_forall f i _ _ _ Flushing).2 ⟨trivial, fun j _ => h.flushing j⟩
  · refine (moved_forall f i _ _ _ fun t => ∀ c, copied t = some c → c = s'.commands).2 ⟨?_, fun j hj c hc => ?_⟩
    · intro c hc
      cases hc
    · by_cases hn : f.state.commands = []
      · rw [h.copies j c hc, hn, hcmds]
      · rw [h.not_copied hn (copied_of_answered hi) hj] at hc
        cases hc
  · exact fun hn => absurd hcmds hn
  · intro _
    rw [moved_accepted_nil, moved_state, hcmds, List.append_nil]
    exact hacc
  · intro j _
    rw [moved_accepted_nil]
    exact hacc
  · intro hwatch
    obtain ⟨hri, hold, hres⟩ := hw hwatch
    rcases h.reserved hold with hs | ⟨j, hj⟩
    · exact Or.inl (by rw [moved_state, hres]; exact hs)
    · have hne : j ≠ i := by
        rintro rfl
        rw [hri] at hj
        cases hj
      exact Or.inr ⟨j, by simpa [moved, hne] using hj⟩
  · exact fun hn => absurd hcmds hn

/-- a command is pushed while nobody has a copy -/
theorem Inv.push (h : Inv f) {cmd : BufferedCmd} (hx : ∀ j, copied (f.pool.tasks j) = none)
    (out : PyResult CmdRet) (w' : ω) :
    Inv (moved f i (.returned out) (f.state.push cmd, w', f.pool.shared.2.2) [cmd]) := by
  have hnone : ∀ j, copied ((moved f i (.returned out) (f.state.push cmd, w', f.pool.shared.2.2) [cmd]).pool.tasks j) =
      none :=
    (moved_forall f i _ _ _ fun t => copied t = none).2 ⟨rfl, fun j _ => hx j⟩
  have hfree : ∀ j, answered (f.pool.tasks j) = false := by
    intro j
    cases haj : answered (f.pool.tasks j) with
    | false => rfl
    | true =>
      have hsome := copied_of_answered haj
      rw [hx j] at hsome
      cases hsome
  refine ⟨?_, ?_, ?_, ?_, ?_, ?_, ?_⟩
  · exact (moved_forall f i _ _ _ Flushing).2 ⟨trivial, fun j _ => h.flushing j⟩
  · intro j c hj
    rw [hnone j] at hj
    cases hj
  · intro _ j k hj _
    rw [hnone j] at hj
    cases hj
  · intro _
    simp only [moved_accepted, moved_sent, moved_state, PipelineState.push_commands, h.unsent hfree, List.append_assoc]
    rfl
  · intro j hj
    have hsome := copied_of_answered hj
    rw [hnone j] at hsome
    cases hsome
  · intro hwatch
    rcases h.reserved hwatch with hs | ⟨j, hj⟩
    · exact Or.inl hs
    · have hsome := copied_of_releasing hj
      rw [hx j] at hsome
      cases hsome
  · exact fun _ j => routed_of_not_copied _ (hnone j)

theorem step_eq (E : Server Query Answer ω) {t : AsyncTask} (ht : f.pool.tasks i = t) :
    f.step E i = moved f i (AsyncTask.next E.logged t f.pool.shared).1 (AsyncTask.next E.logged t f.pool.shared).2
      (pushed t) := by
  subst ht
  rfl

/-- a task that is finished, or that leaves without touching anything -/
theorem Inv.leave (h : Inv f) {t' : AsyncTask} {w' : ω} (ht : Flushing t') (hc : copied t' = copied (f.pool.tasks i))
    (ha : answered t' = answered (f.pool.tasks i)) (hr : releasing t' = releasing (f.pool.tasks i))
    (hroute : f.state.commands ≠ [] → Routed f.state t') : Inv (moved f i t' (f.state, w', f.pool.shared.2.2) []) :=
  h.quiet ht hc ha hr rfl rfl rfl hroute

/-- **Step lemma.** Under the discipline every move of every task keeps the invariant. -/
theorem step_inv {E : Server Query Answer ω} (hE : Faultless E) (f : Flush ι ω) (i : ι) (h : Inv f)
    (hx : Exclusive f i) : Inv (f.step E i) := by
  have hfl := h.flushing i
  unfold Exclusive at hx
  cases ht : f.pool.tasks i with
  | bufferCmd cmd =>
    rw [step_eq E ht]
    have hq : AsyncTask.next E.logged (.bufferCmd cmd) f.pool.shared =
      if f.state.closed then (.returned (raise .RedisError closedMsg), f.pool.shared)
      else (.bufferPush cmd, f.pool.shared) := rfl
    rw [hq]
    split_ifs
    · exact h.leave trivial (by rw [ht]; rfl) (by rw [ht]; rfl) (by rw [ht]; rfl) fun _ => trivial
    · exact h.leave trivial (by rw [ht]; rfl) (by rw [ht]; rfl) (by rw [ht]; rfl) fun _ => trivial
  | bufferPush cmd =>
    rw [ht] at hx
    rw [step_eq E ht]
    exact h.push hx _ _
  | multi =>
    rw [step_eq E ht]
    refine h.quiet trivial (by rw [ht]; rfl) (by rw [ht]; rfl) (by rw [ht]; rfl) ?_ ?_ ?_ fun _ => trivial
    · exact multiSection_commands _
    · exact multiSection_watching _
    · exact multiSection_reserved _
  | aexecute =>
    rw [ht] at hx
    rw [step_eq E ht]
    have hq : AsyncTask.next E.logged .aexecute f.pool.shared =
        if f.state.closed then (.sent (.error .RedisError closedMsg), f.pool.shared)
        else if ¬ f.state.pending then (.sent (.value (.array [])), f.pool.shared)
        else (.aexecuteHas f.state.snapshot, f.pool.shared) := rfl
    rw [hq]
    split_ifs with hc hp
    · exact h.leave trivial (by rw [ht]; rfl) (by rw [ht]; rfl) (by rw [ht]; rfl) fun _ => trivial
    · exact h.copy ht (hx (by simpa using hc))
    · exact h.leave trivial (by rw [ht]; rfl) (by rw [ht]; rfl) (by rw [ht]; rfl) fun _ => trivial
  | aexecuteHas snap =>
    rw [step_eq E ht]
    have hroute := fun hn => h.routed hn i
    rw [ht] at hroute
    have hq : AsyncTask.next E.logged (.aexecuteHas snap) f.pool.shared =
        if snap.watching ∨ (snap.explicitTransaction ∧ f.state.reserved.isSome) then (.aexecuteTake snap, f.pool.shared)
        else (.aexecuteSend snap, f.pool.shared) := rfl
    rw [hq]
    split_ifs with hw
    · refine h.leave trivial (by rw [ht]; rfl) (by rw [ht]; rfl) (by rw [ht]; rfl) fun hn => ?_
      rcases hw with hw | ⟨_, hr⟩
      · exact hroute hn hw
      · exact hr
    · exact h.leave trivial (by rw [ht]; rfl) (by rw [ht]; rfl) (by rw [ht]; rfl) fun _ => trivial
  | aexecuteTake snap =>
    rw [step_eq E ht]
    exact h.take ht _
  | aexecuteSendWatched snap taken =>
    rw [step_eq E ht]
    have hsnap := h.copies i snap.commands (by rw [ht]; rfl)
    cases taken with
    | some r =>
      refine h.send (c := snap.commands) (by rw [ht]; rfl) (by rw [ht]; rfl) ?_ rfl rfl (by rw [ht]; rfl) ?_ ?_
      · trivial
      · trivial
      · rw [exec_logged, batches_append, batches_pipelineExecWatched hE]
        simp [Flush.sent]
    | none =>
      -- only an empty buffer lets a task come here without a reservation
      have hnil : snap.commands = [] := by
        by_contra hn
        have hroute := h.routed (by rw [← hsnap]; exact hn) i
        rw [ht] at hroute
        cases hroute
      refine h.send (c := snap.commands) (by rw [ht]; rfl) (by rw [ht]; rfl) ?_ rfl rfl (by rw [ht]; rfl) ?_ ?_
      · trivial
      · trivial
      · rw [hnil, List.append_nil]
        rfl
  | aexecuteEndWatched snap res =>
    rw [step_eq E ht]
    exact h.clear (by rw [ht]; rfl) rfl fun hw => by cases hw
  | aexecuteSend snap =>
    rw [step_eq E ht]
    refine h.send (c := snap.commands) (by rw [ht]; rfl) (by rw [ht]; rfl) ?_ rfl rfl (by rw [ht]; rfl) ?_ ?_
    · trivial
    · trivial
    · simp [Flush.sent, batches]
  | aexecuteEnd snap res =>
    rw [step_eq E ht]
    exact h.clear (by rw [ht]; rfl) rfl fun hw => ⟨by rw [ht]; rfl, hw, rfl⟩
  | sent raw =>
    rw [step_eq E ht]
    exact h.leave trivial (by rw [ht]; rfl) (by rw [ht]; rfl) (by rw [ht]; rfl) fun _ => trivial
  | returned out =>
    rw [step_eq E ht]
    exact h.leave trivial (by rw [ht]; rfl) (by rw [ht]; rfl) (by rw [ht]; rfl) fun _ => trivial
  | _ =>
    rw [ht] at hfl
    cases hfl

end Invariant

/-! ## Where a run starts -/

/-- while it is watching, a pipeline between two operations holds its reservation -/
def Held (s : PipelineState) : Prop := s.watching = true → s.reserved.isSome

section Start

variable {ω : Type} {E : Server Query Answer ω} {s : PipelineState} {w : ω}

theorem watchEnd_held (keys : List String) (o : RedisResult Unit × ReservedConnection) : Held (watchEnd keys o s).2 := by
  rcases o with ⟨e | u, r⟩ <;> exact fun _ => rfl

theorem watch_held (h : Held s) (keys : List String) : Held (exec E (watch keys) s w).st := by
  cases hc : s.closed with
  | true => rw [exec_watch_closed E w hc]; exact h
  | false =>
    cases he : s.explicitTransaction with
    | true => rw [exec_watch_multi E w hc he]; exact h
    | false =>
      cases hr : s.reserved with
      | some r => rw [exec_watch_reserved E w hc he hr]; exact watchEnd_held keys _
      | none =>
        rcases hq : E.reply w .reserve with ⟨e | c, w'⟩
        · rw [exec_watch_refused E w hc he hr hq]; exact h
        · rw [exec_watch_fresh E w hc he hr hq]; exact watchEnd_held keys _

theorem Held.reserved_of_watched (h : Held s) (hw : Watched s) : ∃ r, s.reserved = some r :=
  Option.isSome_iff_exists.1 (hw.elim h And.right)

theorem execute_held (h : Held s) : Held (exec E execute s w).st := by
  cases hc : s.closed with
  | true => rw [exec_execute_closed E w hc]; exact h
  | false =>
    by_cases hp : s.pending
    · by_cases hw : Watched s
      · obtain ⟨r, hr⟩ := h.reserved_of_watched hw
        rw [exec_execute_watched E w hc hw, exec_executeWatched E w hr]
        exact fun hwatch => by cases hwatch
      · rw [exec_execute_plain E w hc hp hw]
        rcases E.reply w (.pipelineExec s.commands (s.transaction || s.explicitTransaction)) with ⟨e | vs, w'⟩ <;>
          exact h
    · rw [exec_execute_idle E w hc hp]; exact h

theorem asyncEnd_held (h : Held s) (op : Op) : Held (asyncEnd E (s, w) op).2.1 := by
  have hclose : Held (solo (AsyncTask.next E) taskBound .aclose (s, w)).2.1 := by
    cases hr : s.reserved with
    | none => rw [asyncEnd_close_none hr]; exact fun hw => by cases hw
    | some r => rw [asyncEnd_close_some hr]; exact fun hw => by cases hw
  cases op with
  | command name args =>
    cases hc : s.closed <;>
      simpa [asyncEnd, taskBound, solo_succ, Op.async, AsyncCall.start, AsyncTask.next, hc, Held] using h
  | watch keys =>
    rw [watch_agrees]
    simpa [syncEnd, callStep, Op.sync, Call.prog] using watch_held h keys
  | multi =>
    rw [multi_agrees]
    simpa [syncEnd, callStep, Op.sync, Call.prog, multi, Held] using h
  | execute =>
    rw [execute_agrees h.reserved_of_watched]
    simpa [syncEnd, callStep, Op.sync, Call.prog] using execute_held h
  | reset => exact hclose
  | close => exact hclose
  | unwatch =>
    cases hr : s.reserved with
    | none => rw [asyncEnd_unwatch_none hr]; exact fun hw => by cases hw
    | some r => rw [asyncEnd_unwatch_some hr]; exact fun hw => by cases hw
  | discard =>
    cases hr : s.reserved with
    | none => rw [asyncEnd_discard_none hr]; exact fun hw => by cases hw
    | some r => rw [asyncEnd_discard_some hr]; exact fun hw => by cases hw

end Start

variable {ι ω : Type}

theorem start_inv (E : Server Query Answer ω) (w : ω) (transaction : Bool) (ops : List Op) (calls : ι → FlushCall) :
    Inv (start E w transaction ops calls) := by
  have hheld : Held (start E w transaction ops calls).state :=
    run_invariant' (I := fun p : PipelineState × ω => Held p.1) (fun p op h => asyncEnd_held h op) ops
      fun hw => by cases hw
  have hcopied : ∀ i, copied ((calls i).start) = none := fun i => by cases calls i <;> rfl
  have hanswered : ∀ i, answered ((calls i).start) = false := fun i => by cases calls i <;> rfl
  refine ⟨?_, ?_, ?_, ?_, ?_, ?_, ?_⟩
  · exact fun i => by cases hi : calls i <;> simp [start, hi, FlushCall.start, AsyncCall.start, Flushing]
  · intro i c hi
    rw [show copied ((start E w transaction ops calls).pool.tasks i) = none from hcopied i] at hi
    cases hi
  · intro _ i j hi
    rw [show copied ((start E w transaction ops calls).pool.tasks i) = none from hcopied i] at hi
    cases hi
  · exact fun _ => rfl
  · intro i hi
    rw [show answered ((start E w transaction ops calls).pool.tasks i) = false from hanswered i] at hi
    cases hi
  · exact fun hw => Or.inl (hheld hw)
  · exact fun _ i => routed_of_not_copied _ (hcopied i)

/-- **Every accepted command is sent once or still buffered.** From any state that completed operations of a new
pipeline reach, under every schedule of any number of buffering, `multi` and `aexecute` calls against a server that never
fails, as long as nothing is pushed and no other nonempty copy is made while an `aexecute` has a copy: every command
accepted is in one batch, or still in the buffer. -/
theorem flush_exactly_once [DecidableEq ι] {E : Server Query Answer ω} (hE : Faultless E) (w : ω) (transaction : Bool)
    (ops : List Op) (calls : ι → FlushCall) (sched : List ι)
    (hx : Along (Flush.step E) Exclusive (start E w transaction ops calls) sched) :
    AccountedFor (run (Flush.step E) (start E w transaction ops calls) sched) :=
  (run_invariant (step_inv hE) (start_inv E w transaction ops calls) hx).accountedFor

theorem obliging_faultless : Faultless obliging where
  reserve _ := ⟨0, rfl⟩
  cmd _ _ _ _ := ⟨.okay, rfl⟩
  atomicPipe _ _ _ := ⟨.array [], rfl⟩
  pipelineExec _ _ _ := ⟨[], rfl⟩

/-- a buffered command and an execute after it -/
def setThenExecute : Fin 3 → FlushCall
  | 0 => .command "SET" [asBytes "a", asBytes "1"]
  | 1 => .aexecute
  | 2 => .command "SET" [asBytes "b", asBytes "2"]

/-- one execute at a time, on a watched pipeline: two commands, two batches -/
theorem flush_in_turn :
    let f := run (Flush.step obliging) (start obliging () true [.watch ["a"], .multi] setThenExecute)
      [0, 0, 1, 1, 1, 1, 1, 2, 2]
    AccountedFor f := by
  have hx : Along (Flush.step obliging) Exclusive (start obliging () true [.watch ["a"], .multi] setThenExecute)
      [0, 0, 1, 1, 1, 1, 1, 2, 2] := by
    refine ⟨trivial, ?_, ?_, trivial, trivial, trivial, trivial, trivial, ?_, trivial⟩
    · show ∀ j, _ = none
      decide
    · exact fun _ _ => by decide
    · show ∀ j, _ = none
      decide
  exact flush_exactly_once obliging_faultless () true _ setThenExecute _ hx

theorem AccountedFor.length_le {f : Flush ι ω} (h : AccountedFor f) :
    f.sent.length ≤ f.accepted.length ∧ f.accepted.length ≤ f.sent.length + f.state.commands.length := by
  obtain ⟨unsent, hsub, hperm⟩ := h
  have hlen := hperm.length_eq
  have hle := hsub.length_le
  rw [List.length_append] at hlen
  omega

/-- one command and two executes -/
def setThenExecuteTwice : Fin 3 → FlushCall
  | 0 => .command "SET" [asBytes "a", asBytes "1"]
  | _ => .aexecute

/-- the second SET is pushed while the batch of the first is out, and cleared unsent; of two overlapping executes each
sends the one SET -/
theorem flush_loses_and_repeats :
    ¬ AccountedFor (run (Flush.step obliging) (start obliging () true [] setThenExecute) [0, 0, 1, 1, 1, 2, 2, 1]) ∧
    ¬ AccountedFor
      (run (Flush.step obliging) (start obliging () true [] setThenExecuteTwice) [0, 0, 1, 2, 1, 2, 1, 2, 1, 2]) := by
  constructor
  · intro h
    have hlen := h.length_le.2
    revert hlen
    decide
  · intro h
    have hlen := h.length_le.1
    revert hlen
    decide

end RedisRsPy.AsyncFlush
