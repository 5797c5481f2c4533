/-
The reserved connection of an `AsyncPipeline` under overlapping tasks.

Every task takes the reservation out of the mutex, awaits, and stores it back without looking; `awatch` decides to
reserve from what it saw before its first await, and marks its keys after the reservation is back. Two tasks that overlap
can therefore reserve twice, write `None` over a stored reservation, meet `None` in the `expect`, or mark keys that are
no longer WATCHed. `Orderly` is the discipline under which none of this happens; it is the protocol of
`RedisRsPy.Pipeline.Reservation` read on the tasks of the source.

`watched E` is the server `E` with a record of which connection has WATCHed which key: a successful WATCH adds its keys;
any UNWATCH or EXEC, answered or not, drops those of its connection.

Results:
- `step_refines`: an orderly step of the pool is a step of the protocol;
- `reservation_safe`: in every orderly run of any tasks on a new pipeline no `expect` fails, no write of the reservation
  meets one that is stored, and at rest watching and closed mean what they say;
- `overlapping_watches_panic`: two `awatch` that overlap.
-/
import RedisRsPy.Pipeline.Async
import RedisRsPy.Pipeline.Reservation

namespace RedisRsPy.AsyncReservation

open Lib Prog Reservation

/-! ## What is WATCHed where -/

/-- (connection, key) pairs under WATCH after a call and its answer -/
def watchesAfter : (q : Query) → Answer q → List (ℕ × Bytes) → List (ℕ × Bytes)
  | .reserve, _, l => l
  | .cmd conn name args, ans, l =>
    if name = "WATCH" then
      match ans with
      | .ok _ => l ++ args.map fun key => (conn, key)
      | .error _ => l
    else if name = "UNWATCH" then l.filter fun x => x.1 ≠ conn
    else l
  | .atomicPipe conn _, _, l => l.filter fun x => x.1 ≠ conn
  | .pipelineExec _ _, _, l => l

/-- the same server, with the record of what is WATCHed -/
def watched {ω : Type} (E : Server Query Answer ω) : Server Query Answer (ω × List (ℕ × Bytes)) where
  reply w q := ((E.reply w.1 q).1, (E.reply w.1 q).2, watchesAfter q (E.reply w.1 q).1 w.2)

/-- the record as the protocol reads it -/
def record (l : List (ℕ × Bytes)) : ℕ → String → Prop := fun c k => (c, asBytes k) ∈ l

section Record

variable {ω : Type} (E : Server Query Answer ω) (r : ReservedConnection) (s : PipelineState) (w : ω)
  (l : List (ℕ × Bytes))

theorem keepsOthers_filter (c : ℕ) : KeepsOthers c (record l) (record (l.filter fun x => x.1 ≠ c)) := by
  intro c' k hne hk
  exact List.mem_filter.2 ⟨hk, by simpa using hne⟩

theorem keepsOthers_refl (c : ℕ) : KeepsOthers c (record l) (record l) := fun _ _ _ h => h

theorem unwatchIfNeeded_record :
    KeepsOthers r.inner (record l) (record (exec (watched E) r.unwatchIfNeeded s (w, l)).srv.2) := by
  unfold ReservedConnection.unwatchIfNeeded
  split_ifs
  · cases h : (E.reply w (.cmd r.inner "UNWATCH" [])).1 <;>
      simpa [queryAsync, watched, watchesAfter, h] using keepsOthers_filter l r.inner
  · exact keepsOthers_refl l r.inner

theorem unwatchIfNeeded_inner : (exec (watched E) r.unwatchIfNeeded s (w, l)).val.2.inner = r.inner := by
  rcases r.unwatchIfNeeded_cases (watched E) s (w, l) with h | ⟨_, e, h⟩ <;> rw [h]

/-- WATCH on a connection, once it went through, covers its keys -/
theorem watch_record (keys : List String) :
    let o := exec (watched E) (r.watch keys) s (w, l)
    o.val.2.inner = r.inner ∧ Grows (record l) (record o.srv.2) ∧
      (o.val.1 = .ok () → ∀ k ∈ keys, record o.srv.2 r.inner k) := by
  unfold ReservedConnection.watch
  split_ifs with hk
  · simp [hk, Grows]
  · cases h : (E.reply w (.cmd r.inner "WATCH" (keys.map asBytes))).1 with
    | error e => simp [queryAsync, watched, watchesAfter, h, Grows]
    | ok v =>
      refine ⟨by simp [queryAsync, watched, watchesAfter, h], fun c k hk => ?_, fun _ k hk => ?_⟩
      · simpa [queryAsync, watched, watchesAfter, h, record] using Or.inl hk
      · have hmem : asBytes k ∈ keys.map asBytes := List.mem_map_of_mem hk
        simp only [queryAsync, watched, watchesAfter, h, record, exec_bind, exec_ask, exec_pure, if_true,
          List.mem_append]
        exact Or.inr (List.mem_map_of_mem hmem)

theorem dispatchImmediate_record (cmd : ImmediateCmd) :
    (exec (watched E) (r.dispatchImmediate cmd.name cmd.args) s (w, l)).srv.2 = l := by
  cases cmd <;> simp [ReservedConnection.dispatchImmediate, queryAsync, watched, watchesAfter, ImmediateCmd.name]

theorem execBlock_record (cmds : List BufferedCmd) :
    (exec (watched E) (r.execBlock cmds) s (w, l)).srv.2 = l.filter fun x => x.1 ≠ r.inner := by
  unfold ReservedConnection.execBlock
  cases h : (E.reply w (.atomicPipe r.inner cmds)).1 <;> simp [pipeQueryAsync, watched, watchesAfter, h]

/-- a watched execute touches the watches of its own connection only -/
theorem pipelineExecWatched_record (keys : List String) (cmds : List BufferedCmd) :
    KeepsOthers r.inner (record l) (record (exec (watched E) (r.pipelineExecWatched keys cmds) s (w, l)).srv.2) := by
  unfold ReservedConnection.pipelineExecWatched
  split_ifs
  · cases h : (E.reply w (.cmd r.inner "WATCH" (keys.map asBytes))).1 with
    | error e => simpa [queryAsync, watched, watchesAfter, h] using keepsOthers_refl l r.inner
    | ok v =>
      intro c k hne hk
      simp only [queryAsync, exec_bind, exec_ask, watched, h]
      have hb := execBlock_record E { r with watched := true } s
        (E.reply w (.cmd r.inner "WATCH" (keys.map asBytes))).2
        (watchesAfter (.cmd r.inner "WATCH" (keys.map asBytes)) (.ok v) l) cmds
      simp only [watched, watchesAfter, if_true] at hb ⊢
      rw [record, hb]
      refine List.mem_filter.2 ⟨List.mem_append_left _ hk, by simpa using hne⟩
  · rw [execBlock_record]
    exact keepsOthers_filter l r.inner

end Record

/-! ## The tasks as roles -/

/-- what a task has to do with the reservation -/
def roleOf : AsyncTask → Role
  | .awatchReserve _ => .reserving
  | .awatchStore _ r => .holding r.inner .plain
  | .awatchTake _ => .taking
  | .awatchSend _ taken => .holding taken.inner .plain
  | .awatchPut keys taken (.ok ()) => .holding taken.inner (.watched keys)
  | .awatchPut _ taken (.error _) => .holding taken.inner .plain
  | .awatchMark keys => .marking keys
  | .aunwatchSend (some r) | .aunwatchPut (some r) _ | .adiscardSend (some r) | .adiscardPut (some r) =>
    .holding r.inner .unwatching
  | .immediateSend _ (some r) | .immediatePut (some r) _ => .holding r.inner .plain
  | .aunwatchSend none | .aunwatchPut none _ | .adiscardSend none | .adiscardPut none | .immediateSend _ none
  | .immediatePut none _ => .erasing false
  | .aexecuteSendWatched _ _ | .aexecuteEndWatched _ _ => .erasing true
  | .acloseSend _ => .closing
  | .panicked _ => .dead
  | _ => .outside

variable {ι ω : Type}

abbrev Tasks (ι ω : Type) := Pool ι AsyncTask (PipelineState × (ω × List (ℕ × Bytes)))

def state (p : Tasks ι ω) : PipelineState := p.shared.1

/-- pipeline, tasks and record as the protocol sees them -/
def deskOf (p : Tasks ι ω) : Desk ι where
  role i := roleOf (p.tasks i)
  reserved := (state p).reserved.map (·.inner)
  watching := (state p).watching
  keys := (state p).watchedKeys
  closed := (state p).closed
  watches := record p.shared.2.2

/-- the discipline: nobody takes the reservation or sets out to watch while somebody handles it; nobody sets out to
watch while somebody is about to write `None`; nobody unwatches, discards, executes or closes between the put-back and
the mark of an `awatch` (of one with keys, for the first two) -/
def Orderly (p : Tasks ι ω) (i : ι) : Prop :=
  match p.tasks i with
  | .awatch _ => (state p).closed = false → (state p).explicitTransaction = false →
      (deskOf p).Free ∧ ∀ j b, roleOf (p.tasks j) ≠ .erasing b
  | .immediate _ => (deskOf p).Free
  | .aunwatch | .adiscard => (deskOf p).Free ∧ ∀ j ks, roleOf (p.tasks j) = .marking ks → ks = []
  | .aexecuteTake _ | .aclose => (deskOf p).Free ∧ (deskOf p).Marked
  | _ => True

theorem role_eq {p : Tasks ι ω} {i : ι} {t : AsyncTask} (ht : p.tasks i = t) : (deskOf p).role i = roleOf t := by
  rw [← ht]
  rfl

section Simulation

variable [DecidableEq ι]

/-- task `i` moved to `t'`, with `q` shared -/
def moved (p : Tasks ι ω) (i : ι) (t' : AsyncTask) (q : PipelineState × (ω × List (ℕ × Bytes))) : Tasks ι ω :=
  ⟨q, Function.update p.tasks i t'⟩

theorem step_eq (E : Server Query Answer ω) {p : Tasks ι ω} {i : ι} {t : AsyncTask} (ht : p.tasks i = t) :
    p.step (AsyncTask.next (watched E)) i = moved p i (AsyncTask.next (watched E) t p.shared).1
      (AsyncTask.next (watched E) t p.shared).2 := by
  subst ht
  rfl

theorem deskOf_moved (p : Tasks ι ω) (i : ι) (t' : AsyncTask) (q : PipelineState × (ω × List (ℕ × Bytes))) :
    deskOf (moved p i t' q) = { (deskOf p).set i (roleOf t') with
      reserved := q.1.reserved.map (·.inner)
      watching := q.1.watching
      keys := q.1.watchedKeys
      closed := q.1.closed
      watches := record q.2.2 } := by
  have hrole : (fun j => roleOf (Function.update p.tasks i t' j)) =
      Function.update (fun j => roleOf (p.tasks j)) i (roleOf t') := by
    funext j
    by_cases hj : j = i
    · subst hj
      simp
    · simp [hj]
  simp only [deskOf, moved, Desk.set, state, hrole]

/-- a move that changes neither role nor pipeline, and no watch -/
theorem Step.stay {d : Desk ι} {i : ι} {r : Role} (hr : d.role i = r) {w : ℕ → String → Prop} (hw : Grows d.watches w) :
    Step d i { d.set i r with watches := w } := by
  rw [set_self hr]
  exact Step.quiet hw

/-- a task that finds no reservation writes back what it took: `None` -/
theorem step_miss {p : Tasks ι ω} {i : ι} (hi : (deskOf p).role i = .outside) (hr : (state p).reserved = none)
    (hf : (deskOf p).Free) :
    Step (deskOf p) i { (deskOf p).set i (.erasing false) with reserved := none } := by
  have hnone : (deskOf p).reserved = none := by simp [deskOf, hr]
  have hset : { (deskOf p).set i (.erasing false) with reserved := none } = (deskOf p).set i (.erasing false) := by
    rw [← hnone]
    rfl
  rw [hset]
  exact Step.miss hi hnone hf

/-- the UNWATCH of a held reservation -/
theorem step_unwatchSent (E : Server Query Answer ω) {p : Tasks ι ω} {i : ι} (r : ReservedConnection)
    (hi : (deskOf p).role i = .holding r.inner .unwatching) :
    Step (deskOf p) i { (deskOf p).set i (.holding
      (exec (watched E) r.unwatchIfNeeded (state p) p.shared.2).val.2.inner .unwatching) with
        watches := record (exec (watched E) r.unwatchIfNeeded (state p) p.shared.2).srv.2 } := by
  rw [unwatchIfNeeded_inner E r (state p) p.shared.2.1 p.shared.2.2, set_self hi]
  exact Step.unwatchSent hi (unwatchIfNeeded_record E r (state p) p.shared.2.1 p.shared.2.2)

/-- the block of a watched execute -/
theorem step_execSent (E : Server Query Answer ω) {p : Tasks ι ω} {i : ι} (r : ReservedConnection) (snap : Snapshot)
    (hi : (deskOf p).role i = .erasing true) :
    Step (deskOf p) i { (deskOf p).set i (.erasing true) with
      watches := record (exec (watched E) (r.pipelineExecWatched snap.watchedKeys snap.commands) (state p)
        p.shared.2).srv.2 } := by
  rw [set_self hi]
  exact Step.execSent hi
    (pipelineExecWatched_record E r (state p) p.shared.2.1 p.shared.2.2 snap.watchedKeys snap.commands)

/-- **Refinement.** An orderly step of the pool is a step of the protocol. -/
theorem step_refines (E : Server Query Answer ω) (p : Tasks ι ω) (i : ι) (h : Inv (deskOf p)) (ho : Orderly p i) :
    Step (deskOf p) i (deskOf (p.step (AsyncTask.next (watched E)) i)) := by
  obtain ⟨t, ht⟩ : ∃ t, p.tasks i = t := ⟨_, rfl⟩
  have hi := role_eq ht
  unfold Orderly at ho
  rw [ht] at ho
  rw [step_eq E ht, deskOf_moved]
  -- one case for each place of a task: what it writes, and the step of the protocol that this is
  cases t with
  | bufferCmd cmd =>
    have hq : AsyncTask.next (watched E) (.bufferCmd cmd) p.shared =
        if (state p).closed then (.returned (raise .RedisError closedMsg), p.shared)
        else (.bufferPush cmd, p.shared) := rfl
    rw [hq]
    split_ifs
    · exact Step.stay hi (grows_refl _)
    · exact Step.stay hi (grows_refl _)
  | bufferPush cmd =>
    exact Step.stay hi (grows_refl _)
  | multi =>
    have hq : (AsyncTask.next (watched E) .multi p.shared).2.1 = (Pipeline.multiSection (state p)).2 := rfl
    simp only [hq, Pipeline.multiSection_reserved, Pipeline.multiSection_watching, Pipeline.multiSection_watchedKeys,
      Pipeline.multiSection_closed]
    exact Step.stay hi (grows_refl _)
  | awatch keys =>
    have hq : AsyncTask.next (watched E) (.awatch keys) p.shared =
        if (state p).closed then (.sent (.error .RedisError closedMsg), p.shared)
        else if (state p).explicitTransaction then (.sent (.error .RedisError watchAfterMultiMsg), p.shared)
        else if (state p).reserved = none then (.awatchReserve keys, p.shared)
        else (.awatchTake keys, p.shared) := rfl
    rw [hq]
    split_ifs with hc he hr
    · exact Step.stay hi (grows_refl _)
    · exact Step.stay hi (grows_refl _)
    · have hopen : (state p).closed = false := by simpa using hc
      obtain ⟨hf, hno⟩ := ho hopen (by simpa using he)
      exact Step.reserve hi (by simp [deskOf, hr]) hopen hf hno
    · have hopen : (state p).closed = false := by simpa using hc
      obtain ⟨hf, _⟩ := ho hopen (by simpa using he)
      exact Step.approach hi (by simpa [deskOf] using hr) hopen hf
  | awatchReserve keys =>
    rcases hans : E.reply p.shared.2.1 .reserve with ⟨e | c, w'⟩
    · have hq : AsyncTask.next (watched E) (.awatchReserve keys) p.shared =
          (.sent (.error .ConnectionError e), state p, w', p.shared.2.2) := by
        simp [AsyncTask.next, watched, watchesAfter, hans, state]
      rw [hq]
      exact Step.refused hi
    · have hq : AsyncTask.next (watched E) (.awatchReserve keys) p.shared =
          (.awatchStore keys (.new c), state p, w', p.shared.2.2) := by
        simp [AsyncTask.next, watched, watchesAfter, hans, state]
      rw [hq]
      exact Step.opened hi
  | awatchStore keys r =>
    exact Step.store hi
  | awatchTake keys =>
    cases hr : (state p).reserved with
    | none => exact absurd (by simp [deskOf, hr]) (h.custody.stored i hi)
    | some taken =>
      have hq : AsyncTask.next (watched E) (.awatchTake keys) p.shared =
          (.awatchSend keys taken, (state p).putReserved none, p.shared.2) := by
        simp [AsyncTask.next, state] at hr ⊢
        simp [hr]
      rw [hq]
      exact Step.take hi (by simp [deskOf, hr])
  | awatchSend keys taken =>
    obtain ⟨hinner, hgrow, hcov⟩ := watch_record E taken (state p) p.shared.2.1 p.shared.2.2 keys
    have hq : AsyncTask.next (watched E) (.awatchSend keys taken) p.shared =
        (.awatchPut keys (exec (watched E) (taken.watch keys) (state p) p.shared.2).val.2
          (exec (watched E) (taken.watch keys) (state p) p.shared.2).val.1, state p,
          (exec (watched E) (taken.watch keys) (state p) p.shared.2).srv) := rfl
    rw [hq]
    cases hv : (exec (watched E) (taken.watch keys) (state p) p.shared.2).val.1 with
    | error e => exact Step.stay (hi.trans (by simp only [roleOf]; rw [hinner])) hgrow
    | ok u =>
      simp only [roleOf]
      rw [hinner]
      exact Step.watch hi hgrow (hcov hv)
  | awatchPut keys taken res =>
    cases res with
    | error e => exact Step.back hi
    | ok u => exact Step.backToMark hi
  | awatchMark keys =>
    exact Step.mark hi
  | aunwatch =>
    have hq : AsyncTask.next (watched E) .aunwatch p.shared =
        (.aunwatchSend (state p).reserved, (state p).putReserved none, p.shared.2) := rfl
    rw [hq]
    cases hr : (state p).reserved with
    | none => exact step_miss hi hr ho.1
    | some r => exact Step.borrowToUnwatch hi (by simp [deskOf, hr]) ho.1 ho.2
  | aunwatchSend taken =>
    cases taken with
    | none => exact Step.stay hi (grows_refl _)
    | some r => exact step_unwatchSent E r hi
  | aunwatchPut taken res =>
    cases taken with
    | none => exact Step.eraseWatch hi
    | some r => exact Step.backUnwatched hi
  | adiscard =>
    have hq : AsyncTask.next (watched E) .adiscard p.shared =
        (.adiscardSend (state p).reserved, (state p).putReserved none, p.shared.2) := rfl
    rw [hq]
    cases hr : (state p).reserved with
    | none => exact step_miss hi hr ho.1
    | some r => exact Step.borrowToUnwatch hi (by simp [deskOf, hr]) ho.1 ho.2
  | adiscardSend taken =>
    cases taken with
    | none => exact Step.stay hi (grows_refl _)
    | some r => exact step_unwatchSent E r hi
  | adiscardPut taken =>
    cases taken with
    | none => exact Step.eraseWatch hi
    | some r => exact Step.backUnwatched hi
  | immediate cmd =>
    have hq : AsyncTask.next (watched E) (.immediate cmd) p.shared =
        (.immediateSend cmd (state p).reserved, (state p).putReserved none, p.shared.2) := rfl
    rw [hq]
    cases hr : (state p).reserved with
    | none => exact step_miss hi hr ho
    | some r => exact Step.borrow hi (by simp [deskOf, hr]) ho
  | immediateSend cmd taken =>
    cases taken with
    | none => exact Step.stay hi (grows_refl _)
    | some r =>
      have hl := dispatchImmediate_record E r (state p) p.shared.2.1 p.shared.2.2 cmd
      refine Step.stay hi fun c k hk => ?_
      show (c, asBytes k) ∈ (exec (watched E) (r.dispatchImmediate cmd.name cmd.args) (state p) p.shared.2).srv.2
      rw [hl]
      exact hk
  | immediatePut taken res =>
    cases taken with
    | none => exact Step.erase hi
    | some r => exact Step.back hi
  | aclose =>
    exact Step.close hi ho.1 ho.2
  | acloseSend r =>
    cases r with
    | none => exact Step.closeSent (c := 0) hi (keepsOthers_refl _ 0)
    | some r => exact Step.closeSent hi (unwatchIfNeeded_record E r (state p) p.shared.2.1 p.shared.2.2)
  | aexecute =>
    have hq : AsyncTask.next (watched E) .aexecute p.shared =
        if (state p).closed then (.sent (.error .RedisError closedMsg), p.shared)
        else if ¬ (state p).pending then (.sent (.value (.array [])), p.shared)
        else (.aexecuteHas (state p).snapshot, p.shared) := rfl
    rw [hq]
    split_ifs
    · exact Step.stay hi (grows_refl _)
    · exact Step.stay hi (grows_refl _)
    · exact Step.stay hi (grows_refl _)
  | aexecuteHas snap =>
    have hq : AsyncTask.next (watched E) (.aexecuteHas snap) p.shared =
        if snap.watching ∨ (snap.explicitTransaction ∧ (state p).reserved.isSome) then (.aexecuteTake snap, p.shared)
        else (.aexecuteSend snap, p.shared) := rfl
    rw [hq]
    split_ifs
    · exact Step.stay hi (grows_refl _)
    · exact Step.stay hi (grows_refl _)
  | aexecuteTake snap =>
    exact Step.takeToExec hi ho.1 ho.2
  | aexecuteSendWatched snap taken =>
    cases taken with
    | none => exact Step.stay hi (grows_refl _)
    | some r => exact step_execSent E r snap hi
  | aexecuteEndWatched snap res =>
    exact Step.eraseWatch hi
  | aexecuteSend snap =>
    exact Step.stay hi (grows_refl _)
  | aexecuteEnd snap res =>
    exact Step.stay hi (grows_refl _)
  | sent raw =>
    exact Step.stay hi (grows_refl _)
  | returned out =>
    exact Step.stay hi (grows_refl _)
  | panicked msg => exact absurd hi (h.custody.alive i)

end Simulation

/-! ## Whole runs -/

/-- a step that writes the reservation finds none there; a take does not count as a write -/
def CleanWrite (p : Tasks ι ω) (i : ι) : Prop :=
  match p.tasks i with
  | .awatchStore _ _ | .awatchPut _ _ _ | .aunwatchPut _ _ | .adiscardPut _ | .immediatePut _ _
  | .aexecuteEndWatched _ _ => (state p).reserved = none
  | _ => True

/-- no task is between its first section and its end -/
def Idle (calls : ι → AsyncCall) (p : Tasks ι ω) : Prop :=
  ∀ i, p.tasks i = (calls i).start ∨ (p.tasks i).outcome.isSome

/-- what the flags of an idle pipeline promise -/
structure AtRest (p : Tasks ι ω) : Prop where
  watching : (state p).watching = true → ∃ r, (state p).reserved = some r ∧
    ∀ k ∈ (state p).watchedKeys, (r.inner, asBytes k) ∈ p.shared.2.2
  closed : (state p).closed = true → (state p).reserved = none ∧ (state p).watching = false

/-- one task for each call, on a new pipeline -/
def start (w : ω) (transaction : Bool) (calls : ι → AsyncCall) : Tasks ι ω :=
  ⟨(PipelineState.new transaction, w, []), fun i => (calls i).start⟩

theorem roleOf_start (c : AsyncCall) : roleOf c.start = .outside := by
  cases c <;> rfl

theorem cleanWrite_of_inv {p : Tasks ι ω} {i : ι} (h : Custody (deskOf p)) : CleanWrite p i := by
  have hheld : (roleOf (p.tasks i)).out = true ∨ (∃ b, roleOf (p.tasks i) = .erasing b) →
      (state p).reserved = none := by
    rintro (ho | ⟨b, hb⟩)
    · simpa [deskOf] using h.out i ho
    · simpa [deskOf] using (h.erasing i b hb).1
  unfold CleanWrite
  cases ht : p.tasks i with
  | awatchStore keys r => exact hheld (by rw [ht]; exact Or.inl rfl)
  | awatchPut keys taken res => exact hheld (by rw [ht]; cases res <;> exact Or.inl rfl)
  | aunwatchPut taken res => exact hheld (by rw [ht]; cases taken <;> [exact Or.inr ⟨_, rfl⟩; exact Or.inl rfl])
  | adiscardPut taken => exact hheld (by rw [ht]; cases taken <;> [exact Or.inr ⟨_, rfl⟩; exact Or.inl rfl])
  | immediatePut taken res => exact hheld (by rw [ht]; cases taken <;> [exact Or.inr ⟨_, rfl⟩; exact Or.inl rfl])
  | aexecuteEndWatched snap res => exact hheld (by rw [ht]; exact Or.inr ⟨_, rfl⟩)
  | _ => trivial

theorem start_inv (w : ω) (transaction : Bool) (calls : ι → AsyncCall) : Inv (deskOf (start w transaction calls)) :=
  inv_of_outside (fun i => roleOf_start (calls i)) rfl rfl rfl

/-- a task that ended has no role, unless it died -/
theorem roleOf_of_outcome {t : AsyncTask} (h : t.outcome.isSome = true) : roleOf t = .outside ∨ ∃ msg, t = .panicked msg := by
  cases t with
  | sent raw => exact .inl rfl
  | returned out => exact .inl rfl
  | panicked msg => exact .inr ⟨msg, rfl⟩
  | _ => exact absurd h Bool.false_ne_true

/-- an idle task has no role -/
theorem roleOf_idle {p : Tasks ι ω} (h : Inv (deskOf p)) {calls : ι → AsyncCall} (hidle : Idle calls p) (i : ι) :
    roleOf (p.tasks i) = .outside := by
  rcases hidle i with hi | hi
  · rw [hi]
    exact roleOf_start _
  · rcases roleOf_of_outcome hi with hrole | ⟨msg, hdead⟩
    · exact hrole
    · exact absurd (by simp only [deskOf]; rw [hdead]; rfl) (h.custody.alive i)

theorem atRest_of_inv {p : Tasks ι ω} (h : Inv (deskOf p)) {calls : ι → AsyncCall} (hidle : Idle calls p) :
    AtRest p := by
  obtain ⟨hwatching, hclosed⟩ := h.idle fun i => roleOf_idle h hidle i
  constructor
  · intro hw
    obtain ⟨c, hc, hk⟩ := hwatching hw
    obtain ⟨r, hr, rfl⟩ := Option.map_eq_some_iff.1 hc
    exact ⟨r, hr, hk⟩
  · intro hc
    obtain ⟨hr, hw⟩ := hclosed hc
    exact ⟨Option.map_eq_none_iff.1 hr, hw⟩

/-- **The reservation is never lost or duplicated.** In every orderly run of any tasks on a new pipeline, under any
server: no task dies in the `expect`; no write of the reservation meets a stored one; and when no task is in flight the
flags keep their promise. -/
theorem reservation_safe [DecidableEq ι] (E : Server Query Answer ω) (w : ω) (transaction : Bool) (calls : ι → AsyncCall)
    (sched : List ι)
    (ho : Along (Pool.step (AsyncTask.next (watched E))) Orderly (start w transaction calls) sched) :
    let p := run (Pool.step (AsyncTask.next (watched E))) (start w transaction calls) sched
    (∀ i msg, p.tasks i ≠ .panicked msg) ∧
      Along (Pool.step (AsyncTask.next (watched E))) CleanWrite (start w transaction calls) sched ∧
      (Idle calls p → AtRest p) := by
  intro p
  have hstep : ∀ (q : Tasks ι ω) i, Inv (deskOf q) → Orderly q i →
      Inv (deskOf (q.step (AsyncTask.next (watched E)) i)) :=
    fun q i h hq => step_inv h (step_refines E q i h hq)
  have hp : Inv (deskOf p) :=
    run_invariant (I := fun q : Tasks ι ω => Inv (deskOf q)) hstep (start_inv w transaction calls) ho
  refine ⟨fun i msg hi => ?_, ?_, fun hidle => atRest_of_inv hp hidle⟩
  · exact hp.custody.alive i (by simp only [deskOf]; rw [hi]; rfl)
  · exact Along.mono_of_invariant (I := fun q : Tasks ι ω => Inv (deskOf q)) hstep
      (fun q i h _ => cleanWrite_of_inv h.custody) (start_inv w transaction calls) ho

/-- a watch, then an immediate SET -/
def watchThenSet : Fin 2 → AsyncCall
  | 0 => .awatch ["a"]
  | 1 => .asetImmediate "b" (asBytes "1")

/-- the SET starts when the watch has put the reservation back, before it marks its key -/
theorem reservation_watch_then_set :
    AtRest (run (Pool.step (AsyncTask.next (watched obliging))) (start () true watchThenSet)
      [0, 0, 0, 0, 0, 0, 1, 0, 1, 1]) := by
  have ho : Along (Pool.step (AsyncTask.next (watched obliging))) Orderly (start () true watchThenSet)
      [0, 0, 0, 0, 0, 0, 1, 0, 1, 1] := by
    refine ⟨fun _ _ => ⟨?_, ?_⟩, trivial, trivial, trivial, trivial, trivial, ?_, trivial, trivial, trivial, trivial⟩
    · show ∀ j, _ = false
      decide
    · decide
    · show ∀ j, _ = false
      decide
  have hidle : Idle watchThenSet (run (Pool.step (AsyncTask.next (watched obliging))) (start () true watchThenSet)
      [0, 0, 0, 0, 0, 0, 1, 0, 1, 1]) := by
    have hdone : ∀ i : Fin 2, ((run (Pool.step (AsyncTask.next (watched obliging))) (start () true watchThenSet)
        [0, 0, 0, 0, 0, 0, 1, 0, 1, 1]).tasks i).outcome.isSome = true := by decide
    exact fun i => Or.inr (hdone i)
  exact (reservation_safe obliging () true watchThenSet _ ho).2.2 hidle

/-- two watches -/
def watchTwice : Fin 2 → AsyncCall
  | 0 => .awatch ["a"]
  | 1 => .awatch ["b"]

/-- a watch and an unwatch -/
def watchAndUnwatch : Fin 2 → AsyncCall
  | 0 => .awatch ["a"]
  | 1 => .aunwatch

/-- two watches that both saw no reservation: the second store overwrites the first, and the second take panics. An
unwatch between the put-back and the mark of a watch: at rest the pipeline is watching a key nobody WATCHes. -/
theorem overlapping_watches_panic :
    let step := Pool.step (ι := Fin 2) (AsyncTask.next (watched obliging))
    ((run step (start () true watchTwice) [0, 1, 0, 1, 0, 1, 0, 1]).tasks 1 = .panicked expectMsg ∧
      ¬ Along step CleanWrite (start () true watchTwice) [0, 1, 0, 1, 0, 1, 0, 1]) ∧
    (Idle watchAndUnwatch (run step (start () true watchAndUnwatch) [0, 0, 0, 0, 0, 0, 1, 1, 1, 0]) ∧
      ¬ AtRest (run step (start () true watchAndUnwatch) [0, 0, 0, 0, 0, 0, 1, 1, 1, 0])) := by
  refine ⟨⟨rfl, fun h => ?_⟩, ⟨fun i => Or.inr ?_, fun h => ?_⟩⟩
  · have hstore := h.2.2.2.2.2.1
    cases hstore
  · revert i
    decide
  · obtain ⟨r, _, hk⟩ := h.watching rfl
    have hmem := hk "a" (by decide)
    cases hmem

end RedisRsPy.AsyncReservation
