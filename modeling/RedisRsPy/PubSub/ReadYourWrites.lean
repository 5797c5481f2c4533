/-
Read-your-writes on the recorded subscriptions: what a caller reads after its commands have completed.

The supervisor acknowledges a command before it updates the record. A caller that sees the acknowledgement and reads
`subscribed`, or starts `run_in_thread`, between the two steps reads the record without its own command.

Result (`read_your_writes_iff`): over any run, every reading of a caller is of a record with all its completed commands
in it if and only if no reading falls between the acknowledgement and the update of a command of that caller that has
completed and changes the record.
Witness (`reads_too_early`): `subscribe("a")` completes, and `subscribed` is read before the update.
-/
import RedisRsPy.PubSub.Supervisor

namespace RedisRsPy.PubSub

open Lib

variable {κ : Type}

/-! ## What a caller reads -/

/-- the record, through the Python object; none once it is closed -/
def World.observed (w : World κ) : Option SubscriptionState := if w.isOpen then some w.subs else none

/-- `PubSub::subscribed` -/
def World.subscribed (w : World κ) : Bool :=
  match w.observed with
  | some g => g.subscribed
  | none => false

/-- one loop of the validation of `run_in_thread`; `lossy` is `String::from_utf8_lossy` -/
def checkHandlers (lossy : Bytes → String) (what : String) (names handlers : List Bytes) : PyResult Unit :=
  match names.find? fun n => decide (n ∉ handlers) with
  | some n => raise .PubSubError (what ++ ": '" ++ lossy n ++ "' has no handler registered")
  | none => .ok ()

/-- the validation at the start of `run_in_thread`, with the names that have a handler -/
def World.validate (w : World κ) (lossy : Bytes → String) (channelHandlers patternHandlers shardHandlers : List Bytes) :
    PyResult Unit :=
  match w.observed with
  | none => raise .PubSubError "pubsub is closed"
  | some g => do
    checkHandlers lossy "Channel" g.channels channelHandlers
    checkHandlers lossy "Pattern" g.patterns patternHandlers
    checkHandlers lossy "Shard Channel" g.shardChannels shardHandlers

theorem checkHandlers_ok_iff {lossy : Bytes → String} {what : String} {names handlers : List Bytes} :
    checkHandlers lossy what names handlers = .ok () ↔ ∀ n ∈ names, n ∈ handlers := by
  unfold checkHandlers
  split
  · rename_i n hfound
    refine iff_of_false (fun h => (nomatch h)) fun hall => ?_
    have hmissing := List.find?_some hfound
    exact absurd (hall n (List.mem_of_find?_eq_some hfound)) (by simpa using hmissing)
  · rename_i hnone
    refine iff_of_true rfl fun n hn => ?_
    simpa using List.find?_eq_none.1 hnone n hn

/-- the validation passes when the object is open and every name it reads in the record has a handler -/
theorem validate_ok_iff {w : World κ} {lossy : Bytes → String}
    {channelHandlers patternHandlers shardHandlers : List Bytes} :
    w.validate lossy channelHandlers patternHandlers shardHandlers = .ok () ↔
      ∃ g, w.observed = some g ∧ (∀ n ∈ g.channels, n ∈ channelHandlers) ∧ (∀ n ∈ g.patterns, n ∈ patternHandlers) ∧
        ∀ n ∈ g.shardChannels, n ∈ shardHandlers := by
  have hseq : ∀ {a b : PyResult Unit}, (a >>= fun _ => b) = .ok () ↔ a = .ok () ∧ b = .ok () := by
    intro a b
    cases a <;> simp [Bind.bind, Except.bind]
  unfold World.validate
  split
  · rename_i hclosed
    rw [hclosed]
    exact iff_of_false (fun h => (nomatch h)) fun h => (nomatch h.choose_spec.1)
  · rename_i g hopen
    rw [hopen, hseq, hseq, checkHandlers_ok_iff, checkHandlers_ok_iff, checkHandlers_ok_iff]
    exact ⟨fun h => ⟨g, rfl, h⟩, fun ⟨_, hg, h⟩ => Option.some.inj hg ▸ h⟩

/-- the record after these commands -/
def recordOf (log : List (Request κ)) : SubscriptionState := log.foldl SubscriptionState.after .empty

/-- a reading of a caller is of the record after some of the commands that succeeded, in their order, with all commands
among them that have completed for this caller -/
def Sees (w : World κ) (e : Event κ) : Prop :=
  match e with
  | .observe caller => ∀ g, w.observed = some g →
    ∃ before after, w.log = before ++ after ∧ (∀ r ∈ w.completed, r.caller = caller → r ∈ before) ∧ g = recordOf before
  | _ => True

/-- a reading of a caller does not fall between the acknowledgement and the update of a command that has completed for
it and changes the record -/
def ReadsSettled (w : World κ) (e : Event κ) : Prop :=
  match e with
  | .observe caller => w.isOpen = true →
    ∀ r, w.phase = .acked r (.ok ()) → r ∈ w.completed → r.caller = caller → w.subs.after r = w.subs
  | _ => True

/-! ## Acknowledgements and the log -/

/-- the commands acknowledged with success -/
def acknowledged (acks : List (Request κ × Except String Unit)) : List (Request κ) :=
  acks.filterMap fun a =>
    match a.2 with
    | .ok () => some a.1
    | .error _ => none

/-- the command the supervisor has and has not acknowledged -/
def Phase.inHand : Phase κ → List (Request κ)
  | .sent r => [r]
  | .served r _ => [r]
  | _ => []

/-- the command that has succeeded and is not acknowledged -/
def Phase.unacked : Phase κ → List (Request κ)
  | .served r (.ok ()) => [r]
  | _ => []

def requests (cmds : List (BridgeCommand κ)) : List (Request κ) :=
  cmds.filterMap fun c =>
    match c with
    | .request r => some r
    | .shutdown => none

/-- the numbers of all commands that were sent, as far as they are not thrown away -/
def World.ids (w : World κ) : List ℕ := w.acks.map (·.1.id) ++ (w.phase.inHand ++ requests w.cmds).map (·.id)

structure Logged (w : World κ) : Prop where
  log : w.log = acknowledged w.acks ++ w.phase.unacked
  nodup : w.ids.Nodup
  fresh : ∀ id ∈ w.ids, id < w.next
  completed : ∀ r ∈ w.completed, r ∈ acknowledged w.acks
  settled : w.pending = none → w.subs = recordOf w.log
  pending : ∀ r, w.pending = some r → ∃ before, w.log = before ++ [r] ∧ w.subs = recordOf before

theorem recordOf_snoc (log : List (Request κ)) (r : Request κ) : recordOf (log ++ [r]) = (recordOf log).after r := by
  simp [recordOf, List.foldl_append]

theorem acknowledged_snoc (acks : List (Request κ × Except String Unit)) (r : Request κ)
    (result : Except RedisError Unit) :
    acknowledged (acks ++ [(r, ackOf result)]) = acknowledged acks ++ (Phase.served r result).unacked := by
  cases result <;> simp [acknowledged, ackOf, Except.mapError, Phase.unacked]

theorem logged_start : Logged (World.start : World κ) :=
  ⟨rfl, List.nodup_nil, fun _ h => (nomatch h), fun _ h => (nomatch h), fun _ => rfl, fun _ h => (nomatch h)⟩

/-- a step that moves no command and no record keeps the log -/
theorem Logged.of_same {w w' : World κ} (h : Logged w) (hlog : w'.log = w.log) (hacks : w'.acks = w.acks)
    (hphase : w'.phase.unacked = w.phase.unacked) (hids : w'.ids.Sublist w.ids) (hnext : w'.next = w.next)
    (hcompleted : w'.completed = w.completed) (hsubs : w'.subs = w.subs) (hpending : w'.pending = w.pending) :
    Logged w' := by
  refine ⟨?_, h.nodup.sublist hids, fun id hid => ?_, ?_, ?_, ?_⟩
  · rw [hlog, hacks, hphase]
    exact h.log
  · rw [hnext]
    exact h.fresh id (hids.subset hid)
  · rw [hcompleted, hacks]
    exact h.completed
  · rw [hpending, hsubs, hlog]
    exact h.settled
  · rw [hpending, hsubs, hlog]
    exact h.pending

/-- a move between phases that have no command at hand keeps the log -/
theorem Logged.of_idle {w w' : World κ} (h : Logged w) (hlog : w'.log = w.log) (hacks : w'.acks = w.acks)
    (hidle : w.phase.inHand = []) (hidle' : w'.phase.inHand = [])
    (hcmds : (requests w'.cmds).Sublist (requests w.cmds)) (hnext : w'.next = w.next)
    (hcompleted : w'.completed = w.completed) (hsubs : w'.subs = w.subs) (hpending : w.pending = none)
    (hpending' : w'.pending = none) : Logged w' := by
  have hunacked : ∀ p : Phase κ, p.inHand = [] → p.unacked = [] := fun p hp => by
    cases p with
    | served => simp [Phase.inHand] at hp
    | _ => rfl
  refine h.of_same hlog hacks ?_ ?_ hnext hcompleted hsubs ?_
  · rw [hunacked _ hidle, hunacked _ hidle']
  · unfold World.ids
    rw [hacks, hidle, hidle']
    exact (List.Sublist.refl _).append (hcmds.map _)
  · rw [hpending, hpending']

/-- the server's answer: a command that succeeded is in the log from here on -/
theorem logged_serve {w : World κ} (h : Logged w) {r : Request κ} (hphase : w.phase = .sent r) (fate : Fate) :
    Logged (w.serve r fate) := by
  have hlog : w.log = acknowledged w.acks := by simpa [hphase, Phase.unacked] using h.log
  have hsubs : w.subs = recordOf w.log := h.settled (by simp [World.pending, hphase])
  have hids : (w.serve r fate).ids = w.ids := by simp [World.ids, World.serve, hphase, Phase.inHand]
  refine ⟨?_, hids ▸ h.nodup, fun id hid => h.fresh id (hids ▸ hid), h.completed, ?_, ?_⟩
  · simp only [World.serve, hlog]
    cases opResult r.op fate.result <;> simp [Phase.unacked]
  · unfold World.serve World.pending
    cases hresult : opResult r.op fate.result with
    | ok => simp
    | error e => simpa using hsubs
  · unfold World.serve World.pending
    cases hresult : opResult r.op fate.result with
    | ok =>
      intro r' hr'
      cases hr'
      exact ⟨w.log, rfl, hsubs⟩
    | error e => simp

/-- the update of the record -/
theorem logged_finish {w : World κ} (h : Logged w) {r : Request κ} {result : Except RedisError Unit}
    (hphase : w.phase = .acked r result) : Logged (w.finish r result) := by
  cases result with
  | error e =>
    have hpending : w.pending = none := by simp [World.pending, hphase]
    refine h.of_idle rfl rfl (by rw [hphase]; rfl) ?_ (List.Sublist.refl _) rfl rfl rfl hpending ?_
    · cases hio : wasIoError (.error e) <;> simp [World.finish, Phase.inHand, hio]
    · cases hio : wasIoError (.error e) <;> simp [World.finish, World.pending, hio]
  | ok =>
    obtain ⟨before, hlog, hsubs⟩ := h.pending r (by simp [World.pending, hphase])
    have hids : (w.finish r (.ok ())).ids = w.ids := by simp [World.ids, World.finish, hphase, Phase.inHand]
    refine ⟨?_, hids ▸ h.nodup, fun id hid => h.fresh id (hids ▸ hid), h.completed, fun _ => ?_, fun _ hr => ?_⟩
    · have := h.log
      rwa [hphase] at this
    · simp only [World.finish]
      rw [hlog, recordOf_snoc, hsubs]
    · cases hr

theorem logged_step (w : World κ) (e : Event κ) (h : Logged w) : Logged (step w e) := by
  have hmove := step_cases w e
  generalize step w e = w' at hmove
  cases hmove with
  | still => exact h
  | publish | cut | read => exact ⟨h.log, h.nodup, h.fresh, h.completed, h.settled, h.pending⟩
  | close =>
    refine h.of_same rfl rfl rfl ?_ rfl rfl rfl rfl
    simp [World.ids, requests]
  | @issue caller op names =>
    have hids : World.ids { w with cmds := w.cmds ++ [.request ⟨w.next, caller, op, names⟩], next := w.next + 1 } =
        w.ids ++ [w.next] := by
      simp [World.ids, requests]
    refine ⟨h.log, ?_, ?_, h.completed, h.settled, h.pending⟩
    · rw [hids]
      refine h.nodup.append (List.nodup_singleton _) ?_
      simp only [List.disjoint_singleton]
      exact fun hmem => absurd (h.fresh _ hmem) (Nat.lt_irrefl _)
    · intro id hid
      rw [hids, List.mem_append, List.mem_singleton] at hid
      rcases hid with hid | rfl
      · exact Nat.lt_succ_of_lt (h.fresh id hid)
      · exact Nat.lt_succ_self _
  | shutdown hphase hcmds =>
    refine h.of_idle rfl rfl (by rw [hphase]; rfl) rfl ?_ rfl rfl rfl (by simp [World.pending, hphase]) rfl
    rw [hcmds]
    exact List.Sublist.refl _
  | take hphase hcmds =>
    refine h.of_same rfl rfl (by rw [hphase]; rfl) ?_ rfl rfl rfl (by simp [World.pending, hphase])
    simp [World.ids, hphase, hcmds, Phase.inHand, requests]
  | serve hphase => exact logged_serve h hphase _
  | @ack r result hphase =>
    have hids : World.ids { w with phase := .acked r result, acks := w.acks ++ [(r, ackOf result)] } = w.ids := by
      simp [World.ids, hphase, Phase.inHand]
    have hpending : World.pending { w with phase := .acked r result, acks := w.acks ++ [(r, ackOf result)] } =
        w.pending := by
      cases result <;> simp [World.pending, hphase]
    refine ⟨?_, hids ▸ h.nodup, fun id hid => h.fresh id (hids ▸ hid), fun r' hr' => ?_, ?_, ?_⟩
    · have hlog := h.log
      rw [hphase] at hlog
      rw [acknowledged_snoc, hlog]
      simp [Phase.unacked]
    · rw [acknowledged_snoc]
      exact List.mem_append_left _ (h.completed r' hr')
    · rw [hpending]
      exact h.settled
    · rw [hpending]
      exact h.pending
  | finish hphase => exact logged_finish h hphase
  | ended hphase =>
    exact h.of_idle rfl rfl (by rw [hphase]; rfl) rfl (List.Sublist.refl _) rfl rfl rfl
      (by simp [World.pending, hphase]) rfl
  | reconnected hphase =>
    exact h.of_idle rfl rfl (by rw [hphase]; rfl) rfl (List.Sublist.refl _) rfl rfl rfl
      (by simp [World.pending, hphase]) rfl
  | gaveUp hphase =>
    exact h.of_idle rfl rfl (by rw [hphase]; rfl) rfl (List.Sublist.refl _) rfl rfl rfl
      (by simp [World.pending, hphase]) rfl
  | @complete r hack =>
    refine ⟨h.log, h.nodup, h.fresh, fun r' hr' => ?_, h.settled, h.pending⟩
    rcases List.mem_cons.1 hr' with rfl | hr'
    · exact List.mem_filterMap.2 ⟨_, hack, rfl⟩
    · exact h.completed r' hr'

/-! ## Readings -/

/-- a command the supervisor has acknowledged last is in the log once -/
theorem last_once {w : World κ} (h : Logged w) {r : Request κ} (hphase : w.phase = .acked r (.ok ()))
    {before : List (Request κ)} (hlog : w.log = before ++ [r]) : r ∉ before := by
  have hacks : before ++ [r] = acknowledged w.acks := by rw [← hlog, h.log, hphase]; simp [Phase.unacked]
  have hsub : ((acknowledged w.acks).map (·.id)).Sublist (w.acks.map (·.1.id)) := by
    induction w.acks with
    | nil => exact List.Sublist.refl _
    | cons a acks ih =>
      obtain ⟨r, result⟩ := a
      cases result with
      | ok => exact ih.cons_cons _
      | error => exact ih.cons _
  have hnodup : ((before ++ [r]).map (·.id)).Nodup := by
    rw [hacks]
    exact (h.nodup.sublist (List.sublist_append_left _ _)).sublist hsub
  intro hmem
  rw [List.map_append, List.nodup_append] at hnodup
  exact hnodup.2.2 r.id (List.mem_map_of_mem hmem) r.id (by simp) rfl

/-- a part of the log that has its last command is the whole log -/
theorem prefix_with_last {before seen rest : List (Request κ)} {r : Request κ} (hsplit : before ++ [r] = seen ++ rest)
    (hseen : r ∈ seen) (honce : r ∉ before) : before ++ [r] = seen := by
  rcases List.eq_nil_or_concat rest with rfl | ⟨rest, x, rfl⟩
  · rw [hsplit, List.append_nil]
  · rw [List.concat_eq_append, ← List.append_assoc] at hsplit
    have hbefore := (List.append_inj' hsplit rfl).1
    exact absurd (hbefore ▸ List.mem_append_left _ hseen) honce

/-- **One reading.** It sees all that has completed for its caller exactly where it does not fall into the gap -/
theorem sees_iff {w : World κ} (h : Logged w) (e : Event κ) : Sees w e ↔ ReadsSettled w e := by
  cases e with
  | observe caller =>
    unfold Sees ReadsSettled World.observed
    cases hopen : w.isOpen with
    | false => simp
    | true =>
      have hmem : ∀ r ∈ w.completed, r ∈ w.log := fun r hr => by
        rw [h.log]
        exact List.mem_append_left _ (h.completed r hr)
      simp only [if_true, Option.some.injEq, forall_eq', forall_const]
      cases hpending : w.pending with
      | none =>
        constructor
        · intro _ r hphase
          simp [World.pending, hphase] at hpending
        · intro _
          exact ⟨w.log, [], (List.append_nil _).symm, fun r hr _ => hmem r hr, h.settled hpending⟩
      | some r =>
        obtain ⟨before, hlog, hsubs⟩ := h.pending r hpending
        constructor
        · rintro ⟨seen, rest, hsplit, hall, heq⟩ r' hphase hdone hcaller
          obtain rfl : r' = r := by simpa [World.pending, hphase] using hpending
          have hseen := hall r' hdone hcaller
          rw [hlog] at hsplit
          obtain rfl : before ++ [r'] = seen := prefix_with_last hsplit hseen (last_once h hphase hlog)
          calc w.subs.after r' = (recordOf before).after r' := by rw [hsubs]
            _ = recordOf (before ++ [r']) := (recordOf_snoc before r').symm
            _ = w.subs := heq.symm
        · intro hsettled
          rcases phase_of_pending hpending with hphase | hphase
          · have hacks : before = acknowledged w.acks := by
              have := h.log
              rw [hphase, hlog] at this
              exact (List.append_inj' this rfl).1
            exact ⟨before, [r], hlog, fun r' hr' _ => hacks ▸ h.completed r' hr', hsubs⟩
          · by_cases hdone : r ∈ w.completed ∧ r.caller = caller
            · refine ⟨w.log, [], (List.append_nil _).symm, fun r' hr' _ => hmem r' hr', ?_⟩
              rw [hlog, recordOf_snoc, ← hsubs]
              exact (hsettled r hphase hdone.1 hdone.2).symm
            · refine ⟨before, [r], hlog, fun r' hr' hcaller => ?_, hsubs⟩
              have hin := hmem r' hr'
              rw [hlog, List.mem_append, List.mem_singleton] at hin
              rcases hin with hin | rfl
              · exact hin
              · exact absurd ⟨hr', hcaller⟩ hdone
  | _ => exact Iff.rfl

theorem along_sees_iff {w : World κ} (h : Logged w) (l : List (Event κ)) :
    Along step Sees w l ↔ Along step ReadsSettled w l :=
  along_iff (A := fun _ => True) (fun w e _ h _ => logged_step w e h) (fun _ e _ h => sees_iff h e)
    (fun _ _ => trivial) h

/-- **Read-your-writes.** Over any run of a fresh bridge, every reading of a caller is of a record with all that has
completed for it, if and only if no reading falls into the gap. -/
theorem read_your_writes_iff (l : List (Event κ)) : Along step Sees .start l ↔ Along step ReadsSettled .start l :=
  along_sees_iff logged_start l

/-- the run in which `subscribe("a")` completes for its caller before the record has it -/
def readsTooEarly : List (Event ℕ) :=
  [.issue 0 .subscribe [[97]], .take, .serve .ok, .ack, .complete 0, .observe 0]

theorem reads_too_early : ¬ ∀ l : List (Event ℕ), Along step Sees .start l := by
  intro h
  have hread := (along_sees_iff logged_start _).1 (h readsTooEarly)
  have hsame := hread.2.2.2.2.2.1 rfl ⟨0, 0, .subscribe, [[97]]⟩ rfl (by decide) rfl
  exact absurd hsame (by decide)

end RedisRsPy.PubSub
