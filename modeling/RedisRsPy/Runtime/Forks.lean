/-
Whose runtime `get_runtime` gives, over runs of processes that call it, fork and end.

`HandsOut` is what the singleton is for: every call gets a runtime that was built in its own process, the calls of a
process that start after its first return get the same one, and no call is stuck. `Robust` says that it stays so while the
processes go on calling. A fork breaks it where the child inherits a step that another thread had not finished (the runtime
is being built, or is there and its pid is not; the lock is held), or where the pid of the child is one that the statics
carry from a process that is gone.

Results:
- `step_ok`: a step that meets `Meets` keeps every process sound and the log right;
- `handsOut_run`: so a run of such steps hands out right, in every world that it reaches;
- `inheritable_of_robust`: a fork after which the world is robust has left the child statics that it can work with;
- `get_runtime_iff`: every step of a run leaves a robust world exactly if every step meets `Meets`; `get_runtime_iff_fork`
  is a run with a fork, and `get_runtime_foreign` one whose child gets its parent's runtime.
-/
import RedisRsPy.Runtime.Singleton

namespace RedisRsPy.Runtime

open Lib (run run_cons run_append Along)

/-! ## What the singleton is for -/

/-- steps of the other threads of its process, or of its own, bring thread `t` to where its next step returns a runtime -/
def Returns (w : World) (p t : ℕ) : Prop :=
  ∃ (threads : List ℕ) (late : Bool) (rt : TokioRuntime),
    ((run World.step w (threads.map fun t' => .step p t' true)).step (.step p t true)).log =
      ⟨p, late, some rt⟩ :: (run World.step w (threads.map fun t' => .step p t' true)).log

structure HandsOut (w : World) : Prop where
  own : ∀ r ∈ w.log, ∃ rt, r.outcome = some rt ∧ rt.home = r.process
  same : ∀ r ∈ w.log, ∀ r' ∈ w.log, r.process = r'.process → r.late = true → r'.late = true → r.outcome = r'.outcome
  returns : ∀ p proc, w.processes[p]? = some proc → proc.alive = true →
    ∀ t call, proc.calls t = some call → Returns w p t

/-- calls, and steps of calls whose builds succeed -/
def Event.quiet : Event → Bool
  | .call _ _ => true
  | .step _ _ builds => builds
  | _ => false

/-- it hands out right, and goes on doing so -/
def Robust (w : World) : Prop := ∀ more : List Event, (∀ e ∈ more, e.quiet = true) → HandsOut (run World.step w more)

/-- a build does not fail, and a fork leaves its child statics that it can work with -/
def Meets (w : World) : Event → Prop
  | .step p t builds => ∀ proc ∈ w.processes[p]?, proc.alive = true → ∀ call ∈ proc.calls t, call.pc.builds = true → builds = true
  | .fork p t newPid => ∀ proc ∈ w.processes[p]?, proc.alive = true ∧ proc.calls t = none ∧ w.Unused newPid →
      proc.statics.Inheritable newPid
  | _ => True

instance : ∀ (w : World) (e : Event), Decidable (Meets w e)
  | _, .call _ _ => inferInstanceAs (Decidable True)
  | w, .step p t builds => inferInstanceAs (Decidable (∀ proc ∈ w.processes[p]?, proc.alive = true →
      ∀ call ∈ proc.calls t, call.pc.builds = true → builds = true))
  | w, .fork p t newPid => inferInstanceAs (Decidable (∀ proc ∈ w.processes[p]?,
      proc.alive = true ∧ proc.calls t = none ∧ w.Unused newPid → proc.statics.Inheritable newPid))
  | _, .exit _ => inferInstanceAs (Decidable True)

theorem meets_of_quiet {e : Event} (hquiet : e.quiet = true) (w : World) : Meets w e := by
  cases e with
  | call p t => trivial
  | step p t builds => exact fun _ _ _ _ _ _ => hquiet
  | fork p t newPid => cases hquiet
  | exit p => trivial

/-! ## The invariant of a world -/

/-- every process is sound, and the log says what was built in the process and, for a late call, what is settled there -/
structure WorldOk (w : World) : Prop where
  sound : ∀ p proc, w.processes[p]? = some proc → Sound p proc
  log : ∀ r ∈ w.log, ∃ proc rt, w.processes[r.process]? = some proc ∧ r.outcome = some rt ∧ rt.home = r.process ∧
    (r.late = true → settled proc.pid proc.statics = some rt)

variable {w : World} {p t : ℕ} {proc proc' : Process}

theorem worldOk_start {pid : ℕ} (hpid : pid ≠ 0) : WorldOk (.start pid) where
  sound := by
    intro p proc hproc
    obtain ⟨hlt, rfl⟩ := List.getElem?_eq_some_iff.1 hproc
    have hzero : p = 0 := Nat.lt_one_iff.1 hlt
    subst hzero
    have hinitial : StaticsOk 0 pid .initial :=
      ⟨rfl, fun _ => ⟨rfl, rfl⟩, fun hne => absurd rfl hne, by simp [Statics.initial], by simp [Statics.initial],
        by simp [Statics.initial], by simp [Statics.initial]⟩
    exact sound_start hpid hinitial (Nat.le_refl 0) ⟨fun _ => rfl, rfl, hpid.symm, by simp [Statics.initial]⟩
  log := by
    intro r hr
    cases hr

/-- one process goes on, and something may have been returned in it -/
theorem WorldOk.set (h : WorldOk w) (hproc : w.processes[p]? = some proc) (hsound : Sound p proc')
    (hsettled : ∀ rt, settled proc.pid proc.statics = some rt → settled proc'.pid proc'.statics = some rt)
    {returns : List Return} (hreturns : ∀ r ∈ returns, r.process = p ∧ ∃ rt, r.outcome = some rt ∧ rt.home = p ∧
      (r.late = true → settled proc'.pid proc'.statics = some rt)) (steps : ℕ) :
    WorldOk ⟨w.processes.set p proc', steps, returns ++ w.log⟩ where
  sound := by
    intro q qproc hq
    by_cases heq : p = q
    · subst heq
      rw [List.getElem?_set_self (List.getElem?_eq_some_iff.1 hproc).1] at hq
      exact Option.some.inj hq ▸ hsound
    · rw [List.getElem?_set_ne heq] at hq
      exact h.sound q qproc hq
  log := by
    have hself : (w.processes.set p proc')[p]? = some proc' :=
      List.getElem?_set_self (List.getElem?_eq_some_iff.1 hproc).1
    intro r hr
    rcases List.mem_append.1 hr with hnew | hold
    · obtain ⟨hprocess, rt, houtcome, hhome, hlate⟩ := hreturns r hnew
      exact ⟨proc', rt, by rw [hprocess]; exact hself, houtcome, hhome.trans hprocess.symm, hlate⟩
    · obtain ⟨qproc, rt, hq, houtcome, hhome, hlate⟩ := h.log r hold
      by_cases heq : p = r.process
      · refine ⟨proc', rt, heq ▸ hself, houtcome, hhome, fun hl => hsettled rt ?_⟩
        rw [← heq, hproc] at hq
        rw [Option.some.inj hq]
        exact hlate hl
      · exact ⟨qproc, rt, by rw [List.getElem?_set_ne heq]; exact hq, houtcome, hhome, hlate⟩

theorem WorldOk.replace (h : WorldOk w) (hproc : w.processes[p]? = some proc) (hsound : Sound p proc')
    (hsettled : ∀ rt, settled proc.pid proc.statics = some rt → settled proc'.pid proc'.statics = some rt) :
    WorldOk { w with processes := w.processes.set p proc' } :=
  h.set hproc hsound hsettled (fun _ hr => absurd hr List.not_mem_nil : ∀ r ∈ ([] : List Return), _) w.steps

/-- a process is added -/
theorem WorldOk.append (h : WorldOk w) (hsound : Sound w.processes.length proc') :
    WorldOk { w with processes := w.processes ++ [proc'] } where
  sound := by
    intro q qproc hq
    by_cases hlt : q < w.processes.length
    · rw [List.getElem?_append_left hlt] at hq
      exact h.sound q qproc hq
    · have hbound := (List.getElem?_eq_some_iff.1 hq).1
      rw [List.length_append, List.length_singleton] at hbound
      have heq : q = w.processes.length := Nat.le_antisymm (Nat.le_of_lt_succ hbound) (Nat.le_of_not_lt hlt)
      subst heq
      rw [List.getElem?_concat_length] at hq
      exact Option.some.inj hq ▸ hsound
  log := by
    intro r hr
    obtain ⟨qproc, rt, hq, hrest⟩ := h.log r hr
    refine ⟨qproc, rt, ?_, hrest⟩
    rw [List.getElem?_append_left (List.getElem?_eq_some_iff.1 hq).1]
    exact hq

/-- what a step of a thread is in the world -/
theorem world_step {builds : Bool} {ended : Option (Bool × Option TokioRuntime)} (hproc : w.processes[p]? = some proc)
    (halive : proc.alive = true)
    (hstep : proc.step t (if builds then some ⟨p, w.steps⟩ else none) = some (proc', ended)) :
    w.step (.step p t builds) =
      ⟨w.processes.set p proc', w.steps + 1, (ended.map fun e => Return.mk p e.1 e.2).toList ++ w.log⟩ := by
  rw [World.step, hproc]
  dsimp only
  rw [if_pos halive, hstep]

/-- **A step that meets the condition keeps the world all right.** -/
theorem step_ok {e : Event} (h : WorldOk w) (hmeets : Meets w e) : WorldOk (w.step e) := by
  cases e with
  | call p t =>
    rw [World.step]
    split
    · next proc hproc =>
      split_ifs with henabled
      · exact h.replace hproc ((h.sound p proc hproc).call henabled.2) fun _ hrt => hrt
      · exact h
    · exact h
  | step p t builds =>
    cases hproc : w.processes[p]? with
    | none =>
      rw [World.step, hproc]
      exact h
    | some proc =>
      by_cases halive : proc.alive = true
      · cases hstep : proc.step t (if builds then some ⟨p, w.steps⟩ else none) with
        | none =>
          rw [World.step, hproc]
          dsimp only
          rw [if_pos halive, hstep]
          exact h
        | some next =>
          obtain ⟨proc', ended⟩ := next
          have hok := advance_sound (h.sound p proc hproc) hstep
            (by intro rt hrt; split_ifs at hrt; exact Option.some.inj hrt ▸ rfl)
            (by
              intro call hcall hbuilds
              rw [if_pos (hmeets proc hproc halive call hcall hbuilds)]
              exact Option.some_ne_none _)
          rw [world_step hproc halive hstep]
          refine h.set hproc hok.sound ?_ ?_ (w.steps + 1)
          · rw [hok.pid]
            exact hok.settled
          · intro r hr
            obtain ⟨⟨late, outcome⟩, hended, rfl⟩ := Option.map_eq_some_iff.1 (Option.mem_toList.1 hr)
            rw [hok.pid]
            exact ⟨rfl, hok.ended late outcome hended⟩
      · rw [World.step, hproc]
        dsimp only
        rw [if_neg halive]
        exact h
  | fork p t newPid =>
    rw [World.step]
    split
    · next proc hproc =>
      split_ifs with henabled
      · have hlt := (List.getElem?_eq_some_iff.1 hproc).1
        refine h.append (sound_start henabled.2.2.1 (h.sound p proc hproc).statics (Nat.le_of_lt hlt) ?_)
        exact hmeets proc hproc henabled
      · exact h
    · exact h
  | exit p =>
    rw [World.step]
    split
    · next proc hproc =>
      have hsound := h.sound p proc hproc
      have hexit : Sound p { proc with alive := false } :=
        ⟨hsound.pid_ne, hsound.statics, hsound.initializing, hsound.locked, hsound.calls, hsound.late, hsound.returned⟩
      exact h.replace hproc hexit fun _ hrt => hrt
    · exact h

/-! ## A good world hands out right -/

/-- a call gets nearer to its return until it returns -/
theorem returns_of_ok (h : WorldOk w) (hproc : w.processes[p]? = some proc) (halive : proc.alive = true) {call : Call}
    (hcall : proc.calls t = some call) : Returns w p t := by
  induction hn : proc.distance call.pc using Nat.strongRecOn generalizing w proc call with
  | ind n ih =>
    subst hn
    obtain ⟨t', proc', ended, hstep, hnext⟩ := sound_progress (h.sound p proc hproc) hcall (some ⟨p, w.steps⟩)
    have hok := advance_sound (h.sound p proc hproc) hstep (by rintro _ ⟨⟩; rfl) (fun _ _ _ => Option.some_ne_none _)
    have hworld : w.step (.step p t' true) = _ := world_step hproc halive hstep
    rcases hnext with ⟨rfl, hended⟩ | ⟨call', hcall', hlt⟩
    · obtain ⟨⟨late, outcome⟩, rfl⟩ := Option.ne_none_iff_exists'.1 hended
      obtain ⟨rt, rfl, -⟩ := hok.ended late outcome rfl
      refine ⟨[], late, rt, ?_⟩
      rw [List.map_nil, Lib.run_nil, hworld]
      rfl
    · have hproc' : (w.step (.step p t' true)).processes[p]? = some proc' := by
        rw [hworld]
        exact List.getElem?_set_self (List.getElem?_eq_some_iff.1 hproc).1
      have hmeets : Meets w (.step p t' true) := fun _ _ _ _ _ _ => rfl
      obtain ⟨threads, late, rt, hlog⟩ :=
        ih (proc'.distance call'.pc) hlt (step_ok h hmeets) hproc' (hok.alive.trans halive) hcall' rfl
      exact ⟨t' :: threads, late, rt, by rw [List.map_cons, run_cons]; exact hlog⟩

theorem handsOut_of_ok (h : WorldOk w) : HandsOut w where
  own := by
    intro r hr
    obtain ⟨_, rt, -, houtcome, hhome, -⟩ := h.log r hr
    exact ⟨rt, houtcome, hhome⟩
  same := by
    intro r hr r' hr' hprocess hlate hlate'
    obtain ⟨proc, rt, hproc, houtcome, -, hsettled⟩ := h.log r hr
    obtain ⟨proc', rt', hproc', houtcome', -, hsettled'⟩ := h.log r' hr'
    rw [← hprocess, hproc] at hproc'
    cases hproc'
    rw [houtcome, houtcome', ← hsettled hlate, hsettled' hlate']
  returns := fun _ _ hproc halive _ _ hcall => returns_of_ok h hproc halive hcall

theorem worldOk_run {l : List Event} (h : WorldOk w) (hl : Along World.step Meets w l) : WorldOk (run World.step w l) :=
  Lib.run_invariant (fun _ _ hw hmeets => step_ok hw hmeets) h hl

theorem robust_of_ok (h : WorldOk w) : Robust w := by
  intro more hquiet
  have hmeets : Along World.step (fun _ e => e.quiet = true) w more := Lib.along_of_forall hquiet
  exact handsOut_of_ok (Lib.run_invariant (fun w' _ hw he => step_ok hw (meets_of_quiet he w')) h hmeets)

/-- **Runs that meet the condition hand out right** in the world that they reach. -/
theorem handsOut_run {pid : ℕ} (hpid : pid ≠ 0) {l : List Event} (hl : Along World.step Meets (.start pid) l) :
    HandsOut (run World.step (.start pid) l) :=
  handsOut_of_ok (worldOk_run (worldOk_start hpid) hl)

/-! ## What a robust world shows -/

theorem Robust.step {e : Event} (h : Robust w) (hquiet : e.quiet = true) : Robust (w.step e) := by
  intro more hmore
  refine h (e :: more) ?_
  intro e' he'
  rcases List.mem_cons.1 he' with rfl | hmem
  · exact hquiet
  · exact hmore e' hmem

theorem Robust.handsOut (h : Robust w) : HandsOut w := h [] (by simp)

/-- in some robust world a thread of process `p` is here, alone in `get_runtime` -/
def Probe (p t pid : ℕ) (s : Statics) (pc : Pc) : Prop :=
  ∃ w proc late, Robust w ∧ w.processes[p]? = some proc ∧ proc.alive = true ∧ proc.pid = pid ∧ proc.statics = s ∧
    proc.calls = Function.update (fun _ => none) t (some ⟨late, pc⟩)

variable {pid : ℕ} {s s' : Statics} {pc pc' : Pc}

theorem Probe.goTo (h : Probe p t pid s pc) (hgo : ∀ fresh, advance pid t fresh s pc = .goTo s' pc') :
    Probe p t pid s' pc' := by
  obtain ⟨w, proc, late, hrobust, hproc, halive, rfl, rfl, hcalls⟩ := h
  have hcall : proc.calls t = some ⟨late, pc⟩ := by
    rw [hcalls]
    exact Function.update_self ..
  refine ⟨w.step (.step p t true),
    { proc with statics := s', calls := Function.update proc.calls t (some ⟨late, pc'⟩) }, late, hrobust.step rfl, ?_,
    halive, rfl, rfl, ?_⟩
  · rw [world_step hproc halive (step_goTo hcall (hgo _))]
    exact List.getElem?_set_self (List.getElem?_eq_some_iff.1 hproc).1
  · dsimp only
    rw [hcalls, Function.update_idem]

/-- what it returns was built in its process -/
theorem Probe.finish {outcome : Option TokioRuntime} (h : Probe p t pid s pc)
    (hfinish : ∀ fresh, advance pid t fresh s pc = .finish s' outcome) : ∃ rt, outcome = some rt ∧ rt.home = p := by
  obtain ⟨w, proc, late, hrobust, hproc, halive, rfl, rfl, hcalls⟩ := h
  have hcall : proc.calls t = some ⟨late, pc⟩ := by
    rw [hcalls]
    exact Function.update_self ..
  have hstep := world_step hproc halive (step_finish hcall (hfinish (if true then some ⟨p, w.steps⟩ else none)))
  have hown := ((hrobust.step rfl : Robust (w.step (.step p t true))).handsOut).own ⟨p, late, outcome⟩
  rw [hstep] at hown
  exact hown List.mem_cons_self

/-- it does not wait: nobody else is there -/
theorem Probe.free (h : Probe p t pid s pc) (hblocked : ∀ fresh, advance pid t fresh s pc = .blocked) : False := by
  obtain ⟨w, proc, late, hrobust, hproc, halive, rfl, rfl, hcalls⟩ := h
  have hstill : ∀ t', w.step (.step p t' true) = w := by
    intro t'
    have hnone : ∀ fresh, proc.step t' fresh = none := by
      intro fresh
      rw [Process.step, hcalls]
      by_cases heq : t' = t
      · subst heq
        rw [Function.update_self]
        dsimp only
        rw [hblocked]
      · rw [Function.update_of_ne heq]
    rw [World.step, hproc]
    dsimp only
    rw [if_pos halive, hnone]
  have hrun : ∀ threads : List ℕ, run World.step w (threads.map fun t' => .step p t' true) = w := by
    intro threads
    induction threads with
    | nil => rfl
    | cons t' threads ih => rw [List.map_cons, run_cons, hstill, ih]
  obtain ⟨threads, late', rt, hlog⟩ := hrobust.handsOut.returns p proc hproc halive t ⟨late, pc⟩ (by
    rw [hcalls]
    exact Function.update_self ..)
  rw [hrun, hstill] at hlog
  exact absurd hlog.symm (List.cons_ne_self _ _)

/-! ## A fork that is not all right breaks it -/

section Child

variable {c newPid : ℕ}

/-- a child that starts with statics of a sound parent shows whether it can work with them -/
theorem inheritable_of_probe (hpid : newPid ≠ 0) (h : StaticsOk p pid s) (hlt : p < c)
    (hprobe : Probe c t newPid s .start) : s.Inheritable newPid := by
  have hforeign : ∀ rt : TokioRuntime, rt.home ≤ p → ¬ ∃ rt', some rt = some rt' ∧ rt'.home = c := by
    rintro rt hle ⟨_, ⟨⟩, hhome⟩
    omega
  -- its pid is not the one of `RUNTIME_PID`: the fast path would give it a runtime of before
  have hother : s.runtimePid ≠ newPid := by
    intro hself
    obtain ⟨rt, hrt⟩ := h.filled (hself ▸ hpid)
    have hfast : Probe c t newPid s .fast := hprobe.goTo fun _ => by rw [advance, if_pos hself]
    have hfinish : ∀ fresh, advance newPid t fresh s .fast = .finish s (some rt) := fun _ => by rw [advance, hrt]
    exact hforeign rt (h.past rt hrt) (hfast.finish hfinish)
  have hslow : Probe c t newPid s .slow := hprobe.goTo fun _ => by rw [advance, if_neg hother]
  have hlocked : s.runtimePid ≠ 0 → Probe c t newPid s .lock := fun hset =>
    hslow.goTo fun _ => by rw [advance, if_neg hset]
  -- nobody has the lock: nobody would give it back
  have hlock : s.forkLock = none := by
    by_contra hheld
    obtain ⟨t', ht'⟩ := Option.ne_none_iff_exists'.1 hheld
    have hset : s.runtimePid ≠ 0 := fun hzero => hheld (h.unset hzero).2
    exact (hlocked hset).free fun _ => by rw [advance, ht']
  refine ⟨?_, hlock, hother, ?_⟩
  · intro hzero
    have honce : Probe c t newPid s .once := hslow.goTo fun _ => by rw [advance, if_pos hzero]
    cases hruntime : s.runtime with
    | empty => rfl
    | initializing t' => exact (honce.free fun _ => by rw [advance, hruntime]).elim
    | filled rt =>
      have hstore : Probe c t newPid s (.store rt) := honce.goTo fun _ => by rw [advance, hruntime]
      exact (hforeign rt (h.past rt hruntime) (hstore.finish fun _ => by rw [advance])).elim
  · intro hsaved
    obtain ⟨⟨storedPid, rt⟩, hfork, rfl⟩ := Option.map_eq_some_iff.1 hsaved
    have hset : s.runtimePid ≠ 0 := by
      intro hzero
      rw [(h.unset hzero).1] at hfork
      cases hfork
    have hsane : ¬ s.poisoned = true := by
      rw [h.sane]
      exact Bool.false_ne_true
    have hcheck : Probe c t storedPid { s with forkLock := some t } .check :=
      (hlocked hset).goTo fun _ => by rw [advance, hlock]; dsimp only; rw [if_neg hsane]
    have hfinish : ∀ fresh, advance storedPid t fresh { s with forkLock := some t } .check =
        .finish { s with forkLock := none } (some rt) := by
      intro fresh
      rw [advance]
      dsimp only
      rw [hfork]
      dsimp only
      rw [if_pos rfl]
    exact hforeign rt (h.pastFork storedPid rt hfork) (hcheck.finish hfinish)

/-- **A fork after which the world is robust** has left the child statics that it can work with. -/
theorem inheritable_of_robust (h : WorldOk w) (hproc : w.processes[p]? = some proc)
    (henabled : proc.alive = true ∧ proc.calls t = none ∧ w.Unused newPid) (hrobust : Robust (w.step (.fork p t newPid))) :
    proc.statics.Inheritable newPid := by
  have hlt := (List.getElem?_eq_some_iff.1 hproc).1
  have hfork : w.step (.fork p t newPid) =
      { w with processes := w.processes ++ [.start newPid proc.statics] } := by
    rw [World.step, hproc]
    dsimp only
    rw [if_pos henabled]
  have hchild : (w.step (.fork p t newPid)).processes[w.processes.length]? = some (.start newPid proc.statics) := by
    rw [hfork]
    exact List.getElem?_concat_length
  refine inheritable_of_probe henabled.2.2.1 (h.sound p proc hproc).statics hlt (t := 0)
    ⟨_, ⟨newPid, proc.statics, Function.update (fun _ => none) 0 (some ⟨false, .start⟩), false, true⟩, false,
      hrobust.step (e := .call w.processes.length 0) rfl, ?_, rfl, rfl, rfl, rfl⟩
  rw [World.step, hchild]
  dsimp only
  rw [if_pos ⟨rfl, rfl⟩]
  exact List.getElem?_set_self (List.getElem?_eq_some_iff.1 hchild).1

end Child

/-- a build that fails panics -/
theorem builds_of_robust {builds : Bool} (hproc : w.processes[p]? = some proc) (halive : proc.alive = true) {call : Call}
    (hcall : proc.calls t = some call) (hpc : call.pc.builds = true) (hrobust : Robust (w.step (.step p t builds))) :
    builds = true := by
  by_contra hfails
  have hnone : (if builds then some (⟨p, w.steps⟩ : TokioRuntime) else none) = none := if_neg hfails
  have hpanic : ∃ s', advance proc.pid t (if builds then some ⟨p, w.steps⟩ else none) proc.statics call.pc = .finish s' none := by
    rw [hnone]
    cases hpc' : call.pc with
    | building => exact ⟨_, rfl⟩
    | rebuild => exact ⟨_, rfl⟩
    | _ =>
      rw [hpc'] at hpc
      cases hpc
  obtain ⟨s', hfinish⟩ := hpanic
  have hlog := world_step hproc halive (step_finish hcall hfinish)
  have hown := hrobust.handsOut.own ⟨p, call.late, none⟩
  rw [hlog] at hown
  obtain ⟨rt, hrt, -⟩ := hown List.mem_cons_self
  cases hrt

/-- in a good world the condition on a step is that the world stays robust -/
theorem robust_step_iff {e : Event} (h : WorldOk w) : Robust (w.step e) ↔ Meets w e := by
  refine ⟨fun hrobust => ?_, fun hmeets => robust_of_ok (step_ok h hmeets)⟩
  cases e with
  | call p t => trivial
  | step p t builds => exact fun proc hproc halive call hcall hpc => builds_of_robust hproc halive hcall hpc hrobust
  | fork p t newPid => exact fun proc hproc henabled => inheritable_of_robust h hproc henabled hrobust
  | exit p => trivial

/-- **Whose runtime `get_runtime` gives.** Every step of a run leaves a world that hands out right, whatever is called
from there on, exactly if no build fails and no fork is taken while its child cannot work with the statics. -/
theorem get_runtime_iff {pid : ℕ} (hpid : pid ≠ 0) (l : List Event) :
    Along World.step (fun w e => Robust (w.step e)) (.start pid) l ↔ Along World.step Meets (.start pid) l :=
  Lib.along_iff (A := fun _ => True) (fun _ _ _ hw hmeets => step_ok hw hmeets) (fun _ _ _ hw => robust_step_iff hw)
    (fun _ _ => trivial) (worldOk_start hpid)

/-- thread `t` of process `p` calls `get_runtime` and makes so many steps -/
def callSteps (p t n : ℕ) : List Event := .call p t :: List.replicate n (.step p t true)

/-- a process that has called `get_runtime` forks, and so does its child when it has called it, too -/
def forkedWorkers : List Event :=
  callSteps 0 1 5 ++ [.fork 0 1 101] ++ callSteps 1 1 6 ++ [.fork 1 1 102] ++ callSteps 2 1 6

/-- grandchildren as well are handed what was built in them -/
theorem get_runtime_iff_fork : Along World.step (fun w e => Robust (w.step e)) (.start 100) forkedWorkers :=
  (get_runtime_iff (by decide) forkedWorkers).2 (by decide)

/-- one thread has its runtime and is about to store the pid when another one forks -/
def forkedBeforeStore : List Event := callSteps 0 1 4 ++ [.fork 0 2 101] ++ callSteps 1 2 4

/-- the child of such a fork gets the runtime of its parent -/
theorem get_runtime_foreign :
    ¬ ∀ (pid : ℕ), pid ≠ 0 → ∀ l : List Event, HandsOut (run World.step (.start pid) l) := by
  intro h
  have hlog : ⟨1, false, some ⟨0, 3⟩⟩ ∈ (run World.step (.start 100) forkedBeforeStore).log := by decide
  obtain ⟨rt, hrt, hhome⟩ := (h 100 (by decide) forkedBeforeStore).own _ hlog
  cases hrt
  exact absurd hhome (by decide)

end RedisRsPy.Runtime
