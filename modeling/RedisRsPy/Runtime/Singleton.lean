/-
The tokio runtime of the process (`get_runtime` of `runtime.rs`), between threads that call it and processes that fork.

The statics are a `OnceLock` with the first runtime, the pid of the process that filled it, and a mutex with a runtime
and the pid it was rebuilt for. `advance` is one step of a call: each access to a static is a step of its own, so that
calls of several threads run into each other anywhere, and a fork falls between any two steps of the other threads.

A fork copies the statics and takes only its own thread along, which is outside of `get_runtime`. A pid is used again when
the process that had it is gone; a process itself is known by its place in the list (`World`).

Results:
- `advance_sound`: in a sound process every step of a call keeps it sound, and a runtime that is returned was built in
  the process and, for a call that starts after the first return, is the settled one;
- `sound_start`: a child of a sound process is sound if nothing in the statics is half done or passes for its own;
- `sound_progress`: in a sound process a call in progress returns or gets nearer to it with the next step of its thread or
  of the one that it waits for.
-/
import RedisRsPy.Lib.Runs

namespace RedisRsPy.Runtime

/-! ## The statics -/

/-- a `tokio::runtime::Runtime`: the process that it was built in, and a number of its own -/
structure TokioRuntime where
  home : ℕ
  serial : ℕ
deriving DecidableEq

/-- a `OnceLock` -/
inductive OnceLock where
  | empty
  /-- this thread is in the closure of `get_or_init` -/
  | initializing (thread : ℕ)
  | filled (rt : TokioRuntime)
deriving DecidableEq

structure Statics where
  /-- `RUNTIME` -/
  runtime : OnceLock
  /-- `RUNTIME_PID` -/
  runtimePid : ℕ
  /-- what `FORK_RUNTIME` guards -/
  forkRuntime : Option (ℕ × TokioRuntime)
  /-- the thread that holds its lock -/
  forkLock : Option ℕ
  /-- a thread has panicked with the lock -/
  poisoned : Bool
deriving DecidableEq

def Statics.initial : Statics := ⟨.empty, 0, none, none, false⟩

/-! ## A call -/

/-- where a call is, by what it does next -/
inductive Pc where
  /-- `RUNTIME_PID.load() == pid` -/
  | start
  /-- `RUNTIME.get().unwrap()` -/
  | fast
  /-- `stored`, in `init_or_fork_runtime` -/
  | slow
  /-- `RUNTIME.get_or_init(..)` -/
  | once
  /-- its closure -/
  | building
  /-- `RUNTIME_PID.store(pid)` -/
  | store (rt : TokioRuntime)
  /-- `FORK_RUNTIME.lock().unwrap()` -/
  | lock
  /-- `if let Some((stored_pid, rt)) = *guard` -/
  | check
  /-- the runtime of a forked process is built -/
  | rebuild
  /-- `*guard = Some((pid, rt))` -/
  | save (rt : TokioRuntime)
deriving DecidableEq

/-- the lock is held from `check` to the return -/
def Pc.holdsLock : Pc → Bool
  | .check | .rebuild | .save _ => true
  | _ => false

/-- a runtime is built -/
def Pc.builds : Pc → Bool
  | .building | .rebuild => true
  | _ => false

inductive Advance where
  | blocked
  | goTo (s : Statics) (pc : Pc)
  /-- the call is over; it has panicked if there is no runtime -/
  | finish (s : Statics) (outcome : Option TokioRuntime)
deriving DecidableEq

/-- `get_runtime` and `init_or_fork_runtime`, one step of thread `t` in the process with this pid; `fresh` is the runtime
that `Builder::build` gives, if it gives one -/
def advance (pid t : ℕ) (fresh : Option TokioRuntime) (s : Statics) : Pc → Advance
  | .start => .goTo s (if s.runtimePid = pid then .fast else .slow)
  | .fast =>
    match s.runtime with
    | .filled rt => .finish s (some rt)
    | _ => .finish s none
  | .slow => .goTo s (if s.runtimePid = 0 then .once else .lock)
  | .once =>
    match s.runtime with
    | .filled rt => .goTo s (.store rt)
    | .empty => .goTo { s with runtime := .initializing t } .building
    | .initializing _ => .blocked
  | .building =>
    match fresh with
    | some rt => .goTo { s with runtime := .filled rt } (.store rt)
    | none => .finish { s with runtime := .empty } none
  | .store rt => .finish { s with runtimePid := pid } (some rt)
  | .lock =>
    match s.forkLock with
    | some _ => .blocked
    | none => if s.poisoned then .finish s none else .goTo { s with forkLock := some t } .check
  | .check =>
    match s.forkRuntime with
    | some (storedPid, rt) =>
      if storedPid = pid then .finish { s with forkLock := none } (some rt) else .goTo s .rebuild
    | none => .goTo s .rebuild
  | .rebuild =>
    match fresh with
    | some rt => .goTo s (.save rt)
    | none => .finish { s with forkLock := none, poisoned := true } none
  | .save rt => .finish { s with forkRuntime := some (pid, rt), forkLock := none } (some rt)

/-! ## Processes -/

/-- a call in progress; `late` says that it started after a call had returned -/
structure Call where
  late : Bool
  pc : Pc
deriving DecidableEq

structure Process where
  pid : ℕ
  statics : Statics
  /-- the call that a thread is in -/
  calls : ℕ → Option Call
  /-- a call has returned -/
  returned : Bool
  alive : Bool

/-- the end of a call: its process, whether it started late, and its runtime or a panic -/
structure Return where
  process : ℕ
  late : Bool
  outcome : Option TokioRuntime
deriving DecidableEq

/-- thread `t` makes one step; with it the end of its call -/
def Process.step (proc : Process) (t : ℕ) (fresh : Option TokioRuntime) :
    Option (Process × Option (Bool × Option TokioRuntime)) :=
  match proc.calls t with
  | none => none
  | some call =>
    match advance proc.pid t fresh proc.statics call.pc with
    | .blocked => none
    | .goTo s pc =>
      some ({ proc with statics := s, calls := Function.update proc.calls t (some ⟨call.late, pc⟩) }, none)
    | .finish s outcome =>
      some ({ proc with
        statics := s
        calls := Function.update proc.calls t none
        returned := proc.returned || outcome.isSome }, some (call.late, outcome))

/-- a process starts outside of `get_runtime` -/
def Process.start (pid : ℕ) (s : Statics) : Process := ⟨pid, s, fun _ => none, false, true⟩

/-- every process there has been -/
structure World where
  processes : List Process
  /-- how many steps have been made; the number of the next runtime -/
  steps : ℕ
  log : List Return

/-- one process that has not called `get_runtime` -/
def World.start (pid : ℕ) : World := ⟨[.start pid .initial], 0, []⟩

inductive Event where
  /-- thread `t` of process `p` calls `get_runtime` -/
  | call (p t : ℕ)
  /-- it makes a step; `builds` says whether the build succeeds where the step is one -/
  | step (p t : ℕ) (builds : Bool)
  /-- thread `t` forks, and the child gets this pid -/
  | fork (p t newPid : ℕ)
  | exit (p : ℕ)
deriving DecidableEq

/-- no process has this pid now -/
def World.Unused (w : World) (pid : ℕ) : Prop := pid ≠ 0 ∧ ∀ proc ∈ w.processes, proc.alive = true → proc.pid ≠ pid

instance (w : World) (pid : ℕ) : Decidable (w.Unused pid) := inferInstanceAs (Decidable (_ ∧ _))

def World.step (w : World) : Event → World
  | .call p t =>
    match w.processes[p]? with
    | some proc =>
      if proc.alive = true ∧ proc.calls t = none then
        { w with processes := w.processes.set p { proc with
            calls := Function.update proc.calls t (some ⟨proc.returned, .start⟩) } }
      else w
    | none => w
  | .step p t builds =>
    match w.processes[p]? with
    | some proc =>
      if proc.alive = true then
        match proc.step t (if builds then some ⟨p, w.steps⟩ else none) with
        | some (proc', ended) => {
            processes := w.processes.set p proc'
            steps := w.steps + 1
            log := (ended.map fun e => ⟨p, e.1, e.2⟩).toList ++ w.log }
        | none => w
      else w
    | none => w
  | .fork p t newPid =>
    match w.processes[p]? with
    | some proc =>
      if proc.alive = true ∧ proc.calls t = none ∧ w.Unused newPid then
        { w with processes := w.processes ++ [.start newPid proc.statics] }
      else w
    | none => w
  | .exit p =>
    match w.processes[p]? with
    | some proc => { w with processes := w.processes.set p { proc with alive := false } }
    | none => w

/-! ## Sound statics -/

/-- the runtime that a call gets which finds everything done -/
def settled (pid : ℕ) (s : Statics) : Option TokioRuntime :=
  if s.runtimePid = pid then
    match s.runtime with
    | .filled rt => some rt
    | _ => none
  else
    match s.forkRuntime with
    | some (storedPid, rt) => if storedPid = pid then some rt else none
    | none => none

/-- the statics of process `u` with this pid: what is under its own pid was built in it, and what it has inherited was
built before it -/
structure StaticsOk (u pid : ℕ) (s : Statics) : Prop where
  sane : s.poisoned = false
  unset : s.runtimePid = 0 → s.forkRuntime = none ∧ s.forkLock = none
  filled : s.runtimePid ≠ 0 → ∃ rt, s.runtime = .filled rt
  own : s.runtimePid = 0 ∨ s.runtimePid = pid → ∀ rt, s.runtime = .filled rt → rt.home = u
  ownFork : ∀ rt, s.forkRuntime = some (pid, rt) → rt.home = u
  past : ∀ rt, s.runtime = .filled rt → rt.home ≤ u
  pastFork : ∀ storedPid rt, s.forkRuntime = some (storedPid, rt) → rt.home ≤ u

/-- what a call of thread `t` relies on -/
def CallOk (u pid : ℕ) (s : Statics) (t : ℕ) : Pc → Prop
  | .start => True
  | .fast => s.runtimePid = pid
  | .slow => True
  | .once => s.runtimePid = 0 ∨ s.runtimePid = pid
  | .building => s.runtime = .initializing t
  | .store rt => s.runtime = .filled rt ∧ (s.runtimePid = 0 ∨ s.runtimePid = pid)
  | .lock => s.runtimePid ≠ 0
  | .check => s.runtimePid ≠ 0 ∧ s.forkLock = some t
  | .rebuild => s.runtimePid ≠ 0 ∧ s.forkLock = some t ∧ ∀ rt, s.forkRuntime ≠ some (pid, rt)
  | .save rt => s.runtimePid ≠ 0 ∧ s.forkLock = some t ∧ (∀ rt, s.forkRuntime ≠ some (pid, rt)) ∧ rt.home = u

/-- a late call finds everything done, and goes the short way -/
def LateOk (pid : ℕ) (s : Statics) (pc : Pc) : Prop :=
  settled pid s ≠ none ∧
    if s.runtimePid = pid then pc = .start ∨ pc = .fast else pc = .start ∨ pc = .slow ∨ pc = .lock ∨ pc = .check

/-- the invariant of a process that inherited nothing it can trip over -/
structure Sound (u : ℕ) (proc : Process) : Prop where
  pid_ne : proc.pid ≠ 0
  statics : StaticsOk u proc.pid proc.statics
  initializing : ∀ t, proc.statics.runtime = .initializing t → ∃ late, proc.calls t = some ⟨late, .building⟩
  locked : ∀ t, proc.statics.forkLock = some t → ∃ call, proc.calls t = some call ∧ call.pc.holdsLock = true
  calls : ∀ t call, proc.calls t = some call → CallOk u proc.pid proc.statics t call.pc
  late : ∀ t call, proc.calls t = some call → call.late = true → LateOk proc.pid proc.statics call.pc
  returned : proc.returned = true → settled proc.pid proc.statics ≠ none

/-- nothing is settled before the pid is set -/
theorem settled_of_unset {u pid : ℕ} {s : Statics} (hpid : pid ≠ 0) (h : StaticsOk u pid s) (hzero : s.runtimePid = 0) :
    settled pid s = none := by
  rw [settled, hzero, if_neg hpid.symm, (h.unset hzero).1]

theorem runtimePid_of_settled {u pid : ℕ} {s : Statics} (hpid : pid ≠ 0) (h : StaticsOk u pid s) (hs : settled pid s ≠ none) :
    s.runtimePid ≠ 0 :=
  fun hzero => hs (settled_of_unset hpid h hzero)

/-- where the pid is this process's, the first runtime is settled -/
theorem settled_of_native {u pid : ℕ} {s : Statics} (hpid : pid ≠ 0) (h : StaticsOk u pid s) (hnative : s.runtimePid = pid) :
    ∃ rt, s.runtime = .filled rt ∧ settled pid s = some rt := by
  obtain ⟨rt, hrt⟩ := h.filled (hnative ▸ hpid)
  refine ⟨rt, hrt, ?_⟩
  rw [settled, if_pos hnative, hrt]

/-- where it is another's, the rebuilt one is -/
theorem settled_of_forked {pid : ℕ} {s : Statics} (hforked : s.runtimePid ≠ pid) {rt : TokioRuntime} :
    settled pid s = some rt ↔ s.forkRuntime = some (pid, rt) := by
  rw [settled, if_neg hforked]
  cases hfork : s.forkRuntime with
  | none => simp
  | some stored =>
    obtain ⟨storedPid, rt'⟩ := stored
    simp only [Option.some.injEq, Prod.mk.injEq]
    split_ifs with heq
    · simp [heq]
    · simp [heq]

/-- a runtime under this pid settles the process, if the first one has not -/
theorem settled_of_fork {u pid : ℕ} {s : Statics} (hpid : pid ≠ 0) (h : StaticsOk u pid s) {rt : TokioRuntime}
    (hfork : s.forkRuntime = some (pid, rt)) : settled pid s ≠ none := by
  by_cases hnative : s.runtimePid = pid
  · obtain ⟨rt', -, hsettled⟩ := settled_of_native hpid h hnative
    rw [hsettled]
    exact Option.some_ne_none rt'
  · rw [(settled_of_forked hnative).2 hfork]
    exact Option.some_ne_none rt

/-! ## The processes after a step -/

/-- what a step of thread `t` from these statics to those has to leave to the other threads -/
structure Leaves (u pid t : ℕ) (s s' : Statics) : Prop where
  ok : StaticsOk u pid s'
  others : ∀ t', t' ≠ t → ∀ pc, CallOk u pid s t' pc → CallOk u pid s' t' pc
  keeps : ∀ rt, settled pid s = some rt → settled pid s' = some rt
  samePid : settled pid s ≠ none → s'.runtimePid = s.runtimePid
  initializing : ∀ t', t' ≠ t → s'.runtime = .initializing t' → s.runtime = .initializing t'
  locked : ∀ t', t' ≠ t → s'.forkLock = some t' → s.forkLock = some t'

theorem Leaves.refl {u pid : ℕ} {s : Statics} (t : ℕ) (h : StaticsOk u pid s) : Leaves u pid t s s :=
  ⟨h, fun _ _ _ hok => hok, fun _ hrt => hrt, fun _ => rfl, fun _ _ hrt => hrt, fun _ _ hlock => hlock⟩

theorem Leaves.settled_ne {u pid t : ℕ} {s s' : Statics} (h : Leaves u pid t s s') (hs : settled pid s ≠ none) :
    settled pid s' ≠ none := by
  obtain ⟨rt, hrt⟩ := Option.ne_none_iff_exists'.1 hs
  rw [h.keeps rt hrt]
  exact Option.some_ne_none rt

theorem Leaves.late {u pid t : ℕ} {s s' : Statics} (h : Leaves u pid t s s') {pc : Pc} (hlate : LateOk pid s pc) :
    LateOk pid s' pc := by
  refine ⟨h.settled_ne hlate.1, ?_⟩
  rw [h.samePid hlate.1]
  exact hlate.2

/-- **A step and the other threads.** If the step leaves them what they rely on, and its own thread is all right after it,
the process is sound. -/
theorem Sound.change {u t : ℕ} {proc : Process} (h : Sound u proc) {s' : Statics}
    (hleaves : Leaves u proc.pid t proc.statics s') {next : Option Call} {returned : Bool}
    (hinitializing : s'.runtime = .initializing t → ∃ late, next = some ⟨late, .building⟩)
    (hlocked : s'.forkLock = some t → ∃ call, next = some call ∧ call.pc.holdsLock = true)
    (hcall : ∀ call, next = some call → CallOk u proc.pid s' t call.pc)
    (hlate : ∀ call, next = some call → call.late = true → LateOk proc.pid s' call.pc)
    (hreturned : returned = true → settled proc.pid s' ≠ none) :
    Sound u { proc with statics := s', calls := Function.update proc.calls t next, returned := returned } where
  pid_ne := h.pid_ne
  statics := hleaves.ok
  initializing := by
    intro t' ht'
    dsimp only at ht' ⊢
    by_cases heq : t' = t
    · subst heq
      rw [Function.update_self]
      exact hinitializing ht'
    · rw [Function.update_of_ne heq]
      exact h.initializing t' (hleaves.initializing t' heq ht')
  locked := by
    intro t' ht'
    dsimp only at ht' ⊢
    by_cases heq : t' = t
    · subst heq
      rw [Function.update_self]
      exact hlocked ht'
    · rw [Function.update_of_ne heq]
      exact h.locked t' (hleaves.locked t' heq ht')
  calls := by
    intro t' call' ht'
    dsimp only at ht' ⊢
    by_cases heq : t' = t
    · subst heq
      rw [Function.update_self] at ht'
      exact hcall call' ht'
    · rw [Function.update_of_ne heq] at ht'
      exact hleaves.others t' heq call'.pc (h.calls t' call' ht')
  late := by
    intro t' call' ht' hlate'
    dsimp only at ht' ⊢
    by_cases heq : t' = t
    · subst heq
      rw [Function.update_self] at ht'
      exact hlate call' ht' hlate'
    · rw [Function.update_of_ne heq] at ht'
      exact hleaves.late (h.late t' call' ht' hlate')
  returned := hreturned

/-! ## What each step writes -/

variable {u pid t : ℕ} {s : Statics}

theorem runtimePid_of_not_filled (h : StaticsOk u pid s) (hnot : ∀ rt, s.runtime ≠ .filled rt) : s.runtimePid = 0 := by
  by_contra hne
  obtain ⟨rt, hrt⟩ := h.filled hne
  exact hnot rt hrt

/-- `get_or_init` takes the empty cell -/
theorem leaves_initializing (hpid : pid ≠ 0) (h : StaticsOk u pid s) (hempty : s.runtime = .empty) :
    Leaves u pid t s { s with runtime := .initializing t } := by
  have hzero : s.runtimePid = 0 := runtimePid_of_not_filled h fun rt hrt => by
    rw [hempty] at hrt
    cases hrt
  have hnone := settled_of_unset hpid h hzero
  refine ⟨⟨h.sane, h.unset, fun hne => absurd hzero hne, ?_, h.ownFork, ?_, h.pastFork⟩, ?_, ?_, fun _ => rfl, ?_,
    fun _ _ hlock => hlock⟩
  · intro _ rt hrt
    cases hrt
  · intro rt hrt
    cases hrt
  · intro t' _ pc hok
    cases pc with
    | building =>
      have hother : s.runtime = .initializing t' := hok
      rw [hempty] at hother
      cases hother
    | store rt =>
      have hother : s.runtime = .filled rt := hok.1
      rw [hempty] at hother
      cases hother
    | _ => exact hok
  · intro rt hrt
    rw [hnone] at hrt
    cases hrt
  · intro t' hne ht'
    exact absurd (OnceLock.initializing.inj ht').symm hne

/-- its closure fills it -/
theorem leaves_filled (hpid : pid ≠ 0) (h : StaticsOk u pid s) (hinit : s.runtime = .initializing t) {rt : TokioRuntime}
    (hhome : rt.home = u) : Leaves u pid t s { s with runtime := .filled rt } := by
  have hzero : s.runtimePid = 0 := runtimePid_of_not_filled h fun rt' hrt' => by
    rw [hinit] at hrt'
    cases hrt'
  have hnone := settled_of_unset hpid h hzero
  refine ⟨⟨h.sane, h.unset, fun _ => ⟨rt, rfl⟩, ?_, h.ownFork, ?_, h.pastFork⟩, ?_, ?_, fun _ => rfl, ?_,
    fun _ _ hlock => hlock⟩
  · intro _ rt' hrt'
    exact OnceLock.filled.inj hrt' ▸ hhome
  · intro rt' hrt'
    exact OnceLock.filled.inj hrt' ▸ Nat.le_of_eq hhome
  · intro t' hne pc hok
    cases pc with
    | building =>
      have hother : s.runtime = .initializing t' := hok
      rw [hinit] at hother
      exact absurd (OnceLock.initializing.inj hother).symm hne
    | store rt' =>
      have hother : s.runtime = .filled rt' := hok.1
      rw [hinit] at hother
      cases hother
    | _ => exact hok
  · intro rt' hrt'
    rw [hnone] at hrt'
    cases hrt'
  · intro t' _ ht'
    cases ht'

/-- the pid is set, for the first time or once more -/
theorem leaves_store (hpid : pid ≠ 0) (h : StaticsOk u pid s) {rt : TokioRuntime} (hfilled : s.runtime = .filled rt)
    (hnative : s.runtimePid = 0 ∨ s.runtimePid = pid) : Leaves u pid t s { s with runtimePid := pid } := by
  have hself : settled pid s ≠ none → s.runtimePid = pid := fun hs =>
    hnative.resolve_left (runtimePid_of_settled hpid h hs)
  refine ⟨⟨h.sane, fun hzero => absurd hzero hpid, fun _ => ⟨rt, hfilled⟩, fun _ => h.own hnative, h.ownFork, h.past,
    h.pastFork⟩, ?_, ?_, fun hs => (hself hs).symm, fun _ _ ht' => ht', fun _ _ hlock => hlock⟩
  · intro t' _ pc hok
    cases pc with
    | fast => exact rfl
    | once => exact .inr rfl
    | store rt' => exact ⟨hok.1, .inr rfl⟩
    | lock => exact hpid
    | check => exact ⟨hpid, hok.2⟩
    | rebuild => exact ⟨hpid, hok.2⟩
    | save rt' => exact ⟨hpid, hok.2⟩
    | _ => exact hok
  · intro rt' hrt'
    have hpid' : s.runtimePid = pid := hself (by rw [hrt']; exact Option.some_ne_none rt')
    rw [← hrt', ← hpid']

/-- what holds of the threads at the lock while thread `t` has it, or nobody -/
theorem callOk_of_lock {s' : Statics} {t' : ℕ} (hother : s.forkLock ≠ some t') (hruntime : s'.runtime = s.runtime)
    (hpid : s'.runtimePid = s.runtimePid) {pc : Pc} (hok : CallOk u pid s t' pc) : CallOk u pid s' t' pc := by
  cases pc with
  | check => exact absurd hok.2 hother
  | rebuild => exact absurd hok.2.1 hother
  | save rt => exact absurd hok.2.1 hother
  | start => trivial
  | slow => trivial
  | fast =>
    show s'.runtimePid = pid
    rw [hpid]
    exact hok
  | once =>
    show s'.runtimePid = 0 ∨ s'.runtimePid = pid
    rw [hpid]
    exact hok
  | building =>
    show s'.runtime = .initializing t'
    rw [hruntime]
    exact hok
  | store rt =>
    show s'.runtime = .filled rt ∧ (s'.runtimePid = 0 ∨ s'.runtimePid = pid)
    rw [hruntime, hpid]
    exact hok
  | lock =>
    show s'.runtimePid ≠ 0
    rw [hpid]
    exact hok

theorem leaves_lock (h : StaticsOk u pid s) (hfree : s.forkLock = none) (hset : s.runtimePid ≠ 0) :
    Leaves u pid t s { s with forkLock := some t } := by
  refine ⟨⟨h.sane, fun hzero => absurd hzero hset, h.filled, h.own, h.ownFork, h.past, h.pastFork⟩, ?_, fun _ hrt => hrt,
    fun _ => rfl, fun _ _ ht' => ht', ?_⟩
  · intro t' _ pc hok
    have hother : s.forkLock ≠ some t' := by
      rw [hfree]
      exact (Option.some_ne_none t').symm
    refine callOk_of_lock hother ?_ ?_ hok
    · rfl
    · rfl
  · intro t' hne ht'
    exact absurd (Option.some.inj ht').symm hne

theorem leaves_unlock (h : StaticsOk u pid s) (hlock : s.forkLock = some t) :
    Leaves u pid t s { s with forkLock := none } := by
  refine ⟨⟨h.sane, fun hzero => ⟨(h.unset hzero).1, rfl⟩, h.filled, h.own, h.ownFork, h.past, h.pastFork⟩, ?_,
    fun _ hrt => hrt, fun _ => rfl, fun _ _ ht' => ht', ?_⟩
  · intro t' hne pc hok
    have hother : s.forkLock ≠ some t' := by
      rw [hlock]
      exact fun heq => hne (Option.some.inj heq).symm
    refine callOk_of_lock hother ?_ ?_ hok
    · rfl
    · rfl
  · intro t' _ ht'
    cases ht'

/-- the rebuilt runtime is saved under this pid -/
theorem leaves_save (h : StaticsOk u pid s) (hset : s.runtimePid ≠ 0) (hlock : s.forkLock = some t)
    (hnone : ∀ rt, s.forkRuntime ≠ some (pid, rt)) {rt : TokioRuntime} (hhome : rt.home = u) :
    Leaves u pid t s { s with forkRuntime := some (pid, rt), forkLock := none } := by
  refine ⟨⟨h.sane, fun hzero => absurd hzero hset, h.filled, h.own, ?_, h.past, ?_⟩, ?_, ?_, fun _ => rfl,
    fun _ _ ht' => ht', ?_⟩
  · intro rt' hrt'
    exact (Prod.mk.inj (Option.some.inj hrt')).2 ▸ hhome
  · intro storedPid rt' hrt'
    exact (Prod.mk.inj (Option.some.inj hrt')).2 ▸ Nat.le_of_eq hhome
  · intro t' hne pc hok
    have hother : s.forkLock ≠ some t' := by
      rw [hlock]
      exact fun heq => hne (Option.some.inj heq).symm
    refine callOk_of_lock hother ?_ ?_ hok
    · rfl
    · rfl
  · intro rt' hrt'
    by_cases hnative : s.runtimePid = pid
    · rw [settled, if_pos hnative] at hrt' ⊢
      exact hrt'
    · exact absurd ((settled_of_forked hnative).1 hrt') (hnone rt')
  · intro t' _ ht'
    cases ht'

/-! ## Every step -/

/-- a step after which the call goes on here -/
structure GoesTo (u pid t : ℕ) (late : Bool) (s s' : Statics) (pc : Pc) : Prop where
  leaves : Leaves u pid t s s'
  initializing : s'.runtime = .initializing t → pc = .building
  locked : s'.forkLock = some t → pc.holdsLock = true
  call : CallOk u pid s' t pc
  late : late = true → LateOk pid s' pc

/-- a step with which the call returns this runtime -/
structure Ends (u pid t : ℕ) (late : Bool) (s s' : Statics) (rt : TokioRuntime) : Prop where
  leaves : Leaves u pid t s s'
  initializing : s'.runtime ≠ .initializing t
  unlocked : s'.forkLock ≠ some t
  home : rt.home = u
  done : settled pid s' ≠ none
  late : late = true → settled pid s' = some rt

def AdvanceOk (u pid t : ℕ) (late : Bool) (s : Statics) : Advance → Prop
  | .blocked => True
  | .goTo s' pc => GoesTo u pid t late s s' pc
  | .finish s' outcome => ∃ rt, outcome = some rt ∧ Ends u pid t late s s' rt

variable {late : Bool} {pc : Pc} {fresh : Option TokioRuntime}

/-- a late call is on the way that is open to it -/
theorem lateOk_native (hnative : s.runtimePid = pid) (h : LateOk pid s pc) : pc = .start ∨ pc = .fast := by
  have hway := h.2
  rwa [if_pos hnative] at hway

/-- the pid is compared -/
theorem advance_start (h : StaticsOk u pid s) (hinit : s.runtime ≠ .initializing t) (hlock : s.forkLock ≠ some t)
    (hlate : late = true → LateOk pid s .start) : AdvanceOk u pid t late s (advance pid t fresh s .start) := by
  rw [advance]
  refine ⟨.refl t h, fun heq => absurd heq hinit, fun heq => absurd heq hlock, ?_, fun hl => ⟨(hlate hl).1, ?_⟩⟩
  · split_ifs with hnative
    · exact hnative
    · trivial
  · split_ifs with hnative
    · exact .inr rfl
    · exact .inr (.inl rfl)

/-- the first runtime is returned -/
theorem advance_fast (hpid : pid ≠ 0) (h : StaticsOk u pid s) (hlock : s.forkLock ≠ some t) (hcall : CallOk u pid s t .fast) :
    AdvanceOk u pid t late s (advance pid t fresh s .fast) := by
  obtain ⟨rt, hrt, hsettled⟩ := settled_of_native hpid h hcall
  rw [advance, hrt]
  refine ⟨rt, rfl, .refl t h, ?_, hlock, h.own (.inr hcall) rt hrt, ?_, fun _ => hsettled⟩
  · rw [hrt]
    exact fun heq => by cases heq
  · rw [hsettled]
    exact Option.some_ne_none rt

/-- the pid is looked at once more: by now the first runtime may be there -/
theorem advance_slow (hpid : pid ≠ 0) (h : StaticsOk u pid s) (hinit : s.runtime ≠ .initializing t)
    (hlock : s.forkLock ≠ some t) (hlate : late = true → LateOk pid s .slow) :
    AdvanceOk u pid t late s (advance pid t fresh s .slow) := by
  rw [advance]
  refine ⟨.refl t h, fun heq => absurd heq hinit, fun heq => absurd heq hlock, ?_, fun hl => ⟨(hlate hl).1, ?_⟩⟩
  · split_ifs with hzero
    · exact .inl hzero
    · exact hzero
  · have hset := runtimePid_of_settled hpid h (hlate hl).1
    rw [if_neg hset]
    split_ifs with hnative
    · rcases lateOk_native hnative (hlate hl) with heq | heq
      · cases heq
      · cases heq
    · exact .inr (.inr (.inl rfl))

/-- the first runtime is there, or this thread makes it, or another one is making it -/
theorem advance_once (hpid : pid ≠ 0) (h : StaticsOk u pid s) (hlock : s.forkLock ≠ some t) (hcall : CallOk u pid s t .once)
    (hlate : late = false) : AdvanceOk u pid t late s (advance pid t fresh s .once) := by
  subst hlate
  rw [advance]
  cases hruntime : s.runtime with
  | empty =>
    exact ⟨leaves_initializing hpid h hruntime, fun _ => rfl, fun heq => absurd heq hlock, rfl,
      fun hl => absurd hl Bool.false_ne_true⟩
  | initializing t' => trivial
  | filled rt =>
    refine ⟨.refl t h, ?_, fun heq => absurd heq hlock, ⟨hruntime, hcall⟩, fun hl => absurd hl Bool.false_ne_true⟩
    rw [hruntime]
    exact fun heq => by cases heq

theorem advance_building (hpid : pid ≠ 0) (h : StaticsOk u pid s) (hlock : s.forkLock ≠ some t)
    (hcall : CallOk u pid s t .building) (hlate : late = false) (hfresh : ∀ rt, fresh = some rt → rt.home = u)
    (hbuilds : fresh ≠ none) : AdvanceOk u pid t late s (advance pid t fresh s .building) := by
  subst hlate
  obtain ⟨rt, rfl⟩ := Option.ne_none_iff_exists'.1 hbuilds
  have hzero : s.runtimePid = 0 := runtimePid_of_not_filled h fun rt' hrt' => by
    rw [show s.runtime = .initializing t from hcall] at hrt'
    cases hrt'
  refine ⟨leaves_filled hpid h hcall (hfresh rt rfl), ?_, fun heq => absurd heq hlock, ⟨rfl, .inl hzero⟩,
    fun hl => absurd hl Bool.false_ne_true⟩
  intro heq
  cases heq

/-- the pid is set, and the first runtime is returned -/
theorem advance_store (hpid : pid ≠ 0) (h : StaticsOk u pid s) (hlock : s.forkLock ≠ some t) {rt : TokioRuntime}
    (hcall : CallOk u pid s t (.store rt)) : AdvanceOk u pid t late s (advance pid t fresh s (.store rt)) := by
  obtain ⟨hfilled, hnative⟩ := hcall
  have hsettled : settled pid { s with runtimePid := pid } = some rt := by
    rw [settled, if_pos rfl, hfilled]
  refine ⟨rt, rfl, leaves_store hpid h hfilled hnative, ?_, hlock, h.own hnative rt hfilled, ?_, fun _ => hsettled⟩
  · intro heq
    rw [show s.runtime = .initializing t from heq] at hfilled
    cases hfilled
  · rw [hsettled]
    exact Option.some_ne_none rt

theorem advance_lock (h : StaticsOk u pid s) (hinit : s.runtime ≠ .initializing t) (hcall : CallOk u pid s t .lock)
    (hlate : late = true → LateOk pid s .lock) : AdvanceOk u pid t late s (advance pid t fresh s .lock) := by
  rw [advance]
  cases hlock : s.forkLock with
  | some t' => trivial
  | none =>
    have hsane : ¬ s.poisoned = true := by
      rw [h.sane]
      exact Bool.false_ne_true
    dsimp only
    rw [if_neg hsane]
    refine ⟨leaves_lock h hlock hcall, fun heq => absurd heq hinit, fun _ => rfl, ⟨hcall, rfl⟩, fun hl => ?_⟩
    refine ⟨(hlate hl).1, ?_⟩
    by_cases hnative : s.runtimePid = pid
    · rcases lateOk_native hnative (hlate hl) with heq | heq
      · cases heq
      · cases heq
    · rw [if_neg hnative]
      exact .inr (.inr (.inr rfl))

/-- the runtime under this pid is returned, or there is none yet -/
theorem advance_check (hpid : pid ≠ 0) (h : StaticsOk u pid s) (hinit : s.runtime ≠ .initializing t)
    (hcall : CallOk u pid s t .check) (hlate : late = true → LateOk pid s .check) :
    AdvanceOk u pid t late s (advance pid t fresh s .check) := by
  obtain ⟨hset, hlock⟩ := hcall
  have hforked : late = true → s.runtimePid ≠ pid := by
    intro hl hnative
    rcases lateOk_native hnative (hlate hl) with heq | heq
    · cases heq
    · cases heq
  have hgo : (∀ rt, s.forkRuntime ≠ some (pid, rt)) → GoesTo u pid t late s s .rebuild := by
    intro hnone
    refine ⟨.refl t h, fun heq => absurd heq hinit, fun _ => rfl, ⟨hset, hlock, hnone⟩, fun hl => ?_⟩
    obtain ⟨rt, hrt⟩ := Option.ne_none_iff_exists'.1 (hlate hl).1
    exact absurd ((settled_of_forked (hforked hl)).1 hrt) (hnone rt)
  have hleaves := leaves_unlock h hlock
  rw [advance]
  split
  · next storedPid rt hfork =>
    split_ifs with heq
    · subst heq
      exact ⟨rt, rfl, hleaves, hinit, by simp, h.ownFork rt hfork, settled_of_fork hpid hleaves.ok hfork,
        fun hl => (settled_of_forked (hforked hl)).2 hfork⟩
    · refine hgo fun rt' hrt' => ?_
      rw [hfork] at hrt'
      exact heq (Prod.mk.inj (Option.some.inj hrt')).1
  · next hfork =>
    refine hgo fun rt heq => ?_
    rw [hfork] at heq
    cases heq

theorem advance_rebuild (h : StaticsOk u pid s) (hinit : s.runtime ≠ .initializing t) (hcall : CallOk u pid s t .rebuild)
    (hlate : late = false) (hfresh : ∀ rt, fresh = some rt → rt.home = u) (hbuilds : fresh ≠ none) :
    AdvanceOk u pid t late s (advance pid t fresh s .rebuild) := by
  subst hlate
  obtain ⟨rt, rfl⟩ := Option.ne_none_iff_exists'.1 hbuilds
  obtain ⟨hset, hlock, hnone⟩ := hcall
  exact ⟨.refl t h, fun heq => absurd heq hinit, fun _ => rfl, ⟨hset, hlock, hnone, hfresh rt rfl⟩,
    fun hl => absurd hl Bool.false_ne_true⟩

/-- the rebuilt runtime is saved and returned -/
theorem advance_save (hpid : pid ≠ 0) (h : StaticsOk u pid s) (hinit : s.runtime ≠ .initializing t) {rt : TokioRuntime}
    (hcall : CallOk u pid s t (.save rt)) (hlate : late = false) :
    AdvanceOk u pid t late s (advance pid t fresh s (.save rt)) := by
  subst hlate
  obtain ⟨hset, hlock, hnone, hhome⟩ := hcall
  have hleaves := leaves_save h hset hlock hnone hhome
  exact ⟨rt, rfl, hleaves, hinit, by simp, hhome, settled_of_fork hpid hleaves.ok rfl, fun hl => absurd hl Bool.false_ne_true⟩

/-- a late call never gets to where something is made -/
theorem late_false (hnot : pc ≠ .start ∧ pc ≠ .fast ∧ pc ≠ .slow ∧ pc ≠ .lock ∧ pc ≠ .check)
    (hlate : late = true → LateOk pid s pc) : late = false := by
  by_contra hne
  have hway := (hlate (eq_true_of_ne_false hne)).2
  split_ifs at hway
  · rcases hway with heq | heq
    · exact hnot.1 heq
    · exact hnot.2.1 heq
  · rcases hway with heq | heq | heq | heq
    · exact hnot.1 heq
    · exact hnot.2.2.1 heq
    · exact hnot.2.2.2.1 heq
    · exact hnot.2.2.2.2 heq

/-- one step, wherever the call is -/
theorem advance_ok (hpid : pid ≠ 0) (h : StaticsOk u pid s) (hinit : s.runtime = .initializing t → pc = .building)
    (hlock : s.forkLock = some t → pc.holdsLock = true) (hcall : CallOk u pid s t pc)
    (hlate : late = true → LateOk pid s pc) (hfresh : ∀ rt, fresh = some rt → rt.home = u)
    (hbuilds : pc.builds = true → fresh ≠ none) : AdvanceOk u pid t late s (advance pid t fresh s pc) := by
  have hfree : pc.holdsLock = false → s.forkLock ≠ some t := fun hpc heq => by
    rw [hlock heq] at hpc
    cases hpc
  have hidle : pc ≠ .building → s.runtime ≠ .initializing t := fun hpc heq => hpc (hinit heq)
  cases pc with
  | start => exact advance_start h (hidle (by simp)) (hfree rfl) hlate
  | fast => exact advance_fast hpid h (hfree rfl) hcall
  | slow => exact advance_slow hpid h (hidle (by simp)) (hfree rfl) hlate
  | once => exact advance_once hpid h (hfree rfl) hcall (late_false (by simp) hlate)
  | building => exact advance_building hpid h (hfree rfl) hcall (late_false (by simp) hlate) hfresh (hbuilds rfl)
  | store rt => exact advance_store hpid h (hfree rfl) hcall
  | lock => exact advance_lock h (hidle (by simp)) hcall hlate
  | check => exact advance_check hpid h (hidle (by simp)) hcall hlate
  | rebuild => exact advance_rebuild h (hidle (by simp)) hcall (late_false (by simp) hlate) hfresh (hbuilds rfl)
  | save rt => exact advance_save hpid h (hidle (by simp)) hcall (late_false (by simp) hlate)

/-! ## A step of a process -/

variable {proc proc' : Process} {ended : Option (Bool × Option TokioRuntime)}

/-- what a step of a process is: its thread is in a call that goes on, or that ends -/
theorem step_cases (hstep : proc.step t fresh = some (proc', ended)) :
    ∃ call, proc.calls t = some call ∧
      ((∃ s pc, advance proc.pid t fresh proc.statics call.pc = .goTo s pc ∧ ended = none ∧
        proc' = { proc with statics := s, calls := Function.update proc.calls t (some ⟨call.late, pc⟩) }) ∨
      (∃ s outcome, advance proc.pid t fresh proc.statics call.pc = .finish s outcome ∧
        ended = some (call.late, outcome) ∧
        proc' = { proc with
          statics := s
          calls := Function.update proc.calls t none
          returned := proc.returned || outcome.isSome })) := by
  unfold Process.step at hstep
  split at hstep
  · cases hstep
  · next call hcall =>
    refine ⟨call, hcall, ?_⟩
    split at hstep
    · cases hstep
    · next s pc hadvance =>
      cases hstep
      exact .inl ⟨s, pc, hadvance, rfl, rfl⟩
    · next s outcome hadvance =>
      cases hstep
      exact .inr ⟨s, outcome, hadvance, rfl, rfl⟩

theorem step_goTo {call : Call} {s' : Statics} {pc' : Pc} (hcall : proc.calls t = some call)
    (hadvance : advance proc.pid t fresh proc.statics call.pc = .goTo s' pc') :
    proc.step t fresh =
      some ({ proc with statics := s', calls := Function.update proc.calls t (some ⟨call.late, pc'⟩) }, none) := by
  rw [Process.step, hcall]
  dsimp only
  rw [hadvance]

theorem step_finish {call : Call} {s' : Statics} {outcome : Option TokioRuntime} (hcall : proc.calls t = some call)
    (hadvance : advance proc.pid t fresh proc.statics call.pc = .finish s' outcome) :
    proc.step t fresh =
      some ({ proc with
        statics := s'
        calls := Function.update proc.calls t none
        returned := proc.returned || outcome.isSome }, some (call.late, outcome)) := by
  rw [Process.step, hcall]
  dsimp only
  rw [hadvance]

/-- what a step of a sound process gives -/
structure StepOk (u : ℕ) (proc proc' : Process) (ended : Option (Bool × Option TokioRuntime)) : Prop where
  sound : Sound u proc'
  pid : proc'.pid = proc.pid
  alive : proc'.alive = proc.alive
  settled : ∀ rt, settled proc.pid proc.statics = some rt → settled proc.pid proc'.statics = some rt
  ended : ∀ late outcome, ended = some (late, outcome) →
    ∃ rt, outcome = some rt ∧ rt.home = u ∧ (late = true → Runtime.settled proc.pid proc'.statics = some rt)

/-- **A step keeps a process sound.** What it returns was built here, and is the settled runtime if the call is late. -/
theorem advance_sound (h : Sound u proc) (hstep : proc.step t fresh = some (proc', ended))
    (hfresh : ∀ rt, fresh = some rt → rt.home = u)
    (hbuilds : ∀ call, proc.calls t = some call → call.pc.builds = true → fresh ≠ none) : StepOk u proc proc' ended := by
  obtain ⟨call, hcall, hcases⟩ := step_cases hstep
  have hadvance : AdvanceOk u proc.pid t call.late proc.statics (advance proc.pid t fresh proc.statics call.pc) := by
    refine advance_ok h.pid_ne h.statics ?_ ?_ (h.calls t call hcall) (h.late t call hcall) hfresh (hbuilds call hcall)
    · intro hinit
      obtain ⟨late', hbuilding⟩ := h.initializing t hinit
      rw [hcall] at hbuilding
      rw [Option.some.inj hbuilding]
    · intro hlock
      obtain ⟨call', hcall', hholds⟩ := h.locked t hlock
      rw [hcall] at hcall'
      rwa [Option.some.inj hcall']
  rcases hcases with ⟨s', pc', heq, rfl, rfl⟩ | ⟨s', outcome, heq, rfl, rfl⟩
  · rw [heq] at hadvance
    refine ⟨h.change hadvance.leaves ?_ ?_ ?_ ?_ ?_, rfl, rfl, hadvance.leaves.keeps, fun _ _ hended => by cases hended⟩
    · intro hinit
      exact ⟨call.late, by rw [hadvance.initializing hinit]⟩
    · intro hlock
      exact ⟨⟨call.late, pc'⟩, rfl, hadvance.locked hlock⟩
    · rintro _ ⟨⟩
      exact hadvance.call
    · rintro _ ⟨⟩ hlate
      exact hadvance.late hlate
    · exact fun hreturned => hadvance.leaves.settled_ne (h.returned hreturned)
  · rw [heq] at hadvance
    obtain ⟨rt, rfl, hends⟩ := hadvance
    refine ⟨h.change hends.leaves ?_ ?_ ?_ ?_ (fun _ => hends.done), rfl, rfl, hends.leaves.keeps, ?_⟩
    · exact fun hinit => absurd hinit hends.initializing
    · exact fun hlock => absurd hlock hends.unlocked
    · intro _ hnone
      cases hnone
    · intro _ hnone
      cases hnone
    · rintro _ _ hended
      cases hended
      exact ⟨rt, rfl, hends.home, hends.late⟩

/-- a call starts; it is late if there was a return -/
theorem Sound.call (h : Sound u proc) (hidle : proc.calls t = none) :
    Sound u { proc with calls := Function.update proc.calls t (some ⟨proc.returned, .start⟩) } := by
  refine h.change (.refl t h.statics) ?_ ?_ ?_ ?_ h.returned
  · intro hinit
    obtain ⟨late, hcall⟩ := h.initializing t hinit
    rw [hidle] at hcall
    cases hcall
  · intro hlock
    obtain ⟨call, hcall, -⟩ := h.locked t hlock
    rw [hidle] at hcall
    cases hcall
  · rintro _ ⟨⟩
    trivial
  · rintro _ ⟨⟩ hlate
    refine ⟨h.returned hlate, ?_⟩
    split_ifs
    · exact .inl rfl
    · exact .inl rfl

/-! ## Forks -/

/-- a child with this pid can work with these statics: nothing is half done in them, and nothing in them passes for its
own -/
def Statics.Inheritable (s : Statics) (newPid : ℕ) : Prop :=
  (s.runtimePid = 0 → s.runtime = .empty) ∧ s.forkLock = none ∧ s.runtimePid ≠ newPid ∧
    s.forkRuntime.map Prod.fst ≠ some newPid

instance (s : Statics) (newPid : ℕ) : Decidable (s.Inheritable newPid) := inferInstanceAs (Decidable (_ ∧ _))

/-- **A child of a sound process is sound** if it inherits such statics. -/
theorem sound_start {newPid c : ℕ} (hpid : newPid ≠ 0) (h : StaticsOk u pid s) (hlt : u ≤ c) (hinherit : s.Inheritable newPid) :
    Sound c (.start newPid s) := by
  obtain ⟨hempty, hlock, hother, hfork⟩ := hinherit
  have hforkRuntime : ∀ rt, s.forkRuntime ≠ some (newPid, rt) := fun rt heq => hfork (by rw [heq]; rfl)
  have hfilled : s.runtimePid = 0 ∨ s.runtimePid = newPid → ∀ rt, s.runtime ≠ .filled rt := by
    rintro (hzero | hself) rt heq
    · rw [hempty hzero] at heq
      cases heq
    · exact hother hself
  refine ⟨hpid, ⟨h.sane, h.unset, h.filled, ?_, ?_, ?_, ?_⟩, ?_, ?_, fun _ _ hcall => ?_, fun _ _ hcall => ?_,
    fun hreturned => ?_⟩
  · exact fun hnative rt heq => absurd heq (hfilled hnative rt)
  · exact fun rt heq => absurd heq (hforkRuntime rt)
  · exact fun rt heq => Nat.le_trans (h.past rt heq) hlt
  · exact fun storedPid rt heq => Nat.le_trans (h.pastFork storedPid rt heq) hlt
  · intro t' hinit
    change s.runtime = .initializing t' at hinit
    by_cases hzero : s.runtimePid = 0
    · rw [hempty hzero] at hinit
      cases hinit
    · obtain ⟨rt, hrt⟩ := h.filled hzero
      rw [hrt] at hinit
      cases hinit
  · intro t' hheld
    change s.forkLock = some t' at hheld
    rw [hlock] at hheld
    cases hheld
  · cases hcall
  · cases hcall
  · cases hreturned

/-! ## Nobody waits forever -/

/-- the steps that a call is away from its return, at most -/
def Pc.rank : Pc → ℕ
  | .start => 9
  | .slow => 8
  | .once => 7
  | .building => 6
  | .lock => 5
  | .check => 4
  | .rebuild => 3
  | .save _ => 2
  | .store _ => 1
  | .fast => 1

/-- the thread that has to go first -/
def waitsFor (s : Statics) : Pc → Option ℕ
  | .once =>
    match s.runtime with
    | .initializing t => some t
    | _ => none
  | .lock => s.forkLock
  | _ => none

theorem rank_pos (pc : Pc) : 0 < pc.rank := by
  cases pc <;> exact Nat.succ_pos _

theorem rank_le (pc : Pc) : pc.rank ≤ 9 := by
  cases pc <;> simp [Pc.rank]

/-- only who waits is blocked, and every step brings a call nearer to its return -/
def Progress (s : Statics) (pc : Pc) : Advance → Prop
  | .blocked => waitsFor s pc ≠ none
  | .goTo _ pc' => pc'.rank < pc.rank
  | .finish _ _ => True

theorem advance_progress (pid t : ℕ) (fresh : Option TokioRuntime) (s : Statics) (pc : Pc) :
    Progress s pc (advance pid t fresh s pc) := by
  cases pc with
  | start =>
    show (if _ then Pc.fast else Pc.slow).rank < _
    split_ifs <;> decide
  | fast =>
    rw [advance]
    split <;> trivial
  | slow =>
    show (if _ then Pc.once else Pc.lock).rank < _
    split_ifs <;> decide
  | once =>
    rw [advance]
    split
    · exact Nat.lt_of_sub_eq_succ rfl
    · exact Nat.lt_succ_self 6
    · next t' hruntime =>
      rw [Progress, waitsFor, hruntime]
      exact Option.some_ne_none t'
  | building =>
    cases fresh with
    | none => trivial
    | some rt => exact Nat.lt_of_sub_eq_succ rfl
  | store rt => trivial
  | lock =>
    rw [advance]
    split
    · next t' hlock =>
      rw [Progress, waitsFor, hlock]
      exact Option.some_ne_none t'
    · split_ifs
      · trivial
      · exact Nat.lt_succ_self 4
  | check =>
    rw [advance]
    split
    · split_ifs
      · trivial
      · exact Nat.lt_succ_self 3
    · exact Nat.lt_succ_self 3
  | rebuild =>
    cases fresh with
    | none => trivial
    | some rt => exact Nat.lt_succ_self 2
  | save rt => trivial

/-- who is waited for is on the way to let the others go on -/
def Releases (s : Statics) (waiting : Pc) : Advance → Prop
  | .blocked => False
  | .goTo s' _ => waitsFor s' waiting = none ∨ waitsFor s' waiting = waitsFor s waiting
  | .finish s' _ => waitsFor s' waiting = none

/-- the closure of `get_or_init` ends with its next step -/
theorem releases_once : Releases s .once (advance pid t fresh s .building) := by
  cases fresh with
  | none => rfl
  | some rt => exact .inl rfl

/-- who has the lock keeps it until it returns -/
theorem releases_lock (hholds : pc.holdsLock = true) : Releases s .lock (advance pid t fresh s pc) := by
  cases pc with
  | check =>
    rw [advance]
    split
    · split_ifs
      · rfl
      · exact .inr rfl
    · exact .inr rfl
  | rebuild =>
    cases fresh with
    | none => rfl
    | some rt => exact .inr rfl
  | save rt => rfl
  | _ => cases hholds

/-- in a sound process the thread that is waited for is there, and not at the same place -/
theorem sound_releases (h : Sound u proc) {waiting : Pc} (hwaits : waitsFor proc.statics waiting = some t) :
    ∃ call, proc.calls t = some call ∧ call.pc ≠ waiting ∧
      ∀ fresh, Releases proc.statics waiting (advance proc.pid t fresh proc.statics call.pc) := by
  cases waiting with
  | once =>
    rw [waitsFor] at hwaits
    split at hwaits
    · next t' hruntime =>
      obtain ⟨late, hcall⟩ := h.initializing t' hruntime
      cases hwaits
      exact ⟨_, hcall, by simp, fun fresh => releases_once⟩
    · cases hwaits
  | lock =>
    obtain ⟨call, hcall, hholds⟩ := h.locked t hwaits
    refine ⟨call, hcall, ?_, fun fresh => releases_lock hholds⟩
    rintro heq
    rw [heq] at hholds
    cases hholds
  | _ => cases hwaits

/-- how far a call is from its return, and the one that it waits for from letting it go on -/
def Process.distance (proc : Process) (pc : Pc) : ℕ :=
  10 * pc.rank + (((waitsFor proc.statics pc).bind proc.calls).map fun call => call.pc.rank).getD 0

theorem distance_of_free (hfree : waitsFor proc.statics pc = none) : proc.distance pc = 10 * pc.rank := by
  rw [Process.distance, hfree]
  rfl

theorem distance_of_waiting (hwaits : waitsFor proc.statics pc = some t) {call : Call} (hcall : proc.calls t = some call) :
    proc.distance pc = 10 * pc.rank + call.pc.rank := by
  rw [Process.distance, hwaits, Option.bind_some, hcall]
  rfl

theorem distance_le (proc : Process) (pc : Pc) : proc.distance pc ≤ 10 * pc.rank + 9 := by
  rw [Process.distance]
  cases (waitsFor proc.statics pc).bind proc.calls with
  | none => exact Nat.le_add_right _ _
  | some call => exact Nat.add_le_add_left (rank_le call.pc) _

/-- **Nobody waits forever.** While a thread of a sound process is in a call, it or the one that it waits for can make a
step, with which the call returns or gets nearer to it. -/
theorem sound_progress (h : Sound u proc) {call : Call} (hcall : proc.calls t = some call) (fresh : Option TokioRuntime) :
    ∃ t' proc' ended, proc.step t' fresh = some (proc', ended) ∧
      (t' = t ∧ ended ≠ none ∨
        ∃ call', proc'.calls t = some call' ∧ proc'.distance call'.pc < proc.distance call.pc) := by
  cases hwaits : waitsFor proc.statics call.pc with
  | none =>
    have hprogress := advance_progress proc.pid t fresh proc.statics call.pc
    cases hadvance : advance proc.pid t fresh proc.statics call.pc with
    | blocked =>
      rw [hadvance] at hprogress
      exact absurd hwaits hprogress
    | goTo s' pc' =>
      rw [hadvance] at hprogress
      refine ⟨t, _, none, step_goTo hcall hadvance, .inr ⟨⟨call.late, pc'⟩, ?_, ?_⟩⟩
      · exact Function.update_self ..
      · have hlt : pc'.rank < call.pc.rank := hprogress
        refine Nat.lt_of_le_of_lt (distance_le _ pc') ?_
        rw [distance_of_free hwaits]
        omega
    | finish s' outcome =>
      exact ⟨t, _, some (call.late, outcome), step_finish hcall hadvance,
        .inl ⟨rfl, Option.some_ne_none _⟩⟩
  | some t' =>
    obtain ⟨holder, hholder, hother, hreleases⟩ := sound_releases h hwaits
    have hne : t ≠ t' := by
      rintro rfl
      rw [hcall] at hholder
      exact hother (by rw [Option.some.inj hholder])
    have hdistance := distance_of_waiting hwaits hholder
    have hpos := rank_pos holder.pc
    have hrelease := hreleases fresh
    cases hadvance : advance proc.pid t' fresh proc.statics holder.pc with
    | blocked =>
      rw [hadvance] at hrelease
      exact hrelease.elim
    | goTo s' pc' =>
      rw [hadvance] at hrelease
      have hrank : pc'.rank < holder.pc.rank := by
        have hprogress := advance_progress proc.pid t' fresh proc.statics holder.pc
        rwa [hadvance] at hprogress
      refine ⟨t', _, none, step_goTo hholder hadvance, .inr ⟨call, ?_, ?_⟩⟩
      · exact (Function.update_of_ne hne ..).trans hcall
      · rcases hrelease with hfree | hsame
        · rw [distance_of_free hfree]
          omega
        · rw [distance_of_waiting (hsame.trans hwaits) (Function.update_self ..)]
          dsimp only
          omega
    | finish s' outcome =>
      rw [hadvance] at hrelease
      have hfree : waitsFor s' call.pc = none := hrelease
      refine ⟨t', _, some (holder.late, outcome), step_finish hholder hadvance,
        .inr ⟨call, ?_, ?_⟩⟩
      · exact (Function.update_of_ne hne ..).trans hcall
      · rw [distance_of_free hfree]
        omega

end RedisRsPy.Runtime
