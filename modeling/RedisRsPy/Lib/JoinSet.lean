/-
Tasks that are spawned together and joined as they finish, until all are joined or one that failed is; then the rest are
dropped. Each task sends one command to a server and ends in the answer.

A command is answered, or its call fails, with or without the command being carried out. A copy of it may be carried out
at any other time too, twice or after its task was dropped, and anybody else may change the state of the server.

- `Inv`: the state is the history replayed; a task is joined at most once, and nothing after one that failed; an answer
  that is no failure was given at some moment of the history (`Answered`);
- `joined_perm`: with as many joined as there are tasks, each is joined once.
-/
import Mathlib.Data.List.Nodup
import Mathlib.Data.List.Perm.Subperm
import RedisRsPy.Lib.Runs

namespace Lib.JoinSet

inductive Status (ρ : Type) where
  | running
  | finished (r : ρ)
  | joined
  | dropped

inductive Entry (τ ρ ω : Type) where
  /-- the command of the task is carried out -/
  | ran (t : τ)
  /-- its call fails -/
  | failed (t : τ) (r : ρ)
  | outside (f : ω → ω)

structure State (τ ρ ω : Type) where
  world : ω
  status : τ → Status ρ
  /-- in the order they were joined -/
  joined : List (τ × ρ)
  /-- oldest first -/
  hist : List (Entry τ ρ ω)

inductive Event (τ ρ ω : Type) where
  | answer (t : τ)
  | fail (t : τ) (r : ρ) (ran : Bool)
  /-- a copy of the command that nobody waits for -/
  | stray (t : τ)
  | join (t : τ)
  | outside (f : ω → ω)

variable {τ ρ ω : Type}

def start (w : ω) : State τ ρ ω := ⟨w, fun _ => .running, [], []⟩

/-! ## The history -/

section History

variable (task : τ → ω → ρ × ω)

/-- what an entry does to the server -/
def Entry.act (e : Entry τ ρ ω) (w : ω) : ω :=
  match e with
  | .ran t => (task t w).2
  | .failed _ _ => w
  | .outside f => f w

def replay (w : ω) (hist : List (Entry τ ρ ω)) : ω := hist.foldl (fun w e => e.act task w) w

/-- the answer `r` was given to `t` at some moment -/
def Answered (w : ω) (hist : List (Entry τ ρ ω)) (t : τ) (r : ρ) : Prop :=
  ∃ pre post, hist = pre ++ .ran t :: post ∧ (task t (replay task w pre)).1 = r

theorem replay_snoc (w : ω) (hist : List (Entry τ ρ ω)) (e : Entry τ ρ ω) :
    replay task w (hist ++ [e]) = e.act task (replay task w hist) := by
  simp [replay]

theorem Answered.append {task : τ → ω → ρ × ω} {w : ω} {hist : List (Entry τ ρ ω)} {t : τ} {r : ρ}
    (h : Answered task w hist t r) (more : List (Entry τ ρ ω)) : Answered task w (hist ++ more) t r := by
  obtain ⟨pre, post, rfl, hr⟩ := h
  exact ⟨pre, post ++ more, by simp, hr⟩

end History

section Sets

variable (tasks : List τ) (task : τ → ω → ρ × ω) (fails : ρ → Bool)

/-- nothing is joined any more -/
def State.returned (s : State τ ρ ω) : Bool :=
  s.joined.any (fun j => fails j.2) || decide (s.joined.length = tasks.length)

/-- an entry of the history happens -/
def State.record (s : State τ ρ ω) (e : Entry τ ρ ω) : State τ ρ ω :=
  { s with world := e.act task s.world, hist := s.hist ++ [e] }

/-! ## The invariant of a set -/

/-- where the answer of a task comes from -/
def Source (w : ω) (s : State τ ρ ω) (t : τ) (r : ρ) : Prop :=
  Answered task w s.hist t r ∨ fails r = true ∧ .failed t r ∈ s.hist

structure Inv (w : ω) (s : State τ ρ ω) : Prop where
  world : s.world = replay task w s.hist
  ran : ∀ t, .ran t ∈ s.hist → t ∈ tasks
  finished : ∀ t r, s.status t = .finished r → t ∈ tasks ∧ Source task fails w s t r
  status : ∀ t, t ∈ s.joined.map Prod.fst ↔ s.status t = .joined
  nodup : (s.joined.map Prod.fst).Nodup
  joined : ∀ j ∈ s.joined, j.1 ∈ tasks ∧ Source task fails w s j.1 j.2
  /-- nothing is joined after a failure -/
  early : ∀ pre j post, s.joined = pre ++ j :: post → fails j.2 = true → post = []

variable {tasks task fails}

theorem Source.record {w : ω} {s : State τ ρ ω} {t : τ} {r : ρ} (h : Source task fails w s t r) (e : Entry τ ρ ω) :
    Source task fails w (s.record task e) t r := by
  rcases h with h | ⟨hfails, hmem⟩
  · exact .inl (h.append [e])
  · exact .inr ⟨hfails, List.mem_append_left _ hmem⟩

theorem inv_start (w : ω) : Inv tasks task fails w (start w : State τ ρ ω) where
  world := rfl
  ran t h := by cases h
  finished t r h := by cases h
  status t := ⟨fun h => (nomatch h), fun h => (nomatch h)⟩
  nodup := List.nodup_nil
  joined j h := by cases h
  early pre j post h := by simp [start] at h

theorem inv_record {w : ω} {s : State τ ρ ω} (h : Inv tasks task fails w s) {e : Entry τ ρ ω}
    (he : ∀ t, e = .ran t → t ∈ tasks) : Inv tasks task fails w (s.record task e) where
  world := by
    show e.act task s.world = replay task w (s.hist ++ [e])
    rw [replay_snoc, ← h.world]
  ran t ht := by
    rcases List.mem_append.1 ht with ht | ht
    · exact h.ran t ht
    · exact he t (List.mem_singleton.1 ht).symm
  finished t r ht := ⟨(h.finished t r ht).1, (h.finished t r ht).2.record e⟩
  status := h.status
  nodup := h.nodup
  joined j hj := ⟨(h.joined j hj).1, (h.joined j hj).2.record e⟩
  early := h.early

/-- **All are joined** when nothing failed: each task once, with an answer it was given. -/
theorem joined_perm {w : ω} {s : State τ ρ ω} (h : Inv tasks task fails w s) (hreturned : s.returned tasks fails = true)
    (hnone : ∀ j ∈ s.joined, fails j.2 = false) :
    (s.joined.map Prod.fst).Perm tasks ∧ ∀ j ∈ s.joined, Answered task w s.hist j.1 j.2 := by
  have hlength : s.joined.length = tasks.length := by
    rcases Bool.or_eq_true_iff.1 hreturned with hany | hall
    · obtain ⟨j, hj, hfails⟩ := List.any_eq_true.1 hany
      rw [hnone j hj] at hfails
      cases hfails
    · simpa using hall
  constructor
  · have hsub : s.joined.map Prod.fst ⊆ tasks := by
      intro t ht
      obtain ⟨j, hj, rfl⟩ := List.mem_map.1 ht
      exact (h.joined j hj).1
    exact (List.subperm_of_subset h.nodup hsub).perm_of_length_le (by simp [hlength])
  · intro j hj
    rcases (h.joined j hj).2 with hanswered | ⟨hfails, -⟩
    · exact hanswered
    · rw [hnone j hj] at hfails
      cases hfails

end Sets

/-! ## Steps -/

section Steps

variable [DecidableEq τ] (tasks : List τ) (task : τ → ω → ρ × ω) (fails : ρ → Bool)

def State.finish (s : State τ ρ ω) (t : τ) (r : ρ) : State τ ρ ω :=
  { s with status := Function.update s.status t (.finished r) }

/-- what a join leaves of the tasks: after a failure the ones not joined are dropped -/
def State.afterJoin (s : State τ ρ ω) (t : τ) (r : ρ) (u : τ) : Status ρ :=
  if u = t then .joined
  else if fails r then
    match s.status u with
    | .joined => .joined
    | _ => .dropped
  else s.status u

def State.join (s : State τ ρ ω) (t : τ) (r : ρ) : State τ ρ ω :=
  { s with joined := s.joined ++ [(t, r)], status := s.afterJoin fails t r }

def step (s : State τ ρ ω) : Event τ ρ ω → State τ ρ ω
  | .answer t =>
    match s.status t, decide (t ∈ tasks) with
    | .running, true => (s.record task (.ran t)).finish t (task t s.world).1
    | _, _ => s
  | .fail t r ran =>
    match s.status t, decide (t ∈ tasks), fails r with
    | .running, true, true =>
      let s := if ran then s.record task (.ran t) else s
      (s.record task (.failed t r)).finish t r
    | _, _, _ => s
  | .stray t => if t ∈ tasks then s.record task (.ran t) else s
  | .join t =>
    match s.status t, s.returned tasks fails with
    | .finished r, false => s.join fails t r
    | _, _ => s
  | .outside f => s.record task (.outside f)

/-! ## Every step keeps it -/

variable {tasks task fails}

theorem inv_finish {w : ω} {s : State τ ρ ω} (h : Inv tasks task fails w s) {t : τ} {r : ρ}
    (hrunning : s.status t = .running) (ht : t ∈ tasks) (hr : Source task fails w s t r) :
    Inv tasks task fails w (s.finish t r) where
  world := h.world
  ran := h.ran
  finished u q hu := by
    by_cases hut : u = t
    · subst hut
      obtain rfl : r = q := by simpa [State.finish] using hu
      exact ⟨ht, hr⟩
    · exact h.finished u q (by simpa [State.finish, hut] using hu)
  status u := by
    rw [show (s.finish t r).joined = s.joined from rfl, h.status u]
    by_cases hut : u = t
    · subst hut
      simp [State.finish, hrunning]
    · simp [State.finish, hut]
  nodup := h.nodup
  joined := h.joined
  early := h.early

theorem inv_join {w : ω} {s : State τ ρ ω} (h : Inv tasks task fails w s) {t : τ} {r : ρ}
    (hfinished : s.status t = .finished r) (hreturned : s.returned tasks fails = false) :
    Inv tasks task fails w (s.join fails t r) where
  world := h.world
  ran := h.ran
  finished u q hu := by
    simp only [State.join, State.afterJoin] at hu
    split at hu
    · cases hu
    · split at hu
      · split at hu <;> cases hu
      · exact h.finished u q hu
  status u := by
    have hstatus := h.status u
    simp only [State.join, State.afterJoin, List.map_append, List.map_cons, List.map_nil, List.mem_append,
      List.mem_singleton]
    split
    · simp [*]
    · rename_i hut
      rw [or_iff_left hut, hstatus]
      split
      · split <;> simp_all
      · rfl
  nodup := by
    have hnew : t ∉ s.joined.map Prod.fst := by
      rw [h.status t, hfinished]
      exact fun h => by cases h
    have hsplit : (s.join fails t r).joined.map Prod.fst = s.joined.map Prod.fst ++ [t] := by simp [State.join]
    rw [hsplit]
    exact h.nodup.append (List.nodup_singleton t) (by simpa using hnew)
  joined j hj := by
    rcases List.mem_append.1 hj with hj | hj
    · exact h.joined j hj
    · obtain rfl := List.mem_singleton.1 hj
      exact h.finished t r hfinished
  early pre j post hsplit hj := by
    -- no earlier one failed, since the set was still being joined
    have hnone : ∀ j ∈ s.joined, fails j.2 = false := by
      intro j hj
      have hany := (Bool.or_eq_false_iff.1 hreturned).1
      simpa using List.any_eq_false.1 hany j hj
    rcases List.eq_nil_or_concat post with hpost | ⟨post', j', rfl⟩
    · exact hpost
    · have hmem : j ∈ s.joined := by
        have hinit : s.joined = pre ++ j :: post' := by
          have happend : s.joined ++ [(t, r)] = (pre ++ j :: post') ++ [j'] := by simpa [State.join] using hsplit
          exact (List.append_inj' happend rfl).1
        rw [hinit]
        simp
      rw [hnone j hmem] at hj
      cases hj

theorem inv_step {w : ω} (s : State τ ρ ω) (e : Event τ ρ ω) (h : Inv tasks task fails w s) :
    Inv tasks task fails w (step tasks task fails s e) := by
  cases e with
  | answer t =>
    simp only [step]
    split
    swap
    · exact h
    rename_i hrunning ht
    have ht : t ∈ tasks := by simpa using ht
    refine inv_finish (inv_record h fun u hu => by cases hu; exact ht) hrunning ht (.inl ⟨s.hist, [], rfl, ?_⟩)
    rw [← h.world]
  | fail t r ran =>
    simp only [step]
    split
    swap
    · exact h
    rename_i hrunning ht hfails
    have ht : t ∈ tasks := by simpa using ht
    have hs : Inv tasks task fails w (if ran then s.record task (.ran t) else s) ∧
        (if ran then s.record task (.ran t) else s).status t = .running := by
      cases ran with
      | false => exact ⟨h, hrunning⟩
      | true => exact ⟨inv_record h fun u hu => by cases hu; exact ht, hrunning⟩
    exact inv_finish (inv_record hs.1 fun u hu => by cases hu) hs.2 ht
      (.inr ⟨hfails, List.mem_append_right _ (List.mem_singleton.2 rfl)⟩)
  | stray t =>
    simp only [step]
    split_ifs with ht
    · exact inv_record h fun u hu => by cases hu; exact ht
    · exact h
  | join t =>
    simp only [step]
    split
    · rename_i hfinished hreturned
      exact inv_join h hfinished hreturned
    · exact h
  | outside f => exact inv_record h fun u hu => by cases hu

theorem inv_run (w : ω) (l : List (Event τ ρ ω)) : Inv tasks task fails w (run (step tasks task fails) (start w) l) :=
  run_invariant' inv_step l (inv_start w)

end Steps

end Lib.JoinSet
