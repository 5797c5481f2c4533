/-
Runs of a deterministic labelled step function, and pools of tasks that share one state.

A run is a list of labels; a label that is not enabled leaves the state alone. A DISCIPLINE is a predicate on (state
before the step, label); `Along` says that every step of a run meets it. The rules:
- `run_invariant`: what every disciplined step preserves, every disciplined run preserves;
- `Along.mono_of_invariant`: a discipline that follows from an invariant and another discipline holds along the run;
- `along_iff`: a property of steps that an invariant makes equivalent to the discipline holds on the disciplined runs only;
- `run_iff`: so does a property of states that the steps accumulate.

A pool is a shared state and one task per index. `Pool.step next p i` lets task `i` make its next move and touches no
other task, so a run of the pool (a list of indices) is one interleaving of the tasks.
-/
import Mathlib.Logic.Function.Basic
import Mathlib.Data.List.Basic

namespace Lib

variable {σ ε : Type*}

/-! ## Runs -/

def run (step : σ → ε → σ) (s : σ) (l : List ε) : σ := l.foldl step s

@[simp] theorem run_nil (step : σ → ε → σ) (s : σ) : run step s [] = s := rfl

@[simp] theorem run_cons (step : σ → ε → σ) (s : σ) (e : ε) (l : List ε) :
    run step s (e :: l) = run step (step s e) l := rfl

theorem run_append (step : σ → ε → σ) (s : σ) (l m : List ε) :
    run step s (l ++ m) = run step (run step s l) m := by
  simp [run, List.foldl_append]

theorem run_snoc (step : σ → ε → σ) (s : σ) (l : List ε) (e : ε) :
    run step s (l ++ [e]) = step (run step s l) e := by
  simp [run_append]

/-- every step of the run meets `P` in the state before it -/
def Along (step : σ → ε → σ) (P : σ → ε → Prop) : σ → List ε → Prop
  | _, [] => True
  | s, e :: l => P s e ∧ Along step P (step s e) l

instance Along.decidable (step : σ → ε → σ) (P : σ → ε → Prop) [∀ s e, Decidable (P s e)] :
    ∀ s l, Decidable (Along step P s l)
  | _, [] => inferInstanceAs (Decidable True)
  | s, e :: l => @instDecidableAnd _ _ _ (Along.decidable step P (step s e) l)

theorem along_append {step : σ → ε → σ} {P : σ → ε → Prop} {s : σ} {l m : List ε} :
    Along step P s (l ++ m) ↔ Along step P s l ∧ Along step P (run step s l) m := by
  induction l generalizing s with
  | nil => simp [Along]
  | cons e l ih => simp [Along, ih, and_assoc]

theorem along_and {step : σ → ε → σ} {P Q : σ → ε → Prop} {s : σ} {l : List ε} :
    Along step (fun s e => P s e ∧ Q s e) s l ↔ Along step P s l ∧ Along step Q s l := by
  induction l generalizing s with
  | nil => simp [Along]
  | cons e l ih => simp [Along, ih, and_assoc, and_left_comm]

/-- a discipline on the labels alone -/
theorem along_of_forall {step : σ → ε → σ} {P : ε → Prop} {s : σ} {l : List ε} (h : ∀ e ∈ l, P e) :
    Along step (fun _ e => P e) s l := by
  induction l generalizing s with
  | nil => trivial
  | cons e l ih => exact ⟨h e List.mem_cons_self, ih fun e' he' => h e' (List.mem_cons_of_mem _ he')⟩

/-- **Invariant rule.** What every step that meets the discipline preserves holds after every disciplined run. -/
theorem run_invariant {step : σ → ε → σ} {P : σ → ε → Prop} {I : σ → Prop}
    (hstep : ∀ s e, I s → P s e → I (step s e)) {s : σ} {l : List ε} (hs : I s) (hl : Along step P s l) :
    I (run step s l) := by
  induction l generalizing s with
  | nil => exact hs
  | cons e l ih => exact ih (hstep s e hs hl.1) hl.2

/-- under an invariant of the disciplined steps, a property that the invariant and the discipline give holds at every
step of a disciplined run -/
theorem Along.mono_of_invariant {step : σ → ε → σ} {P R : σ → ε → Prop} {I : σ → Prop}
    (hstep : ∀ s e, I s → P s e → I (step s e)) (hR : ∀ s e, I s → P s e → R s e) {s : σ} {l : List ε} (hs : I s)
    (hl : Along step P s l) : Along step R s l := by
  induction l generalizing s with
  | nil => trivial
  | cons e l ih => exact ⟨hR s e hs hl.1, ih (hstep s e hs hl.1) hl.2⟩

/-- **Exactness rule.** Where an invariant of the disciplined steps makes a property of a step and the discipline one,
the runs with the property are the disciplined runs. `A` is what the labels of the run have in common. -/
theorem along_iff {step : σ → ε → σ} {P Q : σ → ε → Prop} {I : σ → Prop} {A : ε → Prop}
    (hstep : ∀ s e, A e → I s → P s e → I (step s e)) (hiff : ∀ s e, A e → I s → (Q s e ↔ P s e)) {s : σ} {l : List ε}
    (hA : ∀ e ∈ l, A e) (hs : I s) : Along step Q s l ↔ Along step P s l := by
  induction l generalizing s with
  | nil => exact Iff.rfl
  | cons e l ih =>
    have he := hA e List.mem_cons_self
    simp only [Along, hiff s e he hs]
    refine and_congr_right fun hp => ?_
    exact ih (fun e' he' => hA e' (List.mem_cons_of_mem _ he')) (hstep s e he hs hp)

/-- **Accumulation rule.** A property of states that each step keeps exactly where the step meets the discipline holds at
the end of a run exactly where it held before and the whole run is disciplined. -/
theorem run_iff {step : σ → ε → σ} {P : σ → ε → Prop} {G I : σ → Prop} (hstep : ∀ s e, I s → I (step s e))
    (hiff : ∀ s e, I s → (G (step s e) ↔ G s ∧ P s e)) {s : σ} (hs : I s) (l : List ε) :
    G (run step s l) ↔ G s ∧ Along step P s l := by
  induction l generalizing s with
  | nil => simp [Along]
  | cons e l ih => rw [run_cons, ih (hstep s e hs), hiff s e hs, Along, and_assoc]

theorem along_true (step : σ → ε → σ) (s : σ) (l : List ε) : Along step (fun _ _ => True) s l := by
  induction l generalizing s with
  | nil => trivial
  | cons e l ih => exact ⟨trivial, ih _⟩

/-- the rule for steps under no discipline -/
theorem run_invariant' {step : σ → ε → σ} {I : σ → Prop} (hstep : ∀ s e, I s → I (step s e)) {s : σ} (l : List ε)
    (hs : I s) : I (run step s l) :=
  run_invariant (fun s e h _ => hstep s e h) hs (along_true step s l)

/-! ## Pools of tasks over a shared state -/

structure Pool (ι τ σ : Type*) where
  shared : σ
  tasks : ι → τ

variable {ι τ : Type*} [DecidableEq ι]

/-- task `i` makes its next move -/
def Pool.step (next : τ → σ → τ × σ) (p : Pool ι τ σ) (i : ι) : Pool ι τ σ :=
  ⟨(next (p.tasks i) p.shared).2, Function.update p.tasks i (next (p.tasks i) p.shared).1⟩

/-- one task alone for `n` moves: nobody else runs in between -/
def solo (next : τ → σ → τ × σ) : ℕ → τ → σ → τ × σ
  | 0, t, s => (t, s)
  | n + 1, t, s => solo next n (next t s).1 (next t s).2

/-- a finished task makes no more moves -/
theorem solo_of_fixed {next : τ → σ → τ × σ} {t : τ} {s : σ} (h : next t s = (t, s)) (n : ℕ) :
    solo next n t s = (t, s) := by
  induction n with
  | zero => rfl
  | succ n ih => rw [solo, h]; exact ih

theorem solo_succ (next : τ → σ → τ × σ) (n : ℕ) (t : τ) (s : σ) :
    solo next (n + 1) t s = solo next n (next t s).1 (next t s).2 := rfl

theorem solo_add (next : τ → σ → τ × σ) (m n : ℕ) (t : τ) (s : σ) :
    solo next (m + n) t s = solo next n (solo next m t s).1 (solo next m t s).2 := by
  induction m generalizing t s with
  | zero => rw [Nat.zero_add]; rfl
  | succ m ih => rw [Nat.succ_add, solo, ih]; rfl

/-- a task run alone is the interleaving that schedules only its index -/
theorem run_replicate (next : τ → σ → τ × σ) (p : Pool ι τ σ) (i : ι) (n : ℕ) :
    run (Pool.step next) p (List.replicate n i) =
      ⟨(solo next n (p.tasks i) p.shared).2, Function.update p.tasks i (solo next n (p.tasks i) p.shared).1⟩ := by
  induction n generalizing p with
  | zero => simp [solo]
  | succ n ih =>
    rw [List.replicate_succ, run_cons, ih]
    simp [solo, Pool.step]

end Lib
