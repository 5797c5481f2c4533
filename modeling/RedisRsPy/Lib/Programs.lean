/-
Straight-line programs over a state guarded by a lock and a server that answers calls.

A program is finished (`ret`), enters a critical section (`lock`: one update of the state, continuing with what it
saw), or issues a call and waits for the answer. `Prog` is a monad, so a function of the source that takes the lock,
awaits, and takes it again is written in `do` notation with the same sections in the same order.

- `exec E p s w`: run `p` alone from state `s` against the server `E` (any reply function on any server state).
  `exec_bind` is the composition law; the result records the calls made.
- `settle p s`: run the critical sections of `p` up to its next call. A client whose state nobody else touches is a
  `Pending` value, so that the calls of several clients can be interleaved. `settle_bind` is the composition law.
-/
import Mathlib.Data.List.Basic

namespace Lib

/-- `σ` the locked state, `Q` the calls, `A q` the answers to `q`, `α` the result -/
inductive Prog (σ Q : Type) (A : Q → Type) (α : Type) where
  | ret (a : α)
  | lock (f : σ → σ) (k : σ → Prog σ Q A α)
  | call (q : Q) (k : A q → Prog σ Q A α)

namespace Prog

variable {σ Q : Type} {A : Q → Type} {α β γ ω : Type}

def bind : Prog σ Q A α → (α → Prog σ Q A β) → Prog σ Q A β
  | ret a, g => g a
  | lock f k, g => lock f fun s => bind (k s) g
  | call q k, g => call q fun r => bind (k r) g

instance : Monad (Prog σ Q A) where
  pure := ret
  bind := bind

/-- one critical section: a result and an update, both from the state it finds -/
def locked (f : σ → α × σ) : Prog σ Q A α := lock (fun s => (f s).2) fun s => ret (f s).1

/-- a critical section that only reads -/
def reading (f : σ → α) : Prog σ Q A α := lock id fun s => ret (f s)

/-- a critical section that only writes -/
def writing (f : σ → σ) : Prog σ Q A Unit := lock f fun _ => ret ()

/-- one call -/
def ask (q : Q) : Prog σ Q A (A q) := call q ret

end Prog

/-- a server: from its state and a call, the answer and the next state -/
structure Server (Q : Type) (A : Q → Type) (ω : Type) where
  reply : ω → (q : Q) → A q × ω

/-- what a program run alone ends in: its result, the state, the server's state and the calls made, in order -/
structure Ended (σ Q ω α : Type) where
  val : α
  st : σ
  srv : ω
  log : List Q

namespace Prog

variable {σ Q : Type} {A : Q → Type} {α β ω : Type}

def exec (E : Server Q A ω) : Prog σ Q A α → σ → ω → Ended σ Q ω α
  | ret a, s, w => ⟨a, s, w, []⟩
  | lock f k, s, w => exec E (k s) (f s) w
  | call q k, s, w =>
    let o := exec E (k (E.reply w q).1) s (E.reply w q).2
    { o with log := q :: o.log }

variable (E : Server Q A ω)

@[simp] theorem exec_pure (a : α) (s : σ) (w : ω) : exec E (pure a : Prog σ Q A α) s w = ⟨a, s, w, []⟩ := rfl

@[simp] theorem exec_locked (f : σ → α × σ) (s : σ) (w : ω) :
    exec E (locked f : Prog σ Q A α) s w = ⟨(f s).1, (f s).2, w, []⟩ := rfl

@[simp] theorem exec_reading (f : σ → α) (s : σ) (w : ω) :
    exec E (reading f : Prog σ Q A α) s w = ⟨f s, s, w, []⟩ := rfl

@[simp] theorem exec_writing (f : σ → σ) (s : σ) (w : ω) :
    exec E (writing f : Prog σ Q A Unit) s w = ⟨(), f s, w, []⟩ := rfl

@[simp] theorem exec_ask (q : Q) (s : σ) (w : ω) :
    exec E (ask q : Prog σ Q A (A q)) s w = ⟨(E.reply w q).1, s, (E.reply w q).2, [q]⟩ := rfl

@[simp] theorem exec_bind (p : Prog σ Q A α) (g : α → Prog σ Q A β) (s : σ) (w : ω) :
    exec E (p >>= g) s w =
      let o := exec E p s w
      let o' := exec E (g o.val) o.st o.srv
      { o' with log := o.log ++ o'.log } := by
  induction p generalizing s w with
  | ret a => simp [Bind.bind, bind, exec]
  | lock f k ih => exact ih s (f s) w
  | call q k ih =>
    have h := ih (E.reply w q).1 s (E.reply w q).2
    simp only [Bind.bind, bind, exec] at h ⊢
    rw [h]
    simp

@[simp] theorem exec_map (g : α → β) (p : Prog σ Q A α) (s : σ) (w : ω) :
    exec E (g <$> p) s w = ⟨g (exec E p s w).val, (exec E p s w).st, (exec E p s w).srv, (exec E p s w).log⟩ := by
  have h : g <$> p = p >>= fun a => pure (g a) := rfl
  simp [h]

end Prog

/-! ## A server that keeps its calls -/

/-- the same server, with a record of the calls it was sent -/
def Server.logged {Q : Type} {A : Q → Type} {ω : Type} (E : Server Q A ω) : Server Q A (ω × List Q) where
  reply w q := ((E.reply w.1 q).1, (E.reply w.1 q).2, w.2 ++ [q])

/-- **The record is the log.** Recording changes nothing else. -/
theorem Prog.exec_logged {σ Q : Type} {A : Q → Type} {α ω : Type} (E : Server Q A ω) (p : Prog σ Q A α) (s : σ) (w : ω)
    (l : List Q) :
    exec E.logged p s (w, l) =
      let o := exec E p s w
      ⟨o.val, o.st, (o.srv, l ++ o.log), o.log⟩ := by
  induction p generalizing s w l with
  | ret a => simp [exec]
  | lock f k ih => exact ih s (f s) w l
  | call q k ih =>
    have h := ih (E.reply w q).1 s (E.reply w q).2 (l ++ [q])
    simp only [exec, Server.logged] at h ⊢
    rw [h]
    simp

/-! ## Clients between two calls -/

/-- a client of its own state: finished, or waiting for the answer to a call -/
inductive Pending (σ Q : Type) (A : Q → Type) (α : Type) where
  | ended (a : α) (s : σ)
  | waiting (q : Q) (k : A q → Prog σ Q A α) (s : σ)

namespace Prog

variable {σ Q : Type} {A : Q → Type} {α β ω : Type}

/-- run the critical sections up to the next call -/
def settle : Prog σ Q A α → σ → Pending σ Q A α
  | ret a, s => .ended a s
  | lock f k, s => settle (k s) (f s)
  | call q k, s => .waiting q k s

theorem settle_bind (p : Prog σ Q A α) (g : α → Prog σ Q A β) (s : σ) :
    settle (p >>= g) s =
      match settle p s with
      | .ended a s' => settle (g a) s'
      | .waiting q k s' => .waiting q (fun r => k r >>= g) s' := by
  induction p generalizing s with
  | ret a => rfl
  | lock f k ih => exact ih s (f s)
  | call q k ih => rfl

end Prog

/-- the answer arrives -/
def Pending.resume {σ Q : Type} {A : Q → Type} {α : Type} (ans : (q : Q) → A q) : Pending σ Q A α → Pending σ Q A α
  | .ended a s => .ended a s
  | .waiting q k s => (k (ans q)).settle s

end Lib
