/-
Objects under a borrow rule, and threads that call methods on one of them.

A `Cell` counts its live shared borrows and knows whether an exclusive one is live; a shared borrow is refused while an
exclusive one is live, an exclusive one while any other is. A method runs in stretches: between two places at which it
gives the interpreter up, it takes and drops borrows and then stops at a place or returns. A thread is a stack of calls
in progress, the innermost first: it makes a call of its own only where it runs code of the caller. `Methods` is a table
of methods, with the number of borrows a call holds at each place, and the proof that every stretch keeps to it.

Results:
- `run_counted`: in every run the readers of the cell are the borrows that the places of all calls in progress hold;
- `exclusive_iff`: an exclusive borrow succeeds if and only if no call in progress is at a place that holds a borrow;
- `along_works_iff`: the runs in which every exclusive call does its work are those in which each meets no such call.
-/
import Mathlib.Algebra.BigOperators.Group.List.Basic
import Mathlib.Algebra.GroupWithZero.Nat
import RedisRsPy.Lib.Runs

namespace Lib

variable {α κ π β : Type*}

/-! ## Cells -/

structure Cell (α : Type*) where
  value : α
  readers : ℕ
  writer : Bool
deriving DecidableEq, Repr

def Cell.new (a : α) : Cell α := ⟨a, 0, false⟩

def Cell.borrow (c : Cell α) : Option (Cell α) :=
  if c.writer then none else some { c with readers := c.readers + 1 }

def Cell.release (c : Cell α) : Cell α := { c with readers := c.readers - 1 }

def Cell.borrowMut (c : Cell α) : Option (Cell α) :=
  if c.writer || decide (0 < c.readers) then none else some { c with writer := true }

/-- a method under an exclusive borrow, which it drops when it returns -/
def Cell.update (f : α → α) (c : Cell α) : Option (Cell α) :=
  c.borrowMut.map fun c => { c with value := f c.value, writer := false }

inductive Act where
  | borrow
  | release
deriving DecidableEq, Repr

def Cell.act (c : Cell α) : Act → Option (Cell α)
  | .borrow => c.borrow
  | .release => some c.release

def Cell.perform : Cell α → List Act → Option (Cell α)
  | c, [] => some c
  | c, a :: l => (c.act a).bind fun c' => c'.perform l

/-- the borrows a call holds after its acts, none if it drops more than it has -/
def tally : ℕ → List Act → Option ℕ
  | h, [] => some h
  | h, .borrow :: l => tally (h + 1) l
  | 0, .release :: _ => none
  | h + 1, .release :: l => tally h l

theorem tally_append (h : ℕ) (l m : List Act) : tally h (l ++ m) = (tally h l).bind fun h' => tally h' m := by
  induction l generalizing h with
  | nil => rfl
  | cons a l ih =>
    cases a with
    | borrow => cases h <;> exact ih _
    | release =>
      cases h with
      | zero => rfl
      | succ h => exact ih h

theorem borrow_eq_some {c : Cell α} (hw : c.writer = false) :
    c.borrow = some { c with readers := c.readers + 1 } := by
  simp [Cell.borrow, hw]

/-- acts on a cell without a writer are never refused, and change the readers by what the call's own tally changes -/
theorem perform_of_tally {c : Cell α} {h h' : ℕ} {l : List Act} (hw : c.writer = false) (hh : h ≤ c.readers)
    (ht : tally h l = some h') : c.perform l = some { c with readers := c.readers - h + h' } := by
  induction l generalizing c h with
  | nil =>
    obtain rfl : h = h' := by simpa [tally] using ht
    rw [Cell.perform, Nat.sub_add_cancel hh]
  | cons a l ih =>
    cases a with
    | borrow =>
      have ht' : tally (h + 1) l = some h' := by cases h <;> exact ht
      have hrest := ih (c := { c with readers := c.readers + 1 }) hw (Nat.succ_le_succ hh) ht'
      rw [Cell.perform, Cell.act, borrow_eq_some hw, Option.bind_some, hrest, Nat.add_sub_add_right]
    | release =>
      cases h with
      | zero => cases ht
      | succ h =>
        have hrest := ih (c := { c with readers := c.readers - 1 }) hw (Nat.le_sub_one_of_lt hh) ht
        have hsub : c.readers - 1 - h = c.readers - (h + 1) := by omega
        rw [Cell.perform, Cell.act, Cell.release, Option.bind_some, hrest, hsub]

theorem update_eq_some {c : Cell α} (hw : c.writer = false) (hr : c.readers = 0) (f : α → α) :
    c.update f = some { c with value := f c.value } := by
  simp [Cell.update, Cell.borrowMut, hw, hr]

theorem update_eq_none {c : Cell α} (hr : 0 < c.readers) (f : α → α) : c.update f = none := by
  simp [Cell.update, Cell.borrowMut, hr]

/-! ## Methods -/

/-- what a call does before it gives the interpreter up again, and where it stops; it has returned where there is no
such place -/
structure Stretch (π : Type*) where
  acts : List Act
  stop : Option π

def Stretch.Balanced (holds : π → ℕ) (h : ℕ) (s : Stretch π) : Prop :=
  tally h s.acts = some (s.stop.elim 0 holds)

/-- the methods `κ` with the places `π` of their calls; `β` is what the outside answers at a place -/
structure Methods (α κ π β : Type*) where
  enter : α → κ → β → Stretch π
  resume : α → π → β → Stretch π
  /-- the call runs code of the caller, which may call methods itself -/
  inPython : π → Bool
  holds : π → ℕ
  enter_balanced : ∀ a k b, (enter a k b).Balanced holds 0
  resume_balanced : ∀ a p b, (resume a p b).Balanced holds (holds p)

/-! ## Threads -/

structure World (α π : Type*) where
  cell : Cell α
  threads : List (List π)

def World.new (a : α) : World α π := ⟨.new a, []⟩

inductive Event (κ β : Type*) where
  | spawn
  | call (thread : ℕ) (method : κ) (answer : β)
  | turn (thread : ℕ) (answer : β)
  | exclusive (thread : ℕ)

variable (M : Methods α κ π β)

/-- a thread that is in no call, or in code of the caller, is free to make one -/
def Methods.free : List π → Bool
  | [] => true
  | p :: _ => M.inPython p

def Methods.mayCall (w : World α π) (n : ℕ) : Bool := (w.threads[n]?.map M.free).getD false

/-- a refused borrow ends the call that asked for it -/
def World.advance (w : World α π) (n : ℕ) (stack : List π) (s : Stretch π) : World α π :=
  match w.cell.perform s.acts with
  | some c => ⟨c, w.threads.set n (s.stop.toList ++ stack)⟩
  | none => { w with threads := w.threads.set n stack }

/-- one step; `f` is what the exclusive method does to the object, and a refused one changes nothing -/
def Methods.step (f : α → α) (w : World α π) : Event κ β → World α π
  | .spawn => { w with threads := w.threads ++ [[]] }
  | .call n k b =>
    match w.threads[n]? with
    | some stack => if M.free stack then w.advance n stack (M.enter w.cell.value k b) else w
    | none => w
  | .turn n b =>
    match w.threads[n]? with
    | some (p :: stack) => w.advance n stack (M.resume w.cell.value p b)
    | _ => w
  | .exclusive n => if M.mayCall w n then { w with cell := (w.cell.update f).getD w.cell } else w

/-! ## The count of the readers -/

def Methods.heldBy (stack : List π) : ℕ := (stack.map M.holds).sum

def Methods.held (threads : List (List π)) : ℕ := (threads.map M.heldBy).sum

structure Methods.Counted (w : World α π) : Prop where
  writer : w.cell.writer = false
  readers : w.cell.readers = M.held w.threads

theorem held_set {threads : List (List π)} {n : ℕ} {stack : List π} (h : threads[n]? = some stack)
    (new : List π) : M.held (threads.set n new) + M.heldBy stack = M.held threads + M.heldBy new := by
  induction threads generalizing n with
  | nil => simp at h
  | cons t ts ih =>
    cases n with
    | zero =>
      obtain rfl : t = stack := by simpa using h
      simp only [Methods.held, List.set_cons_zero, List.map_cons, List.sum_cons]
      omega
    | succ n =>
      have hrest := ih (n := n) (by simpa using h)
      simp only [Methods.held, List.set_cons_succ, List.map_cons, List.sum_cons] at hrest ⊢
      omega

theorem heldBy_le_held {threads : List (List π)} {n : ℕ} {stack : List π} (h : threads[n]? = some stack) :
    M.heldBy stack ≤ M.held threads := by
  have := held_set M h []
  simp only [Methods.heldBy, List.map_nil, List.sum_nil] at this ⊢
  omega

/-- a call goes from a place that holds `h` to one that holds what its stretch says -/
theorem counted_advance {w : World α π} (hw : M.Counted w) {n h : ℕ} (top : List π) {stack : List π}
    {s : Stretch π} (hn : w.threads[n]? = some (top ++ stack)) (htop : M.heldBy top = h) (hs : s.Balanced M.holds h) :
    M.Counted (w.advance n stack s) := by
  have happend : ∀ l : List π, M.heldBy (l ++ stack) = M.heldBy l + M.heldBy stack := by
    intro l
    simp [Methods.heldBy]
  have hle := heldBy_le_held M hn
  rw [happend, htop, ← hw.readers] at hle
  have hperform := perform_of_tally hw.writer (Nat.le_of_add_right_le hle) hs
  have hstop : M.heldBy s.stop.toList = s.stop.elim 0 M.holds := by cases s.stop <;> simp [Methods.heldBy]
  have hset := held_set M hn (s.stop.toList ++ stack)
  rw [happend, happend, htop, hstop] at hset
  have hreaders := hw.readers
  simp only [World.advance, hperform]
  refine ⟨hw.writer, ?_⟩
  show w.cell.readers - h + s.stop.elim 0 M.holds = M.held (w.threads.set n (s.stop.toList ++ stack))
  omega

theorem counted_update {w : World α π} (hw : M.Counted w) (f : α → α) :
    M.Counted { w with cell := (w.cell.update f).getD w.cell } := by
  rcases Nat.eq_zero_or_pos w.cell.readers with hr | hr
  · rw [update_eq_some hw.writer hr f]
    exact ⟨hw.writer, hw.readers⟩
  · rw [update_eq_none hr f]
    exact hw

theorem counted_step {w : World α π} (hw : M.Counted w) (f : α → α) (e : Event κ β) :
    M.Counted (M.step f w e) := by
  cases e with
  | spawn => exact ⟨hw.writer, by simpa [Methods.step, Methods.held, Methods.heldBy] using hw.readers⟩
  | call n k b =>
    simp only [Methods.step]
    split
    · rename_i stack hn
      split
      · exact counted_advance M hw (h := 0) [] hn rfl (M.enter_balanced _ k b)
      · exact hw
    · exact hw
  | turn n b =>
    simp only [Methods.step]
    split
    · rename_i p stack hn
      have htop : M.heldBy [p] = M.holds p := by simp [Methods.heldBy]
      exact counted_advance M hw [p] hn htop (M.resume_balanced _ p b)
    · exact hw
  | exclusive n =>
    simp only [Methods.step]
    split
    · exact counted_update M hw f
    · exact hw

theorem counted_new (a : α) : M.Counted (World.new a) := ⟨rfl, rfl⟩

/-- **Count of the readers.** In every run the readers of the cell are the borrows of the calls in progress. -/
theorem run_counted (f : α → α) (a : α) (l : List (Event κ β)) : M.Counted (run (M.step f) (World.new a) l) :=
  run_invariant' (I := M.Counted) (fun _ e hw => counted_step M hw f e) l (counted_new M a)

/-! ## Exclusive borrows -/

/-- no call in progress is at a place that holds a borrow -/
def Methods.Quiet (w : World α π) : Prop := ∀ stack ∈ w.threads, ∀ p ∈ stack, M.holds p = 0

theorem held_eq_zero_iff {threads : List (List π)} :
    M.held threads = 0 ↔ ∀ stack ∈ threads, ∀ p ∈ stack, M.holds p = 0 := by
  simp [Methods.held, Methods.heldBy, List.sum_eq_zero_iff_forall_eq_nat]

theorem exclusive_iff {w : World α π} (hw : M.Counted w) (f : α → α) : (w.cell.update f).isSome ↔ M.Quiet w := by
  rw [Methods.Quiet, ← held_eq_zero_iff, ← hw.readers]
  rcases Nat.eq_zero_or_pos w.cell.readers with hr | hr
  · simp [update_eq_some hw.writer hr f, hr]
  · simp [update_eq_none hr f, Nat.ne_of_gt hr]

/-- the exclusive method of a thread that may call it is not refused, and leaves the object as `good` says -/
def Methods.Works (f : α → α) (good : α → Prop) (w : World α π) : Event κ β → Prop
  | .exclusive n =>
    M.mayCall w n = true → (w.cell.update f).isSome = true ∧ good (M.step f w (.exclusive n)).cell.value
  | _ => True

/-- every exclusive call is made while no call in progress holds a borrow -/
def Methods.Undisturbed (w : World α π) : Event κ β → Prop
  | .exclusive n => M.mayCall w n = true → M.Quiet w
  | _ => True

/-! ## Runs -/

theorem value_of_perform {c c' : Cell α} {l : List Act} (h : c.perform l = some c') : c'.value = c.value := by
  induction l generalizing c with
  | nil =>
    obtain rfl : c = c' := by simpa [Cell.perform] using h
    rfl
  | cons a l ih =>
    obtain ⟨d, hd, hrest⟩ := Option.bind_eq_some_iff.1 h
    rw [ih hrest]
    cases a with
    | borrow =>
      obtain ⟨-, rfl⟩ : c.writer = false ∧ { c with readers := c.readers + 1 } = d := by
        simpa [Cell.act, Cell.borrow] using hd
      rfl
    | release =>
      obtain rfl : c.release = d := by simpa [Cell.act] using hd
      rfl

theorem value_advance (w : World α π) (n : ℕ) (stack : List π) (s : Stretch π) :
    (w.advance n stack s).cell.value = w.cell.value := by
  unfold World.advance
  split
  · rename_i c hc
    exact value_of_perform hc
  · rfl

theorem value_update {c c' : Cell α} {f : α → α} (h : c.update f = some c') : c'.value = f c.value := by
  obtain ⟨d, hd, rfl⟩ := Option.map_eq_some_iff.1 h
  obtain ⟨-, rfl⟩ : (c.writer = false ∧ c.readers = 0) ∧ { c with writer := true } = d := by
    simpa [Cell.borrowMut] using hd
  rfl

/-- only the exclusive method changes the object -/
theorem value_step (f : α → α) (w : World α π) (e : Event κ β) :
    (M.step f w e).cell.value = w.cell.value ∨ (M.step f w e).cell.value = f w.cell.value := by
  cases e with
  | spawn => exact .inl rfl
  | call n k b =>
    simp only [Methods.step]
    split
    · split
      · exact .inl (value_advance _ _ _ _)
      · exact .inl rfl
    · exact .inl rfl
  | turn n b =>
    simp only [Methods.step]
    split
    · exact .inl (value_advance _ _ _ _)
    · exact .inl rfl
  | exclusive n =>
    simp only [Methods.step]
    split
    · cases h : w.cell.update f with
      | none => exact .inl rfl
      | some c => exact .inr (value_update h)
    · exact .inl rfl

theorem value_exclusive {f : α → α} {w : World α π} {n : ℕ} (hn : M.mayCall w n = true)
    (h : (w.cell.update f).isSome = true) :
    (M.step f w (.exclusive n : Event κ β)).cell.value = f w.cell.value := by
  obtain ⟨c, hc⟩ := Option.isSome_iff_exists.1 h
  simp only [Methods.step, hn, if_true, hc, Option.getD_some]
  exact value_update hc

theorem works_iff {f : α → α} {good I : α → Prop} (hgood : ∀ a, I a → good (f a)) {w : World α π}
    (hw : M.Counted w) (hI : I w.cell.value) (e : Event κ β) : M.Works f good w e ↔ M.Undisturbed w e := by
  cases e with
  | exclusive n =>
    refine imp_congr_right fun hn => ?_
    rw [← exclusive_iff M hw f]
    refine and_iff_left_of_imp fun h => ?_
    rw [value_exclusive M hn h]
    exact hgood _ hI
  | _ => exact Iff.rfl

/-- **Exclusive calls.** They all do their work in exactly the runs in which each meets no call that holds a borrow. -/
theorem along_works_iff {f : α → α} {good I : α → Prop} (hf : ∀ a, I a → I (f a)) (hgood : ∀ a, I a → good (f a))
    {a : α} (ha : I a) (l : List (Event κ β)) :
    Along (M.step f) (M.Works f good) (World.new a) l ↔ Along (M.step f) M.Undisturbed (World.new a) l := by
  refine along_iff (I := fun w => M.Counted w ∧ I w.cell.value) (A := fun _ => True) ?_ ?_ (fun _ _ => trivial)
    ⟨counted_new M a, ha⟩
  · intro w e _ hw _
    refine ⟨counted_step M hw.1 f e, ?_⟩
    rcases value_step M f w e with h | h
    · rw [h]
      exact hw.2
    · rw [h]
      exact hf _ hw.2
  · intro w e _ hw
    exact works_iff M hgood hw.1 hw.2 e

end Lib
