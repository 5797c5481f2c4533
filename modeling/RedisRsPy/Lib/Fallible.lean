/-
Computations that may fail (`Except`), read back from their success: a bind, a renamed error, and a loop over a list.
-/
import Mathlib.Data.List.Basic

namespace Lib.Fallible

variable {ε δ α β : Type*}

/-- a bind succeeds where both of its computations do -/
theorem bind_ok_iff {ε α β : Type} {x : Except ε α} {f : α → Except ε β} {b : β} :
    x >>= f = .ok b ↔ ∃ a, x = .ok a ∧ f a = .ok b := by
  cases x with
  | ok a => simp [bind, Except.bind]
  | error e => simp [bind, Except.bind]

theorem map_ok_iff {ε α β : Type} {x : Except ε α} {f : α → β} {b : β} : x.map f = .ok b ↔ ∃ a, x = .ok a ∧ f a = b := by
  cases x with
  | error e => simp [Except.map]
  | ok a => simp [Except.map]

theorem mapError_ok_iff {r : Except ε α} {f : ε → δ} {a : α} : r.mapError f = .ok a ↔ r = .ok a := by
  cases r <;> simp [Except.mapError]

/-- the results of a loop are those of its items -/
theorem mem_of_mapM {ε α β : Type} {f : α → Except ε β} {l : List α} {l' : List β} (h : l.mapM f = .ok l') {b : β} :
    b ∈ l' ↔ ∃ a ∈ l, f a = .ok b := by
  induction l generalizing l' with
  | nil =>
    cases h
    simp
  | cons a l ih =>
    rw [List.mapM_cons] at h
    obtain ⟨b', hb', h⟩ := bind_ok_iff.1 h
    obtain ⟨bs, hbs, hl⟩ := bind_ok_iff.1 h
    cases hl
    simp [ih hbs, hb', eq_comm]

/-- a loop that fails on no item -/
theorem mapM_map_ok {ε α β γ : Type} {f : β → Except ε γ} {g : α → β} {h : α → γ} {l : List α}
    (hf : ∀ a ∈ l, f (g a) = .ok (h a)) : (l.map g).mapM f = .ok (l.map h) := by
  induction l with
  | nil => rfl
  | cons a rest ih =>
    rw [List.map_cons, List.mapM_cons, hf a List.mem_cons_self, ih fun b hb => hf b (List.mem_cons_of_mem a hb)]
    rfl

/-- a loop that fails on some item -/
theorem mapM_error_of_mem {ε α β : Type} {f : α → Except ε β} {l : List α} {a : α} (ha : a ∈ l) {e : ε}
    (he : f a = .error e) : ∃ e', l.mapM f = .error e' := by
  induction l with
  | nil => cases ha
  | cons b rest ih =>
    rw [List.mapM_cons]
    cases hb : f b with
    | error e' => exact ⟨e', rfl⟩
    | ok y =>
      rcases List.mem_cons.1 ha with rfl | hrest
      · cases hb.symm.trans he
      · obtain ⟨e', he'⟩ := ih hrest
        rw [he']
        exact ⟨e', rfl⟩

end Lib.Fallible
