/-
Items that pass through a pair of hands, in order.

A PASSAGE is the items that entered it, those held on the way, and those that left it. It is INTACT when what left and
what is held make up what entered: nothing is lost, doubled or reordered. A MOVE lets an item in, hands the first one on,
or loses some; `K` says that it loses none.
- `Move.intact_iff`: a passage is intact after a move exactly where it was intact before and the move loses nothing;
- `Shift.intact_iff`: so is a family of passages of which one moves.
-/
import Mathlib.Data.List.Basic

namespace Lib

variable {α ι : Type*}

structure Passage (α : Type*) where
  entered : List α
  held : List α
  left : List α

namespace Passage

def Intact (p : Passage α) : Prop := p.left ++ p.held = p.entered

instance [DecidableEq α] (p : Passage α) : Decidable p.Intact := inferInstanceAs (Decidable (_ = _))

/-- no more is held and has left than entered -/
def Bounded (p : Passage α) : Prop := p.left.length + p.held.length ≤ p.entered.length

inductive Move (K : Prop) (p : Passage α) : Passage α → Prop where
  | quiet (hk : K) : Move K p p
  | enter (a : α) (hk : K) : Move K p { p with entered := p.entered ++ [a], held := p.held ++ [a] }
  /-- an item is let in and lost at once -/
  | miss (a : α) (hk : ¬ K) : Move K p { p with entered := p.entered ++ [a] }
  | leave (a : α) (rest : List α) (hk : K) (hheld : p.held = a :: rest) :
      Move K p { p with held := rest, left := p.left ++ [a] }
  | lose (hk : ¬ K) (hheld : p.held ≠ []) : Move K p { p with held := [] }

variable {K : Prop} {p q : Passage α}

theorem Move.bounded (h : Move K p q) (hb : p.Bounded) : q.Bounded := by
  unfold Bounded at *
  cases h with
  | quiet hk => exact hb
  | enter a hk =>
    simp only [List.length_append, List.length_singleton]
    omega
  | miss a hk =>
    simp only [List.length_append, List.length_singleton]
    omega
  | leave a rest hk hheld =>
    rw [hheld, List.length_cons] at hb
    simp only [List.length_append, List.length_singleton]
    omega
  | lose hk hheld => exact Nat.le_trans (Nat.le_add_right _ _) hb

/-- **One move.** The bound keeps what was lost from being made good by what was let in before. -/
theorem Move.intact_iff (h : Move K p q) (hb : p.Bounded) : q.Intact ↔ p.Intact ∧ K := by
  unfold Bounded at hb
  unfold Intact
  cases h with
  | quiet hk => exact (and_iff_left hk).symm
  | enter a hk =>
    rw [and_iff_left hk, ← List.append_assoc]
    exact List.append_left_inj [a]
  | miss a hk =>
    refine iff_of_false (fun heq => ?_) fun hboth => hk hboth.2
    have hlen := congrArg List.length heq
    simp only [List.length_append, List.length_singleton] at hlen
    omega
  | leave a rest hk hheld =>
    rw [and_iff_left hk, hheld, List.append_assoc]
    exact Iff.rfl
  | lose hk hheld =>
    refine iff_of_false (fun heq => ?_) fun hboth => hk hboth.2
    have hlen := congrArg List.length heq
    have hpos := List.length_pos_iff.2 hheld
    simp only [List.append_nil] at hlen
    omega

/-- a move where nothing is held, before and after, is one where anything is -/
theorem Move.frame {entered entered' left left' : List α} (h : Move K ⟨entered, [], left⟩ ⟨entered', [], left'⟩)
    (held : List α) : Move K ⟨entered, held, left⟩ ⟨entered', held, left'⟩ := by
  generalize hp : (⟨entered, [], left⟩ : Passage α) = p at h
  generalize hq : (⟨entered', [], left'⟩ : Passage α) = q at h
  subst hp
  cases h with
  | quiet hk =>
    cases hq
    exact .quiet hk
  | enter a hk => exact absurd (congrArg Passage.held hq) (by simp)
  | miss a hk =>
    cases hq
    exact .miss a hk
  | leave a rest hk hheld => cases hheld
  | lose hk hheld => exact absurd rfl hheld

/-- at most one passage of the family moves -/
inductive Shift (K : Prop) (f g : ι → Passage α) : Prop where
  | quiet (hk : K) (h : ∀ i, g i = f i)
  | move (i : ι) (h : Move K (f i) (g i)) (hother : ∀ j, j ≠ i → g j = f j)

variable {f g : ι → Passage α}

theorem Shift.bounded (h : Shift K f g) (hb : ∀ i, (f i).Bounded) (i : ι) : (g i).Bounded := by
  cases h with
  | quiet hk h =>
    rw [h i]
    exact hb i
  | move j hmove hother =>
    by_cases hi : i = j
    · subst hi
      exact hmove.bounded (hb i)
    · rw [hother i hi]
      exact hb i

/-- **One move in a family.** -/
theorem Shift.intact_iff (h : Shift K f g) (hb : ∀ i, (f i).Bounded) :
    (∀ i, (g i).Intact) ↔ (∀ i, (f i).Intact) ∧ K := by
  cases h with
  | quiet hk h => simp only [h, hk, and_true]
  | move j hmove hother =>
    have hiff := hmove.intact_iff (hb j)
    constructor
    · intro hg
      obtain ⟨hfj, hk⟩ := hiff.1 (hg j)
      refine ⟨fun i => ?_, hk⟩
      by_cases hi : i = j
      · rw [hi]
        exact hfj
      · rw [← hother i hi]
        exact hg i
    · rintro ⟨hf, hk⟩ i
      by_cases hi : i = j
      · rw [hi]
        exact hiff.2 ⟨hf j, hk⟩
      · rw [hother i hi]
        exact hf i

end Passage

end Lib
