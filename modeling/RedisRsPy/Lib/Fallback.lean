/-
Searching a list of candidates that each make offers, of which some work.

`pick` commits to the first offer of the first candidate that makes one. A search is complete when it finds a working
offer whenever there is one, and then one of the first candidate that has one (`FirstWorking`).

Results:
- `pick_eq_some_iff`: what `pick` commits to;
- `pick_complete_iff`: committing is complete exactly where the offer it commits to works, or none does.
-/
import Mathlib.Data.List.Basic

namespace Lib.Fallback

variable {α β : Type*}

/-- the first offer of the first candidate that makes one -/
def pick (offers : α → List β) (l : List α) : Option β := l.findSome? fun a => (offers a).head?

/-- `b` is a working offer of the first candidate that has one -/
def FirstWorking (offers : α → List β) (works : β → Prop) (l : List α) (b : β) : Prop :=
  ∃ before a after, l = before ++ a :: after ∧ (∀ a' ∈ before, ∀ b' ∈ offers a', ¬ works b') ∧ b ∈ offers a ∧ works b

theorem pick_cons (offers : α → List β) (a : α) (l : List α) :
    pick offers (a :: l) = (offers a).head?.or (pick offers l) := by
  unfold pick
  rw [List.findSome?_cons]
  cases (offers a).head? <;> rfl

theorem pick_eq_some_iff {offers : α → List β} {l : List α} {b : β} :
    pick offers l = some b ↔
      ∃ before a after, l = before ++ a :: after ∧ (offers a).head? = some b ∧ ∀ a' ∈ before, offers a' = [] := by
  unfold pick
  rw [List.findSome?_eq_some_iff]
  simp only [List.head?_eq_none_iff]

/-- an offer that is picked is one of the offers -/
theorem mem_of_pick {offers : α → List β} {l : List α} {b : β} (h : pick offers l = some b) :
    ∃ a ∈ l, b ∈ offers a := by
  obtain ⟨before, a, after, rfl, hhead, -⟩ := pick_eq_some_iff.1 h
  exact ⟨a, by simp, List.mem_of_mem_head? hhead⟩

theorem pick_map {γ : Type*} (offers : α → List β) (f : β → γ) (l : List α) :
    pick (fun a => (offers a).map f) l = (pick offers l).map f := by
  induction l with
  | nil => rfl
  | cons a l ih =>
    rw [pick_cons, pick_cons, ih, List.head?_map]
    cases (offers a).head? <;> rfl

theorem firstWorking_of_pick {offers : α → List β} {works : β → Prop} {l : List α} {b : β}
    (h : pick offers l = some b) (hworks : works b) : FirstWorking offers works l b := by
  obtain ⟨before, a, after, rfl, hhead, hbefore⟩ := pick_eq_some_iff.1 h
  refine ⟨before, a, after, rfl, fun a' ha' b' hb' => ?_, List.mem_of_mem_head? hhead, hworks⟩
  rw [hbefore a' ha'] at hb'
  cases hb'

/-- **Committing to the first offer.** It finds a working offer whenever there is one exactly where the offer it commits to
works, or none does -/
theorem pick_complete_iff {offers : α → List β} {works : β → Prop} {l : List α} :
    ((∃ b, pick offers l = some b ∧ works b) ↔ ∃ a ∈ l, ∃ b ∈ offers a, works b) ↔
      (∀ a ∈ l, ∀ b ∈ offers a, ¬ works b) ∨ ∃ b, pick offers l = some b ∧ works b := by
  constructor
  · intro h
    by_cases hsome : ∃ a ∈ l, ∃ b ∈ offers a, works b
    · exact .inr (h.2 hsome)
    · exact .inl fun a ha b hb hworks => hsome ⟨a, ha, b, hb, hworks⟩
  · intro h
    refine ⟨?_, fun hsome => ?_⟩
    · rintro ⟨b, hpick, hworks⟩
      obtain ⟨a, ha, hb⟩ := mem_of_pick hpick
      exact ⟨a, ha, b, hb, hworks⟩
    · obtain ⟨a, ha, b, hb, hworks⟩ := hsome
      rcases h with hnone | hfound
      · exact absurd hworks (hnone a ha b hb)
      · exact hfound

end Lib.Fallback
