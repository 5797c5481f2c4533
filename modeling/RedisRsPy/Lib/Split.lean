/-
Splitting a list at a separator: at the first one, at the last one, and at every one (`split_once`, `rsplit_once` and
`split` of `str`, for one character), and at the first place of a longer separator.

Results:
- `splitOnce_iff`, `splitOnce_eq_none_iff`, `rsplitOnce_iff`, `rsplitOnce_eq_none_iff`: the parts, by the separators that
  they do not hold;
- `split_append_cons`, `split_of_not_mem`: the parts of two lists with a separator between them;
- `splitOnceAt_append`, `eq_of_splitOnceAt`: the same for a longer separator.
-/
import Mathlib.Data.List.Basic

namespace Lib.Split

variable {α : Type*} [DecidableEq α]

/-- at the first separator -/
def splitOnce (sep : α) : List α → Option (List α × List α)
  | [] => none
  | x :: l => if x = sep then some ([], l) else (splitOnce sep l).map fun parts => (x :: parts.1, parts.2)

/-- at the last separator -/
def rsplitOnce (sep : α) : List α → Option (List α × List α)
  | [] => none
  | x :: l =>
    match rsplitOnce sep l with
    | some parts => some (x :: parts.1, parts.2)
    | none => if x = sep then some ([], l) else none

/-- at every separator -/
def split (sep : α) : List α → List (List α)
  | [] => [[]]
  | x :: l =>
    if x = sep then [] :: split sep l
    else
      match split sep l with
      | part :: parts => (x :: part) :: parts
      | [] => [[x]]

/-- at the first place where the list goes on with all of the separator -/
def splitOnceAt (sep : List α) : List α → Option (List α × List α)
  | [] => if sep = [] then some ([], []) else none
  | x :: l =>
    if sep.isPrefixOf (x :: l) then some ([], (x :: l).drop sep.length)
    else (splitOnceAt sep l).map fun parts => (x :: parts.1, parts.2)

/-! ## The first separator -/

theorem splitOnce_append {sep : α} {a : List α} (h : sep ∉ a) (b : List α) :
    splitOnce sep (a ++ sep :: b) = some (a, b) := by
  induction a with
  | nil => exact if_pos rfl
  | cons x a ih =>
    have hx : x ≠ sep := fun hx => h (hx ▸ List.mem_cons_self)
    rw [List.cons_append, splitOnce, if_neg hx, ih fun hmem => h (List.mem_cons_of_mem x hmem)]
    rfl

theorem splitOnce_eq_none_iff {sep : α} {l : List α} : splitOnce sep l = none ↔ sep ∉ l := by
  induction l with
  | nil => exact iff_of_true rfl List.not_mem_nil
  | cons x l ih =>
    rw [splitOnce]
    by_cases hx : x = sep
    · rw [if_pos hx]
      exact iff_of_false (by simp) fun h => h (hx ▸ List.mem_cons_self)
    · rw [if_neg hx, Option.map_eq_none_iff, ih, List.mem_cons, not_or]
      exact ⟨fun h => ⟨Ne.symm hx, h⟩, And.right⟩

theorem splitOnce_iff {sep : α} {l a b : List α} : splitOnce sep l = some (a, b) ↔ l = a ++ sep :: b ∧ sep ∉ a := by
  constructor
  · intro h
    induction l generalizing a with
    | nil => cases h
    | cons x l ih =>
      rw [splitOnce] at h
      by_cases hx : x = sep
      · rw [if_pos hx] at h
        cases h
        exact ⟨hx ▸ rfl, List.not_mem_nil⟩
      · rw [if_neg hx] at h
        obtain ⟨⟨a', b'⟩, hparts, hab⟩ := Option.map_eq_some_iff.1 h
        cases hab
        obtain ⟨rfl, ha'⟩ := ih hparts
        refine ⟨rfl, ?_⟩
        rw [List.mem_cons, not_or]
        exact ⟨Ne.symm hx, ha'⟩
  · rintro ⟨rfl, ha⟩
    exact splitOnce_append ha b

/-! ## The last separator -/

theorem rsplitOnce_eq_none_iff {sep : α} {l : List α} : rsplitOnce sep l = none ↔ sep ∉ l := by
  induction l with
  | nil => exact iff_of_true rfl List.not_mem_nil
  | cons x l ih =>
    rw [rsplitOnce, List.mem_cons, not_or]
    cases hl : rsplitOnce sep l with
    | some parts =>
      rw [hl] at ih
      refine iff_of_false (by simp) fun h => ?_
      cases ih.2 h.2
    | none =>
      have hnot := ih.1 hl
      by_cases hx : x = sep
      · exact iff_of_false (by simp [hx]) fun h => h.1 hx.symm
      · exact iff_of_true (if_neg hx) ⟨Ne.symm hx, hnot⟩

theorem rsplitOnce_append {sep : α} (a : List α) {b : List α} (h : sep ∉ b) :
    rsplitOnce sep (a ++ sep :: b) = some (a, b) := by
  induction a with
  | nil =>
    rw [List.nil_append, rsplitOnce, rsplitOnce_eq_none_iff.2 h]
    exact if_pos rfl
  | cons x a ih => rw [List.cons_append, rsplitOnce, ih]

theorem rsplitOnce_iff {sep : α} {l a b : List α} : rsplitOnce sep l = some (a, b) ↔ l = a ++ sep :: b ∧ sep ∉ b := by
  constructor
  · intro h
    induction l generalizing a with
    | nil => cases h
    | cons x l ih =>
      rw [rsplitOnce] at h
      cases hl : rsplitOnce sep l with
      | some parts =>
        rw [hl] at h
        cases h
        obtain ⟨rfl, hb⟩ := ih hl
        exact ⟨rfl, hb⟩
      | none =>
        rw [hl] at h
        by_cases hx : x = sep
        · have h' : some (([] : List α), l) = some (a, b) := (if_pos hx).symm.trans h
          cases h'
          exact ⟨hx ▸ rfl, rsplitOnce_eq_none_iff.1 hl⟩
        · have h' : (none : Option (List α × List α)) = some (a, b) := (if_neg hx).symm.trans h
          cases h'
  · rintro ⟨rfl, hb⟩
    exact rsplitOnce_append a hb

/-! ## Every separator -/

theorem split_ne_nil (sep : α) (l : List α) : split sep l ≠ [] := by
  cases l with
  | nil => exact List.cons_ne_nil _ _
  | cons x l =>
    rw [split]
    split_ifs
    · exact List.cons_ne_nil _ _
    · split
      · exact List.cons_ne_nil _ _
      · exact List.cons_ne_nil _ _

theorem split_append_cons (sep : α) (a b : List α) : split sep (a ++ sep :: b) = split sep a ++ split sep b := by
  induction a with
  | nil => exact if_pos rfl
  | cons x a ih =>
    rw [List.cons_append, split, split, ih]
    split_ifs with hx
    · rfl
    · obtain ⟨part, parts, hparts⟩ := List.exists_cons_of_ne_nil (split_ne_nil sep a)
      rw [hparts]
      rfl

theorem split_of_not_mem {sep : α} {l : List α} (h : sep ∉ l) : split sep l = [l] := by
  induction l with
  | nil => rfl
  | cons x l ih =>
    have hx : x ≠ sep := fun hx => h (hx ▸ List.mem_cons_self)
    rw [split, if_neg hx, ih fun hmem => h (List.mem_cons_of_mem x hmem)]

/-! ## A longer separator -/

theorem eq_of_splitOnceAt {sep l a b : List α} (h : splitOnceAt sep l = some (a, b)) : l = a ++ sep ++ b := by
  induction l generalizing a with
  | nil =>
    rw [splitOnceAt] at h
    split_ifs at h with hsep
    cases h
    rw [hsep]
    rfl
  | cons x l ih =>
    rw [splitOnceAt] at h
    split_ifs at h with hprefix
    · cases h
      obtain ⟨rest, hrest⟩ := List.isPrefixOf_iff_prefix.1 hprefix
      rw [← hrest, List.drop_left, List.nil_append]
    · obtain ⟨⟨a', b'⟩, hparts, hab⟩ := Option.map_eq_some_iff.1 h
      cases hab
      rw [ih hparts]
      rfl

/-- what stands before the separator does not hold its first element -/
theorem splitOnceAt_append {x : α} {sep a : List α} (h : x ∉ a) (b : List α) :
    splitOnceAt (x :: sep) (a ++ (x :: sep) ++ b) = some (a, b) := by
  induction a with
  | nil =>
    have hprefix : (x :: sep).isPrefixOf ((x :: sep) ++ b) = true :=
      List.isPrefixOf_iff_prefix.2 (List.prefix_append _ _)
    rw [List.nil_append, List.cons_append, splitOnceAt, ← List.cons_append, if_pos hprefix, List.drop_left]
  | cons y a ih =>
    have hy : y ≠ x := fun hy => h (hy ▸ List.mem_cons_self)
    have hprefix : ¬ (x :: sep).isPrefixOf (y :: (a ++ (x :: sep) ++ b)) = true := by
      rw [List.isPrefixOf_iff_prefix, List.cons_prefix_cons]
      exact fun hp => hy hp.1.symm
    rw [List.cons_append, List.cons_append, splitOnceAt, if_neg hprefix, ih fun hmem => h (List.mem_cons_of_mem y hmem)]
    rfl

end Lib.Split
