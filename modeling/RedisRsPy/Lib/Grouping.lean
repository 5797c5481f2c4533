/-
Grouping a list by a key, as a map of lists filled in one pass: each element is pushed onto the entry of its key.

The map is a list of entries in the order their keys were first met; a map without an order (a hash table) iterates over
some permutation of it, so the results are about every permutation of `groupBy`:
- `group_eq`: the group of a key is its elements, in order;
- `nodup_keys`, `mem_keys`: one entry for each key that occurs;
- `flatMap_perm`: the groups together are the list, rearranged;
- `foldl_groups`: where elements of different groups act independently, acting group by group is acting in list order.
-/
import Mathlib.Data.List.Induction
import Mathlib.Data.List.Perm.Basic
import Mathlib.Data.List.Nodup

namespace Lib

variable {α κ : Type*} [DecidableEq κ]

/-- `map.entry(k).or_default().push(x)` -/
def entryPush (k : κ) (x : α) : List (κ × List α) → List (κ × List α)
  | [] => [(k, [x])]
  | e :: m => if e.1 = k then (e.1, e.2 ++ [x]) :: m else e :: entryPush k x m

def groupBy (f : α → κ) (l : List α) : List (κ × List α) := l.foldl (fun m x => entryPush (f x) x m) []

theorem groupBy_snoc (f : α → κ) (l : List α) (x : α) :
    groupBy f (l ++ [x]) = entryPush (f x) x (groupBy f l) := by
  simp [groupBy]

/-! ## Keys -/

theorem keys_entryPush (k : κ) (x : α) (m : List (κ × List α)) :
    (entryPush k x m).map Prod.fst = if k ∈ m.map Prod.fst then m.map Prod.fst else m.map Prod.fst ++ [k] := by
  induction m with
  | nil => simp [entryPush]
  | cons e m ih =>
    by_cases he : e.1 = k
    · simp [entryPush, he]
    · have hk : ¬ k = e.1 := fun h => he h.symm
      rw [entryPush, if_neg he, List.map_cons, ih, List.map_cons]
      by_cases hm : k ∈ m.map Prod.fst
      · rw [if_pos hm, if_pos (List.mem_cons_of_mem _ hm)]
      · rw [if_neg hm, if_neg (by simpa [hk] using hm), List.cons_append]

theorem nodup_keys (f : α → κ) (l : List α) : ((groupBy f l).map Prod.fst).Nodup := by
  induction l using List.reverseRecOn with
  | nil => simp [groupBy]
  | append_singleton l x ih =>
    rw [groupBy_snoc, keys_entryPush]
    split_ifs with h
    · exact ih
    · exact List.nodup_append.2 ⟨ih, List.nodup_singleton _, fun a ha b hb hab => h (by simp_all)⟩

theorem mem_keys (f : α → κ) (l : List α) (k : κ) : k ∈ (groupBy f l).map Prod.fst ↔ ∃ x ∈ l, f x = k := by
  induction l using List.reverseRecOn with
  | nil => simp [groupBy]
  | append_singleton l x ih =>
    have hsnoc : (∃ y ∈ l ++ [x], f y = k) ↔ (∃ y ∈ l, f y = k) ∨ f x = k := by simp [or_and_right, exists_or]
    rw [groupBy_snoc, keys_entryPush, hsnoc, ← ih]
    split_ifs with h
    · constructor
      · exact Or.inl
      · rintro (hk | rfl)
        · exact hk
        · exact h
    · rw [List.mem_append, List.mem_singleton, eq_comm]

/-! ## Groups -/

/-- where an entry of the map comes from after a push -/
theorem mem_entryPush {k : κ} {x : α} {e : κ × List α} {m : List (κ × List α)} (hm : (m.map Prod.fst).Nodup)
    (he : e ∈ entryPush k x m) :
    (e ∈ m ∧ e.1 ≠ k) ∨ (∃ e₀ ∈ m, e₀.1 = k ∧ e = (k, e₀.2 ++ [x])) ∨ (k ∉ m.map Prod.fst ∧ e = (k, [x])) := by
  induction m with
  | nil =>
    rw [entryPush, List.mem_singleton] at he
    exact Or.inr (Or.inr ⟨by simp, he⟩)
  | cons a m ih =>
    obtain ⟨ha, hm'⟩ := List.nodup_cons.1 hm
    rw [entryPush] at he
    split_ifs at he with hak
    · rcases List.mem_cons.1 he with rfl | he
      · exact Or.inr (Or.inl ⟨a, List.mem_cons_self, hak, by rw [hak]⟩)
      · refine Or.inl ⟨List.mem_cons_of_mem _ he, fun hek => ha ?_⟩
        rw [hak, ← hek]
        exact List.mem_map_of_mem he
    · rcases List.mem_cons.1 he with rfl | he
      · exact Or.inl ⟨List.mem_cons_self, hak⟩
      · rcases ih hm' he with ⟨h, hk⟩ | ⟨e₀, h, hk⟩ | ⟨hk, h⟩
        · exact Or.inl ⟨List.mem_cons_of_mem _ h, hk⟩
        · exact Or.inr (Or.inl ⟨e₀, List.mem_cons_of_mem _ h, hk⟩)
        · refine Or.inr (Or.inr ⟨?_, h⟩)
          rw [List.map_cons, List.mem_cons, not_or]
          exact ⟨fun hka => hak hka.symm, hk⟩

/-- **The group of a key is its elements, in order.** -/
theorem group_eq (f : α → κ) (l : List α) {e : κ × List α} (he : e ∈ groupBy f l) :
    e.2 = l.filter fun x => f x = e.1 := by
  induction l using List.reverseRecOn generalizing e with
  | nil => simp [groupBy] at he
  | append_singleton l x ih =>
    rw [groupBy_snoc] at he
    rw [List.filter_append]
    rcases mem_entryPush (nodup_keys f l) he with ⟨h, hk⟩ | ⟨e₀, h, hk, rfl⟩ | ⟨hk, rfl⟩
    · have hx : ¬ f x = e.1 := fun hx => hk hx.symm
      rw [ih h]
      simp [hx]
    · rw [ih h, hk]
      simp
    · have hnone : l.filter (fun y => f y = f x) = [] := by
        rw [List.filter_eq_nil_iff]
        intro y hy hyx
        exact hk ((mem_keys f l (f x)).2 ⟨y, hy, by simpa using hyx⟩)
      simp [hnone]

theorem flatMap_entryPush (k : κ) (x : α) (m : List (κ × List α)) :
    ((entryPush k x m).flatMap Prod.snd).Perm (m.flatMap Prod.snd ++ [x]) := by
  induction m with
  | nil => exact List.Perm.refl _
  | cons e m ih =>
    rw [entryPush]
    split_ifs with he
    · rw [List.flatMap_cons, List.flatMap_cons, List.append_assoc, List.append_assoc]
      exact List.perm_append_comm.append_left e.2
    · rw [List.flatMap_cons, List.flatMap_cons, List.append_assoc]
      exact ih.append_left e.2

/-! ## Any iteration order -/

section Order

variable {f : α → κ} {l : List α} {groups : List (κ × List α)}

/-- **Partition.** The groups together are the list, rearranged. -/
theorem flatMap_perm (h : groups.Perm (groupBy f l)) : (groups.flatMap Prod.snd).Perm l := by
  refine (h.flatMap_right Prod.snd).trans ?_
  clear h
  induction l using List.reverseRecOn with
  | nil => exact List.Perm.refl _
  | append_singleton l x ih =>
    rw [groupBy_snoc]
    exact (flatMap_entryPush (f x) x _).trans (ih.append_right [x])

theorem ne_nil_of_mem {e : κ × List α} (he : e ∈ groupBy f l) : e.2 ≠ [] := by
  obtain ⟨x, hx, hxe⟩ := (mem_keys f l e.1).1 (List.mem_map_of_mem he)
  have hmem : x ∈ e.2 := by
    rw [group_eq f l he]
    exact List.mem_filter.2 ⟨hx, by simpa using hxe⟩
  exact List.ne_nil_of_mem hmem

/-- **Same group.** Two elements of the list are in one group iff their keys are equal. -/
theorem same_group_iff (h : groups.Perm (groupBy f l)) {x y : α} (hx : x ∈ l) (hy : y ∈ l) :
    (∃ e ∈ groups, x ∈ e.2 ∧ y ∈ e.2) ↔ f x = f y := by
  constructor
  · rintro ⟨e, he, hxe, hye⟩
    have hgroup := group_eq f l (h.mem_iff.1 he)
    rw [hgroup] at hxe hye
    have hfx : f x = e.1 := by simpa using (List.mem_filter.1 hxe).2
    have hfy : f y = e.1 := by simpa using (List.mem_filter.1 hye).2
    rw [hfx, hfy]
  · intro hxy
    have hkey : f x ∈ groups.map Prod.fst := by
      rw [(h.map Prod.fst).mem_iff, mem_keys]
      exact ⟨x, hx, rfl⟩
    obtain ⟨e, he, hek⟩ := List.mem_map.1 hkey
    have hgroup := group_eq f l (h.mem_iff.1 he)
    refine ⟨e, he, ?_, ?_⟩
    · rw [hgroup]
      exact List.mem_filter.2 ⟨hx, by simp [hek]⟩
    · rw [hgroup]
      exact List.mem_filter.2 ⟨hy, by simp [hek, hxy]⟩

end Order

/-! ## Actions -/

section Actions

variable {β : Type*} {act : β → α → β} {f : α → κ} {l : List α} {groups : List (κ × List α)}

/-- elements with different keys act in either order -/
def Independent (act : β → α → β) (f : α → κ) : Prop :=
  ∀ x y, f x ≠ f y → ∀ b, act (act b x) y = act (act b y) x

omit [DecidableEq κ] in
theorem foldl_past (h : Independent act f) {x : α} {m : List α} (hm : ∀ y ∈ m, f x ≠ f y) (b : β) :
    m.foldl act (act b x) = act (m.foldl act b) x := by
  induction m generalizing b with
  | nil => rfl
  | cons y m ih =>
    rw [List.foldl_cons, List.foldl_cons, h x y (hm y List.mem_cons_self)]
    exact ih (fun z hz => hm z (List.mem_cons_of_mem _ hz)) _

omit [DecidableEq κ] in
theorem foldl_swap (h : Independent act f) {m n : List α} (hmn : ∀ x ∈ m, ∀ y ∈ n, f x ≠ f y) (b : β) :
    n.foldl act (m.foldl act b) = m.foldl act (n.foldl act b) := by
  induction m generalizing b with
  | nil => rfl
  | cons x m ih =>
    rw [List.foldl_cons, List.foldl_cons, ih (fun z hz => hmn z (List.mem_cons_of_mem _ hz)),
      foldl_past h (hmn x List.mem_cons_self)]

/-- pushing an element onto its group acts after all groups -/
theorem foldl_entryPush (h : Independent act f) {m : List (κ × List α)} (hm : (m.map Prod.fst).Nodup)
    (hkey : ∀ e ∈ m, ∀ y ∈ e.2, f y = e.1) (x : α) (b : β) :
    ((entryPush (f x) x m).flatMap Prod.snd).foldl act b = act ((m.flatMap Prod.snd).foldl act b) x := by
  induction m generalizing b with
  | nil => rfl
  | cons e m ih =>
    obtain ⟨he, hm⟩ := List.nodup_cons.1 hm
    rw [entryPush]
    split_ifs with hx
    · -- the entry of `x`: the entries after it have other keys
      have hpast : ∀ y ∈ m.flatMap Prod.snd, f x ≠ f y := by
        intro y hy hxy
        obtain ⟨e', he', hye'⟩ := List.mem_flatMap.1 hy
        refine he ?_
        rw [hx, hxy, hkey e' (List.mem_cons_of_mem _ he') y hye']
        exact List.mem_map_of_mem he'
      simp only [List.flatMap_cons, List.foldl_append, List.foldl_cons, List.foldl_nil]
      exact foldl_past h hpast _
    · simp only [List.flatMap_cons, List.foldl_append]
      exact ih hm (fun e' he' => hkey e' (List.mem_cons_of_mem _ he')) _

/-- the key of a group is the key of its elements -/
theorem key_of_mem {e : κ × List α} (he : e ∈ groupBy f l) {y : α} (hy : y ∈ e.2) : f y = e.1 := by
  rw [group_eq f l he] at hy
  simpa using (List.mem_filter.1 hy).2

/-- **Grouping changes nothing** for elements that are independent across groups: acting group by group, in any order of
the groups, is acting in the order of the list. -/
theorem foldl_groups (h : Independent act f) (hg : groups.Perm (groupBy f l)) (b : β) :
    (groups.flatMap Prod.snd).foldl act b = l.foldl act b := by
  have horder : (groups.flatMap Prod.snd).foldl act b = ((groupBy f l).flatMap Prod.snd).foldl act b := by
    rw [List.foldl_flatMap, List.foldl_flatMap]
    refine hg.foldl_eq' (fun e he e' he' c => ?_) b
    by_cases hee : e = e'
    · rw [hee]
    · refine foldl_swap h (fun x hx y hy hxy => hee ?_) c
      rw [key_of_mem (hg.mem_iff.1 he) hx, key_of_mem (hg.mem_iff.1 he') hy] at hxy
      exact List.inj_on_of_nodup_map (nodup_keys f l) (hg.mem_iff.1 he) (hg.mem_iff.1 he') hxy
  rw [horder]
  clear horder hg
  induction l using List.reverseRecOn generalizing b with
  | nil => rfl
  | append_singleton l x ih =>
    rw [groupBy_snoc, foldl_entryPush h (nodup_keys f l) (fun e he y hy => key_of_mem he hy), ih, List.foldl_append]
    rfl

end Actions

end Lib
