/-
Dictionaries that keep the order in which keys were first set, as lists of entries.

Keys are told apart by a test `same`, which need not be equality: the first key of an entry stays, the last value wins.
`Distinct` says that no two entries have the same key; a list of entries is what setting one entry after the other makes
of it exactly when the list is distinct. The results:
- `distinct_ofList`: what is built has distinct keys;
- `ofList_of_distinct`: distinct entries are kept as they are;
- `forall_ofList`: a property of all keys and a property of all values that were set hold in what is built;
- `ofList_map`: renaming keys so that, of those that are set, the same ones stay the same renames what is built.
`dedupe` is the same for keys alone: what adding one element after the other to a set makes.
-/
import Mathlib.Data.List.Basic

namespace Lib.Dict

variable {κ ν : Type*} (same : κ → κ → Bool)

/-- `d[k] = v` -/
def set (k : κ) (v : ν) : List (κ × ν) → List (κ × ν)
  | [] => [(k, v)]
  | e :: d => if same e.1 k then (e.1, v) :: d else e :: set k v d

def ofList (entries : List (κ × ν)) : List (κ × ν) := entries.foldl (fun d e => set same e.1 e.2 d) []

def Distinct (d : List (κ × ν)) : Prop := d.Pairwise fun a b => same a.1 b.1 = false

variable {same}

/-! ## Distinct keys -/

theorem set_of_new {k : κ} {v : ν} {d : List (κ × ν)} (h : ∀ e ∈ d, same e.1 k = false) :
    set same k v d = d ++ [(k, v)] := by
  induction d with
  | nil => rfl
  | cons e d ih =>
    have he : same e.1 k = false := h e List.mem_cons_self
    rw [set, he, ih fun e' he' => h e' (List.mem_cons_of_mem _ he')]
    rfl

theorem key_of_mem_set {k : κ} {v : ν} {d : List (κ × ν)} {e : κ × ν} (h : e ∈ set same k v d) :
    (∃ e' ∈ d, e'.1 = e.1) ∨ e.1 = k := by
  induction d with
  | nil => exact .inr (by rw [List.mem_singleton.1 h])
  | cons a d ih =>
    rw [set] at h
    split at h
    · rcases List.mem_cons.1 h with rfl | h
      · exact .inl ⟨a, List.mem_cons_self, rfl⟩
      · exact .inl ⟨e, List.mem_cons_of_mem _ h, rfl⟩
    · rcases List.mem_cons.1 h with rfl | h
      · exact .inl ⟨e, List.mem_cons_self, rfl⟩
      · rcases ih h with ⟨e', he', heq⟩ | heq
        · exact .inl ⟨e', List.mem_cons_of_mem _ he', heq⟩
        · exact .inr heq

theorem distinct_set (k : κ) (v : ν) {d : List (κ × ν)} (h : Distinct same d) : Distinct same (set same k v d) := by
  induction d with
  | nil => exact List.pairwise_singleton _ _
  | cons a d ih =>
    obtain ⟨ha, hd⟩ := List.pairwise_cons.1 h
    rw [set]
    split
    · exact List.pairwise_cons.2 ⟨ha, hd⟩
    · rename_i hk
      refine List.pairwise_cons.2 ⟨fun e he => ?_, ih hd⟩
      rcases key_of_mem_set he with ⟨e', he', heq⟩ | heq
      · rw [← heq]
        exact ha e' he'
      · rw [heq]
        exact Bool.eq_false_iff.2 hk

theorem distinct_ofList (entries : List (κ × ν)) : Distinct same (ofList same entries) := by
  suffices h : ∀ d, Distinct same d → Distinct same (entries.foldl (fun d e => set same e.1 e.2 d) d) from
    h [] List.Pairwise.nil
  induction entries with
  | nil => exact fun d hd => hd
  | cons e entries ih => exact fun d hd => ih _ (distinct_set e.1 e.2 hd)

theorem ofList_of_distinct {entries : List (κ × ν)} (h : Distinct same entries) : ofList same entries = entries := by
  suffices hd : ∀ d, Distinct same (d ++ entries) →
      entries.foldl (fun d e => set same e.1 e.2 d) d = d ++ entries from hd [] h
  clear h
  induction entries with
  | nil => exact fun d _ => (List.append_nil d).symm
  | cons e entries ih =>
    intro d hd
    have hnew : ∀ e' ∈ d, same e'.1 e.1 = false := fun e' he' =>
      (List.pairwise_append.1 hd).2.2 e' he' e List.mem_cons_self
    rw [List.foldl_cons, set_of_new hnew, ih _ (by rwa [List.append_assoc]), List.append_assoc]
    rfl

/-! ## Properties of all keys and of all values -/

theorem forall_set {P : κ → Prop} {Q : ν → Prop} {k : κ} {v : ν} (hk : P k) (hv : Q v) {d : List (κ × ν)}
    (h : ∀ e ∈ d, P e.1 ∧ Q e.2) : ∀ e ∈ set same k v d, P e.1 ∧ Q e.2 := by
  induction d with
  | nil =>
    intro e he
    rw [List.mem_singleton.1 he]
    exact ⟨hk, hv⟩
  | cons a d ih =>
    intro e he
    rw [set] at he
    have hd : ∀ e ∈ d, P e.1 ∧ Q e.2 := fun e he => h e (List.mem_cons_of_mem _ he)
    split at he
    · rcases List.mem_cons.1 he with rfl | he
      · exact ⟨(h a List.mem_cons_self).1, hv⟩
      · exact hd e he
    · rcases List.mem_cons.1 he with rfl | he
      · exact h e List.mem_cons_self
      · exact ih hd e he

theorem forall_ofList {P : κ → Prop} {Q : ν → Prop} {entries : List (κ × ν)} (h : ∀ e ∈ entries, P e.1 ∧ Q e.2) :
    ∀ e ∈ ofList same entries, P e.1 ∧ Q e.2 := by
  suffices hd : ∀ d, (∀ e ∈ d, P e.1 ∧ Q e.2) →
      ∀ e ∈ entries.foldl (fun d e => set same e.1 e.2 d) d, P e.1 ∧ Q e.2 from
    hd [] fun e he => absurd he List.not_mem_nil
  induction entries with
  | nil => exact fun d hd => hd
  | cons a entries ih =>
    intro d hd
    obtain ⟨hk, hv⟩ := h a List.mem_cons_self
    exact ih (fun e he => h e (List.mem_cons_of_mem _ he)) _ (forall_set hk hv hd)

/-! ## What stays -/

theorem mem_set_of_mem {k : κ} {v : ν} {d : List (κ × ν)} {e : κ × ν} (he : e ∈ d) (h : same e.1 k = false) :
    e ∈ set same k v d := by
  induction d with
  | nil => exact absurd he List.not_mem_nil
  | cons a d ih =>
    rw [set]
    rcases List.mem_cons.1 he with rfl | he
    · rw [h]
      exact List.mem_cons_self
    · split
      · exact List.mem_cons_of_mem _ he
      · exact List.mem_cons_of_mem _ (ih he)

/-- an entry stays where its key is set neither before nor after -/
theorem mem_ofList {before after : List (κ × ν)} {e : κ × ν} (hbefore : ∀ e' ∈ before, same e'.1 e.1 = false)
    (hafter : ∀ e' ∈ after, same e.1 e'.1 = false) : e ∈ ofList same (before ++ e :: after) := by
  have hnew : ∀ e' ∈ ofList same before, same e'.1 e.1 = false := by
    have hpairs : ∀ e' ∈ before, same e'.1 e.1 = false ∧ True := fun e' he' => ⟨hbefore e' he', trivial⟩
    intro e' he'
    exact (forall_ofList (P := fun k => same k e.1 = false) (Q := fun _ => True) hpairs e' he').1
  have hset : e ∈ set same e.1 e.2 (ofList same before) := by
    rw [set_of_new hnew]
    exact List.mem_append_right _ List.mem_cons_self
  rw [ofList, List.foldl_append, List.foldl_cons]
  change e ∈ after.foldl (fun d e => set same e.1 e.2 d) (set same e.1 e.2 (ofList same before))
  generalize set same e.1 e.2 (ofList same before) = d at hset
  induction after generalizing d with
  | nil => exact hset
  | cons a after ih =>
    exact ih (fun e' he' => hafter e' (List.mem_cons_of_mem a he')) _
      (mem_set_of_mem hset (hafter a List.mem_cons_self))

/-! ## Renamed keys -/

section Map

variable {κ' ν' : Type*} {same' : κ' → κ' → Bool} {f : κ → κ'} {g : ν → ν'}

variable {P : κ → Prop} (h : ∀ a b, P a → P b → same' (f a) (f b) = same a b)

include h

theorem set_map {k : κ} (hk : P k) (v : ν) {d : List (κ × ν)} (hd : ∀ e ∈ d, P e.1) :
    set same' (f k) (g v) (d.map (Prod.map f g)) = (set same k v d).map (Prod.map f g) := by
  induction d with
  | nil => rfl
  | cons e d ih =>
    have he : same' (Prod.map f g e).1 (f k) = same e.1 k := h e.1 k (hd e List.mem_cons_self) hk
    rw [List.map_cons, set, set, he, ih fun e' he' => hd e' (List.mem_cons_of_mem e he')]
    split
    · rfl
    · rfl

theorem ofList_map {entries : List (κ × ν)} (hentries : ∀ e ∈ entries, P e.1) :
    ofList same' (entries.map (Prod.map f g)) = (ofList same entries).map (Prod.map f g) := by
  suffices hall : ∀ d : List (κ × ν), (∀ e ∈ d, P e.1) →
      (entries.map (Prod.map f g)).foldl (fun d e => set same' e.1 e.2 d) (d.map (Prod.map f g)) =
        (entries.foldl (fun d e => set same e.1 e.2 d) d).map (Prod.map f g) from
    hall [] fun e he => absurd he List.not_mem_nil
  induction entries with
  | nil => exact fun d _ => rfl
  | cons e entries ih =>
    intro d hd
    have hk : P e.1 := hentries e List.mem_cons_self
    have hset : ∀ e' ∈ set same e.1 e.2 d, P e'.1 := fun e' he' =>
      (forall_set (Q := fun _ => True) hk trivial (fun a ha => ⟨hd a ha, trivial⟩) e' he').1
    rw [List.map_cons, List.foldl_cons, List.foldl_cons, ← ih (fun e' he' => hentries e' (List.mem_cons_of_mem e he')) _ hset]
    exact congrArg (fun d => (entries.map (Prod.map f g)).foldl (fun d e => set same' e.1 e.2 d) d) (set_map h hk e.2 hd)

end Map

/-! ## Elements -/

variable (same) in
/-- what adding one element after the other to a set makes -/
def dedupe (items : List κ) : List κ := (ofList same (items.map fun x => (x, ()))).map Prod.fst

theorem dedupe_map {κ' : Type*} {same' : κ' → κ' → Bool} {f : κ → κ'} (h : ∀ a b, same' (f a) (f b) = same a b)
    (items : List κ) : dedupe same' (items.map f) = (dedupe same items).map f := by
  have hpairs : (items.map f).map (fun x => (x, ())) = (items.map fun x => (x, ())).map (Prod.map f id) := by
    rw [List.map_map, List.map_map]
    rfl
  rw [dedupe, dedupe, hpairs, ofList_map (P := fun _ => True) (fun a b _ _ => h a b) fun _ _ => trivial, List.map_map,
    List.map_map]
  rfl

theorem distinct_dedupe (items : List κ) : (dedupe same items).Pairwise fun a b => same a b = false :=
  List.pairwise_map.2 (distinct_ofList _)

theorem dedupe_of_distinct {items : List κ} (h : items.Pairwise fun a b => same a b = false) :
    dedupe same items = items := by
  have hd : Distinct same (items.map fun x => (x, ())) := List.pairwise_map.2 h
  rw [dedupe, ofList_of_distinct hd, List.map_map]
  exact List.map_id items

theorem forall_dedupe {P : κ → Prop} {items : List κ} (h : ∀ x ∈ items, P x) : ∀ x ∈ dedupe same items, P x := by
  intro x hx
  obtain ⟨e, he, rfl⟩ := List.mem_map.1 hx
  refine (forall_ofList (P := P) (Q := fun _ => True) ?_ e he).1
  intro e' he'
  obtain ⟨x', hx', rfl⟩ := List.mem_map.1 he'
  exact ⟨h x' hx', trivial⟩

end Lib.Dict
