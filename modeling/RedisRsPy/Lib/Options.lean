/-
Options in any order: the part of an argument vector where each keyword, with a value behind it or alone, gives one
option, some options exclude others, and the first word that is no keyword ends the part.

The loop that reads the part refuses an option that one before it excludes. The rule (`options_written`): of options
that were written one after another it gives those very options, if no two exclude each other, and nothing otherwise.
-/
import Mathlib.Data.List.Basic
import RedisRsPy.Lib.Arguments

namespace Lib.Options

open Lib.Arguments

variable {τ κ α β : Type*}

/-- the options of a command -/
structure Grammar (τ κ : Type*) where
  /-- the option that a word announces -/
  optionOf : τ → Option κ
  /-- whether a value follows -/
  valued : κ → Bool
  /-- the second does not go with the first before it -/
  excludes : κ → κ → Bool

/-- an option with its value, if it has one -/
abbrev Given (τ κ : Type*) := κ × Option τ

/-- the options at the front, one after another -/
def options (G : Grammar τ κ) (f : List (Given τ κ) → Reader τ β) (given : List (Given τ κ)) : Reader τ β
  | [] => f given []
  | [w] =>
    match G.optionOf w with
    | none => f given [w]
    | some k => if given.any (G.excludes ·.1 k) || G.valued k then none else f (given ++ [(k, none)]) []
  | w :: v :: rest =>
    match G.optionOf w with
    | none => f given (w :: v :: rest)
    | some k =>
      if given.any (G.excludes ·.1 k) then none
      else if G.valued k then options G f (given ++ [(k, some v)]) rest
      else options G f (given ++ [(k, none)]) (v :: rest)

/-- the end of the vector, with what was made of it -/
def ends (v : Option β) : Reader τ β
  | [] => v
  | _ :: _ => none

/-- no two of them exclude each other -/
def Compatible (G : Grammar τ κ) (keys : List κ) : Prop := keys.Pairwise fun a b => G.excludes a b = false

instance (G : Grammar τ κ) (keys : List κ) : Decidable (Compatible G keys) :=
  inferInstanceAs (Decidable (keys.Pairwise _))

/-! ## Writing options -/

/-- `if let Some(v) = .. { cmd.arg(key).arg(v); }` -/
def optional (k : κ) : Option τ → List (Given τ κ)
  | some v => [(k, some v)]
  | none => []

/-- `if b { cmd.arg(key); }` -/
def marked (k : κ) (b : Bool) : List (Given τ κ) := if b then [(k, none)] else []

/-- the words of an option -/
def words (keyword : κ → τ) (o : Given τ κ) : List τ := keyword o.1 :: o.2.toList

/-- the options that are there -/
def keys (given : List (Given τ κ)) : List κ := given.map Prod.fst

/-- keywords that the grammar knows, and values where it has them -/
def Known (G : Grammar τ κ) (keyword : κ → τ) (given : List (Given τ κ)) : Prop :=
  ∀ o ∈ given, G.optionOf (keyword o.1) = some o.1 ∧ o.2.isSome = G.valued o.1

section Writing

variable {G : Grammar τ κ}

theorem known_append {keyword : κ → τ} {given given' : List (Given τ κ)} (h : Known G keyword given)
    (h' : Known G keyword given') : Known G keyword (given ++ given') :=
  fun o ho => (List.mem_append.1 ho).elim (h o) (h' o)

theorem known_optional {keyword : κ → τ} {k : κ} (hkey : G.optionOf (keyword k) = some k) (hk : G.valued k = true)
    (v : Option τ) : Known G keyword (optional k v) := by
  intro o ho
  cases v with
  | none => cases ho
  | some v =>
    rw [List.mem_singleton.1 ho, hk]
    exact ⟨hkey, rfl⟩

theorem known_marked {keyword : κ → τ} {k : κ} (hkey : G.optionOf (keyword k) = some k) (hk : G.valued k = false)
    (b : Bool) : Known G keyword (marked k b) := by
  intro o ho
  cases b with
  | false => cases ho
  | true =>
    rw [List.mem_singleton.1 ho, hk]
    exact ⟨hkey, rfl⟩

@[simp] theorem keys_append (given given' : List (Given τ κ)) : keys (given ++ given') = keys given ++ keys given' :=
  List.map_append

@[simp] theorem keys_optional (k : κ) (v : Option τ) : keys (optional k v) = if v.isSome then [k] else [] := by
  cases v <;> rfl

@[simp] theorem keys_marked (k : κ) (b : Bool) : keys (marked (τ := τ) k b) = if b then [k] else [] := by
  cases b <;> rfl

end Writing

/-! ## What the loop gives -/

section Loop

variable {G : Grammar τ κ} {f : List (Given τ κ) → Reader τ β}

/-- what follows is no option -/
theorem options_rest (given : List (Given τ κ)) {rest : List τ}
    (hrest : ∀ w, rest.head? = some w → G.optionOf w = none) : options G f given rest = f given rest := by
  match rest with
  | [] => rfl
  | [w] => simp only [options, hrest w rfl]
  | w :: v :: rest => simp only [options, hrest w rfl]

/-- an option alone -/
theorem options_marked {k : κ} {w : τ} (hw : G.optionOf w = some k) (hk : G.valued k = false)
    (given : List (Given τ κ)) (rest : List τ) :
    options G f given (w :: rest) =
      if given.any (G.excludes ·.1 k) then none else options G f (given ++ [(k, none)]) rest := by
  cases rest with
  | nil => simp only [options, hw, hk, Bool.or_false]
  | cons v rest => simp only [options, hw, hk, Bool.false_eq_true, if_false]

/-- an option with its value -/
theorem options_valued {k : κ} {w : τ} (hw : G.optionOf w = some k) (hk : G.valued k = true)
    (given : List (Given τ κ)) (v : τ) (rest : List τ) :
    options G f given (w :: v :: rest) =
      if given.any (G.excludes ·.1 k) then none else options G f (given ++ [(k, some v)]) rest := by
  simp only [options, hw, hk, if_true]

/-- one more option, as it is written -/
theorem options_cons {keyword : κ → τ} {o : Given τ κ} (hkey : G.optionOf (keyword o.1) = some o.1)
    (ho : o.2.isSome = G.valued o.1) (given : List (Given τ κ)) (rest : List τ) :
    options G f given (words keyword o ++ rest) =
      if given.any (G.excludes ·.1 o.1) then none else options G f (given ++ [o]) rest := by
  obtain ⟨k, v⟩ := o
  cases v with
  | none => exact options_marked hkey ho.symm given rest
  | some v => exact options_valued hkey ho.symm given v rest

theorem compatible_snoc {given : List κ} {k : κ} (h : Compatible G given) :
    Compatible G (given ++ [k]) ↔ given.any (G.excludes · k) = false := by
  rw [Compatible, List.pairwise_append, List.any_eq_false]
  constructor
  · intro hall a ha
    simp [hall.2.2 a ha k List.mem_cons_self]
  · intro hnone
    refine ⟨h, List.pairwise_singleton _ _, fun a ha b hb => ?_⟩
    rw [List.mem_singleton.1 hb]
    simpa using hnone a ha

/-- **The loop and what was written.** -/
theorem options_written {keyword : κ → τ} {given os : List (Given τ κ)} (hgiven : Compatible G (keys given))
    (hos : Known G keyword os) {rest : List τ}
    (hrest : ∀ w, rest.head? = some w → G.optionOf w = none) :
    options G f given (os.flatMap (words keyword) ++ rest) =
      if Compatible G (keys (given ++ os)) then f (given ++ os) rest else none := by
  induction os generalizing given with
  | nil =>
    rw [List.append_nil, if_pos hgiven]
    exact options_rest given hrest
  | cons o os ih =>
    have hany : given.any (G.excludes ·.1 o.1) = (keys given).any (G.excludes · o.1) := by
      rw [keys, List.any_map]
      rfl
    have hsplit : given ++ o :: os = given ++ [o] ++ os := by simp
    obtain ⟨hkey, ho⟩ := hos o List.mem_cons_self
    rw [List.flatMap_cons, List.append_assoc, options_cons hkey ho, hany]
    by_cases hex : (keys given).any (G.excludes · o.1) = false
    · have hnext : Compatible G (keys (given ++ [o])) := by
        rw [keys_append]
        exact (compatible_snoc hgiven).2 hex
      rw [hex, if_neg Bool.false_ne_true, ih hnext fun o' ho' => hos o' (List.mem_cons_of_mem o ho'), hsplit]
    · -- a prefix of the keys that fails makes all of them fail
      have hfails : ¬ Compatible G (keys (given ++ o :: os)) := by
        intro hall
        rw [hsplit, keys_append, keys_append] at hall
        exact hex ((compatible_snoc hgiven).1 (List.pairwise_append.1 hall).1)
      rw [if_pos (by simpa using hex), if_neg hfails]

/-- the options in front of words that are none -/
theorem options_front {keyword : κ → τ} {os : List (Given τ κ)} (hos : Known G keyword os) {rest : List τ}
    (hrest : ∀ w, rest.head? = some w → G.optionOf w = none) :
    options G f [] (os.flatMap (words keyword) ++ rest) = if Compatible G (keys os) then f os rest else none :=
  have hnil : Compatible G (keys ([] : List (Given τ κ))) := List.Pairwise.nil
  options_written hnil hos hrest

/-- the options of a whole vector -/
theorem options_ends {keyword : κ → τ} {os : List (Given τ κ)} (hos : Known G keyword os) :
    options G f [] (os.flatMap (words keyword)) = if Compatible G (keys os) then f os [] else none := by
  have hrest : ∀ w, ([] : List τ).head? = some w → G.optionOf w = none := fun w hw => nomatch hw
  have h := options_front (f := f) hos hrest
  rwa [List.append_nil] at h

end Loop

/-! ## The options of a call -/

section Lookup

variable [DecidableEq κ]

/-- whether it is given -/
def has (k : κ) (given : List (Given τ κ)) : Bool := given.any (·.1 = k)

/-- its value -/
def valueOf (k : κ) (given : List (Given τ κ)) : Option τ := (given.find? (·.1 = k)).bind Prod.snd

/-- its value, as what it stands for; an option that is not given has none -/
def valueAs (parse : τ → Option α) (k : κ) (given : List (Given τ κ)) : Option (Option α) :=
  match valueOf k given with
  | none => some none
  | some v => (parse v).map some

@[simp] theorem has_nil (k : κ) : has k ([] : List (Given τ κ)) = false := rfl

@[simp] theorem has_append (k : κ) (given given' : List (Given τ κ)) :
    has k (given ++ given') = (has k given || has k given') := List.any_append

@[simp] theorem has_optional (k k' : κ) (v : Option τ) : has k (optional k' v) = (decide (k' = k) && v.isSome) := by
  cases v <;> simp [has, optional]

@[simp] theorem has_marked (k k' : κ) (b : Bool) : has k (marked (τ := τ) k' b) = (decide (k' = k) && b) := by
  cases b <;> simp [has, marked]

@[simp] theorem valueOf_optional (k k' : κ) (v : Option τ) :
    valueOf k (optional k' v) = if k' = k then v else none := by
  cases v <;> by_cases h : k' = k <;> simp [valueOf, optional, h]

@[simp] theorem valueOf_optional_append (k k' : κ) (v : Option τ) (given : List (Given τ κ)) :
    valueOf k (optional k' v ++ given) = (if k' = k then v else none).or (valueOf k given) := by
  cases v <;> by_cases h : k' = k <;> simp [valueOf, optional, h]

@[simp] theorem valueOf_marked (k k' : κ) (b : Bool) : valueOf (τ := τ) k (marked k' b) = none := by
  cases b <;> by_cases h : k' = k <;> simp [valueOf, marked, h]

@[simp] theorem valueOf_marked_append {k k' : κ} (h : k' ≠ k) (b : Bool) (given : List (Given τ κ)) :
    valueOf k (marked k' b ++ given) = valueOf k given := by
  cases b <;> simp [valueOf, marked, h]

/-- a value that was written is read -/
theorem valueAs_written {parse : τ → Option α} {write : α → τ} (h : ∀ v, parse (write v) = some v) {k : κ}
    {v : Option α} {given : List (Given τ κ)} (hv : valueOf k given = v.map write) :
    valueAs parse k given = some v := by
  rw [valueAs, hv]
  cases v with
  | none => rfl
  | some v => simp [h v]

end Lookup

end Lib.Options
