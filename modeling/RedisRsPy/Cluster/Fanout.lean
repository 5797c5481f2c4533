/-
Fan-out of multi-key commands over the slots of a cluster (`facade/cluster.rs`): `fanout_mget`, `fanout_mset`,
`fanout_del` and `fanout_exists`.

Each spawns one task for each slot and joins the tasks as they finish. Three orders are open: the iteration order of the
hash map of groups, the order in which the servers take the commands, and the order in which the tasks are joined.
`Fanned` is any choice of the three. What a server answers to one command is a parameter (`dispatch_cmd!` at the type of
the reply).

Results:
- `fanout_mget_pointwise`: `fanout_mget` is GET, key by key, every index of the result being written once;
- `fanout_single_node`: `fanout_del`, `fanout_exists` and `fanout_mset` have the result and leave the store of the same
  command run once, on one store, over the whole list.

Premises: the command of each group succeeds (and MGET does not change the store).
-/
import Mathlib.Data.Finset.Card
import Mathlib.Algebra.BigOperators.Group.List.Basic
import Mathlib.Tactic.Push
import RedisRsPy.Cluster.Slot

namespace RedisRsPy.Cluster

open Lib
open scoped List

/-! ## Tasks -/

/-- what `join_next` yields for a task: what it returned, or that it panicked or was cancelled -/
abbrev Joined (ρ : Type) := Except String (RedisResult ρ)

/-- `joined.map_err(..).and_then(|r| r)?` -/
def unjoin {ρ : Type} : Joined ρ → RedisResult ρ
  | .error e => .error (RedisError.fromParts .io "fanout join" e)
  | .ok r => r

/-- the tasks in the order in which their commands are executed -/
def serve {τ ρ ω : Type} (task : τ → ω → ρ × ω) : List τ → ω → List ρ × ω
  | [], w => ([], w)
  | t :: ts, w =>
    let o := task t w
    let os := serve task ts o.2
    (o.1 :: os.1, os.2)

/-- a fan-out over a hash map of groups: spawned in some order, executed in some order, joined in some order -/
def Fanned {τ ρ ω : Type} (task : τ → ω → RedisResult ρ × ω) (groups : List τ) (w : ω) (joined : List (Joined ρ))
    (w' : ω) : Prop :=
  ∃ spawned served, spawned.Perm groups ∧ served.Perm spawned ∧
    joined.Perm ((serve task served w).1.map Except.ok) ∧ (serve task served w).2 = w'

/-! ## The code -/

section Code

variable {ω : Type}

/-- a task of `fanout_mget`: it keeps the indices of its keys -/
def mgetTask (dispatch : String → List Bytes → ω → RedisResult (List (Option Bytes)) × ω)
    (group : UInt16 × List (ℕ × String)) (w : ω) : RedisResult (List ℕ × List (Option Bytes)) × ω :=
  let indices := group.2.map Prod.fst
  let slotKeys := group.2.map Prod.snd
  let o := dispatch "MGET" (slotKeys.map asBytes) w
  (o.1.map fun result => (indices, result), o.2)

/-- `out`, with the indices written so far -/
structure Out where
  values : List (Option Bytes)
  written : List ℕ
deriving DecidableEq, Repr

/-- `out[i] = v`; out of bounds it panics -/
def Out.write (out : Out) (e : ℕ × Option Bytes) : Option Out :=
  if e.1 < out.values.length then some ⟨out.values.set e.1 e.2, out.written ++ [e.1]⟩ else none

/-- the join loop of `fanout_mget`; `none` is a panic -/
def joinMget : List (Joined (List ℕ × List (Option Bytes))) → Out → Option (RedisResult Out)
  | [], out => some (.ok out)
  | j :: js, out =>
    match unjoin j with
    | .error e => some (.error e)
    | .ok (indices, values) =>
      match (indices.zip values).foldlM Out.write out with
      | none => none
      | some out' => joinMget js out'

def fanoutMget (keys : List String) (joined : List (Joined (List ℕ × List (Option Bytes)))) :
    Option (RedisResult Out) :=
  if keys = [] then some (.ok ⟨[], []⟩) else joinMget joined ⟨List.replicate keys.length none, []⟩

/-- a task of `fanout_mset` -/
def msetTask (dispatch : String → List Bytes → ω → RedisResult Unit × ω) (group : UInt16 × List (String × Bytes))
    (w : ω) : RedisResult Unit × ω :=
  dispatch "MSET" (group.2.flatMap fun e => [asBytes e.1, e.2]) w

def joinMset : List (Joined Unit) → RedisResult Unit
  | [] => .ok ()
  | j :: js =>
    match unjoin j with
    | .error e => .error e
    | .ok () => joinMset js

def fanoutMset (pairs : List (String × Bytes)) (joined : List (Joined Unit)) : RedisResult Unit :=
  if pairs = [] then .ok () else joinMset joined

/-- a task that sends the keys of its group and returns a count -/
def countTask (dispatch : String → List Bytes → ω → RedisResult ℤ × ω) (name : String)
    (group : UInt16 × List (ℕ × String)) (w : ω) : RedisResult ℤ × ω :=
  dispatch name (group.2.map fun e => asBytes e.2) w

/-- the join loop of `fanout_del` and `fanout_exists` -/
def joinCounts : List (Joined ℤ) → ℤ → RedisResult ℤ
  | [], total => .ok total
  | j :: js, total =>
    match unjoin j with
    | .error e => .error e
    | .ok n => joinCounts js (total + n)

/-- `cmd_name` of `fanout_del` -/
def delName (unlink : Bool) : String := if unlink then "UNLINK" else "DEL"

def delTask (dispatch : String → List Bytes → ω → RedisResult ℤ × ω) (unlink : Bool) :
    UInt16 × List (ℕ × String) → ω → RedisResult ℤ × ω :=
  countTask dispatch (delName unlink)

def fanoutDel (keys : List String) (joined : List (Joined ℤ)) : RedisResult ℤ :=
  if keys = [] then .ok 0 else joinCounts joined 0

def existsTask (dispatch : String → List Bytes → ω → RedisResult ℤ × ω) :
    UInt16 × List (ℕ × String) → ω → RedisResult ℤ × ω :=
  countTask dispatch "EXISTS"

def fanoutExists (keys : List String) (joined : List (Joined ℤ)) : RedisResult ℤ :=
  if keys = [] then .ok 0 else joinCounts joined 0

end Code

/-! ## One node -/

/-- a value of the store: a string, or anything of another type -/
inductive Obj (X : Type) where
  | string (b : Bytes)
  | other (x : X)
deriving DecidableEq, Repr

abbrev Store (X : Type) := Bytes → Option (Obj X)

/-- one item of a command that counts -/
def counting {α ω : Type} (item : α → ω → ℤ × ω) (c : ℤ × ω) (x : α) : ℤ × ω :=
  (c.1 + (item x c.2).1, (item x c.2).2)

/-- a command that takes its items in order and adds up their counts -/
def each {α ω : Type} (item : α → ω → ℤ × ω) (l : List α) (w : ω) : ℤ × ω := l.foldl (counting item) (0, w)

namespace Node

variable {X : Type}

def delItem (k : Bytes) (s : Store X) : ℤ × Store X :=
  if (s k).isSome then (1, Function.update s k none) else (0, s)

/-- DEL and UNLINK: a key is removed if it is there, and then counts -/
def del (ks : List Bytes) (s : Store X) : ℤ × Store X := each delItem ks s

def existsItem (k : Bytes) (s : Store X) : ℤ × Store X := (if (s k).isSome then 1 else 0, s)

/-- EXISTS: a key counts each time it is named -/
def existing (ks : List Bytes) (s : Store X) : ℤ × Store X := each existsItem ks s

def setItem (s : Store X) (e : Bytes × Bytes) : Store X := Function.update s e.1 (some (.string e.2))

/-- MSET -/
def mset (pairs : List (Bytes × Bytes)) (s : Store X) : Store X := pairs.foldl setItem s

/-- the value MGET returns: nil for a key that is missing or not a string -/
def value (s : Store X) (k : Bytes) : Option Bytes :=
  match s k with
  | some (.string b) => some b
  | _ => none

/-- the reply to a command the node does not take -/
def refused : RedisError := .ofReply .responseError "ERR" "unknown command"

/-- the reply to a command asked for values -/
def values (name : String) (ks : List Bytes) (s : Store X) : RedisResult (List (Option Bytes)) × Store X :=
  if name = "MGET" ∧ ks ≠ [] then (.ok (ks.map (value s)), s) else (.error refused, s)

/-- the reply to a command asked for a count -/
def count (name : String) (ks : List Bytes) (s : Store X) : RedisResult ℤ × Store X :=
  if ks = [] then (.error refused, s)
  else if name = "DEL" ∨ name = "UNLINK" then (.ok (del ks s).1, (del ks s).2)
  else if name = "EXISTS" then (.ok (existing ks s).1, (existing ks s).2)
  else (.error refused, s)

/-- keys and values in turn -/
def pairsOf : List Bytes → Option (List (Bytes × Bytes))
  | [] => some []
  | [_] => none
  | k :: v :: args => (pairsOf args).map ((k, v) :: ·)

/-- the reply to a command asked for nothing -/
def unit (name : String) (args : List Bytes) (s : Store X) : RedisResult Unit × Store X :=
  match pairsOf args with
  | some pairs => if name = "MSET" ∧ pairs ≠ [] then (.ok (), mset pairs s) else (.error refused, s)
  | none => (.error refused, s)

theorem pairsOf_flatMap (pairs : List (Bytes × Bytes)) : pairsOf (pairs.flatMap fun e => [e.1, e.2]) = some pairs := by
  induction pairs with
  | nil => rfl
  | cons e pairs ih =>
    rw [List.flatMap_cons, List.cons_append, List.cons_append, List.nil_append, pairsOf, ih]
    rfl

end Node

/-! ## MGET -/

/-- the writes of a joined result -/
def writes : Joined (List ℕ × List (Option Bytes)) → List (ℕ × Option Bytes)
  | .ok (.ok (indices, values)) => indices.zip values
  | _ => []

/-- every write in bounds: no panic, and the indices are on record -/
theorem foldlM_write (l : List (ℕ × Option Bytes)) (out : Out) (h : ∀ e ∈ l, e.1 < out.values.length) :
    l.foldlM Out.write out =
      some ⟨l.foldl (fun vs e => vs.set e.1 e.2) out.values, out.written ++ l.map Prod.fst⟩ := by
  induction l generalizing out with
  | nil => simp
  | cons e l ih =>
    have hstep : Out.write out e = some ⟨out.values.set e.1 e.2, out.written ++ [e.1]⟩ :=
      if_pos (h e List.mem_cons_self)
    rw [List.foldlM_cons, hstep]
    refine (ih _ fun e' he' => ?_).trans (by simp)
    simpa using h e' (List.mem_cons_of_mem _ he')

theorem length_foldl_set (l : List (ℕ × Option Bytes)) (vs : List (Option Bytes)) :
    (l.foldl (fun vs e => vs.set e.1 e.2) vs).length = vs.length := by
  induction l generalizing vs with
  | nil => rfl
  | cons e l ih => exact (ih _).trans (by simp)

/-- the loop writes the results one after another -/
theorem joinMget_eq {joined : List (Joined (List ℕ × List (Option Bytes)))} (hok : ∀ j ∈ joined, ∃ r, j = .ok (.ok r))
    (out : Out) (hin : ∀ e ∈ joined.flatMap writes, e.1 < out.values.length) :
    joinMget joined out =
      some (.ok ⟨(joined.flatMap writes).foldl (fun vs e => vs.set e.1 e.2) out.values,
        out.written ++ (joined.flatMap writes).map Prod.fst⟩) := by
  induction joined generalizing out with
  | nil => simp [joinMget]
  | cons j js ih =>
    obtain ⟨⟨indices, values⟩, rfl⟩ := hok j List.mem_cons_self
    have hhere : ∀ e ∈ indices.zip values, e.1 < out.values.length :=
      fun e he => hin e (List.mem_flatMap.2 ⟨_, List.mem_cons_self, he⟩)
    simp only [joinMget, unjoin, foldlM_write _ _ hhere]
    rw [ih (fun j' hj' => hok j' (List.mem_cons_of_mem _ hj'))]
    · simp [writes]
    · intro e he
      rw [length_foldl_set]
      obtain ⟨j', hj', hej'⟩ := List.mem_flatMap.1 he
      exact hin e (List.mem_flatMap.2 ⟨j', List.mem_cons_of_mem _ hj', hej'⟩)

/-- writes at distinct indices all last -/
theorem getElem?_foldl_set {l : List (ℕ × Option Bytes)} (hn : (l.map Prod.fst).Nodup) (vs : List (Option Bytes))
    {i : ℕ} {v : Option Bytes} (hmem : (i, v) ∈ l) (hi : i < vs.length) :
    (l.foldl (fun vs e => vs.set e.1 e.2) vs)[i]? = some v := by
  have hother : ∀ (l : List (ℕ × Option Bytes)) (vs : List (Option Bytes)), i ∉ l.map Prod.fst →
      (l.foldl (fun vs e => vs.set e.1 e.2) vs)[i]? = vs[i]? := by
    intro l
    induction l with
    | nil => exact fun vs _ => rfl
    | cons e l ih =>
      intro vs hni
      rw [List.map_cons, List.mem_cons, not_or] at hni
      rw [List.foldl_cons, ih _ hni.2, List.getElem?_set_ne (Ne.symm hni.1)]
  induction l generalizing vs with
  | nil => simp at hmem
  | cons e l ih =>
    obtain ⟨he, hl⟩ := List.nodup_cons.1 hn
    rw [List.foldl_cons]
    rcases List.mem_cons.1 hmem with rfl | hmem
    · rw [hother l _ he, List.getElem?_set_self hi]
    · exact ih hl _ hmem (by simpa using hi)

/-- the writes of a group whose MGET succeeds: its keys' indices and values -/
theorem serve_mget {ω : Type} {dispatch : String → List Bytes → ω → RedisResult (List (Option Bytes)) × ω}
    {get : ω → Bytes → Option Bytes} (hmget : ∀ ks w, ks ≠ [] →
      (dispatch "MGET" ks w).1 = .ok (ks.map (get w)) ∧ get (dispatch "MGET" ks w).2 = get w)
    {groups : List (UInt16 × List (ℕ × String))} (hne : ∀ g ∈ groups, g.2 ≠ []) (w : ω) :
    (serve (mgetTask dispatch) groups w).1 = groups.map fun g =>
      .ok (g.2.map Prod.fst, g.2.map fun e => get w (asBytes e.2)) := by
  induction groups generalizing w with
  | nil => rfl
  | cons g groups ih =>
    obtain ⟨hreply, hstore⟩ := hmget ((g.2.map Prod.snd).map asBytes) w (by simpa using hne g List.mem_cons_self)
    have htail := ih (fun g' hg' => hne g' (List.mem_cons_of_mem _ hg')) (mgetTask dispatch g w).2
    have hget : get (mgetTask dispatch g w).2 = get w := hstore
    have hhere : (mgetTask dispatch g w).1 = .ok (g.2.map Prod.fst, g.2.map fun e => get w (asBytes e.2)) := by
      simp only [mgetTask]
      rw [hreply]
      simp [Except.map, Function.comp_def]
    rw [serve, htail, hget, hhere, List.map_cons]

theorem map_fst_enumerate (keys : List String) : (enumerate keys).map Prod.fst = List.range keys.length := by
  simp [enumerate, Function.comp_def, List.zipIdx_map_snd, List.range_eq_range']

theorem mem_enumerate {keys : List String} {i : ℕ} (hi : i < keys.length) : (i, keys[i]) ∈ enumerate keys :=
  List.mem_map.2 ⟨(keys[i], i), by simp [List.mem_zipIdx_iff_getElem?, hi], rfl⟩

/-- **`fanout_mget` is GET, key by key.** For every key list and every choice of the three orders, the call returns; each
index is written exactly once, in bounds, with the value of its key. -/
theorem fanout_mget_pointwise {ω : Type} (dispatch : String → List Bytes → ω → RedisResult (List (Option Bytes)) × ω)
    (get : ω → Bytes → Option Bytes) (hmget : ∀ ks w, ks ≠ [] →
      (dispatch "MGET" ks w).1 = .ok (ks.map (get w)) ∧ get (dispatch "MGET" ks w).2 = get w)
    (keys : List String) (w w' : ω) (joined : List (Joined (List ℕ × List (Option Bytes))))
    (h : Fanned (mgetTask dispatch) (groupBySlot keys) w joined w') :
    ∃ out, fanoutMget keys joined = some (.ok out) ∧ out.values = keys.map (fun k => get w (asBytes k)) ∧
      out.written.Perm (List.range keys.length) := by
  obtain ⟨spawned, served, hspawned, hserved, hjoined, -⟩ := h
  have hgroups : served.Perm (groupBySlot keys) := hserved.trans hspawned
  have hne : ∀ g ∈ served, g.2 ≠ [] := fun g hg => ne_nil_of_mem (hgroups.mem_iff.1 hg)
  rw [serve_mget hmget hne w] at hjoined
  have hok : ∀ j ∈ joined, ∃ r, j = .ok (.ok r) := by
    intro j hj
    obtain ⟨r, hr, rfl⟩ := List.mem_map.1 (hjoined.mem_iff.1 hj)
    obtain ⟨g, -, rfl⟩ := List.mem_map.1 hr
    exact ⟨_, rfl⟩
  -- all writes together: the keys, enumerated, with their values
  have hwrites : (joined.flatMap writes).Perm ((enumerate keys).map fun e => (e.1, get w (asBytes e.2))) := by
    calc joined.flatMap writes
        ~ ((served.map fun g => (.ok (g.2.map Prod.fst, g.2.map fun e => get w (asBytes e.2)) :
            RedisResult (List ℕ × List (Option Bytes)))).map Except.ok).flatMap writes := hjoined.flatMap_right writes
      _ = (served.flatMap Prod.snd).map fun e => (e.1, get w (asBytes e.2)) := by
          rw [List.map_map, List.flatMap_map, List.map_flatMap]
          apply List.flatMap_congr
          intro g _
          simp [writes, List.zip_map']
      _ ~ (enumerate keys).map fun e => (e.1, get w (asBytes e.2)) := (flatMap_perm hgroups).map _
  have hindices : ((joined.flatMap writes).map Prod.fst).Perm (List.range keys.length) := by
    rw [← map_fst_enumerate]
    simpa [Function.comp_def] using hwrites.map Prod.fst
  by_cases hkeys : keys = []
  · subst hkeys
    exact ⟨⟨[], []⟩, if_pos rfl, rfl, by simp⟩
  have hin : ∀ e ∈ joined.flatMap writes, e.1 < (List.replicate keys.length (none : Option Bytes)).length := by
    intro e he
    have hrange := hindices.mem_iff.1 (List.mem_map_of_mem he)
    simpa using List.mem_range.1 hrange
  refine ⟨_, (if_neg hkeys).trans (joinMget_eq hok _ hin), ?_, by simpa using hindices⟩
  apply List.ext_getElem?
  intro i
  by_cases hi : i < keys.length
  · have hmem : (i, get w (asBytes keys[i])) ∈ joined.flatMap writes :=
      hwrites.mem_iff.2 (List.mem_map.2 ⟨(i, keys[i]), mem_enumerate hi, rfl⟩)
    have hnodup : ((joined.flatMap writes).map Prod.fst).Nodup := hindices.nodup_iff.2 List.nodup_range
    rw [getElem?_foldl_set hnodup _ hmem (by simpa using hi)]
    simp [hi]
  · rw [List.getElem?_eq_none (by simp [length_foldl_set]; omega), List.getElem?_eq_none (by simpa using hi)]

/-- a store with one string, at `a` -/
def oneKey : Store Unit := Function.update (fun _ => none) (asBytes "a") (some (.string (asBytes "1")))

theorem fanout_mget_repeated_key :
    ∃ out, fanoutMget ["a", "b", "a"] ((serve (mgetTask Node.values) (groupBySlot ["a", "b", "a"]) oneKey).1.map .ok) =
      some (.ok out) ∧ out.values = [some (asBytes "1"), none, some (asBytes "1")] ∧
      out.written.Perm (List.range 3) := by
  have hmget : ∀ (ks : List Bytes) (s : Store Unit), ks ≠ [] →
      (Node.values "MGET" ks s).1 = .ok (ks.map (Node.value s)) ∧
        Node.value (Node.values "MGET" ks s).2 = Node.value s := by
    intro ks s hks
    rw [Node.values, if_pos ⟨rfl, hks⟩]
    exact ⟨rfl, rfl⟩
  obtain ⟨out, hout, hvalues, hwritten⟩ :=
    fanout_mget_pointwise Node.values Node.value hmget ["a", "b", "a"] oneKey _ _
      ⟨_, _, List.Perm.refl _, List.Perm.refl _, List.Perm.refl _, rfl⟩
  refine ⟨out, hout, hvalues.trans ?_, hwritten⟩
  decide +kernel

/-! ## Counts -/

section Counts

variable {α κ ω : Type} {item : α → ω → ℤ × ω}

theorem foldl_counting (l : List α) (n : ℤ) (w : ω) :
    l.foldl (counting item) (n, w) = (n + (each item l w).1, (each item l w).2) := by
  induction l generalizing n w with
  | nil => simp [each]
  | cons x l ih =>
    rw [each, List.foldl_cons, List.foldl_cons, counting, counting, ih, ih, zero_add, add_assoc]

theorem each_cons (x : α) (l : List α) (w : ω) :
    each item (x :: l) w = ((item x w).1 + (each item l (item x w).2).1, (each item l (item x w).2).2) := by
  rw [each, List.foldl_cons, counting, foldl_counting, zero_add]

/-- a command is splittable: its first part, then the rest -/
theorem each_append (l m : List α) (w : ω) :
    each item (l ++ m) w = ((each item l w).1 + (each item m (each item l w).2).1, (each item m (each item l w).2).2) := by
  rw [each, List.foldl_append, ← each, foldl_counting]

theorem each_map {β : Type} (g : β → α) (l : List β) (w : ω) :
    each item (l.map g) w = each (fun x => item (g x)) l w := by
  rw [each, List.foldl_map]
  rfl

/-- the groups' commands one after another are the command over all groups -/
theorem serve_counts {task : κ × List α → ω → RedisResult ℤ × ω} {groups : List (κ × List α)}
    (htask : ∀ g ∈ groups, ∀ w, task g w = (.ok (each item g.2 w).1, (each item g.2 w).2)) (w : ω) :
    ∃ counts : List ℤ, (serve task groups w).1 = counts.map Except.ok ∧
      (counts.sum, (serve task groups w).2) = each item (groups.flatMap Prod.snd) w := by
  induction groups generalizing w with
  | nil => exact ⟨[], rfl, rfl⟩
  | cons g groups ih =>
    have hg := htask g List.mem_cons_self w
    obtain ⟨counts, hcounts, hrest⟩ := ih (fun g' hg' => htask g' (List.mem_cons_of_mem _ hg')) (each item g.2 w).2
    refine ⟨(each item g.2 w).1 :: counts, ?_, ?_⟩
    · rw [serve, hg, hcounts, List.map_cons]
    · rw [serve, hg, List.flatMap_cons, each_append, ← hrest, List.sum_cons]

/-- the count of a joined result -/
def countOf : Joined ℤ → ℤ
  | .ok (.ok n) => n
  | _ => 0

theorem joinCounts_eq {joined : List (Joined ℤ)} (hok : ∀ j ∈ joined, ∃ n, j = .ok (.ok n)) (total : ℤ) :
    joinCounts joined total = .ok (total + (joined.map countOf).sum) := by
  induction joined generalizing total with
  | nil => simp [joinCounts]
  | cons j js ih =>
    obtain ⟨n, rfl⟩ := hok j List.mem_cons_self
    simp only [joinCounts, unjoin]
    rw [ih fun j' hj' => hok j' (List.mem_cons_of_mem _ hj'), List.map_cons, List.sum_cons, ← add_assoc]
    rfl

/-- **A count fanned out** over groups of independent items is the count over the list. -/
theorem fanned_counts [DecidableEq κ] {f : α → κ} {l : List α} {task : κ × List α → ω → RedisResult ℤ × ω}
    (hind : Independent (counting item) f)
    (htask : ∀ g : κ × List α, g.2 ≠ [] → ∀ w, task g w = (.ok (each item g.2 w).1, (each item g.2 w).2))
    {w w' : ω} {joined : List (Joined ℤ)} (h : Fanned task (groupBy f l) w joined w') :
    joinCounts joined 0 = .ok (each item l w).1 ∧ w' = (each item l w).2 := by
  obtain ⟨spawned, served, hspawned, hserved, hjoined, rfl⟩ := h
  have hgroups : served.Perm (groupBy f l) := hserved.trans hspawned
  have hserve : ∀ g ∈ served, ∀ w, task g w = (.ok (each item g.2 w).1, (each item g.2 w).2) :=
    fun g hg => htask g (ne_nil_of_mem (hgroups.mem_iff.1 hg))
  obtain ⟨counts, hcounts, htotal⟩ := serve_counts hserve w
  have hall : each item (served.flatMap Prod.snd) w = each item l w := foldl_groups hind hgroups (0, w)
  rw [hall] at htotal
  rw [hcounts, List.map_map] at hjoined
  have hok : ∀ j ∈ joined, ∃ n, j = .ok (.ok n) := by
    intro j hj
    obtain ⟨n, -, rfl⟩ := List.mem_map.1 (hjoined.mem_iff.1 hj)
    exact ⟨n, rfl⟩
  have hsum : (joined.map countOf).sum = counts.sum := by
    rw [(hjoined.map countOf).sum_eq, List.map_map]
    have hid : countOf ∘ Except.ok ∘ Except.ok = id := rfl
    rw [hid, List.map_id]
  rw [joinCounts_eq hok, hsum, zero_add, ← htotal]
  exact ⟨rfl, rfl⟩

end Counts

/-! ## DEL, EXISTS and MSET -/

section Commands

variable {X : Type}

namespace Node

/-- DEL counts a repeated key once -/
theorem del_count (ks : List Bytes) (s : Store X) :
    (del ks s).1 = (ks.toFinset.filter fun k => (s k).isSome).card := by
  induction ks generalizing s with
  | nil => rfl
  | cons k ks ih =>
    have hcons : (del (k :: ks) s).1 = (delItem k s).1 + (del ks (delItem k s).2).1 := by rw [del, each_cons]; rfl
    rw [hcons, ih, List.toFinset_cons, Finset.filter_insert, delItem]
    by_cases hk : (s k).isSome
    · rw [if_pos hk, if_pos hk]
      have herase : (ks.toFinset.filter fun j => (Function.update s k none j).isSome) =
          (ks.toFinset.filter fun j => (s j).isSome).erase k := by
        ext j
        by_cases hj : j = k
        · simp [hj]
        · simp [hj]
      rw [herase, ← Finset.erase_insert_eq_erase, Finset.card_erase_of_mem (Finset.mem_insert_self _ _)]
      have hpos : 0 < (insert k (ks.toFinset.filter fun j => (s j).isSome)).card :=
        Finset.card_pos.2 ⟨k, Finset.mem_insert_self _ _⟩
      push_cast [Nat.cast_sub hpos]
      omega
    · rw [if_neg hk, if_neg hk, zero_add]

/-- EXISTS counts a repeated key each time -/
theorem existing_count (ks : List Bytes) (s : Store X) :
    existing ks s = (((ks.countP fun k => (s k).isSome : ℕ) : ℤ), s) := by
  induction ks with
  | nil => rfl
  | cons k ks ih =>
    rw [existing, each_cons, existsItem, ← existing, ih, List.countP_cons]
    by_cases hk : (s k).isSome
    · simp [hk, add_comm]
    · simp [hk]

/-- MSET leaves the last value named for a key -/
theorem mset_value (pairs : List (Bytes × Bytes)) (s : Store X) (k : Bytes) :
    mset pairs s k = match pairs.reverse.find? (fun e => e.1 = k) with
      | some e => some (.string e.2)
      | none => s k := by
  induction pairs using List.reverseRecOn with
  | nil => rfl
  | append_singleton pairs e ih =>
    have hlast : mset (pairs ++ [e]) s = setItem (mset pairs s) e := by simp [mset]
    rw [hlast, setItem, List.reverse_append]
    by_cases hk : e.1 = k
    · simp [hk]
    · rw [Function.update_of_ne (Ne.symm hk), ih]
      simp [hk]

end Node

/-- keys in different slots are different -/
theorem ne_of_slot_ne {k k' : Bytes} (h : clusterSlot k ≠ clusterSlot k') : k' ≠ k :=
  fun hk => h (by rw [hk])

theorem independent_del :
    Independent (counting fun e : ℕ × String => Node.delItem (X := X) (asBytes e.2)) fun e => clusterSlot (asBytes e.2) := by
  intro x y hxy c
  have hne := ne_of_slot_ne hxy
  simp only [counting, Node.delItem]
  by_cases hx : (c.2 (asBytes x.2)).isSome <;> by_cases hy : (c.2 (asBytes y.2)).isSome
  · simp [hx, hy, hne, hne.symm, Function.update_comm hne]
  · simp [hx, hy, hne]
  · simp [hx, hy, hne.symm]
  · simp [hx, hy]

theorem independent_exists :
    Independent (counting fun e : ℕ × String => Node.existsItem (X := X) (asBytes e.2))
      fun e => clusterSlot (asBytes e.2) := by
  intro x y _ c
  refine Prod.ext ?_ rfl
  exact add_right_comm _ _ _

theorem independent_mset :
    Independent (fun (s : Store X) (e : String × Bytes) => Node.setItem s (asBytes e.1, e.2))
      fun e => clusterSlot (asBytes e.1) := by
  intro x y hxy s
  exact Function.update_comm (ne_of_slot_ne hxy).symm _ _ _

theorem map_snd_enumerate (keys : List String) : (enumerate keys).map (fun e => asBytes e.2) = keys.map asBytes := by
  have hmap : (enumerate keys).map (fun e => asBytes e.2) = (keys.zipIdx.map Prod.fst).map asBytes := by
    rw [enumerate, List.map_map, List.map_map]
    rfl
  rw [hmap, List.zipIdx_map_fst]

/-- the keys of the list, enumerated or not -/
theorem each_enumerate (item : Bytes → Store X → ℤ × Store X) (keys : List String) (s : Store X) :
    each (fun e : ℕ × String => item (asBytes e.2)) (enumerate keys) s = each item (keys.map asBytes) s := by
  rw [← map_snd_enumerate, each_map]

/-- a fan-out of counting commands -/
theorem fanned_count_keys {item : Bytes → Store X → ℤ × Store X}
    {dispatch : String → List Bytes → Store X → RedisResult ℤ × Store X} {name : String}
    (hname : ∀ ks s, ks ≠ [] → dispatch name ks s = (.ok (each item ks s).1, (each item ks s).2))
    (hind : Independent (counting fun e : ℕ × String => item (asBytes e.2)) fun e => clusterSlot (asBytes e.2))
    {keys : List String} {s s' : Store X} {joined : List (Joined ℤ)}
    (h : Fanned (countTask dispatch name) (groupBySlot keys) s joined s') :
    joinCounts joined 0 = .ok (each item (keys.map asBytes) s).1 ∧ s' = (each item (keys.map asBytes) s).2 := by
  rw [← each_enumerate]
  refine fanned_counts hind (fun g hg w => ?_) h
  rw [countTask, hname _ _ (by simpa using hg), each_map]

theorem serve_mset {dispatch : String → List Bytes → Store X → RedisResult Unit × Store X}
    (hmset : ∀ pairs s, pairs ≠ [] → dispatch "MSET" (pairs.flatMap fun e => [e.1, e.2]) s = (.ok (), Node.mset pairs s))
    {groups : List (UInt16 × List (String × Bytes))} (hne : ∀ g ∈ groups, g.2 ≠ []) (s : Store X) :
    serve (msetTask dispatch) groups s =
      (groups.map fun _ => .ok (), (groups.flatMap Prod.snd).foldl (fun s e => Node.setItem s (asBytes e.1, e.2)) s) := by
  induction groups generalizing s with
  | nil => rfl
  | cons g groups ih =>
    have hg : msetTask dispatch g s = (.ok (), g.2.foldl (fun s e => Node.setItem s (asBytes e.1, e.2)) s) := by
      have hpairs := hmset (g.2.map fun e => (asBytes e.1, e.2)) s (by simpa using hne g List.mem_cons_self)
      rw [List.flatMap_map, Node.mset, List.foldl_map] at hpairs
      exact hpairs
    rw [serve, hg, ih fun g' hg' => hne g' (List.mem_cons_of_mem _ hg'), List.flatMap_cons, List.foldl_append]
    rfl

theorem joinMset_ok {joined : List (Joined Unit)} (hok : ∀ j ∈ joined, j = .ok (.ok ())) : joinMset joined = .ok () := by
  induction joined with
  | nil => rfl
  | cons j js ih =>
    rw [hok j List.mem_cons_self]
    exact ih fun j' hj' => hok j' (List.mem_cons_of_mem _ hj')

/-- **A fan-out is the command on one node.** For every store, every list and every choice of the three orders, DEL (or
UNLINK), EXISTS and MSET end in the result and the store of one command over the whole list. -/
theorem fanout_single_node (count : String → List Bytes → Store X → RedisResult ℤ × Store X)
    (unit : String → List Bytes → Store X → RedisResult Unit × Store X)
    (hdel : ∀ unlink ks s, ks ≠ [] → count (delName unlink) ks s = (.ok (Node.del ks s).1, (Node.del ks s).2))
    (hexists : ∀ ks s, ks ≠ [] → count "EXISTS" ks s = (.ok (Node.existing ks s).1, (Node.existing ks s).2))
    (hmset : ∀ pairs s, pairs ≠ [] → unit "MSET" (pairs.flatMap fun e => [e.1, e.2]) s = (.ok (), Node.mset pairs s)) :
    (∀ unlink keys s joined s', Fanned (delTask count unlink) (groupBySlot keys) s joined s' →
      fanoutDel keys joined = .ok (Node.del (keys.map asBytes) s).1 ∧ s' = (Node.del (keys.map asBytes) s).2) ∧
    (∀ keys s joined s', Fanned (existsTask count) (groupBySlot keys) s joined s' →
      fanoutExists keys joined = .ok (Node.existing (keys.map asBytes) s).1 ∧ s' = s) ∧
    (∀ pairs s joined s', Fanned (msetTask unit) (groupPairs pairs) s joined s' →
      fanoutMset pairs joined = .ok () ∧ s' = Node.mset (pairs.map fun e => (asBytes e.1, e.2)) s) := by
  refine ⟨fun unlink keys s joined s' h => ?_, fun keys s joined s' h => ?_, fun pairs s joined s' h => ?_⟩
  · obtain ⟨htotal, hstore⟩ := fanned_count_keys (hdel unlink) independent_del h
    refine ⟨?_, hstore⟩
    rw [fanoutDel]
    split_ifs with hkeys
    · rw [hkeys]
      rfl
    · exact htotal
  · obtain ⟨htotal, hstore⟩ := fanned_count_keys hexists independent_exists h
    refine ⟨?_, hstore.trans ?_⟩
    · rw [fanoutExists]
      split_ifs with hkeys
      · rw [hkeys]
        rfl
      · exact htotal
    · rw [← Node.existing, Node.existing_count]
  · obtain ⟨spawned, served, hspawned, hserved, hjoined, rfl⟩ := h
    have hgroups : served.Perm (groupPairs pairs) := hserved.trans hspawned
    rw [serve_mset hmset fun g hg => ne_nil_of_mem (hgroups.mem_iff.1 hg)] at hjoined ⊢
    constructor
    · have hok : ∀ j ∈ joined, j = .ok (.ok ()) := by
        intro j hj
        have hreply := hjoined.mem_iff.1 hj
        simp only [List.map_map, List.mem_map] at hreply
        obtain ⟨g, -, rfl⟩ := hreply
        rfl
      rw [fanoutMset, joinMset_ok hok, ite_self]
    · rw [Node.mset, List.foldl_map]
      exact foldl_groups independent_mset hgroups s

end Commands

/-- a repeated key deleted across two slots -/
theorem fanout_del_repeated_key :
    fanoutDel ["a", "b", "a"] ((serve (delTask Node.count false) (groupBySlot ["a", "b", "a"]) oneKey).1.map .ok) =
      .ok 1 := by
  have hdel : ∀ (unlink : Bool) (ks : List Bytes) (s : Store Unit), ks ≠ [] →
      Node.count (delName unlink) ks s = (.ok (Node.del ks s).1, (Node.del ks s).2) := by
    intro unlink ks s hks
    rw [Node.count, if_neg hks, if_pos (by cases unlink <;> decide)]
  have hexists : ∀ (ks : List Bytes) (s : Store Unit), ks ≠ [] →
      Node.count "EXISTS" ks s = (.ok (Node.existing ks s).1, (Node.existing ks s).2) := by
    intro ks s hks
    rw [Node.count, if_neg hks, if_neg (by decide), if_pos rfl]
  have hmset : ∀ (pairs : List (Bytes × Bytes)) (s : Store Unit), pairs ≠ [] →
      Node.unit "MSET" (pairs.flatMap fun e => [e.1, e.2]) s = (.ok (), Node.mset pairs s) := by
    intro pairs s hpairs
    rw [Node.unit, Node.pairsOf_flatMap]
    exact if_pos ⟨rfl, hpairs⟩
  have h := (fanout_single_node Node.count Node.unit hdel hexists hmset).1 false ["a", "b", "a"] oneKey _ _
    ⟨_, _, List.Perm.refl _, List.Perm.refl _, List.Perm.refl _, rfl⟩
  refine h.1.trans ?_
  have hone : (Node.del (["a", "b", "a"].map asBytes) oneKey).1 = 1 := by decide +kernel
  rw [hone]

end RedisRsPy.Cluster
