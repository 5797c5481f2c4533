/-
Fan-outs whose calls fail (`fanout_mget`, `fanout_mset`, `fanout_del` and `fanout_exists` in `facade/cluster.rs`).

The tasks of a fan-out are a join set. The call of a slot is answered, or it fails, whether its command was carried out or
not; a copy of a command may be carried out at any other time too (the cluster client sends it again, or the task was
dropped after its request was written); anybody else may write in between. The `?` of the join loop ends the call at the
first failure it joins, and the rest of the set is dropped.

Result (`fanout_failures`), for each of the four and every run:
- at every moment, before the call returns and after, the store is that of the slots' commands as a whole and the other
  writes, in the order they were carried out (`Carried`).
And for every run in which the call returns:
- an Ok result is never partial. The command of every slot was carried out and answered. MGET gives each key the value it
  had at the moment its slot was asked, one moment for all keys of a slot; DEL, UNLINK and EXISTS add up the counts of
  such moments; MSET has set all keys of a slot at one;
- an Err result is the failure of a task, and nothing panics.
-/
import RedisRsPy.Cluster.Fanout
import RedisRsPy.Lib.JoinSet

namespace RedisRsPy.Cluster

open Lib
open scoped List

/-! ## The tasks as a join set -/

section Sets

variable {τ ρ ω : Type}

/-- the `?` of the join loop returns here -/
def Joined.fails (j : Joined ρ) : Bool :=
  match unjoin j with
  | .error _ => true
  | .ok _ => false

/-- a task that returns what its command came to -/
def returning (task : τ → ω → RedisResult ρ × ω) (t : τ) (w : ω) : Joined ρ × ω := (.ok (task t w).1, (task t w).2)

/-- a fan-out over these groups, as far as these events take it -/
def fanout [DecidableEq τ] (groups : List τ) (task : τ → ω → RedisResult ρ × ω) (w : ω)
    (l : List (JoinSet.Event τ (Joined ρ) ω)) : JoinSet.State τ (Joined ρ) ω :=
  run (JoinSet.step groups (returning task) Joined.fails) (JoinSet.start w) l

/-- the results joined, in order -/
def results (s : JoinSet.State τ (Joined ρ) ω) : List (Joined ρ) := s.joined.map Prod.snd

/-- the failure of a task -/
def FailedWith (s : JoinSet.State τ (Joined ρ) ω) (e : RedisError) : Prop :=
  ∃ t j, (t, j) ∈ s.joined ∧ unjoin j = .error e ∧ .failed t j ∈ s.hist

/-- the command of `t` was carried out at this moment -/
def RanAt (s : JoinSet.State τ (Joined ρ) ω) (t : τ) (pre : List (JoinSet.Entry τ (Joined ρ) ω)) : Prop :=
  ∃ post, s.hist = pre ++ .ran t :: post

/-- the store is that of the commands carried out, each of a whole slot, and of the other writes, in their order -/
structure Carried (groups : List τ) (task : τ → ω → RedisResult ρ × ω) (w : ω) (s : JoinSet.State τ (Joined ρ) ω) :
    Prop where
  world : s.world = JoinSet.replay (returning task) w s.hist
  whole : ∀ t, .ran t ∈ s.hist → t ∈ groups

theorem carried [DecidableEq τ] (groups : List τ) (task : τ → ω → RedisResult ρ × ω) (w : ω)
    (l : List (JoinSet.Event τ (Joined ρ) ω)) : Carried groups task w (fanout groups task w l) := by
  have hinv : JoinSet.Inv groups (returning task) Joined.fails w (fanout groups task w l) := JoinSet.inv_run w l
  exact ⟨hinv.world, hinv.ran⟩

theorem fails_iff {j : Joined ρ} : j.fails = true ↔ ∃ e, unjoin j = .error e := by
  unfold Joined.fails
  split
  · rename_i e he
    exact iff_of_true rfl ⟨e, he⟩
  · rename_i r hr
    refine iff_of_false (fun h => (nomatch h)) ?_
    rintro ⟨e, he⟩
    rw [hr] at he
    cases he

/-- what a fan-out has joined when it returns, where a command that is carried out is answered with success -/
theorem returned_cases [DecidableEq τ] {groups : List τ} {task : τ → ω → RedisResult ρ × ω} (value : τ → ω → ρ)
    (hok : ∀ t ∈ groups, ∀ w, (task t w).1 = .ok (value t w)) (w : ω) (l : List (JoinSet.Event τ (Joined ρ) ω))
    (hreturned : (fanout groups task w l).returned groups Joined.fails = true) :
    let s := fanout groups task w l
    (∃ moment : τ → List (JoinSet.Entry τ (Joined ρ) ω),
      (s.joined.map Prod.fst).Perm groups ∧ (∀ t ∈ groups, RanAt s t (moment t)) ∧
      s.joined = (s.joined.map Prod.fst).map fun t =>
        (t, .ok (.ok (value t (JoinSet.replay (returning task) w (moment t)))))) ∨
    ∃ before t j e, s.joined = before ++ [(t, j)] ∧ unjoin j = .error e ∧ FailedWith s e ∧
      (before.map Prod.fst).Nodup ∧ ∀ i ∈ before, i.1 ∈ groups ∧ ∃ pre, RanAt s i.1 pre ∧
        i.2 = .ok (.ok (value i.1 (JoinSet.replay (returning task) w pre))) := by
  intro s
  have hinv : JoinSet.Inv groups (returning task) Joined.fails w s := JoinSet.inv_run w l
  -- an answer that is no failure is the value at its moment
  have hvalue : ∀ t ∈ groups, ∀ j, JoinSet.Answered (returning task) w s.hist t j →
      ∃ pre, RanAt s t pre ∧ j = .ok (.ok (value t (JoinSet.replay (returning task) w pre))) := by
    rintro t ht j ⟨pre, post, hsplit, rfl⟩
    exact ⟨pre, ⟨post, hsplit⟩, by rw [returning, hok t ht]⟩
  have hsound : ∀ i ∈ s.joined, i.2.fails = false → i.1 ∈ groups ∧ ∃ pre, RanAt s i.1 pre ∧
      i.2 = .ok (.ok (value i.1 (JoinSet.replay (returning task) w pre))) := by
    intro i hi hfails
    obtain ⟨ht, hanswered | ⟨hfailed, -⟩⟩ := hinv.joined i hi
    · exact ⟨ht, hvalue i.1 ht i.2 hanswered⟩
    · rw [hfails] at hfailed
      cases hfailed
  by_cases hnone : ∀ i ∈ s.joined, i.2.fails = false
  · left
    obtain ⟨hperm, -⟩ := JoinSet.joined_perm hinv hreturned hnone
    have hmoment : ∀ t : τ, ∃ pre, t ∈ groups →
        RanAt s t pre ∧ (t, .ok (.ok (value t (JoinSet.replay (returning task) w pre)))) ∈ s.joined := by
      intro t
      by_cases ht : t ∈ groups
      · obtain ⟨i, hi, rfl⟩ := List.mem_map.1 (hperm.mem_iff.2 ht)
        obtain ⟨-, pre, hran, hj⟩ := hsound i hi (hnone i hi)
        exact ⟨pre, fun _ => ⟨hran, hj ▸ hi⟩⟩
      · exact ⟨[], fun h => absurd h ht⟩
    choose moment hmoment using hmoment
    refine ⟨moment, hperm, fun t ht => (hmoment t ht).1, ?_⟩
    rw [List.map_map]
    conv_lhs => rw [← List.map_id s.joined]
    refine List.map_congr_left fun i hi => ?_
    have hmem := (hmoment i.1 (hinv.joined i hi).1).2
    exact List.inj_on_of_nodup_map hinv.nodup hi hmem rfl
  · right
    push Not at hnone
    obtain ⟨i, hi, hfails⟩ := hnone
    have hfails : i.2.fails = true := by simpa using hfails
    obtain ⟨before, post, hsplit⟩ := List.append_of_mem hi
    obtain rfl := hinv.early before i post hsplit hfails
    obtain ⟨e, he⟩ := fails_iff.1 hfails
    refine ⟨before, i.1, i.2, e, hsplit, he, ?_, ?_, fun i' hi' => ?_⟩
    · obtain ⟨ht, hanswered | ⟨-, hfailed⟩⟩ := hinv.joined i hi
      · obtain ⟨pre, -, hj⟩ := hvalue i.1 ht i.2 hanswered
        rw [hj] at he
        cases he
      · exact ⟨i.1, i.2, hi, he, hfailed⟩
    · have hnodup := hinv.nodup
      rw [hsplit, List.map_append] at hnodup
      exact (List.nodup_append.1 hnodup).1
    · have hmem : i' ∈ s.joined := by
        rw [hsplit]
        exact List.mem_append_left _ hi'
      refine hsound i' hmem ?_
      by_contra hfails'
      obtain ⟨pre, post, hpre⟩ := List.append_of_mem hi'
      have hlast := hinv.early pre i' (post ++ [i]) (by rw [hsplit, hpre]; simp) (by simpa using hfails')
      simp at hlast

/-- the results, when no task has failed -/
theorem results_all {groups : List τ} {s : JoinSet.State τ (Joined ρ) ω} (value : τ → ρ)
    (hperm : (s.joined.map Prod.fst).Perm groups)
    (hjoined : s.joined = (s.joined.map Prod.fst).map fun t => (t, .ok (.ok (value t)))) :
    (results s).Perm (groups.map fun t => .ok (.ok (value t))) := by
  have hresults : results s = (s.joined.map Prod.fst).map fun t => (.ok (.ok (value t)) : Joined ρ) := by
    unfold results
    conv_lhs => rw [hjoined, List.map_map]
    rfl
  rw [hresults]
  exact hperm.map _

end Sets

/-! ## The join loops at a failure -/

theorem joinMset_failed {before : List (Joined Unit)} (hok : ∀ j ∈ before, j = .ok (.ok ())) {j : Joined Unit}
    {e : RedisError} (hj : unjoin j = .error e) : joinMset (before ++ [j]) = .error e := by
  induction before with
  | nil => simp only [List.nil_append, joinMset, hj]
  | cons i before ih =>
    rw [hok i List.mem_cons_self]
    exact ih fun i' hi' => hok i' (List.mem_cons_of_mem _ hi')

theorem joinCounts_failed {before : List (Joined ℤ)} (hok : ∀ j ∈ before, ∃ n, j = .ok (.ok n)) {j : Joined ℤ}
    {e : RedisError} (hj : unjoin j = .error e) (total : ℤ) : joinCounts (before ++ [j]) total = .error e := by
  induction before generalizing total with
  | nil => simp only [List.nil_append, joinCounts, hj]
  | cons i before ih =>
    obtain ⟨n, rfl⟩ := hok i List.mem_cons_self
    exact ih (fun i' hi' => hok i' (List.mem_cons_of_mem _ hi')) (total + n)

theorem joinMget_append (js ks : List (Joined (List ℕ × List (Option Bytes)))) (out : Out) :
    joinMget (js ++ ks) out =
      match joinMget js out with
      | some (.ok out') => joinMget ks out'
      | o => o := by
  induction js generalizing out with
  | nil => rfl
  | cons j js ih =>
    simp only [List.cons_append, joinMget]
    split
    · rfl
    · split
      · rfl
      · exact ih _

/-! ## The four commands -/

section Commands

variable {τ ρ ω X : Type}

/-- what a fan-out of MGET came to: the values of the keys of each slot at one moment, or a failure; never a panic -/
def MgetOutcome (dispatch : String → List Bytes → ω → RedisResult (List (Option Bytes)) × ω)
    (get : ω → Bytes → Option Bytes) (keys : List String) (w : ω)
    (s : JoinSet.State (UInt16 × List (ℕ × String)) (Joined (List ℕ × List (Option Bytes))) ω) :
    Option (RedisResult Out) → Prop
  | some (.ok out) => out.values.length = keys.length ∧ ∀ g ∈ groupBySlot keys, ∃ pre, RanAt s g pre ∧
      ∀ e ∈ g.2, out.values[e.1]? = some (get (JoinSet.replay (returning (mgetTask dispatch)) w pre) (asBytes e.2))
  | some (.error e) => FailedWith s e
  | none => False

/-- what a fan-out of counts came to: the sum of the counts of the slots, each at one moment, or a failure -/
def CountOutcome (dispatch : String → List Bytes → ω → RedisResult ℤ × ω) (name : String) (item : Bytes → ω → ℤ × ω)
    (keys : List String) (w : ω) (s : JoinSet.State (UInt16 × List (ℕ × String)) (Joined ℤ) ω) : RedisResult ℤ → Prop
  | .ok n => ∃ moment : _ → List (JoinSet.Entry (UInt16 × List (ℕ × String)) (Joined ℤ) ω),
      (∀ g ∈ groupBySlot keys, RanAt s g (moment g)) ∧
      n = ((groupBySlot keys).map fun g => (each item (g.2.map fun e => asBytes e.2)
        (JoinSet.replay (returning (countTask dispatch name)) w (moment g))).1).sum
  | .error e => FailedWith s e

/-- what a fan-out of MSET came to: each slot set, its keys all at one moment, or a failure -/
def MsetOutcome (dispatch : String → List Bytes → Store X → RedisResult Unit × Store X) (pairs : List (String × Bytes))
    (w : Store X) (s : JoinSet.State (UInt16 × List (String × Bytes)) (Joined Unit) (Store X)) : RedisResult Unit → Prop
  | .ok () => ∀ g ∈ groupPairs pairs, ∃ pre, RanAt s g pre ∧
      JoinSet.replay (returning (msetTask dispatch)) w (pre ++ [.ran g]) =
        Node.mset (g.2.map fun e => (asBytes e.1, e.2)) (JoinSet.replay (returning (msetTask dispatch)) w pre)
  | .error e => FailedWith s e

/-- the indices of a group are indices of the list -/
theorem index_lt {keys : List String} {g : UInt16 × List (ℕ × String)} (hg : g ∈ groupBySlot keys) {e : ℕ × String}
    (he : e ∈ g.2) : e.1 < keys.length := by
  have hmem : e ∈ enumerate keys := (flatMap_perm (List.Perm.refl _)).mem_iff.1 (List.mem_flatMap.2 ⟨g, hg, he⟩)
  have hrange : e.1 ∈ (enumerate keys).map Prod.fst := List.mem_map_of_mem hmem
  rw [map_fst_enumerate] at hrange
  exact List.mem_range.1 hrange

theorem mget_outcome {dispatch : String → List Bytes → ω → RedisResult (List (Option Bytes)) × ω}
    {get : ω → Bytes → Option Bytes} (hmget : ∀ ks w, ks ≠ [] → (dispatch "MGET" ks w).1 = .ok (ks.map (get w)))
    {keys : List String} {w : ω}
    {l : List (JoinSet.Event (UInt16 × List (ℕ × String)) (Joined (List ℕ × List (Option Bytes))) ω)} :
    let s := fanout (groupBySlot keys) (mgetTask dispatch) w l
    s.returned (groupBySlot keys) Joined.fails = true →
    MgetOutcome dispatch get keys w s (fanoutMget keys (results s)) := by
  intro s hreturned
  let value : UInt16 × List (ℕ × String) → ω → List ℕ × List (Option Bytes) :=
    fun g v => (g.2.map Prod.fst, g.2.map fun e => get v (asBytes e.2))
  have hok : ∀ g ∈ groupBySlot keys, ∀ v, (mgetTask dispatch g v).1 = .ok (value g v) := by
    intro g hg v
    simp only [mgetTask]
    rw [hmget _ _ (by simpa using ne_nil_of_mem hg)]
    simp [value, Except.map, Function.comp_def]
  have hwrites : ∀ (g : UInt16 × List (ℕ × String)) (v : ω),
      writes (.ok (.ok (value g v))) = g.2.map fun e => (e.1, get v (asBytes e.2)) :=
    fun g v => List.zip_map'
  by_cases hkeys : keys = []
  · subst hkeys
    have hresult : fanoutMget [] (results s) = some (.ok ⟨[], []⟩) := if_pos rfl
    rw [hresult]
    exact ⟨rfl, fun g hg => by cases hg⟩
  rw [fanoutMget, if_neg hkeys]
  let out₀ : Out := ⟨List.replicate keys.length none, []⟩
  rcases returned_cases _ hok w l hreturned with
    ⟨moment, hperm, hran, hjoined⟩ | ⟨before, t, j, e, hjoined, hj, hfailed, -, hbefore⟩
  · have hresults := results_all
      (fun g => value g (JoinSet.replay (returning (mgetTask dispatch)) w (moment g))) hperm hjoined
    have hall : ∀ j ∈ results s, ∃ r, j = .ok (.ok r) := by
      intro j hj
      obtain ⟨g, -, rfl⟩ := List.mem_map.1 (hresults.mem_iff.1 hj)
      exact ⟨_, rfl⟩
    -- the writes of all groups, each index once
    have hflat : ((results s).flatMap writes).Perm ((groupBySlot keys).flatMap fun g =>
        g.2.map fun e => (e.1, get (JoinSet.replay (returning (mgetTask dispatch)) w (moment g)) (asBytes e.2))) := by
      refine (hresults.flatMap_right writes).trans ?_
      rw [List.flatMap_map]
      exact List.Perm.of_eq (List.flatMap_congr fun g _ => hwrites g _)
    have hindices : (((results s).flatMap writes).map Prod.fst).Perm (List.range keys.length) := by
      rw [← map_fst_enumerate]
      refine (hflat.map Prod.fst).trans ?_
      have hkeysPerm := (flatMap_perm (List.Perm.refl (groupBySlot keys))).map Prod.fst
      rw [List.map_flatMap] at hkeysPerm ⊢
      simpa only [List.map_map, Function.comp_def] using hkeysPerm
    have hin : ∀ e ∈ (results s).flatMap writes, e.1 < out₀.values.length := by
      intro e he
      have hrange := hindices.mem_iff.1 (List.mem_map_of_mem he)
      simpa [out₀] using List.mem_range.1 hrange
    rw [joinMget_eq hall out₀ hin]
    refine ⟨by rw [length_foldl_set]; exact List.length_replicate, fun g hg => ⟨moment g, hran g hg, fun e he => ?_⟩⟩
    have hmem : (e.1, get (JoinSet.replay (returning (mgetTask dispatch)) w (moment g)) (asBytes e.2)) ∈
        (results s).flatMap writes :=
      hflat.mem_iff.2 (List.mem_flatMap.2 ⟨g, hg, List.mem_map.2 ⟨e, he, rfl⟩⟩)
    exact getElem?_foldl_set (hindices.nodup_iff.2 List.nodup_range) _ hmem (hin _ hmem)
  · have hsplit : results s = before.map Prod.snd ++ [j] := by
      rw [results, hjoined, List.map_append]
      rfl
    have hall : ∀ j ∈ before.map Prod.snd, ∃ r, j = .ok (.ok r) := by
      intro j hj
      obtain ⟨i, hi, rfl⟩ := List.mem_map.1 hj
      obtain ⟨-, pre, -, hvalue⟩ := hbefore i hi
      exact ⟨_, hvalue⟩
    have hin : ∀ e ∈ (before.map Prod.snd).flatMap writes, e.1 < out₀.values.length := by
      intro e he
      obtain ⟨j, hj, he⟩ := List.mem_flatMap.1 he
      obtain ⟨i, hi, rfl⟩ := List.mem_map.1 hj
      obtain ⟨hg, pre, -, hvalue⟩ := hbefore i hi
      rw [hvalue, hwrites] at he
      obtain ⟨e', he', rfl⟩ := List.mem_map.1 he
      simpa [out₀] using index_lt hg he'
    rw [hsplit, joinMget_append, joinMget_eq hall out₀ hin]
    simp only [joinMget, hj]
    exact hfailed

theorem count_outcome {item : Bytes → Store X → ℤ × Store X}
    {dispatch : String → List Bytes → Store X → RedisResult ℤ × Store X} {name : String}
    (hname : ∀ ks s, ks ≠ [] → (dispatch name ks s).1 = .ok (each item ks s).1) {keys : List String} {w : Store X}
    {l : List (JoinSet.Event (UInt16 × List (ℕ × String)) (Joined ℤ) (Store X))} :
    let s := fanout (groupBySlot keys) (countTask dispatch name) w l
    s.returned (groupBySlot keys) Joined.fails = true →
    CountOutcome dispatch name item keys w s (joinCounts (results s) 0) := by
  intro s hreturned
  have hok : ∀ g ∈ groupBySlot keys, ∀ v, (countTask dispatch name g v).1 =
      .ok (each item (g.2.map fun e => asBytes e.2) v).1 := by
    intro g hg v
    exact hname _ _ (by simpa using ne_nil_of_mem hg)
  rcases returned_cases _ hok w l hreturned with
    ⟨moment, hperm, hran, hjoined⟩ | ⟨before, t, j, e, hjoined, hj, hfailed, -, hbefore⟩
  · have hresults := results_all (fun g => (each item (g.2.map fun e => asBytes e.2)
      (JoinSet.replay (returning (countTask dispatch name)) w (moment g))).1) hperm hjoined
    have hall : ∀ j ∈ results s, ∃ n, j = .ok (.ok n) := by
      intro j hj
      obtain ⟨g, -, rfl⟩ := List.mem_map.1 (hresults.mem_iff.1 hj)
      exact ⟨_, rfl⟩
    rw [joinCounts_eq hall]
    refine ⟨moment, hran, ?_⟩
    rw [zero_add, (hresults.map countOf).sum_eq, List.map_map]
    rfl
  · have hsplit : results s = before.map Prod.snd ++ [j] := by
      rw [results, hjoined, List.map_append]
      rfl
    have hall : ∀ j ∈ before.map Prod.snd, ∃ n, j = .ok (.ok n) := by
      intro j hj
      obtain ⟨i, hi, rfl⟩ := List.mem_map.1 hj
      obtain ⟨-, pre, -, hvalue⟩ := hbefore i hi
      exact ⟨_, hvalue⟩
    rw [hsplit, joinCounts_failed hall hj]
    exact hfailed

theorem mset_outcome {dispatch : String → List Bytes → Store X → RedisResult Unit × Store X}
    (hmset : ∀ pairs s, pairs ≠ [] →
      dispatch "MSET" (pairs.flatMap fun e => [e.1, e.2]) s = (.ok (), Node.mset pairs s))
    {pairs : List (String × Bytes)} {w : Store X}
    {l : List (JoinSet.Event (UInt16 × List (String × Bytes)) (Joined Unit) (Store X))} :
    let s := fanout (groupPairs pairs) (msetTask dispatch) w l
    s.returned (groupPairs pairs) Joined.fails = true →
    MsetOutcome dispatch pairs w s (fanoutMset pairs (results s)) := by
  intro s hreturned
  have htask : ∀ g ∈ groupPairs pairs, ∀ v,
      msetTask dispatch g v = (.ok (), Node.mset (g.2.map fun e => (asBytes e.1, e.2)) v) := by
    intro g hg v
    have hpairs := hmset (g.2.map fun e => (asBytes e.1, e.2)) v (by simpa using ne_nil_of_mem hg)
    rw [List.flatMap_map] at hpairs
    exact hpairs
  have hok : ∀ g ∈ groupPairs pairs, ∀ v, (msetTask dispatch g v).1 = .ok () := fun g hg v => by rw [htask g hg v]
  rcases returned_cases (fun _ _ => ()) hok w l hreturned with
    ⟨moment, hperm, hran, hjoined⟩ | ⟨before, t, j, e, hjoined, hj, hfailed, -, hbefore⟩
  · have hresults := results_all (fun _ => ()) hperm hjoined
    have hall : ∀ j ∈ results s, j = .ok (.ok ()) := by
      intro j hj
      obtain ⟨g, -, rfl⟩ := List.mem_map.1 (hresults.mem_iff.1 hj)
      rfl
    rw [fanoutMset, joinMset_ok hall, ite_self]
    intro g hg
    refine ⟨moment g, hran g hg, ?_⟩
    rw [JoinSet.replay_snoc]
    exact congrArg Prod.snd (htask g hg _)
  · have hne : pairs ≠ [] := by
      rintro rfl
      obtain ⟨u, j, hmem, -, -⟩ := hfailed
      have hinv : JoinSet.Inv (groupPairs []) (returning (msetTask dispatch)) Joined.fails w s := JoinSet.inv_run w l
      cases (hinv.joined _ hmem).1
    have hsplit : results s = before.map Prod.snd ++ [j] := by
      rw [results, hjoined, List.map_append]
      rfl
    have hall : ∀ j ∈ before.map Prod.snd, j = .ok (.ok ()) := by
      intro j hj
      obtain ⟨i, hi, rfl⟩ := List.mem_map.1 hj
      obtain ⟨-, pre, -, hvalue⟩ := hbefore i hi
      exact hvalue
    rw [fanoutMset, if_neg hne, hsplit, joinMset_failed hall hj]
    exact hfailed

/-- with no keys nothing is joined -/
theorem results_nil [DecidableEq τ] {task : τ → ω → RedisResult ρ × ω} (w : ω)
    (l : List (JoinSet.Event τ (Joined ρ) ω)) : results (fanout [] task w l) = [] := by
  have hinv : JoinSet.Inv [] (returning task) Joined.fails w (fanout [] task w l) := JoinSet.inv_run w l
  have hnone : (fanout [] task w l).joined = [] :=
    List.eq_nil_iff_forall_not_mem.2 fun j hj => (nomatch (hinv.joined j hj).1)
  rw [results, hnone]
  rfl

/-- **A fan-out is never partial where it says Ok**, and does nothing but whole commands, however its calls fail and
whatever else is written. -/
theorem fanout_failures (values : String → List Bytes → Store X → RedisResult (List (Option Bytes)) × Store X)
    (count : String → List Bytes → Store X → RedisResult ℤ × Store X)
    (unit : String → List Bytes → Store X → RedisResult Unit × Store X)
    (hmget : ∀ ks s, ks ≠ [] → (values "MGET" ks s).1 = .ok (ks.map (Node.value s)))
    (hdel : ∀ unlink ks s, ks ≠ [] → (count (delName unlink) ks s).1 = .ok (Node.del ks s).1)
    (hexists : ∀ ks s, ks ≠ [] → (count "EXISTS" ks s).1 = .ok (Node.existing ks s).1)
    (hmset : ∀ pairs s, pairs ≠ [] → unit "MSET" (pairs.flatMap fun e => [e.1, e.2]) s = (.ok (), Node.mset pairs s))
    (keys : List String) (pairs : List (String × Bytes)) (w : Store X) :
    (∀ l, let s := fanout (groupBySlot keys) (mgetTask values) w l
      Carried (groupBySlot keys) (mgetTask values) w s ∧ (s.returned (groupBySlot keys) Joined.fails = true →
        MgetOutcome values Node.value keys w s (fanoutMget keys (results s)))) ∧
    (∀ unlink l, let s := fanout (groupBySlot keys) (delTask count unlink) w l
      Carried (groupBySlot keys) (delTask count unlink) w s ∧ (s.returned (groupBySlot keys) Joined.fails = true →
        CountOutcome count (delName unlink) Node.delItem keys w s (fanoutDel keys (results s)))) ∧
    (∀ l, let s := fanout (groupBySlot keys) (existsTask count) w l
      Carried (groupBySlot keys) (existsTask count) w s ∧ (s.returned (groupBySlot keys) Joined.fails = true →
        CountOutcome count "EXISTS" Node.existsItem keys w s (fanoutExists keys (results s)))) ∧
    ∀ l, let s := fanout (groupPairs pairs) (msetTask unit) w l
      Carried (groupPairs pairs) (msetTask unit) w s ∧ (s.returned (groupPairs pairs) Joined.fails = true →
        MsetOutcome unit pairs w s (fanoutMset pairs (results s))) := by
  refine ⟨fun l => ⟨carried _ _ w l, mget_outcome hmget⟩, fun unlink l => ⟨carried _ _ w l, fun hl => ?_⟩,
    fun l => ⟨carried _ _ w l, fun hl => ?_⟩, fun l => ⟨carried _ _ w l, mset_outcome hmset⟩⟩
  · have hcount := count_outcome (hdel unlink) hl
    rw [fanoutDel]
    split_ifs with hkeys
    · subst hkeys
      have hnil : results (fanout (groupBySlot []) (countTask count (delName unlink)) w l) = [] := results_nil w l
      rw [hnil] at hcount
      exact hcount
    · exact hcount
  · have hcount := count_outcome hexists hl
    rw [fanoutExists]
    split_ifs with hkeys
    · subst hkeys
      have hnil : results (fanout (groupBySlot []) (countTask count "EXISTS") w l) = [] := results_nil w l
      rw [hnil] at hcount
      exact hcount
    · exact hcount

end Commands

/-- the groups of `a`, `b`, `a` -/
def groupA : UInt16 × List (ℕ × String) := (clusterSlot (asBytes "a"), [(0, "a"), (2, "a")])

def groupB : UInt16 × List (ℕ × String) := (clusterSlot (asBytes "b"), [(1, "b")])

/-- the server deletes `a`, and the call of the other slot fails with its command carried out -/
def lostReply : List (JoinSet.Event (UInt16 × List (ℕ × String)) (Joined ℤ) (Store Unit)) :=
  [.answer groupA, .fail groupB (.ok (.error Node.refused)) true, .join groupA, .join groupB]

theorem fanout_failures_lost :
    FailedWith (fanout (groupBySlot ["a", "b", "a"]) (delTask Node.count false) oneKey lostReply) Node.refused := by
  have hmget : ∀ (ks : List Bytes) (s : Store Unit), ks ≠ [] →
      (Node.values "MGET" ks s).1 = .ok (ks.map (Node.value s)) := by
    intro ks s hks
    rw [Node.values, if_pos ⟨rfl, hks⟩]
  have hdel : ∀ (unlink : Bool) (ks : List Bytes) (s : Store Unit), ks ≠ [] →
      (Node.count (delName unlink) ks s).1 = .ok (Node.del ks s).1 := by
    intro unlink ks s hks
    rw [Node.count, if_neg hks, if_pos (by cases unlink <;> decide)]
  have hexists : ∀ (ks : List Bytes) (s : Store Unit), ks ≠ [] →
      (Node.count "EXISTS" ks s).1 = .ok (Node.existing ks s).1 := by
    intro ks s hks
    rw [Node.count, if_neg hks, if_neg (by decide), if_pos rfl]
  have hmset : ∀ (pairs : List (Bytes × Bytes)) (s : Store Unit), pairs ≠ [] →
      Node.unit "MSET" (pairs.flatMap fun e => [e.1, e.2]) s = (.ok (), Node.mset pairs s) := by
    intro pairs s hpairs
    rw [Node.unit, Node.pairsOf_flatMap]
    exact if_pos ⟨rfl, hpairs⟩
  have h := ((fanout_failures Node.values Node.count Node.unit hmget hdel hexists hmset ["a", "b", "a"] [] oneKey).2.1
    false lostReply).2 (by decide +kernel)
  have herror : fanoutDel ["a", "b", "a"]
      (results (fanout (groupBySlot ["a", "b", "a"]) (delTask Node.count false) oneKey lostReply)) =
        .error Node.refused := by decide +kernel
  rw [herror] at h
  exact h

end RedisRsPy.Cluster
