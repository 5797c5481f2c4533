/-
Optimistic transactions on a store of many keys. A transaction notes how often each key of its list was written
(`watch`), reads keys one after another, each choice depending on what it read so far, and ends in a block of writes
that takes effect if none of its noted keys was written since (`commit`), or with nothing to write and nothing checked
(`leave`). It may give up anywhere. Anybody else may write any key at any time.

A transaction is `Within` its list if it reads no key outside of it. Results, for every run of such transactions:
- `Inv.store`: the store is the history replayed, each commit running its whole transaction at once;
- `Inv.result`: what a transaction is left with is what it computes on the store at its place in the history;
- `Inv.once`: it commits exactly once if it is done, and otherwise not at all, so never if it left;
- `Inv.seen`: each of its reads, checked in the end or not, gave the value of its key at one moment of the history, and
  later reads are of later moments;
- `Inv.aborts`: it is sent back at most once for each write of somebody else.
-/
import Mathlib.Data.List.Count
import Mathlib.Data.List.Nodup
import RedisRsPy.Lib.Runs

namespace Lib.Serializable

/-! ## Transactions and the store -/

/-- reads one after another, then a block: a result and writes, from the store it is run on; or a result alone; or
nothing -/
inductive Body (K V α : Type) where
  | read (k : K) (next : V → Body K V α)
  | exec (block : (K → V) → α × List (K × V))
  | leave (a : α)
  | fail

structure Store (K V : Type) where
  val : K → V
  /-- how often each key was written -/
  ver : K → ℕ

inductive Phase (K V α : Type) where
  | idle
  /-- the counts it noted, and what it has still to do -/
  | running (notes : List (K × ℕ)) (rest : Body K V α)
  | done (a : α)
  /-- it had nothing to write -/
  | left (a : α)

inductive Act (ι K V : Type) where
  | watch (i : ι)
  | read (i : ι)
  | commit (i : ι)
  | leave (i : ι)
  | abandon (i : ι)
  /-- a write by anybody else -/
  | write (k : K) (v : V)
  | skip

inductive Rec (ι K V : Type) where
  | committed (i : ι)
  | aborted (i : ι)
  | written (k : K) (v : V)

structure Sys (ι K V α : Type) where
  store : Store K V
  phase : ι → Phase K V α
  /-- oldest first -/
  hist : List (Rec ι K V)

variable {ι K V α : Type}

namespace Body

/-- the whole transaction at once -/
def eval : Body K V α → (K → V) → Option (α × List (K × V))
  | read k next, s => (next (s k)).eval s
  | exec block, s => some (block s)
  | leave a, _ => some (a, [])
  | fail, _ => none

/-- no key outside of `W` is read -/
def Within (W : List K) : Body K V α → Prop
  | read k next => k ∈ W ∧ ∀ v, (next v).Within W
  | exec _ => True
  | leave _ => True
  | fail => True

end Body

namespace Rec

def committer : Rec ι K V → Option ι
  | committed i => some i
  | _ => none

def aborter : Rec ι K V → Option ι
  | aborted i => some i
  | _ => none

/-- somebody but `i` may have written -/
def ByOther [DecidableEq ι] (i : ι) : Rec ι K V → Bool
  | committed j => decide (j ≠ i)
  | aborted _ => false
  | written _ _ => true

end Rec

def Phase.isDone : Phase K V α → Bool
  | .done _ => true
  | _ => false

/-- what is left of a transaction that is running, or that left -/
def Phase.rest : Phase K V α → Option (Body K V α)
  | .running _ rest => some rest
  | .left a => some (.leave a)
  | _ => none

section Keys

variable [DecidableEq K]

/-- writes, in their order -/
def putAll (ws : List (K × V)) (s : K → V) : K → V := ws.foldl (fun s w => Function.update s w.1 w.2) s

def bump (ver : K → ℕ) (k : K) : K → ℕ := Function.update ver k (ver k + 1)

def Store.putAll (s : Store K V) (ws : List (K × V)) : Store K V :=
  ⟨Serializable.putAll ws s.val, ws.foldl (fun ver w => bump ver w.1) s.ver⟩

/-- what a transaction makes of a store when it runs at once -/
def Body.apply (b : Body K V α) (s : K → V) : K → V :=
  match b.eval s with
  | some o => Serializable.putAll o.2 s
  | none => s

/-- what a record does to the store -/
def Rec.effect (b : ι → Body K V α) (s : K → V) : Rec ι K V → K → V
  | committed i => (b i).apply s
  | written k v => Function.update s k v
  | aborted _ => s

def replay (b : ι → Body K V α) (s : K → V) (l : List (Rec ι K V)) : K → V := l.foldl (Rec.effect b) s

/-- what is left of a transaction after reads at moments of a history, one after another -/
inductive Seen (b : ι → Body K V α) (s : K → V) : List (Rec ι K V) → Body K V α → Body K V α → Prop where
  | start (l : List (Rec ι K V)) (body : Body K V α) : Seen b s l body body
  | read {l : List (Rec ι K V)} {body : Body K V α} {k : K} {next : V → Body K V α} :
      Seen b s l body (.read k next) → Seen b s l body (next (replay b s l k))
  | later {l : List (Rec ι K V)} {body rest : Body K V α} (r : Rec ι K V) :
      Seen b s l body rest → Seen b s (l ++ [r]) body rest

/-- no noted key was written since -/
def Fresh (ver : K → ℕ) (notes : List (K × ℕ)) : Prop := ∀ e ∈ notes, ver e.1 = e.2

instance (ver : K → ℕ) (notes : List (K × ℕ)) : Decidable (Fresh ver notes) := List.decidableBAll _ _

variable [DecidableEq ι]

def Sys.start (c : Store K V) : Sys ι K V α := ⟨c, fun _ => .idle, []⟩

def Sys.enter (s : Sys ι K V α) (i : ι) (p : Phase K V α) : Sys ι K V α :=
  { s with phase := Function.update s.phase i p }

def step (b : ι → Body K V α) (W : ι → List K) (s : Sys ι K V α) : Act ι K V → Sys ι K V α
  | .watch i =>
    match s.phase i with
    | .idle => s.enter i (.running ((W i).map fun k => (k, s.store.ver k)) (b i))
    | _ => s
  | .read i =>
    match s.phase i with
    | .running notes (.read k next) => s.enter i (.running notes (next (s.store.val k)))
    | _ => s
  | .commit i =>
    match s.phase i with
    | .running notes (.exec block) =>
      if Fresh s.store.ver notes then
        { s.enter i (.done (block s.store.val).1) with
          store := s.store.putAll (block s.store.val).2
          hist := s.hist ++ [.committed i] }
      else { s.enter i .idle with hist := s.hist ++ [.aborted i] }
    | _ => s
  | .leave i =>
    match s.phase i with
    | .running _ (.leave a) => s.enter i (.left a)
    | _ => s
  | .abandon i =>
    match s.phase i with
    | .running _ _ => s.enter i .idle
    | _ => s
  | .write k v => { s with store := s.store.putAll [(k, v)], hist := s.hist ++ [.written k v] }
  | .skip => s

end Keys

/-! ## Writes -/

section Writes

variable [DecidableEq K]

theorem replay_snoc (b : ι → Body K V α) (s : K → V) (l : List (Rec ι K V)) (r : Rec ι K V) :
    replay b s (l ++ [r]) = Rec.effect b (replay b s l) r := by
  simp [replay]

/-- counts only grow, and a key that is written counts one more at least -/
theorem ver_putAll (s : Store K V) (ws : List (K × V)) (k : K) :
    s.ver k ≤ (s.putAll ws).ver k ∧ (k ∈ ws.map Prod.fst → s.ver k < (s.putAll ws).ver k) := by
  induction ws generalizing s with
  | nil => exact ⟨Nat.le_refl _, fun h => absurd h List.not_mem_nil⟩
  | cons w ws ih =>
    obtain ⟨hle, hlt⟩ := ih ⟨Function.update s.val w.1 w.2, bump s.ver w.1⟩
    have hstep : (s.putAll (w :: ws)).ver =
        (Store.putAll ⟨Function.update s.val w.1 w.2, bump s.ver w.1⟩ ws).ver := rfl
    rw [hstep]
    by_cases hk : k = w.1
    · subst hk
      have hbump : bump s.ver w.1 w.1 = s.ver w.1 + 1 := by simp [bump]
      simp only [hbump] at hle
      exact ⟨by omega, fun _ => by omega⟩
    · have hbump : bump s.ver w.1 k = s.ver k := by simp [bump, hk]
      simp only [hbump] at hle hlt
      refine ⟨hle, fun hmem => hlt ?_⟩
      rw [List.map_cons, List.mem_cons] at hmem
      exact hmem.resolve_left hk

/-- a key that is not written keeps its value -/
theorem putAll_of_not_mem {ws : List (K × V)} {k : K} (h : k ∉ ws.map Prod.fst) (s : K → V) :
    putAll ws s k = s k := by
  induction ws generalizing s with
  | nil => rfl
  | cons w ws ih =>
    rw [List.map_cons, List.mem_cons, not_or] at h
    have hrest := ih h.2 (Function.update s w.1 w.2)
    rw [Function.update_of_ne h.1] at hrest
    exact hrest

/-- keys whose counts stand still were not written -/
theorem val_of_ver {s : Store K V} {ws : List (K × V)} {k : K} (h : (s.putAll ws).ver k = s.ver k) :
    (s.putAll ws).val k = s.val k := by
  refine putAll_of_not_mem (fun hmem => ?_) s.val
  have hlt := (ver_putAll s ws k).2 hmem
  omega

theorem Body.apply_of_eval {b : Body K V α} {s : K → V} {o : α × List (K × V)} (h : b.eval s = some o) :
    b.apply s = Serializable.putAll o.2 s := by
  rw [Body.apply, h]

end Writes

/-! ## The invariant -/

section Stands

variable {body : Body K V α} {W : List K} {c : Store K V} {notes : List (K × ℕ)}

/-- what is known of a transaction that noted counts: they are no higher than the present ones, and as long as they are
the present ones, what is left of it does what all of it would do -/
structure Stands (body : Body K V α) (W : List K) (c : Store K V) (notes : List (K × ℕ)) (rest : Body K V α) :
    Prop where
  keys : notes.map Prod.fst = W
  old : ∀ e ∈ notes, e.2 ≤ c.ver e.1
  within : rest.Within W
  same : Fresh c.ver notes → ∀ s : K → V, (∀ k ∈ W, s k = c.val k) → body.eval s = rest.eval s

/-- a transaction that has read nothing yet -/
theorem Stands.watch (hbody : body.Within W) (c : Store K V) :
    Stands body W c (W.map fun k => (k, c.ver k)) body where
  keys := by simp [Function.comp_def]
  old e he := by
    obtain ⟨k, -, rfl⟩ := List.mem_map.1 he
    exact Nat.le_refl _
  within := hbody
  same _ _ _ := rfl

theorem fresh_watch (W : List K) (c : Store K V) : Fresh c.ver (W.map fun k => (k, c.ver k)) := by
  intro e he
  obtain ⟨k, -, rfl⟩ := List.mem_map.1 he
  rfl

/-- it reads a key of its list -/
theorem Stands.read {k : K} {next : V → Body K V α} (h : Stands body W c notes (.read k next)) :
    Stands body W c notes (next (c.val k)) where
  keys := h.keys
  old := h.old
  within := h.within.2 _
  same hfresh s hs := by
    rw [h.same hfresh s hs, Body.eval, hs k h.within.1]

/-- somebody else writes: either a noted key, or nothing that matters to it -/
theorem Stands.putAll [DecidableEq K] {rest : Body K V α} (h : Stands body W c notes rest) (ws : List (K × V)) :
    Stands body W (c.putAll ws) notes rest where
  keys := h.keys
  old e he := Nat.le_trans (h.old e he) (ver_putAll c ws e.1).1
  within := h.within
  same hfresh s hs := by
    have hstill : ∀ e ∈ notes, (c.putAll ws).ver e.1 = c.ver e.1 := by
      intro e he
      have hnow := hfresh e he
      have hold := h.old e he
      have hle := (ver_putAll c ws e.1).1
      omega
    refine h.same (fun e he => (hstill e he).symm.trans (hfresh e he)) s fun k hk => ?_
    rw [← h.keys] at hk
    obtain ⟨e, he, rfl⟩ := List.mem_map.1 hk
    have hkey : e.1 ∈ W := by
      rw [← h.keys]
      exact List.mem_map_of_mem he
    rw [hs e.1 hkey]
    exact val_of_ver (hstill e he)

/-- a transaction that finds its counts at the end does what all of it does on the present store -/
theorem Stands.eval {block : (K → V) → α × List (K × V)} (h : Stands body W c notes (.exec block))
    (hfresh : Fresh c.ver notes) : body.eval c.val = some (block c.val) :=
  h.same hfresh c.val fun _ _ => rfl

end Stands

section Invariant

variable [DecidableEq K] [DecidableEq ι]

structure Inv (b : ι → Body K V α) (W : ι → List K) (c : Store K V) (s : Sys ι K V α) : Prop where
  store : s.store.val = replay b c.val s.hist
  stands : ∀ i notes rest, s.phase i = .running notes rest → Stands (b i) (W i) s.store notes rest
  once : ∀ i, s.hist.countP (fun r => r.committer = some i) = if (s.phase i).isDone then 1 else 0
  seen : ∀ i rest, (s.phase i).rest = some rest → Seen b c.val s.hist (b i) rest
  /-- a transaction that is done has its place in the history, and the result that belongs there -/
  result : ∀ i a, s.phase i = .done a → ∃ pre post ws, s.hist = pre ++ .committed i :: post ∧
    (b i).eval (replay b c.val pre) = some (a, ws)
  aborts : ∀ i, s.hist.countP (fun r => r.aborter = some i) ≤ s.hist.countP (Rec.ByOther i)
  /-- and one more was there if it is going to be sent back -/
  stale : ∀ i notes rest, s.phase i = .running notes rest → ¬ Fresh s.store.ver notes →
    s.hist.countP (fun r => r.aborter = some i) < s.hist.countP (Rec.ByOther i)

variable {b : ι → Body K V α} {W : ι → List K} {c : Store K V} {s : Sys ι K V α}

theorem Inv.start (b : ι → Body K V α) (W : ι → List K) (c : Store K V) : Inv b W c (Sys.start c) where
  store := rfl
  stands i notes rest h := by simp [Sys.start] at h
  once i := rfl
  seen i rest h := by simp [Sys.start, Phase.rest] at h
  result i a h := by simp [Sys.start] at h
  aborts i := Nat.le_refl _
  stale i notes rest h := by simp [Sys.start] at h

/-- `i` alone moves on, with nothing on record -/
theorem Inv.enter (h : Inv b W c s) {i : ι} {p : Phase K V α} (hold : (s.phase i).isDone = false)
    (hnew : p.isDone = false) (hstands : ∀ notes rest, p = .running notes rest →
      Stands (b i) (W i) s.store notes rest ∧ (¬ Fresh s.store.ver notes →
        ∃ notes' rest', s.phase i = .running notes' rest' ∧ ¬ Fresh s.store.ver notes'))
    (hseen : ∀ rest, p.rest = some rest → Seen b c.val s.hist (b i) rest) : Inv b W c (s.enter i p) where
  store := h.store
  stands j notes rest hj := by
    by_cases hji : j = i
    · subst hji
      exact (hstands notes rest (by simpa [Sys.enter] using hj)).1
    · exact h.stands j notes rest (by simpa [Sys.enter, hji] using hj)
  once j := by
    have hcount := h.once j
    by_cases hji : j = i
    · subst hji
      simpa [Sys.enter, hold, hnew] using hcount
    · simpa [Sys.enter, hji] using hcount
  seen j rest hj := by
    by_cases hji : j = i
    · subst hji
      exact hseen rest (by simpa [Sys.enter] using hj)
    · exact h.seen j rest (by simpa [Sys.enter, hji] using hj)
  result j a hj := by
    by_cases hji : j = i
    · subst hji
      have hp : p = .done a := by simpa [Sys.enter] using hj
      rw [hp] at hnew
      cases hnew
    · exact h.result j a (by simpa [Sys.enter, hji] using hj)
  aborts := h.aborts
  stale j notes rest hj hfresh := by
    by_cases hji : j = i
    · subst hji
      obtain ⟨notes', rest', hphase, hstale⟩ := (hstands notes rest (by simpa [Sys.enter] using hj)).2 hfresh
      exact h.stale j notes' rest' hphase hstale
    · exact h.stale j notes rest (by simpa [Sys.enter, hji] using hj) hfresh

/-- one more record: a commit or an abort of a transaction that ran, or a foreign write -/
theorem Inv.record (h : Inv b W c s) {s' : Sys ι K V α} (r : Rec ι K V) (ws : List (K × V))
    (hhist : s'.hist = s.hist ++ [r]) (hstore : s'.store = s.store.putAll ws)
    (hval : s'.store.val = r.effect b s.store.val)
    (hother : ∀ j, r.committer ≠ some j → r.aborter ≠ some j → s'.phase j = s.phase j)
    (hwrites : ∀ j, r.ByOther j = false → r.committer ≠ some j → ws = [])
    (hcommit : ∀ i, r.committer = some i → (s.phase i).isDone = false ∧
      ∃ o, s'.phase i = .done o.1 ∧ (b i).eval s.store.val = some o)
    (habort : ∀ i, r.aborter = some i → s'.phase i = .idle ∧ ∃ notes rest, s.phase i = .running notes rest ∧
      ¬ Fresh s.store.ver notes) : Inv b W c s' where
  store := by rw [hval, h.store, hhist, replay_snoc]
  stands j notes rest hj := by
    by_cases hc : r.committer = some j
    · obtain ⟨-, o, hdone, -⟩ := hcommit j hc
      rw [hdone] at hj
      cases hj
    · by_cases ha : r.aborter = some j
      · rw [(habort j ha).1] at hj
        cases hj
      · rw [hother j hc ha] at hj
        rw [hstore]
        exact (h.stands j notes rest hj).putAll ws
  once j := by
    have hcount := h.once j
    rw [hhist, List.countP_append, hcount, List.countP_singleton]
    by_cases hc : r.committer = some j
    · obtain ⟨hold, o, hdone, -⟩ := hcommit j hc
      rw [hold, hdone]
      simp [hc, Phase.isDone]
    · by_cases ha : r.aborter = some j
      · obtain ⟨hidle, notes, rest, hrun, -⟩ := habort j ha
        simp [hc, hidle, hrun, Phase.isDone]
      · simp [hc, hother j hc ha]
  seen j rest hj := by
    rw [hhist]
    by_cases hc : r.committer = some j
    · obtain ⟨-, o, hdone, -⟩ := hcommit j hc
      rw [hdone] at hj
      cases hj
    · by_cases ha : r.aborter = some j
      · rw [(habort j ha).1] at hj
        cases hj
      · rw [hother j hc ha] at hj
        exact (h.seen j rest hj).later r
  result j a hj := by
    by_cases hc : r.committer = some j
    · obtain ⟨-, o, hdone, heval⟩ := hcommit j hc
      rw [hdone] at hj
      cases hj
      refine ⟨s.hist, [], o.2, ?_, ?_⟩
      · cases r <;> simp_all [Rec.committer]
      · rw [← h.store]
        exact heval
    · have hold : s.phase j = .done a := by
        by_cases ha : r.aborter = some j
        · rw [(habort j ha).1] at hj
          cases hj
        · rw [← hother j hc ha]
          exact hj
      obtain ⟨pre, post, ws', hsplit, heval⟩ := h.result j a hold
      exact ⟨pre, post ++ [r], ws', by rw [hhist, hsplit]; simp, heval⟩
  aborts j := by
    have hle := h.aborts j
    rw [hhist, List.countP_append, List.countP_append, List.countP_singleton, List.countP_singleton]
    by_cases ha : r.aborter = some j
    · obtain ⟨-, notes, rest, hrun, hstale⟩ := habort j ha
      have hlt := h.stale j notes rest hrun hstale
      simp only [ha, decide_true, if_true]
      omega
    · simp only [ha, decide_false, Bool.false_eq_true, if_false]
      omega
  stale j notes rest hj hfresh := by
    rw [hhist, List.countP_append, List.countP_append, List.countP_singleton, List.countP_singleton]
    by_cases ha : r.aborter = some j
    · rw [(habort j ha).1] at hj
      cases hj
    · by_cases hc : r.committer = some j
      · obtain ⟨-, o, hdone, -⟩ := hcommit j hc
        rw [hdone] at hj
        cases hj
      · rw [hother j hc ha] at hj
        have hle := h.aborts j
        by_cases hby : r.ByOther j = true
        · simp only [ha, hby, decide_false, Bool.false_eq_true, if_false, if_true]
          omega
        · -- nothing was written: the counts were stale before
          have hnone := hwrites j (by simpa using hby) hc
          rw [hstore, hnone] at hfresh
          have hlt := h.stale j notes rest hj hfresh
          simp only [ha, hby, decide_false, Bool.false_eq_true, if_false]
          omega

theorem step_inv (hb : ∀ i, (b i).Within (W i)) (h : Inv b W c s) (a : Act ι K V) : Inv b W c (step b W s a) := by
  cases a with
  | skip => exact h
  | write k v =>
    refine h.record (.written k v) [(k, v)] rfl rfl rfl (fun j _ _ => rfl) ?_ ?_ ?_
    · intro j hj
      cases hj
    · intro i hi
      cases hi
    · intro i hi
      cases hi
  | watch i =>
    cases hp : s.phase i with
    | idle =>
      simp only [step, hp]
      refine h.enter (by rw [hp]; rfl) rfl ?_ ?_
      · rintro notes rest ⟨⟩
        exact ⟨.watch (hb i) s.store, fun hstale => absurd (fresh_watch (W i) s.store) hstale⟩
      · rintro rest ⟨⟩
        exact .start s.hist (b i)
    | _ => simpa only [step, hp] using h
  | read i =>
    cases hp : s.phase i with
    | running notes rest =>
      cases rest with
      | read k next =>
        simp only [step, hp]
        refine h.enter (by rw [hp]; rfl) rfl ?_ ?_
        · rintro notes rest ⟨⟩
          exact ⟨(h.stands i _ _ hp).read, fun hstale => ⟨_, _, hp, hstale⟩⟩
        · rintro rest ⟨⟩
          have hseen := h.seen i (.read k next) (by rw [hp]; rfl)
          rw [h.store]
          exact hseen.read
      | _ => simpa only [step, hp] using h
    | _ => simpa only [step, hp] using h
  | leave i =>
    cases hp : s.phase i with
    | running notes rest =>
      cases rest with
      | leave a =>
        simp only [step, hp]
        refine h.enter (by rw [hp]; rfl) rfl ?_ ?_
        · intro notes rest hleft
          cases hleft
        · rintro rest ⟨⟩
          exact h.seen i (.leave a) (by rw [hp]; rfl)
      | _ => simpa only [step, hp] using h
    | _ => simpa only [step, hp] using h
  | abandon i =>
    cases hp : s.phase i with
    | running notes rest =>
      simp only [step, hp]
      refine h.enter (by rw [hp]; rfl) rfl ?_ ?_
      · intro notes rest hidle
        cases hidle
      · intro rest hidle
        cases hidle
    | _ => simpa only [step, hp] using h
  | commit i =>
    cases hp : s.phase i with
    | running notes rest =>
      cases rest with
      | exec block =>
        simp only [step, hp]
        split_ifs with hfresh
        · have heval := (h.stands i _ _ hp).eval hfresh
          refine h.record (.committed i) (block s.store.val).2 rfl rfl ?_ ?_ ?_ ?_ ?_
          · rw [Rec.effect, Body.apply_of_eval heval]
            rfl
          · intro j hj _
            have hne : j ≠ i := fun hji => hj (by rw [hji]; rfl)
            simp [Sys.enter, hne]
          · intro j hby hj
            simp only [Rec.ByOther, decide_eq_false_iff_not, not_not] at hby
            exact absurd (by rw [hby]; rfl) hj
          · rintro j ⟨⟩
            exact ⟨by rw [hp]; rfl, _, by simp [Sys.enter], heval⟩
          · intro j hj
            cases hj
        · refine h.record (.aborted i) [] rfl rfl rfl ?_ (fun _ _ _ => rfl) ?_ ?_
          · intro j _ hj
            have hne : j ≠ i := fun hji => hj (by rw [hji]; rfl)
            simp [Sys.enter, hne]
          · intro j hj
            cases hj
          · rintro j ⟨⟩
            exact ⟨by simp [Sys.enter], _, _, hp, hfresh⟩
      | _ => simpa only [step, hp] using h
    | _ => simpa only [step, hp] using h

/-- **Every run** -/
theorem run_inv (hb : ∀ i, (b i).Within (W i)) (c : Store K V) (l : List (Act ι K V)) :
    Inv b W c (run (step b W) (Sys.start c) l) :=
  run_invariant' (I := Inv b W c) (fun _ a h => step_inv hb h a) l (Inv.start b W c)

end Invariant

end Lib.Serializable
