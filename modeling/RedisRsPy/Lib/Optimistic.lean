/-
Optimistic transactions on one cell. The cell counts its writes; a transaction notes the count (`watch`), reads the cell,
and commits a function of what it read if the count has not moved. Anybody else may write the cell at any time.

The history records what happened. Results, for every run:
- `Inv.ver`, `Inv.val`: the cell is the history replayed, each commit applying its function to the value it finds;
- `Inv.clean`: between the watch and the commit of one attempt nobody wrote;
- `Inv.once`: a transaction commits exactly once if it is done, and otherwise not at all;
- `replay_commits`, `nodup_commitOrder`: with no foreign writes the cell is the functions of the transactions that are
  done, applied once each in the order of their commits.
-/
import Mathlib.Data.List.Count
import Mathlib.Data.List.Nodup
import RedisRsPy.Lib.Runs

namespace Lib.Optimistic

/-! ## Cell and transactions -/

structure Cell (V : Type) where
  val : V
  ver : ℕ

/-- where a transaction stands: `ver` is the count it noted, `v` what it read -/
inductive Phase (V : Type) where
  | idle
  | watching (ver : ℕ)
  | holding (ver : ℕ) (v : V)
  | done

inductive Act (ι V : Type) where
  | watch (i : ι)
  | read (i : ι)
  | commit (i : ι)
  /-- a write by anybody else -/
  | write (v : V)
  | skip

inductive Rec (ι V : Type) where
  | watched (i : ι)
  | read (i : ι) (v : V)
  | committed (i : ι)
  | aborted (i : ι)
  | written (v : V)

structure Sys (ι V : Type) where
  cell : Cell V
  phase : ι → Phase V
  /-- oldest first -/
  hist : List (Rec ι V)

variable {ι V : Type}

namespace Rec

def owner : Rec ι V → Option ι
  | watched i | read i _ | committed i | aborted i => some i
  | written _ => none

def isWrite : Rec ι V → Bool
  | committed _ | written _ => true
  | _ => false

def committer : Rec ι V → Option ι
  | committed i => some i
  | _ => none

def aborter : Rec ι V → Option ι
  | aborted i => some i
  | _ => none

/-- what the record does to the value -/
def effect (f : ι → V → V) (v : V) : Rec ι V → V
  | committed i => f i v
  | written v' => v'
  | _ => v

theorem effect_of_not_write {f : ι → V → V} {r : Rec ι V} (h : r.isWrite = false) (v : V) : effect f v r = v := by
  cases r <;> simp_all [isWrite, effect]

end Rec

def Phase.isDone : Phase V → Bool
  | .done => true
  | _ => false

/-- the value after a history -/
def replay (f : ι → V → V) (v : V) (l : List (Rec ι V)) : V := l.foldl (Rec.effect f) v

/-- the writes in a history -/
def writes (l : List (Rec ι V)) : ℕ := l.countP Rec.isWrite

/-- no record of `i` -/
def Quiet (i : ι) (l : List (Rec ι V)) : Prop := ∀ r ∈ l, r.owner ≠ some i

def Sys.start (c : Cell V) : Sys ι V := ⟨c, fun _ => .idle, []⟩

/-- `i` moves to phase `p`, on record -/
def Sys.enter [DecidableEq ι] (s : Sys ι V) (i : ι) (p : Phase V) (r : Rec ι V) : Sys ι V :=
  { s with phase := Function.update s.phase i p, hist := s.hist ++ [r] }

def step [DecidableEq ι] (f : ι → V → V) (s : Sys ι V) : Act ι V → Sys ι V
  | .watch i =>
    match s.phase i with
    | .idle => s.enter i (.watching s.cell.ver) (.watched i)
    | _ => s
  | .read i =>
    match s.phase i with
    | .watching n => s.enter i (.holding n s.cell.val) (.read i s.cell.val)
    | _ => s
  | .commit i =>
    match s.phase i with
    | .holding n v =>
      if n = s.cell.ver then { s.enter i .done (.committed i) with cell := ⟨f i v, s.cell.ver + 1⟩ }
      else s.enter i .idle (.aborted i)
    | _ => s
  | .write v => { s with cell := ⟨v, s.cell.ver + 1⟩, hist := s.hist ++ [.written v] }
  | .skip => s

/-- a move of `i` alone -/
def Act.by (i : ι) : Act ι V → Prop
  | .watch j | .read j | .commit j => j = i
  | .write _ => False
  | .skip => True

/-- a transaction moves the cell only by a commit -/
theorem step_by [DecidableEq ι] (f : ι → V → V) (s : Sys ι V) {a : Act ι V} {i : ι} (h : a.by i) :
    (step f s a).cell = s.cell ∨ (step f s a).hist = s.hist ++ [.committed i] := by
  cases a with
  | skip => exact Or.inl rfl
  | write v => exact absurd h id
  | watch j =>
    left
    cases hp : s.phase j <;> simp [step, hp, Sys.enter]
  | read j =>
    left
    cases hp : s.phase j <;> simp [step, hp, Sys.enter]
  | commit j =>
    have hj : j = i := h
    subst hj
    cases hp : s.phase j with
    | holding n v =>
      by_cases hn : n = s.cell.ver
      · exact Or.inr (by simp [step, hp, hn, Sys.enter])
      · exact Or.inl (by simp [step, hp, hn, Sys.enter])
    | idle => exact Or.inl (by simp [step, hp])
    | watching n => exact Or.inl (by simp [step, hp])
    | done => exact Or.inl (by simp [step, hp])

/-! ## Histories -/

theorem replay_append (f : ι → V → V) (v : V) (l m : List (Rec ι V)) :
    replay f v (l ++ m) = replay f (replay f v l) m := by
  simp [replay]

theorem replay_snoc (f : ι → V → V) (v : V) (l : List (Rec ι V)) (r : Rec ι V) :
    replay f v (l ++ [r]) = Rec.effect f (replay f v l) r := by
  simp [replay]

theorem replay_of_writes {f : ι → V → V} {l : List (Rec ι V)} (h : writes l = 0) (v : V) : replay f v l = v := by
  induction l generalizing v with
  | nil => rfl
  | cons r l ih =>
    have hr : r.isWrite = false := by simpa using List.countP_eq_zero.1 h r List.mem_cons_self
    have hl : writes l = 0 := List.countP_eq_zero.2 fun r' hr' => List.countP_eq_zero.1 h r' (List.mem_cons_of_mem _ hr')
    rw [replay, List.foldl_cons, Rec.effect_of_not_write hr]
    exact ih hl v

@[simp] theorem writes_append (l m : List (Rec ι V)) : writes (l ++ m) = writes l + writes m :=
  List.countP_append

theorem writes_cons_of_not_write {r : Rec ι V} (h : r.isWrite = false) (l : List (Rec ι V)) :
    writes (r :: l) = writes l := by
  simp [writes, h]

theorem Quiet.snoc {i : ι} {l : List (Rec ι V)} {r : Rec ι V} (h : Quiet i l) (hr : r.owner ≠ some i) :
    Quiet i (l ++ [r]) := by
  intro r' hr'
  rcases List.mem_append.1 hr' with hr' | hr'
  · exact h r' hr'
  · rw [List.mem_singleton.1 hr']
    exact hr

theorem quiet_nil (i : ι) : Quiet i ([] : List (Rec ι V)) := fun _ h => absurd h List.not_mem_nil

/-! ## The invariant -/

/-- `i` noted `n` and has done nothing since -/
def Watched (c : Cell V) (hist : List (Rec ι V)) (i : ι) (n : ℕ) : Prop :=
  ∃ p₁ p₂, hist = p₁ ++ .watched i :: p₂ ∧ Quiet i p₂ ∧ n = c.ver + writes p₁

/-- `i` noted `n`, then read `v`, and has done nothing else since -/
def Held (f : ι → V → V) (c : Cell V) (hist : List (Rec ι V)) (i : ι) (n : ℕ) (v : V) : Prop :=
  ∃ p₁ p₂ p₃, hist = p₁ ++ .watched i :: (p₂ ++ .read i v :: p₃) ∧ Quiet i p₂ ∧ Quiet i p₃ ∧
    n = c.ver + writes p₁ ∧ v = replay f c.val (p₁ ++ .watched i :: p₂)

/-- a history that `i` may commit after: it watched, then read, and nobody wrote from the watch on -/
def Clean (hist : List (Rec ι V)) (i : ι) : Prop :=
  ∃ v p₁ p₂ p₃, hist = p₁ ++ .watched i :: (p₂ ++ .read i v :: p₃) ∧ Quiet i p₂ ∧ Quiet i p₃ ∧
    writes p₂ = 0 ∧ writes p₃ = 0

/-- what the phase of `i` says about the history -/
def Stands (f : ι → V → V) (c : Cell V) (hist : List (Rec ι V)) (i : ι) : Phase V → Prop
  | .watching n => Watched c hist i n
  | .holding n v => Held f c hist i n v
  | .idle | .done => True

structure Inv [DecidableEq ι] (f : ι → V → V) (c : Cell V) (s : Sys ι V) : Prop where
  ver : s.cell.ver = c.ver + writes s.hist
  val : s.cell.val = replay f c.val s.hist
  stands : ∀ i, Stands f c s.hist i (s.phase i)
  once : ∀ i, s.hist.countP (fun r => r.committer = some i) = if (s.phase i).isDone then 1 else 0
  clean : ∀ pre i post, s.hist = pre ++ .committed i :: post → Clean pre i

theorem Stands.snoc {f : ι → V → V} {c : Cell V} {hist : List (Rec ι V)} {i : ι} {p : Phase V}
    (h : Stands f c hist i p) {r : Rec ι V} (hr : r.owner ≠ some i) : Stands f c (hist ++ [r]) i p := by
  cases p with
  | idle => trivial
  | done => trivial
  | watching n =>
    obtain ⟨p₁, p₂, rfl, hq, hn⟩ := h
    exact ⟨p₁, p₂ ++ [r], by simp, hq.snoc hr, hn⟩
  | holding n v =>
    obtain ⟨p₁, p₂, p₃, rfl, hq, hq', hn, hv⟩ := h
    exact ⟨p₁, p₂, p₃ ++ [r], by simp, hq, hq'.snoc hr, hn, hv⟩

/-- a transaction that holds the present count read the present value, and nobody wrote since its watch -/
theorem Held.clean {f : ι → V → V} {c : Cell V} {hist : List (Rec ι V)} {i : ι} {n : ℕ} {v : V}
    (h : Held f c hist i n v) (hn : n = c.ver + writes hist) : Clean hist i ∧ v = replay f c.val hist := by
  obtain ⟨p₁, p₂, p₃, rfl, hq, hq', hn', hv⟩ := h
  have hsum : writes (p₁ ++ .watched i :: (p₂ ++ .read i v :: p₃)) = writes p₁ + (writes p₂ + writes p₃) := by
    rw [writes_append, writes_cons_of_not_write rfl, writes_append, writes_cons_of_not_write rfl]
  have h₂ : writes p₂ = 0 := by omega
  have h₃ : writes p₃ = 0 := by omega
  refine ⟨⟨v, p₁, p₂, p₃, rfl, hq, hq', h₂, h₃⟩, ?_⟩
  have hsplit : p₁ ++ .watched i :: (p₂ ++ .read i v :: p₃) = (p₁ ++ .watched i :: p₂) ++ .read i v :: p₃ := by simp
  have hrest : writes (.read i v :: p₃) = 0 := by rw [writes_cons_of_not_write rfl, h₃]
  rw [hsplit, replay_append, replay_of_writes hrest]
  exact hv

section Steps

variable [DecidableEq ι] {f : ι → V → V} {c : Cell V} {s s' : Sys ι V} {r : Rec ι V}

theorem Inv.start (f : ι → V → V) (c : Cell V) : Inv f c (Sys.start c) := by
  refine ⟨rfl, rfl, fun i => trivial, fun i => rfl, fun pre i post h => ?_⟩
  simp [Sys.start] at h

/-- one more record: only its owner has something to show -/
theorem Inv.snoc (h : Inv f c s) (hhist : s'.hist = s.hist ++ [r]) (hver : s'.cell.ver = s.cell.ver + writes [r])
    (hval : s'.cell.val = Rec.effect f s.cell.val r) (hother : ∀ j, r.owner ≠ some j → s'.phase j = s.phase j)
    (hstands : ∀ i, r.owner = some i → Stands f c s'.hist i (s'.phase i))
    (hdone : ∀ i, r.owner = some i → (s.phase i).isDone = false ∧ ((s'.phase i).isDone = true ↔ r.committer = some i))
    (hclean : ∀ i, r = .committed i → Clean s.hist i) : Inv f c s' where
  ver := by rw [hver, h.ver, hhist, writes_append, Nat.add_assoc]
  val := by rw [hval, h.val, hhist, replay_snoc]
  stands i := by
    by_cases hi : r.owner = some i
    · exact hstands i hi
    · rw [hother i hi, hhist]
      exact (h.stands i).snoc hi
  once i := by
    have hlast : s'.hist.countP (fun r => r.committer = some i) =
        (if (s.phase i).isDone then 1 else 0) + if r.committer = some i then 1 else 0 := by
      rw [hhist, List.countP_append, h.once i]
      simp [List.countP_cons]
    by_cases hi : r.owner = some i
    · obtain ⟨hold, hnew⟩ := hdone i hi
      rw [hlast, hold]
      by_cases hc : r.committer = some i
      · simp [hc, hnew.2 hc]
      · have hnot : (s'.phase i).isDone = false := by simpa using fun hd => hc (hnew.1 hd)
        simp [hc, hnot]
    · have hc : r.committer ≠ some i := by
        cases r <;> simp_all [Rec.owner, Rec.committer]
      rw [hlast, hother i hi, if_neg hc, Nat.add_zero]
  clean pre i post hsplit := by
    rw [hhist] at hsplit
    rcases List.eq_nil_or_concat post with rfl | ⟨post, last, rfl⟩
    · obtain ⟨hpre, hlast⟩ := List.append_inj' hsplit rfl
      rw [← hpre]
      exact hclean i (List.singleton_inj.1 hlast)
    · rw [List.concat_eq_append, ← List.cons_append, ← List.append_assoc] at hsplit
      exact h.clean pre i post (List.append_inj' hsplit rfl).1

theorem step_inv (h : Inv f c s) (a : Act ι V) : Inv f c (step f s a) := by
  have hself : ∀ {i : ι} {p : Phase V} {r : Rec ι V}, (s.enter i p r).phase i = p := by
    intro i p r
    simp [Sys.enter]
  have hother : ∀ {i : ι} {p : Phase V} {r : Rec ι V}, r.owner = some i → ∀ j, r.owner ≠ some j →
      (s.enter i p r).phase j = s.phase j := by
    intro i p r hi j hj
    have hne : j ≠ i := fun hji => hj (hji ▸ hi)
    simp [Sys.enter, hne]
  cases a with
  | skip => exact h
  | write v =>
    refine h.snoc (r := .written v) rfl rfl rfl (fun j _ => rfl) ?_ ?_ ?_
    · intro i hi
      simp [Rec.owner] at hi
    · intro i hi
      simp [Rec.owner] at hi
    · intro i hi
      simp at hi
  | watch i =>
    cases hp : s.phase i with
    | idle =>
      simp only [step, hp]
      refine h.snoc (r := .watched i) rfl rfl rfl (hother rfl) ?_ ?_ ?_
      · rintro j ⟨⟩
        rw [hself]
        exact ⟨s.hist, [], rfl, quiet_nil i, h.ver⟩
      · rintro j ⟨⟩
        rw [hself, hp]
        simp [Phase.isDone, Rec.committer]
      · intro j hj
        simp at hj
    | watching n => simpa only [step, hp] using h
    | holding n v => simpa only [step, hp] using h
    | done => simpa only [step, hp] using h
  | read i =>
    cases hp : s.phase i with
    | watching n =>
      simp only [step, hp]
      refine h.snoc (r := .read i s.cell.val) rfl rfl rfl (hother rfl) ?_ ?_ ?_
      · rintro j ⟨⟩
        rw [hself]
        have hw := h.stands i
        rw [hp] at hw
        obtain ⟨p₁, p₂, hhist, hq, hn⟩ := hw
        refine ⟨p₁, p₂, [], ?_, hq, quiet_nil i, hn, ?_⟩
        · simp [Sys.enter, hhist]
        · rw [h.val, hhist]
      · rintro j ⟨⟩
        rw [hself, hp]
        simp [Phase.isDone, Rec.committer]
      · intro j hj
        simp at hj
    | idle => simpa only [step, hp] using h
    | holding n v => simpa only [step, hp] using h
    | done => simpa only [step, hp] using h
  | commit i =>
    cases hp : s.phase i with
    | holding n v =>
      have hheld := h.stands i
      rw [hp] at hheld
      simp only [step, hp]
      split_ifs with hn
      · obtain ⟨hclean, hv⟩ := hheld.clean (hn.trans h.ver)
        refine h.snoc (r := .committed i) rfl rfl ?_ (hother rfl) ?_ ?_ ?_
        · rw [Rec.effect, h.val, ← hv]
        · rintro j ⟨⟩
          have hnow : (s.enter i Phase.done (.committed i)).phase i = .done := hself
          simp only [hnow]
          trivial
        · rintro j ⟨⟩
          have hnow : ((s.enter i Phase.done (.committed i)).phase i).isDone = true := by rw [hself]; rfl
          exact ⟨by rw [hp]; rfl, fun _ => rfl, fun _ => hnow⟩
        · intro j hj
          cases hj
          exact hclean
      · refine h.snoc (r := .aborted i) rfl rfl rfl (hother rfl) ?_ ?_ ?_
        · rintro j ⟨⟩
          rw [hself]
          trivial
        · rintro j ⟨⟩
          rw [hself, hp]
          simp [Phase.isDone, Rec.committer]
        · intro j hj
          simp at hj
    | idle => simpa only [step, hp] using h
    | watching n => simpa only [step, hp] using h
    | done => simpa only [step, hp] using h

/-- **Every run** -/
theorem run_inv (f : ι → V → V) (c : Cell V) (l : List (Act ι V)) : Inv f c (run (step f) (Sys.start c) l) :=
  run_invariant' (I := Inv f c) (fun _ a h => step_inv h a) l (Inv.start f c)

end Steps

/-! ## The order of the commits -/

def commitOrder (l : List (Rec ι V)) : List ι := l.filterMap Rec.committer

/-- **Serial.** With no foreign writes the value is the functions of the commits, in their order. -/
theorem replay_commits (f : ι → V → V) {l : List (Rec ι V)} (h : ∀ r ∈ l, ∀ v, r ≠ .written v) (v : V) :
    replay f v l = (commitOrder l).foldl (fun v i => f i v) v := by
  induction l generalizing v with
  | nil => rfl
  | cons r l ih =>
    have hl := ih fun r' hr' => h r' (List.mem_cons_of_mem _ hr')
    cases r with
    | committed i => exact hl (f i v)
    | written v' => exact absurd rfl (h _ List.mem_cons_self v')
    | watched i => exact hl v
    | read i v' => exact hl v
    | aborted i => exact hl v

theorem count_commitOrder [DecidableEq ι] (l : List (Rec ι V)) (i : ι) :
    (commitOrder l).count i = l.countP fun r => r.committer = some i := by
  induction l with
  | nil => rfl
  | cons r l ih =>
    cases hr : r.committer with
    | none => simp [commitOrder, hr, ← ih]
    | some j => simp [commitOrder, hr, List.countP_cons, List.count_cons, ← ih]

section Order

variable [DecidableEq ι] {f : ι → V → V} {c : Cell V} {s : Sys ι V}

theorem Inv.nodup_commitOrder (h : Inv f c s) : (commitOrder s.hist).Nodup := by
  rw [List.nodup_iff_count_le_one]
  intro i
  rw [count_commitOrder, h.once i]
  split_ifs <;> omega

theorem Inv.mem_commitOrder (h : Inv f c s) (i : ι) : i ∈ commitOrder s.hist ↔ (s.phase i).isDone = true := by
  rw [← List.count_pos_iff, count_commitOrder, h.once i]
  split_ifs with hd <;> simp [hd]

end Order

end Lib.Optimistic
