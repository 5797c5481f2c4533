/-
The protocol of one reservation shared by the tasks of an `AsyncPipeline`, without the commands.

A DESK is the slot for the reserved connection, the watch fields of the pipeline, what is WATCHed on which connection,
and for each task its ROLE towards the reservation: outside; about to reserve one; about to take it; holding it, to put
it back; about to write `None`; about to mark the keys it watched; closing.

`Step` is the protocol: who may take the reservation, and when. Nobody takes it, or sets out to, while it is out;
nobody sets out to watch while somebody is about to write `None`; and between the put-back of a watch and its mark
nobody unwatches, executes or closes.

Results:
- `step_inv`: every step of the protocol keeps `Inv`;
- `Inv.idle`: when no task has a role, a watching pipeline has its reservation, WATCHed for every watched key, and a
  closed one has neither.
-/
import Mathlib.Data.List.Basic

namespace RedisRsPy.Reservation

/-- what a task that holds the reservation does with it -/
inductive Use where
  | plain
  | unwatching
  /-- WATCH went through for these keys -/
  | watched (keys : List String)
deriving DecidableEq

inductive Role where
  | outside
  | reserving
  | taking
  | holding (c : ℕ) (use : Use)
  /-- it will write `None`; `exec`: as the end of a watched execute, which clears the watch too -/
  | erasing (exec : Bool)
  | marking (keys : List String)
  | closing
  | dead
deriving DecidableEq

/-- it has the reservation out, or is on its way to store or take it -/
def Role.handling : Role → Bool
  | reserving | taking | holding _ _ => true
  | _ => false

/-- the slot is empty while it is at this point -/
def Role.out : Role → Bool
  | reserving | holding _ _ => true
  | _ => false

structure Desk (ι : Type) where
  role : ι → Role
  reserved : Option ℕ
  watching : Bool
  keys : List String
  closed : Bool
  /-- the connection has WATCHed the key, and sent no UNWATCH or EXEC since -/
  watches : ℕ → String → Prop

variable {ι : Type}

/-- nobody handles the reservation -/
def Desk.Free (d : Desk ι) : Prop := ∀ j, (d.role j).handling = false

/-- nobody is between the put-back of a watch and its mark -/
def Desk.Marked (d : Desk ι) : Prop := ∀ j ks, d.role j ≠ .marking ks

/-- the pipeline's connection: in the slot, or out with the task that holds it -/
def Desk.Current (d : Desk ι) (c : ℕ) : Prop := d.reserved = some c ∨ ∃ i use, d.role i = .holding c use

/-- other connections keep their watches -/
def KeepsOthers (c : ℕ) (w w' : ℕ → String → Prop) : Prop := ∀ c' k, c' ≠ c → w c' k → w' c' k

def Grows (w w' : ℕ → String → Prop) : Prop := ∀ c k, w c k → w' c k

/-! ## Custody -/

/-- who has the reservation: at most one task handles it, the slot is empty while it is out and while somebody is about
to write `None`, and full while somebody is about to take it -/
structure Custody (d : Desk ι) : Prop where
  alive : ∀ i, d.role i ≠ .dead
  one : ∀ i j, (d.role i).handling = true → (d.role j).handling = true → i = j
  out : ∀ i, (d.role i).out = true → d.reserved = none
  stored : ∀ i, d.role i = .taking → d.reserved ≠ none
  erasing : ∀ i b, d.role i = .erasing b → d.reserved = none ∧ d.Free

theorem Role.handling_of_out {r : Role} (h : r.out = true) : r.handling = true := by
  cases r <;> simp_all [Role.out, Role.handling]

/-- while `i` handles the reservation, nobody else does, and nobody is about to write `None` -/
theorem Custody.others {d : Desk ι} (h : Custody d) {i : ι} (hi : (d.role i).handling = true) (j : ι) (hj : j ≠ i) :
    (d.role j).handling = false ∧ ∀ b, d.role j ≠ .erasing b := by
  constructor
  · cases hh : (d.role j).handling with
    | false => rfl
    | true => exact absurd (h.one j i hh hi) hj
  · intro b hb
    have hfree := (h.erasing j b hb).2 i
    rw [hi] at hfree
    cases hfree

/-- nobody is about to write `None` over a reservation -/
theorem Custody.not_erasing {d : Desk ι} (h : Custody d) (hr : d.reserved ≠ none) (j : ι) (b : Bool) :
    d.role j ≠ .erasing b :=
  fun hj => hr (h.erasing j b hj).1

theorem Custody.current_unique {d : Desk ι} (h : Custody d) {c c' : ℕ} (hc : d.Current c) (hc' : d.Current c') :
    c = c' := by
  rcases hc with hc | ⟨i, u, hi⟩
  · rcases hc' with hc' | ⟨j, u', hj⟩
    · rw [hc] at hc'
      exact Option.some.inj hc'
    · have hnone := h.out j (by rw [hj]; rfl)
      rw [hc] at hnone
      cases hnone
  · rcases hc' with hc' | ⟨j, u', hj⟩
    · have hnone := h.out i (by rw [hi]; rfl)
      rw [hc'] at hnone
      cases hnone
    · have hij := h.one i j (by rw [hi]; rfl) (by rw [hj]; rfl)
      rw [hij, hj] at hi
      cases hi
      rfl

theorem Custody.current_of_current {d d' : Desk ι} (h : Custody d) {c₀ : ℕ} (hc₀ : d.Current c₀) (hc₀' : d'.Current c₀)
    (c : ℕ) (hc : d.Current c) : d'.Current c := by
  rw [h.current_unique hc hc₀]
  exact hc₀'

/-! ## Coverage -/

/-- the pipeline's connection is there and has WATCHed the keys -/
def Desk.Covers (d : Desk ι) (ks : List String) : Prop := ∃ c, d.Current c ∧ ∀ k ∈ ks, d.watches c k

/-- a task is about to clear the watch: the end of a watched execute, or of an unwatch -/
def Desk.Clearing (d : Desk ι) : Prop := (∃ i, d.role i = .erasing true) ∨ ∃ i c, d.role i = .holding c .unwatching

structure Coverage (d : Desk ι) : Prop where
  watching : d.watching = true → d.Clearing ∨ d.Covers d.keys
  keys : d.keys ≠ [] → d.watching = true
  put : ∀ i c ks, d.role i = .holding c (.watched ks) → ∀ k ∈ ks, d.watches c k
  mark : ∀ i ks, d.role i = .marking ks → d.Covers ks
  unwatch : ∀ i c j ks, d.role i = .holding c .unwatching → d.role j = .marking ks → ks = []

theorem Desk.Covers.mono {d d' : Desk ι} {ks : List String} (h : d.Covers ks) (hcur : ∀ c, d.Current c → d'.Current c)
    (hw : Grows d.watches d'.watches) : d'.Covers ks := by
  obtain ⟨c, hc, hk⟩ := h
  exact ⟨c, hcur c hc, fun k hks => hw c k (hk k hks)⟩

/-- a step that clears the watch fields leaves nothing to cover -/
theorem Coverage.cleared {d' : Desk ι} (hwatching : d'.watching = false) (hkeys : d'.keys = [])
    (hput : ∀ i c ks, d'.role i = .holding c (.watched ks) → ∀ k ∈ ks, d'.watches c k)
    (hmark : ∀ i ks, d'.role i = .marking ks → d'.Covers ks)
    (hunwatch : ∀ i c j ks, d'.role i = .holding c .unwatching → d'.role j = .marking ks → ks = []) : Coverage d' :=
  ⟨fun h => absurd h (by rw [hwatching]; simp), fun h => absurd hkeys h, hput, hmark, hunwatch⟩

theorem grows_refl (w : ℕ → String → Prop) : Grows w w := fun _ _ h => h

theorem handling_of_holding {d : Desk ι} {i : ι} {c : ℕ} {u : Use} (hi : d.role i = .holding c u) :
    (d.role i).handling = true := by
  rw [hi]; rfl

/-- with nobody handling the reservation nobody holds it -/
theorem Desk.Free.not_holding {d : Desk ι} (h : d.Free) (j : ι) (c : ℕ) (u : Use) : d.role j ≠ .holding c u := by
  intro hj
  have hf := h j
  rw [hj] at hf
  cases hf

/-- with the slot empty and nobody handling the reservation there is no connection -/
theorem Desk.Free.not_current {d : Desk ι} (h : d.Free) (hr : d.reserved = none) (c : ℕ) : ¬ d.Current c := by
  rintro (hc | ⟨j, u, hj⟩)
  · rw [hr] at hc
    cases hc
  · exact h.not_holding j c u hj

/-- two holders are one -/
theorem Custody.holder_unique {d : Desk ι} (h : Custody d) {i j : ι} {c c' : ℕ} {u u' : Use}
    (hi : d.role i = .holding c u) (hj : d.role j = .holding c' u') : j = i :=
  h.one j i (handling_of_holding hj) (handling_of_holding hi)

/-- with no connection there is nothing to mark -/
theorem Coverage.marked {d : Desk ι} (h : Coverage d) (hf : d.Free) (hr : d.reserved = none) : d.Marked := by
  intro j ks hj
  obtain ⟨c, hc, _⟩ := h.mark j ks hj
  exact hf.not_current hr c hc

/-- with nobody handling or marking, only the watch itself has to be covered -/
theorem Coverage.of_free {d : Desk ι} (hf : d.Free) (hm : d.Marked)
    (hwatching : d.watching = true → d.Clearing ∨ d.Covers d.keys) (hkeys : d.keys ≠ [] → d.watching = true) :
    Coverage d :=
  ⟨hwatching, hkeys, fun j c _ hj => absurd hj (hf.not_holding j c _), fun j ks hj => absurd hj (hm j ks),
    fun j c _ _ hj => absurd hj (hf.not_holding j c _)⟩

/-! ## The invariant -/

structure Inv (d : Desk ι) : Prop where
  custody : Custody d
  coverage : Coverage d
  closed : d.closed = true → d.reserved = none ∧ d.watching = false ∧ d.Free ∧ d.Marked
  closing : ∀ i, d.role i = .closing → d.closed = true

/-- an empty desk -/
theorem inv_of_outside {d : Desk ι} (hrole : ∀ i, d.role i = .outside) (hr : d.reserved = none)
    (hw : d.watching = false) (hk : d.keys = []) : Inv d := by
  have hf : d.Free := fun i => by rw [hrole i]; rfl
  have hm : d.Marked := fun i ks => by rw [hrole i]; simp
  refine ⟨⟨?_, ?_, ?_, ?_, ?_⟩, Coverage.of_free hf hm ?_ fun h => absurd hk h, fun _ => ⟨hr, hw, hf, hm⟩, ?_⟩
  · intro i hi
    rw [hrole i] at hi
    cases hi
  · intro i j hi
    rw [hf i] at hi
    cases hi
  · exact fun _ _ => hr
  · intro i hi
    rw [hrole i] at hi
    cases hi
  · exact fun _ _ _ => ⟨hr, hf⟩
  · intro hwatch
    rw [hw] at hwatch
    cases hwatch
  · intro i hi
    rw [hrole i] at hi
    cases hi

/-- **At rest.** When no task has a role, a watching pipeline has its reservation in the slot, WATCHed for every watched
key, and a closed one has no reservation and is not watching. -/
theorem Inv.idle {d : Desk ι} (h : Inv d) (hidle : ∀ i, d.role i = .outside) :
    (d.watching = true → ∃ c, d.reserved = some c ∧ ∀ k ∈ d.keys, d.watches c k) ∧
      (d.closed = true → d.reserved = none ∧ d.watching = false) := by
  constructor
  · intro hw
    rcases h.coverage.watching hw with (⟨j, hj⟩ | ⟨j, c, hj⟩) | ⟨c, hc | ⟨j, u, hj⟩, hk⟩
    · rw [hidle j] at hj; cases hj
    · rw [hidle j] at hj; cases hj
    · exact ⟨c, hc, hk⟩
    · rw [hidle j] at hj; cases hj
  · exact fun hc => ⟨(h.closed hc).1, (h.closed hc).2.1⟩

/-! ## The protocol -/

variable [DecidableEq ι]

/-- task `i` takes role `r` -/
def Desk.set (d : Desk ι) (i : ι) (r : Role) : Desk ι := { d with role := Function.update d.role i r }

inductive Step (d : Desk ι) (i : ι) : Desk ι → Prop where
  | quiet {w} (hw : Grows d.watches w) : Step d i { d with watches := w }
  /-- a watch finds the slot empty -/
  | reserve (hi : d.role i = .outside) (hr : d.reserved = none) (hc : d.closed = false) (hf : d.Free)
      (he : ∀ j b, d.role j ≠ .erasing b) : Step d i (d.set i .reserving)
  /-- a watch finds the reservation -/
  | approach (hi : d.role i = .outside) (hr : d.reserved ≠ none) (hc : d.closed = false) (hf : d.Free) :
      Step d i (d.set i .taking)
  | refused (hi : d.role i = .reserving) : Step d i (d.set i .outside)
  | opened {c} (hi : d.role i = .reserving) : Step d i (d.set i (.holding c .plain))
  | store {c} (hi : d.role i = .holding c .plain) : Step d i { d.set i .taking with reserved := some c }
  | take {c} (hi : d.role i = .taking) (hr : d.reserved = some c) :
      Step d i { d.set i (.holding c .plain) with reserved := none }
  | watch {c ks w} (hi : d.role i = .holding c .plain) (hw : Grows d.watches w) (hk : ∀ k ∈ ks, w c k) :
      Step d i { d.set i (.holding c (.watched ks)) with watches := w }
  | back {c} (hi : d.role i = .holding c .plain) : Step d i { d.set i .outside with reserved := some c }
  | backToMark {c ks} (hi : d.role i = .holding c (.watched ks)) :
      Step d i { d.set i (.marking ks) with reserved := some c }
  | mark {ks} (hi : d.role i = .marking ks) :
      Step d i { d.set i .outside with watching := true, keys := d.keys ++ ks }
  | borrow {c} (hi : d.role i = .outside) (hr : d.reserved = some c) (hf : d.Free) :
      Step d i { d.set i (.holding c .plain) with reserved := none }
  | borrowToUnwatch {c} (hi : d.role i = .outside) (hr : d.reserved = some c) (hf : d.Free)
      (hm : ∀ j ks, d.role j = .marking ks → ks = []) :
      Step d i { d.set i (.holding c .unwatching) with reserved := none }
  | unwatchSent {c w} (hi : d.role i = .holding c .unwatching) (hw : KeepsOthers c d.watches w) :
      Step d i { d with watches := w }
  | backUnwatched {c} (hi : d.role i = .holding c .unwatching) :
      Step d i { d.set i .outside with reserved := some c, keys := [], watching := false }
  /-- nothing to take: `None` will be written back -/
  | miss (hi : d.role i = .outside) (hr : d.reserved = none) (hf : d.Free) : Step d i (d.set i (.erasing false))
  | erase (hi : d.role i = .erasing false) : Step d i { d.set i .outside with reserved := none }
  | eraseWatch {b} (hi : d.role i = .erasing b) :
      Step d i { d.set i .outside with reserved := none, keys := [], watching := false }
  | takeToExec (hi : d.role i = .outside) (hf : d.Free) (hm : d.Marked) :
      Step d i { d.set i (.erasing true) with reserved := none }
  | execSent {c w} (hi : d.role i = .erasing true) (hw : KeepsOthers c d.watches w) :
      Step d i { d with watches := w }
  | close (hi : d.role i = .outside) (hf : d.Free) (hm : d.Marked) :
      Step d i { d.set i .closing with reserved := none, keys := [], watching := false, closed := true }
  | closeSent {c w} (hi : d.role i = .closing) (hw : KeepsOthers c d.watches w) :
      Step d i { d.set i .outside with watches := w }

@[simp] theorem set_role (d : Desk ι) (i j : ι) (r : Role) :
    (d.set i r).role j = if j = i then r else d.role j := by
  simp [Desk.set, Function.update_apply]

/-- a task that is not outside after `i` has gone outside is another one, with the role it had -/
theorem role_of_set_outside {d : Desk ι} {i j : ι} {r : Role} (hr : r ≠ .outside)
    (hj : (d.set i .outside).role j = r) : j ≠ i ∧ d.role j = r := by
  rw [set_role] at hj
  split_ifs at hj with hji
  · exact absurd hj.symm hr
  · exact ⟨hji, hj⟩

theorem set_self {d : Desk ι} {i : ι} {r : Role} (h : d.role i = r) : d.set i r = d := by
  subst h
  simp [Desk.set]

/-! ## Custody is kept -/

/-- **The custody rule.** Task `i` takes role `r` and the slot becomes that of `d'`: a handler is alone; the slot changes
only when no other task handles the reservation, and is filled only when none will write `None`. -/
theorem Custody.move {d d' : Desk ι} (h : Custody d) {i : ι} {r : Role} (hrole : d'.role = (d.set i r).role)
    (hdead : r ≠ .dead)
    (halone : r.handling = true → ∀ j, j ≠ i → (d.role j).handling = false ∧ ∀ b, d.role j ≠ .erasing b)
    (hslot : d'.reserved = d.reserved ∨ (∀ j, j ≠ i → (d.role j).handling = false) ∧
      (d'.reserved = none ∨ ∀ j, j ≠ i → ∀ b, d.role j ≠ .erasing b))
    (hout : r.out = true → d'.reserved = none) (htaking : r = .taking → d'.reserved ≠ none)
    (herasing : ∀ b, r = .erasing b → d'.reserved = none ∧ ∀ j, j ≠ i → (d.role j).handling = false) : Custody d' := by
  have hself : d'.role i = r := by rw [hrole]; simp
  have hother : ∀ j, j ≠ i → d'.role j = d.role j := fun j hj => by rw [hrole]; simp [hj]
  refine ⟨fun a => ?_, fun a b ha hb => ?_, fun a ha => ?_, fun a ha => ?_, fun a b ha => ?_⟩
  · by_cases hai : a = i
    · rw [hai, hself]; exact hdead
    · rw [hother a hai]; exact h.alive a
  · by_cases hai : a = i
    · by_cases hbi : b = i
      · rw [hai, hbi]
      · rw [hai, hself] at ha
        rw [hother b hbi, (halone ha b hbi).1] at hb
        cases hb
    · by_cases hbi : b = i
      · rw [hbi, hself] at hb
        rw [hother a hai, (halone hb a hai).1] at ha
        cases ha
      · rw [hother a hai] at ha
        rw [hother b hbi] at hb
        exact h.one a b ha hb
  · by_cases hai : a = i
    · rw [hai, hself] at ha
      exact hout ha
    · rw [hother a hai] at ha
      rcases hslot with hs | ⟨hfree, _⟩
      · rw [hs]; exact h.out a ha
      · have hh := Role.handling_of_out ha
        rw [hfree a hai] at hh
        cases hh
  · by_cases hai : a = i
    · rw [hai, hself] at ha
      exact htaking ha
    · rw [hother a hai] at ha
      rcases hslot with hs | ⟨hfree, _⟩
      · rw [hs]; exact h.stored a ha
      · have hh := hfree a hai
        rw [ha] at hh
        cases hh
  · by_cases hai : a = i
    · rw [hai, hself] at ha
      refine ⟨(herasing b ha).1, fun j => ?_⟩
      by_cases hji : j = i
      · rw [hji, hself, ha]; rfl
      · rw [hother j hji]; exact (herasing b ha).2 j hji
    · rw [hother a hai] at ha
      obtain ⟨hnone, hfree⟩ := h.erasing a b ha
      constructor
      · rcases hslot with hs | ⟨_, hs | hno⟩
        · rw [hs]; exact hnone
        · exact hs
        · exact absurd ha (hno a hai b)
      · intro j
        by_cases hji : j = i
        · cases hr : r.handling with
          | false => rw [hji, hself]; exact hr
          | true => exact absurd ha ((halone hr a hai).2 b)
        · rw [hother j hji]; exact hfree j

/-- a task ends its part: nothing changes hands -/
theorem Custody.leave {d d' : Desk ι} (h : Custody d) {i : ι} {r : Role} (hrole : d'.role = (d.set i r).role)
    (hres : d'.reserved = d.reserved) (hr : r.handling = false) (hdead : r ≠ .dead) (he : ∀ b, r ≠ .erasing b) :
    Custody d' := by
  refine h.move hrole hdead ?_ (Or.inl hres) ?_ ?_ fun b hb => absurd hb (he b)
  · intro hh
    rw [hr] at hh
    cases hh
  · intro ho
    rw [Role.handling_of_out ho] at hr
    cases hr
  · rintro rfl
    cases hr

/-- the handler fills the slot -/
theorem Custody.fill {d d' : Desk ι} (h : Custody d) {i : ι} {r : Role} (hrole : d'.role = (d.set i r).role)
    (hi : (d.role i).handling = true) {c : ℕ} (hres : d'.reserved = some c) (hr : r.out = false) (hdead : r ≠ .dead)
    (he : ∀ b, r ≠ .erasing b) : Custody d' := by
  have hothers := h.others hi
  refine h.move hrole hdead (fun _ => hothers) (Or.inr ⟨fun j hj => (hothers j hj).1, ?_⟩) ?_ ?_
    fun b hb => absurd hb (he b)
  · exact Or.inr fun j hj => (hothers j hj).2
  · intro ho
    rw [hr] at ho
    cases ho
  · rintro - hnone
    rw [hres] at hnone
    cases hnone

/-- the reservation is out with a task that was its handler, or that met nobody -/
theorem Custody.hold {d d' : Desk ι} (h : Custody d) {i : ι} {r : Role} (hrole : d'.role = (d.set i r).role)
    (hi : (d.role i).handling = true ∨ d.Free ∧ ∀ j b, d.role j ≠ .erasing b) (hres : d'.reserved = none)
    (hr : r.out = true) : Custody d' := by
  have hothers : ∀ j, j ≠ i → (d.role j).handling = false ∧ ∀ b, d.role j ≠ .erasing b := by
    rcases hi with hi | ⟨hf, he⟩
    · exact h.others hi
    · exact fun j _ => ⟨hf j, he j⟩
  refine h.move hrole ?_ (fun _ => hothers) (Or.inr ⟨fun j hj => (hothers j hj).1, Or.inl hres⟩) (fun _ => hres) ?_ ?_
  · rintro rfl
    cases hr
  · rintro rfl
    cases hr
  · rintro b rfl
    cases hr

/-- the slot is emptied, or stays empty, while nobody handles the reservation -/
theorem Custody.empty {d d' : Desk ι} (h : Custody d) {i : ι} {r : Role} (hrole : d'.role = (d.set i r).role)
    (hf : d.Free) (hres : d'.reserved = none) (hr : r.handling = false) (hdead : r ≠ .dead) : Custody d' := by
  refine h.move hrole hdead ?_ (Or.inr ⟨fun j _ => hf j, Or.inl hres⟩) (fun _ => hres) ?_ fun _ _ =>
    ⟨hres, fun j _ => hf j⟩
  · intro hh
    rw [hr] at hh
    cases hh
  · rintro rfl
    cases hr

theorem custody_step {d d' : Desk ι} {i : ι} (h : Custody d) (hs : Step d i d') : Custody d' := by
  cases hs with
  | quiet hw => exact ⟨h.alive, h.one, h.out, h.stored, h.erasing⟩
  | unwatchSent hi hw => exact ⟨h.alive, h.one, h.out, h.stored, h.erasing⟩
  | execSent hi hw => exact ⟨h.alive, h.one, h.out, h.stored, h.erasing⟩
  | reserve hi hr hc hf he => exact h.hold rfl (Or.inr ⟨hf, he⟩) hr rfl
  | approach hi hr hc hf =>
    have he := h.not_erasing hr
    refine h.move rfl (by simp) (fun _ j _ => ⟨hf j, he j⟩) (Or.inl rfl) (fun ho => by cases ho) (fun _ => hr) ?_
    exact fun b hb => by cases hb
  | refused hi => exact h.leave rfl rfl rfl (by simp) (by simp)
  | opened hi => exact h.hold rfl (Or.inl (by rw [hi]; rfl)) (h.out i (by rw [hi]; rfl)) rfl
  | store hi => exact h.fill rfl (by rw [hi]; rfl) rfl rfl (by simp) (by simp)
  | take hi hr => exact h.hold rfl (Or.inl (by rw [hi]; rfl)) rfl rfl
  | watch hi hw hk => exact h.hold rfl (Or.inl (by rw [hi]; rfl)) (h.out i (by rw [hi]; rfl)) rfl
  | back hi => exact h.fill rfl (by rw [hi]; rfl) rfl rfl (by simp) (by simp)
  | backToMark hi => exact h.fill rfl (by rw [hi]; rfl) rfl rfl (by simp) (by simp)
  | mark hi => exact h.leave rfl rfl rfl (by simp) (by simp)
  | borrow hi hr hf => exact h.hold rfl (Or.inr ⟨hf, h.not_erasing (by rw [hr]; simp)⟩) rfl rfl
  | borrowToUnwatch hi hr hf hm => exact h.hold rfl (Or.inr ⟨hf, h.not_erasing (by rw [hr]; simp)⟩) rfl rfl
  | backUnwatched hi => exact h.fill rfl (by rw [hi]; rfl) rfl rfl (by simp) (by simp)
  | miss hi hr hf => exact h.empty rfl hf hr rfl (by simp)
  | erase hi => exact h.empty rfl (h.erasing i _ hi).2 rfl rfl (by simp)
  | eraseWatch hi => exact h.empty rfl (h.erasing i _ hi).2 rfl rfl (by simp)
  | takeToExec hi hf hm => exact h.empty rfl hf rfl rfl (by simp)
  | close hi hf hm => exact h.empty rfl hf rfl rfl (by simp)
  | closeSent hi hw => exact h.leave rfl rfl rfl (by simp) (by simp)

/-! ## Coverage is kept -/

/-- a task that holds nothing takes no connection away -/
theorem current_of_not_holding {d d' : Desk ι} {i : ι} {r : Role} (hrole : d'.role = (d.set i r).role)
    (hres : d'.reserved = d.reserved) (hi : ∀ c u, d.role i ≠ .holding c u) (c : ℕ) (hc : d.Current c) :
    d'.Current c := by
  rcases hc with hc | ⟨j, u, hj⟩
  · exact Or.inl (by rw [hres]; exact hc)
  · have hne : j ≠ i := by
      rintro rfl
      exact hi c u hj
    exact Or.inr ⟨j, u, by rw [hrole]; simpa [hne] using hj⟩

/-- **The coverage rule.** Task `i` takes role `r`, the watch fields stay, the connection and its watches are kept. -/
theorem Coverage.move {d d' : Desk ι} (h : Coverage d) {i : ι} {r : Role} (hrole : d'.role = (d.set i r).role)
    (hwatching : d'.watching = d.watching) (hkeys : d'.keys = d.keys) (hw : Grows d.watches d'.watches)
    (hcur : ∀ c, d.Current c → d'.Current c)
    (hexit : d.role i ≠ .erasing true ∧ ∀ c, d.role i ≠ .holding c .unwatching)
    (hput : ∀ c ks, r = .holding c (.watched ks) → ∀ k ∈ ks, d'.watches c k)
    (hmark : ∀ ks, r = .marking ks → d'.Covers ks ∧ ∀ j c, d.role j ≠ .holding c .unwatching)
    (hunwatch : ∀ c, r = .holding c .unwatching → ∀ j ks, d.role j = .marking ks → ks = []) : Coverage d' := by
  have hself : d'.role i = r := by rw [hrole]; simp
  have hother : ∀ j, j ≠ i → d'.role j = d.role j := fun j hj => by rw [hrole]; simp [hj]
  refine ⟨fun hwatch => ?_, fun hk => ?_, fun j c ks hj => ?_, fun j ks hj => ?_, fun j c k ks hj hk => ?_⟩
  · rw [hwatching] at hwatch
    rcases h.watching hwatch with (⟨j, hj⟩ | ⟨j, c, hj⟩) | hcov
    · have hne : j ≠ i := by
        rintro rfl
        exact hexit.1 hj
      exact Or.inl (Or.inl ⟨j, by rw [hother j hne]; exact hj⟩)
    · have hne : j ≠ i := by
        rintro rfl
        exact hexit.2 c hj
      exact Or.inl (Or.inr ⟨j, c, by rw [hother j hne]; exact hj⟩)
    · exact Or.inr (by rw [hkeys]; exact hcov.mono hcur hw)
  · rw [hkeys] at hk
    rw [hwatching]
    exact h.keys hk
  · by_cases hji : j = i
    · rw [hji, hself] at hj
      exact hput c ks hj
    · rw [hother j hji] at hj
      exact fun k hks => hw c k (h.put j c ks hj k hks)
  · by_cases hji : j = i
    · rw [hji, hself] at hj
      exact (hmark ks hj).1
    · rw [hother j hji] at hj
      exact (h.mark j ks hj).mono hcur hw
  · by_cases hji : j = i
    · rw [hji, hself] at hj
      by_cases hki : k = i
      · rw [hki, hself, hj] at hk
        cases hk
      · rw [hother k hki] at hk
        exact hunwatch c hj k ks hk
    · rw [hother j hji] at hj
      by_cases hki : k = i
      · rw [hki, hself] at hk
        exact absurd hj ((hmark ks hk).2 j c)
      · rw [hother k hki] at hk
        exact h.unwatch j c k ks hj hk

/-- after a step to a role outside the protocol, with nobody else handling or marking, nobody does -/
theorem quiet_of_free {d d' : Desk ι} {i : ι} {r : Role} (hrole : d'.role = (d.set i r).role) (hf : d.Free)
    (hm : d.Marked) (hr : r.handling = false) (hr' : ∀ ks, r ≠ .marking ks) : d'.Free ∧ d'.Marked := by
  constructor
  · intro j
    rw [hrole, set_role]
    split_ifs
    · exact hr
    · exact hf j
  · intro j ks
    rw [hrole, set_role]
    split_ifs
    · exact hr' ks
    · exact hm j ks

theorem coverage_step {d d' : Desk ι} {i : ι} (h : Inv d) (hs : Step d i d') : Coverage d' := by
  have hcov := h.coverage
  have hcus := h.custody
  cases hs with
  | quiet hw =>
    refine ⟨fun hwatch => (hcov.watching hwatch).imp id fun hk => hk.mono (fun _ hc => hc) hw, hcov.keys, ?_, ?_,
      hcov.unwatch⟩
    · exact fun j c ks hj k hk => hw c k (hcov.put j c ks hj k hk)
    · exact fun j ks hj => (hcov.mark j ks hj).mono (fun _ hc => hc) hw
  | @unwatchSent c w hi hw =>
    refine ⟨fun _ => Or.inl (Or.inr ⟨i, c, hi⟩), hcov.keys, fun j c' ks hj => ?_, fun j ks hj => ?_, hcov.unwatch⟩
    · have hji := hcus.holder_unique hi hj
      subst hji
      rw [hi] at hj
      cases hj
    · refine ⟨c, Or.inr ⟨i, _, hi⟩, ?_⟩
      rw [hcov.unwatch i c j ks hi hj]
      exact fun k hk => absurd hk List.not_mem_nil
  | execSent hi hw =>
    obtain ⟨hr, hf⟩ := hcus.erasing i _ hi
    refine ⟨fun _ => Or.inl (Or.inl ⟨i, hi⟩), hcov.keys, fun j c' ks hj => absurd hj (hf.not_holding j c' _),
      fun j ks hj => ?_, hcov.unwatch⟩
    obtain ⟨c', hc', _⟩ := hcov.mark j ks hj
    exact absurd hc' (hf.not_current hr c')
  | reserve hi hr hc hf he =>
    refine hcov.move rfl rfl rfl (grows_refl _) (current_of_not_holding rfl rfl ?_) ?_ ?_ ?_ ?_ <;> simp [hi]
  | approach hi hr hc hf =>
    refine hcov.move rfl rfl rfl (grows_refl _) (current_of_not_holding rfl rfl ?_) ?_ ?_ ?_ ?_ <;> simp [hi]
  | refused hi =>
    refine hcov.move rfl rfl rfl (grows_refl _) (current_of_not_holding rfl rfl ?_) ?_ ?_ ?_ ?_ <;> simp [hi]
  | opened hi =>
    refine hcov.move rfl rfl rfl (grows_refl _) (current_of_not_holding rfl rfl ?_) ?_ ?_ ?_ ?_ <;> simp [hi]
  | store hi =>
    refine hcov.move rfl rfl rfl (grows_refl _) (hcus.current_of_current (Or.inr ⟨i, _, hi⟩) (Or.inl rfl)) ?_ ?_ ?_ ?_ <;>
      simp [hi]
  | take hi hr =>
    refine hcov.move rfl rfl rfl (grows_refl _)
      (hcus.current_of_current (Or.inl hr) (Or.inr ⟨i, .plain, by simp [Desk.set]⟩)) ?_ ?_ ?_ ?_ <;> simp [hi]
  | @watch c ks w hi hw hk =>
    refine hcov.move rfl rfl rfl hw
      (hcus.current_of_current (Or.inr ⟨i, _, hi⟩) (Or.inr ⟨i, .watched ks, by simp [Desk.set]⟩)) ?_ ?_ ?_ ?_
    · simp [hi]
    · intro c' ks' hr
      cases hr
      exact hk
    · intro ks' hr
      cases hr
    · intro c' hr
      cases hr
  | back hi =>
    refine hcov.move rfl rfl rfl (grows_refl _) (hcus.current_of_current (Or.inr ⟨i, _, hi⟩) (Or.inl rfl)) ?_ ?_ ?_ ?_ <;>
      simp [hi]
  | @backToMark c ks hi =>
    refine hcov.move rfl rfl rfl (grows_refl _) (hcus.current_of_current (Or.inr ⟨i, _, hi⟩) (Or.inl rfl)) ?_ ?_ ?_ ?_
    · simp [hi]
    · intro c' ks' hr
      cases hr
    · intro ks' hr
      cases hr
      refine ⟨⟨c, Or.inl rfl, hcov.put i c ks hi⟩, fun j c' hj => ?_⟩
      have hji := hcus.holder_unique hi hj
      subst hji
      rw [hi] at hj
      cases hj
    · intro c' hr
      cases hr
  | @mark ks hi =>
    obtain ⟨c, hc, hk⟩ := hcov.mark i ks hi
    have hcur : ∀ c, d.Current c →
        Desk.Current { d.set i .outside with watching := true, keys := d.keys ++ ks } c :=
      current_of_not_holding (r := .outside) rfl rfl (by simp [hi])
    have hother : ∀ j r, r ≠ .outside → (d.set i .outside).role j = r → d.role j = r :=
      fun j r hr hj => (role_of_set_outside hr hj).2
    refine ⟨fun _ => ?_, fun _ => rfl, fun j c' ks' hj => hcov.put j c' ks' (hother j _ (by simp) hj),
      fun j ks' hj => (hcov.mark j ks' (hother j _ (by simp) hj)).mono hcur (grows_refl _),
      fun j c' k ks' hj hk => hcov.unwatch j c' k ks' (hother j _ (by simp) hj) (hother k _ (by simp) hk)⟩
    cases hwatch : d.watching with
    | false =>
      have hnil : d.keys = [] := by
        by_contra hne
        rw [hcov.keys hne] at hwatch
        cases hwatch
      exact Or.inr ⟨c, hcur c hc, fun k hks => hk k (by simpa [hnil] using hks)⟩
    | true =>
      rcases hcov.watching hwatch with (⟨j, hj⟩ | ⟨j, c', hj⟩) | ⟨c', hc', hk'⟩
      · obtain ⟨hr, hf⟩ := hcus.erasing j _ hj
        exact absurd hc (hf.not_current hr c)
      · have hji : j ≠ i := by
          rintro rfl
          rw [hi] at hj
          cases hj
        exact Or.inl (Or.inr ⟨j, c', by simpa [Desk.set, hji] using hj⟩)
      · rw [hcus.current_unique hc' hc] at hk'
        refine Or.inr ⟨c, hcur c hc, fun k hks => ?_⟩
        rcases List.mem_append.1 hks with hks | hks
        · exact hk' k hks
        · exact hk k hks
  | borrow hi hr hf =>
    refine hcov.move rfl rfl rfl (grows_refl _)
      (hcus.current_of_current (Or.inl hr) (Or.inr ⟨i, .plain, by simp [Desk.set]⟩)) ?_ ?_ ?_ ?_ <;> simp [hi]
  | borrowToUnwatch hi hr hf hm =>
    refine hcov.move rfl rfl rfl (grows_refl _)
      (hcus.current_of_current (Or.inl hr) (Or.inr ⟨i, .unwatching, by simp [Desk.set]⟩)) ?_ ?_ ?_ fun _ _ => hm <;>
      simp [hi]
  | @backUnwatched c hi =>
    refine Coverage.cleared rfl rfl ?_ ?_ ?_
    · intro j c' ks hj
      obtain ⟨hji, hj⟩ := role_of_set_outside (by simp) hj
      exact absurd (hcus.holder_unique hi hj) hji
    · intro j ks hj
      obtain ⟨-, hj⟩ := role_of_set_outside (by simp) hj
      have hks := hcov.unwatch i c j ks hi hj
      exact ⟨c, Or.inl rfl, fun k hk => by rw [hks] at hk; cases hk⟩
    · intro j c' k ks hj
      obtain ⟨hji, hj⟩ := role_of_set_outside (by simp) hj
      exact absurd (hcus.holder_unique hi hj) hji
  | miss hi hr hf =>
    refine hcov.move rfl rfl rfl (grows_refl _) (current_of_not_holding rfl rfl ?_) ?_ ?_ ?_ ?_ <;> simp [hi]
  | erase hi =>
    have hr := (hcus.erasing i _ hi).1
    refine hcov.move rfl rfl rfl (grows_refl _) (current_of_not_holding rfl hr.symm ?_) ?_ ?_ ?_ ?_ <;> simp [hi]
  | eraseWatch hi =>
    obtain ⟨hr, hf⟩ := hcus.erasing i _ hi
    obtain ⟨hf', hm'⟩ := quiet_of_free (r := .outside) rfl hf (hcov.marked hf hr) rfl (by simp)
    exact Coverage.of_free hf' hm' (fun hw => by cases hw) fun hk => absurd rfl hk
  | takeToExec hi hf hm =>
    obtain ⟨hf', hm'⟩ := quiet_of_free (r := .erasing true) rfl hf hm rfl (by simp)
    exact Coverage.of_free hf' hm' (fun _ => Or.inl (Or.inl ⟨i, by simp [Desk.set]⟩)) hcov.keys
  | close hi hf hm =>
    obtain ⟨hf', hm'⟩ := quiet_of_free (r := .closing) rfl hf hm rfl (by simp)
    exact Coverage.of_free hf' hm' (fun hw => by cases hw) fun hk => absurd rfl hk
  | closeSent hi hw =>
    obtain ⟨_, hwatching, hf, hm⟩ := h.closed (h.closing i hi)
    obtain ⟨hf', hm'⟩ := quiet_of_free (r := .outside) rfl hf hm rfl (by simp)
    refine Coverage.of_free hf' hm' (fun hw => ?_) hcov.keys
    rw [show d.watching = true from hw] at hwatching
    cases hwatching

/-- a closed desk stays empty: only tasks that find nothing move on it -/
theorem closed_step {d d' : Desk ι} {i : ι} (h : Inv d) (hs : Step d i d') (hc' : d'.closed = true) :
    d'.reserved = none ∧ d'.watching = false ∧ d'.Free ∧ d'.Marked := by
  have hclosed := h.closed
  have hhandling : d.closed = true → (d.role i).handling = false := fun hc => (hclosed hc).2.2.1 i
  cases hs with
  | quiet hw => exact hclosed hc'
  | unwatchSent hi hw => exact hclosed hc'
  | execSent hi hw => exact hclosed hc'
  | reserve hi hr hc hf he => rw [show d.closed = true from hc'] at hc; cases hc
  | approach hi hr hc hf => rw [show d.closed = true from hc'] at hc; cases hc
  | refused hi => have hh := hhandling hc'; rw [hi] at hh; cases hh
  | opened hi => have hh := hhandling hc'; rw [hi] at hh; cases hh
  | store hi => have hh := hhandling hc'; rw [hi] at hh; cases hh
  | take hi hr => have hh := hhandling hc'; rw [hi] at hh; cases hh
  | watch hi hw hk => have hh := hhandling hc'; rw [hi] at hh; cases hh
  | back hi => have hh := hhandling hc'; rw [hi] at hh; cases hh
  | backToMark hi => have hh := hhandling hc'; rw [hi] at hh; cases hh
  | backUnwatched hi => have hh := hhandling hc'; rw [hi] at hh; cases hh
  | mark hi => exact absurd hi ((hclosed hc').2.2.2 i _)
  | borrow hi hr hf => rw [(hclosed hc').1] at hr; cases hr
  | borrowToUnwatch hi hr hf hm => rw [(hclosed hc').1] at hr; cases hr
  | miss hi hr hf =>
    obtain ⟨_, hw, _, hm⟩ := hclosed hc'
    exact ⟨hr, hw, quiet_of_free (r := .erasing false) rfl hf hm rfl (by simp)⟩
  | erase hi =>
    obtain ⟨_, hw, hf, hm⟩ := hclosed hc'
    exact ⟨rfl, hw, quiet_of_free (r := .outside) rfl hf hm rfl (by simp)⟩
  | eraseWatch hi =>
    obtain ⟨_, _, hf, hm⟩ := hclosed hc'
    exact ⟨rfl, rfl, quiet_of_free (r := .outside) rfl hf hm rfl (by simp)⟩
  | takeToExec hi hf hm =>
    obtain ⟨_, hw, _, _⟩ := hclosed hc'
    exact ⟨rfl, hw, quiet_of_free (r := .erasing true) rfl hf hm rfl (by simp)⟩
  | close hi hf hm => exact ⟨rfl, rfl, quiet_of_free (r := .closing) rfl hf hm rfl (by simp)⟩
  | closeSent hi hw =>
    obtain ⟨hr, hw', hf, hm⟩ := hclosed hc'
    exact ⟨hr, hw', quiet_of_free (r := .outside) rfl hf hm rfl (by simp)⟩

/-- only a close makes a task close, and closed stays closed -/
theorem closing_step {d d' : Desk ι} {i : ι} (h : Inv d) (hs : Step d i d') (j : ι) (hj : d'.role j = .closing) :
    d'.closed = true := by
  have hclosing := h.closing j
  cases hs with
  | quiet hw => exact hclosing hj
  | unwatchSent hi hw => exact hclosing hj
  | execSent hi hw => exact hclosing hj
  | close hi hf hm => rfl
  | _ =>
    simp only [Desk.set, Function.update_apply] at hj
    split_ifs at hj
    exact hclosing hj

/-- **Step lemma.** Every step of the protocol keeps the invariant. -/
theorem step_inv {d d' : Desk ι} {i : ι} (h : Inv d) (hs : Step d i d') : Inv d' :=
  ⟨custody_step h.custody hs, coverage_step h hs, closed_step h hs, closing_step h hs⟩

end RedisRsPy.Reservation
