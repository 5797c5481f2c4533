/-
Lines that many callers share: their requests wait in the order they were sent, and are answered one at a time in that
order. The server may HOLD a request at the head of a line: then it answers it later, and until then nothing behind it.
A held request that has an end of its own LAPSES there. A line that is lost takes the requests on it with it, some of
which may have been carried out. Anybody else may change the state of the server.

- `sent_run`: the callers of a line that are done, and those that wait, are those that sent, in that order;
- `ended_of_turns`: a request that is not held, with none ahead of it that is, is done after as many turns of its line
  as requests stand before it, and one, whatever the other lines do;
- `waits_of_held`: as long as the head of a line is held, nobody behind it is answered.
-/
import Mathlib.Logic.Function.Basic
import RedisRsPy.Lib.Runs

namespace Lib.Multiplex

structure Service (σ ρ β : Type*) where
  /-- none while it holds the request -/
  answer : σ → ρ → Option (β × σ)
  /-- the answer when the request's own time is over, none if that is never -/
  lapse : ρ → Option β

structure State (γ κ β σ : Type*) where
  store : σ
  /-- oldest first -/
  pending : γ → List κ
  /-- the callers that are done, oldest first, and their answers, none for a lost one -/
  gone : γ → List (κ × Option β)

inductive Event (γ κ σ : Type*) where
  | send (g : γ) (c : κ)
  /-- a turn of the line -/
  | serve (g : γ)
  | lapse (g : γ)
  /-- the line is lost, and of its requests the first `ran` were carried out, up to one that is held -/
  | drop (g : γ) (ran : ℕ)
  | write (f : σ → σ)

variable {γ κ ρ β σ : Type*} [DecidableEq γ]

def start (store : σ) : State γ κ β σ := ⟨store, fun _ => [], fun _ => []⟩

section Steps

variable (S : Service σ ρ β) (request : κ → ρ)

/-- the store after these requests, up to one that is held -/
def carryOut : σ → List κ → σ
  | store, [] => store
  | store, c :: rest =>
    match S.answer store (request c) with
    | none => store
    | some (_, store) => carryOut store rest

/-- the head of the line is done -/
def State.pop (s : State γ κ β σ) (g : γ) (c : κ) (rest : List κ) (answer : Option β) : State γ κ β σ :=
  { s with pending := Function.update s.pending g rest, gone := Function.update s.gone g (s.gone g ++ [(c, answer)]) }

def step (s : State γ κ β σ) : Event γ κ σ → State γ κ β σ
  | .send g c => { s with pending := Function.update s.pending g (s.pending g ++ [c]) }
  | .serve g =>
    match s.pending g with
    | [] => s
    | c :: rest =>
      match S.answer s.store (request c) with
      | none => s
      | some (b, store) => { s.pop g c rest (some b) with store := store }
  | .lapse g =>
    match s.pending g with
    | [] => s
    | c :: rest =>
      if (S.answer s.store (request c)).isSome then s
      else
        match S.lapse (request c) with
        | none => s
        | some b => s.pop g c rest (some b)
  | .drop g ran =>
    { store := carryOut S request s.store ((s.pending g).take ran)
      pending := Function.update s.pending g []
      gone := Function.update s.gone g (s.gone g ++ (s.pending g).map fun c => (c, none)) }
  | .write f => { s with store := f s.store }

/-! ## What a step does to a line -/

inductive Moves (s : State γ κ β σ) (g : γ) : Event γ κ σ → State γ κ β σ → Prop
  | sent (c : κ) {s' : State γ κ β σ} (hpending : s'.pending g = s.pending g ++ [c]) (hgone : s'.gone g = s.gone g) :
    Moves s g (.send g c) s'
  | served (c : κ) (rest : List κ) (b : β) (store : σ) (hhead : s.pending g = c :: rest)
    (hanswer : S.answer s.store (request c) = some (b, store)) {s' : State γ κ β σ} (hpending : s'.pending g = rest)
    (hgone : s'.gone g = s.gone g ++ [(c, some b)]) : Moves s g (.serve g) s'
  | held (hheld : ∀ c rest, s.pending g = c :: rest → S.answer s.store (request c) = none) : Moves s g (.serve g) s
  | lapsed (c : κ) (rest : List κ) (b : β) (hhead : s.pending g = c :: rest)
    (hheld : S.answer s.store (request c) = none) (hlapse : S.lapse (request c) = some b)
    {s' : State γ κ β σ} (hpending : s'.pending g = rest) (hgone : s'.gone g = s.gone g ++ [(c, some b)]) :
    Moves s g (.lapse g) s'
  | lost (ran : ℕ) {s' : State γ κ β σ} (hpending : s'.pending g = [])
    (hgone : s'.gone g = s.gone g ++ (s.pending g).map fun c => (c, none)) : Moves s g (.drop g ran) s'
  | other {e : Event γ κ σ} {s' : State γ κ β σ} (hsend : ∀ c, e ≠ .send g c) (hserve : e ≠ .serve g)
    (hpending : s'.pending g = s.pending g) (hgone : s'.gone g = s.gone g) : Moves s g e s'

variable {S request}

theorem step_cases (S : Service σ ρ β) (request : κ → ρ) (s : State γ κ β σ) (g : γ) (e : Event γ κ σ) : Moves S request s g e (step S request s e) := by
  cases e with
  | send g' c =>
    by_cases hg : g = g'
    · subst hg
      exact .sent c (Function.update_self ..) rfl
    · exact .other (by simp [Ne.symm hg]) (by simp) (Function.update_of_ne hg _ _) rfl
  | serve g' =>
    by_cases hg : g = g'
    · subst hg
      cases hhead : s.pending g with
      | nil =>
        simp only [step, hhead]
        exact .held fun c rest h => by simp [hhead] at h
      | cons c rest =>
        cases hanswer : S.answer s.store (request c) with
        | none =>
          simp only [step, hhead, hanswer]
          refine .held fun c' rest' h => ?_
          cases hhead.symm.trans h
          exact hanswer
        | some r =>
          simp only [step, hhead, hanswer]
          exact .served c rest r.1 r.2 hhead hanswer (Function.update_self ..) (Function.update_self ..)
    · have hne : Event.serve (κ := κ) (σ := σ) g' ≠ .serve g := by simp [Ne.symm hg]
      simp only [step]
      split
      · exact .other (by simp) hne rfl rfl
      · split
        · exact .other (by simp) hne rfl rfl
        · exact .other (by simp) hne (Function.update_of_ne hg _ _) (Function.update_of_ne hg _ _)
  | lapse g' =>
    by_cases hg : g = g'
    · subst hg
      cases hhead : s.pending g with
      | nil =>
        simp only [step, hhead]
        exact .other (by simp) (by simp) rfl rfl
      | cons c rest =>
        by_cases hanswer : (S.answer s.store (request c)).isSome = true
        · simp only [step, hhead, if_pos hanswer]
          exact .other (by simp) (by simp) rfl rfl
        · have hheld : S.answer s.store (request c) = none := by simpa using hanswer
          cases hlapse : S.lapse (request c) with
          | none =>
            simp only [step, hhead, if_neg hanswer, hlapse]
            exact .other (by simp) (by simp) rfl rfl
          | some b =>
            simp only [step, hhead, if_neg hanswer, hlapse]
            exact .lapsed c rest b hhead hheld hlapse (Function.update_self ..) (Function.update_self ..)
    · simp only [step]
      split
      · exact .other (by simp) (by simp) rfl rfl
      · split_ifs
        · exact .other (by simp) (by simp) rfl rfl
        · split
          · exact .other (by simp) (by simp) rfl rfl
          · exact .other (by simp) (by simp) (Function.update_of_ne hg _ _) (Function.update_of_ne hg _ _)
  | drop g' ran =>
    by_cases hg : g = g'
    · subst hg
      exact .lost ran (Function.update_self ..) (Function.update_self ..)
    · exact .other (by simp) (by simp) (Function.update_of_ne hg _ _) (Function.update_of_ne hg _ _)
  | write f => exact .other (by simp) (by simp) rfl rfl

/-! ## Lines over runs -/

/-- everybody on the line, in the order they sent -/
def State.line (s : State γ κ β σ) (g : γ) : List κ := (s.gone g).map Prod.fst ++ s.pending g

def Event.sentOn (g : γ) : Event γ κ σ → Option κ
  | .send g' c => if g' = g then some c else none
  | _ => none

/-- a turn of the line -/
def Event.isTurn (g : γ) : Event γ κ σ → Bool
  | .serve g' => decide (g' = g)
  | _ => false

theorem sentOn_of_ne {g : γ} {e : Event γ κ σ} (h : ∀ c, e ≠ .send g c) : e.sentOn g = none := by
  cases e with
  | send g' c =>
    have hne : g' ≠ g := fun heq => h c (heq ▸ rfl)
    simp [Event.sentOn, hne]
  | _ => rfl

theorem line_step (s : State γ κ β σ) (g : γ) (e : Event γ κ σ) :
    (step S request s e).line g = s.line g ++ (e.sentOn g).toList := by
  have hmoves := step_cases S request s g e
  generalize step S request s e = s' at hmoves ⊢
  unfold State.line
  cases hmoves with
  | sent c hpending hgone => simp [hpending, hgone, Event.sentOn]
  | served c rest b store hhead _ hpending hgone => simp [hpending, hgone, hhead, Event.sentOn]
  | held _ => simp [Event.sentOn]
  | lapsed c rest b hhead _ _ hpending hgone => simp [hpending, hgone, hhead, Event.sentOn]
  | lost ran hpending hgone => simp [hpending, hgone, Event.sentOn, Function.comp_def]
  | other hsend _ hpending hgone => simp [hpending, hgone, sentOn_of_ne hsend]

/-- **In order.** A line loses nobody, and nobody overtakes. -/
theorem sent_run (s : State γ κ β σ) (g : γ) (l : List (Event γ κ σ)) :
    (run (step S request) s l).line g = s.line g ++ l.filterMap (Event.sentOn g) := by
  induction l generalizing s with
  | nil => simp
  | cons e l ih =>
    rw [run_cons, ih, line_step, List.append_assoc, List.filterMap_cons]
    cases e.sentOn g <;> rfl

theorem gone_step (s : State γ κ β σ) (g : γ) (e : Event γ κ σ) : s.gone g <+: (step S request s e).gone g := by
  have hmoves := step_cases S request s g e
  generalize step S request s e = s' at hmoves ⊢
  cases hmoves with
  | sent c _ hgone => exact hgone ▸ List.prefix_rfl
  | served c rest b store _ _ _ hgone => exact hgone ▸ List.prefix_append ..
  | held _ => exact List.prefix_rfl
  | lapsed c rest b _ _ _ _ hgone => exact hgone ▸ List.prefix_append ..
  | lost ran _ hgone => exact hgone ▸ List.prefix_append ..
  | other _ _ _ hgone => exact hgone ▸ List.prefix_rfl

/-- who waits has waited, or has just sent -/
theorem pending_step (s : State γ κ β σ) (g : γ) (e : Event γ κ σ) {c : κ} (h : c ∈ (step S request s e).pending g) :
    c ∈ s.pending g ∨ e = .send g c := by
  have hmoves := step_cases S request s g e
  generalize step S request s e = s' at hmoves h
  cases hmoves with
  | sent c' hpending _ =>
    rcases List.mem_append.1 (hpending ▸ h) with hold | hnew
    · exact .inl hold
    · exact .inr (by rw [List.mem_singleton.1 hnew])
  | served k rest b store hhead _ hpending _ => exact .inl (hhead ▸ List.mem_cons_of_mem k (hpending ▸ h))
  | held _ => exact .inl h
  | lapsed k rest b hhead _ _ hpending _ => exact .inl (hhead ▸ List.mem_cons_of_mem k (hpending ▸ h))
  | lost ran hpending _ =>
    rw [hpending] at h
    cases h
  | other _ _ hpending _ => exact .inl (hpending ▸ h)

theorem gone_run (s : State γ κ β σ) (g : γ) (l : List (Event γ κ σ)) :
    s.gone g <+: (run (step S request) s l).gone g := by
  induction l generalizing s with
  | nil => exact List.prefix_rfl
  | cons e l ih => exact (gone_step s g e).trans (ih _)

/-- an answer to this request -/
def Service.Answers (S : Service σ ρ β) (q : ρ) (b : β) : Prop :=
  (∃ store, (S.answer store q).map Prod.fst = some b) ∨ S.lapse q = some b

/-- everybody is given an answer to the own request -/
def State.Own (S : Service σ ρ β) (request : κ → ρ) (s : State γ κ β σ) : Prop :=
  ∀ g c b, (c, some b) ∈ s.gone g → S.Answers (request c) b

theorem own_step (s : State γ κ β σ) (e : Event γ κ σ) (h : s.Own S request) : (step S request s e).Own S request := by
  intro g c b hmem
  have hmoves := step_cases S request s g e
  generalize step S request s e = s' at hmoves hmem
  cases hmoves with
  | sent _ _ hgone => exact h g c b (hgone ▸ hmem)
  | served k rest b' store _ hanswer _ hgone =>
    rcases List.mem_append.1 (hgone ▸ hmem) with hold | hnew
    · exact h g c b hold
    · cases List.mem_singleton.1 hnew
      exact .inl ⟨s.store, by rw [hanswer]; rfl⟩
  | held _ => exact h g c b hmem
  | lapsed k rest b' _ _ hlapse _ hgone =>
    rcases List.mem_append.1 (hgone ▸ hmem) with hold | hnew
    · exact h g c b hold
    · cases List.mem_singleton.1 hnew
      exact .inr hlapse
  | lost ran _ hgone =>
    rcases List.mem_append.1 (hgone ▸ hmem) with hold | hnew
    · exact h g c b hold
    · obtain ⟨k, -, hk⟩ := List.mem_map.1 hnew
      cases hk
  | other _ _ _ hgone => exact h g c b (hgone ▸ hmem)

/-- the server never holds this one -/
def Prompt (S : Service σ ρ β) (q : ρ) : Prop := ∀ store, (S.answer store q).isSome = true

/-- a step of a line whose first requests are prompt: the caller at place `n` is done, or no farther from it, and nearer
after a turn -/
theorem place_step {s : State γ κ β σ} {g : γ} {n : ℕ} {c : κ} (hplace : (s.pending g)[n]? = some c)
    (hprompt : ∀ k ∈ (s.pending g).take (n + 1), Prompt S (request k)) (e : Event γ κ σ) :
    c ∈ ((step S request s e).gone g).map Prod.fst ∨
      ∃ m, ((step S request s e).pending g)[m]? = some c ∧ (m + if e.isTurn g then 1 else 0) = n ∧
        ∀ k ∈ ((step S request s e).pending g).take (m + 1), Prompt S (request k) := by
  have hlt : n < (s.pending g).length := (List.getElem?_eq_some_iff.1 hplace).1
  have hhead : ∀ k rest, s.pending g = k :: rest → S.answer s.store (request k) ≠ none := by
    intro k rest hpending hnone
    have hk := hprompt k (by simp [hpending]) s.store
    simp [hnone] at hk
  have hmoves := step_cases S request s g e
  generalize step S request s e = s' at hmoves ⊢
  cases hmoves with
  | sent c' hpending hgone =>
    refine .inr ⟨n, ?_, by simp [Event.isTurn], ?_⟩
    · rw [hpending, List.getElem?_append_left hlt, hplace]
    · rw [hpending, List.take_append_of_le_length hlt]
      exact hprompt
  | served k rest b store hk _ hpending hgone =>
    cases n with
    | zero =>
      rw [hk] at hplace
      cases hplace
      exact .inl (by simp [hgone])
    | succ n =>
      rw [hk] at hplace
      refine .inr ⟨n, hpending ▸ hplace, by simp [Event.isTurn], fun k' hk' => hprompt k' ?_⟩
      rw [hpending] at hk'
      rw [hk, List.take_succ_cons]
      exact List.mem_cons_of_mem k hk'
  | held hheld =>
    cases hpending : s.pending g with
    | nil => simp [hpending] at hlt
    | cons k rest => exact absurd (hheld k rest hpending) (hhead k rest hpending)
  | lapsed k rest b hk hheld _ _ _ => exact absurd hheld (hhead k rest hk)
  | lost ran _ hgone =>
    refine .inl ?_
    rw [hgone, List.map_append, List.map_map]
    refine List.mem_append_right _ ?_
    simpa [Function.comp_def] using List.mem_of_getElem? hplace
  | other _ hserve hpending _ =>
    have hturn : e.isTurn g = false := by
      cases e with
      | serve g' => exact decide_eq_false fun heq => hserve (heq ▸ rfl)
      | _ => rfl
    exact .inr ⟨n, hpending ▸ hplace, by simp [hturn], hpending ▸ hprompt⟩

/-- **Turns suffice.** -/
theorem ended_of_turns {s : State γ κ β σ} {g : γ} {n : ℕ} {c : κ} (hplace : (s.pending g)[n]? = some c)
    (hprompt : ∀ k ∈ (s.pending g).take (n + 1), Prompt S (request k)) {l : List (Event γ κ σ)}
    (hturns : n + 1 ≤ l.countP (Event.isTurn g)) : c ∈ ((run (step S request) s l).gone g).map Prod.fst := by
  induction l generalizing s n with
  | nil => simp at hturns
  | cons e l ih =>
    rw [List.countP_cons] at hturns
    rcases place_step hplace hprompt e with hgone | ⟨m, hplace', hm, hprompt'⟩
    · exact ((gone_run _ g l).map Prod.fst).subset hgone
    · exact ih hplace' hprompt' (by omega)

/-- **A held head.** Until it is answered, lapses or is lost with its line, nobody behind it is done. -/
theorem waits_of_held {s : State γ κ β σ} {g : γ} {c : κ} {rest : List κ} (hhead : s.pending g = c :: rest)
    {l : List (Event γ κ σ)}
    (hheld : Along (step S request) (fun s e => S.answer s.store (request c) = none ∧ e ≠ .lapse g ∧
      ∀ ran, e ≠ .drop g ran) s l) :
    (∃ more, (run (step S request) s l).pending g = c :: rest ++ more) ∧
      (run (step S request) s l).gone g = s.gone g := by
  induction l generalizing s rest with
  | nil => exact ⟨⟨[], by simp [hhead]⟩, rfl⟩
  | cons e l ih =>
    obtain ⟨⟨hnone, hlapse, hdrop⟩, hrest⟩ := hheld
    obtain ⟨added, hpending, hgone⟩ : ∃ added, (step S request s e).pending g = c :: (rest ++ added) ∧
        (step S request s e).gone g = s.gone g := by
      have hmoves := step_cases S request s g e
      generalize step S request s e = s' at hmoves ⊢
      cases hmoves with
      | sent c' hpending hgone => exact ⟨[c'], by simp [hpending, hhead], hgone⟩
      | served k rest' b store hk hanswer _ _ =>
        cases hhead.symm.trans hk
        rw [hnone] at hanswer
        cases hanswer
      | held _ => exact ⟨[], by simp [hhead], rfl⟩
      | lapsed => exact absurd rfl hlapse
      | lost ran => exact absurd rfl (hdrop ran)
      | other _ _ hpending hgone => exact ⟨[], by simp [hpending, hhead], hgone⟩
    obtain ⟨⟨more, hmore⟩, hlast⟩ := ih hpending hrest
    exact ⟨⟨added ++ more, by simp [run_cons, hmore]⟩, by rw [run_cons, hlast, hgone]⟩

end Steps

end Lib.Multiplex
