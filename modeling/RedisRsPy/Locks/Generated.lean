/-
The tokens that `generate_token` makes (`facade/sync.rs`), in all processes of one host.

A token is the process id, the nanoseconds of the wall clock and a count of the process, with `-` between them. The
count starts at 0, a fork copies it, and it wraps at 2^64. Processes start, fork and end, process ids are used again,
and a call that has its count may be overtaken by any other before it reads the clock.

What the host owes (`Sound`): no two live processes have one id, a process makes fewer than 2^64 tokens (with those of
the process it was forked from), and a process whose id an ended one had reads the clock past all readings of that one.

Results:
- `generateToken_injective`: the parts can be read off a token;
- `generated_tokens_safe`: the tokens of a host are all different, so what holds of locks whose tokens differ holds of
  locks that generate them.
Witness: `generated_tokens_safe_fork`; a clock that was set back: `token_made_twice`.
-/
import RedisRsPy.Commands.Wire
import RedisRsPy.Lib.Split
import RedisRsPy.Locks.Token

namespace RedisRsPy.Locks.Generated

open Lib

/-! ## Tokens -/

/-- `format!("{pid}-{nanos}-{n}")` -/
def generateToken (pid nanos n : ℕ) : Bytes :=
  asBytes (toString pid ++ "-" ++ toString nanos ++ "-" ++ toString n)

theorem generateToken_eq (pid nanos n : ℕ) :
    generateToken pid nanos n =
      asBytes (toString pid) ++ 45 :: (asBytes (toString nanos) ++ 45 :: asBytes (toString n)) := by
  simp only [generateToken, asBytes_append, List.append_assoc]
  rfl

theorem asBytes_toString_injective {m n : ℕ} (h : asBytes (toString m) = asBytes (toString n)) : m = n := by
  have hm := Commands.parseDigits_toString m
  rw [h, Commands.parseDigits_toString] at hm
  exact (Option.some.inj hm).symm

/-- a number has no dash -/
theorem dash_not_mem (n : ℕ) : (45 : UInt8) ∉ asBytes (toString n) := by
  rw [asBytes_toString]
  intro hmem
  obtain ⟨c, hc, hdash⟩ := List.mem_map.1 hmem
  have hdigit : c.isDigit = true := Nat.isDigit_of_mem_toDigits (by decide) (by decide) hc
  have hrange := digit_range hdigit
  rw [← toNat_asciiByte_digit hdigit, hdash] at hrange
  exact absurd hrange.1 (by decide)

theorem cut_inj {a a' b b' : Bytes} (ha : (45 : UInt8) ∉ a) (ha' : (45 : UInt8) ∉ a')
    (h : a ++ 45 :: b = a' ++ 45 :: b') : a = a' ∧ b = b' := by
  have hcut := Split.splitOnce_append ha b
  rw [h, Split.splitOnce_append ha' b'] at hcut
  cases hcut
  exact ⟨rfl, rfl⟩

theorem generateToken_injective {pid nanos n pid' nanos' n' : ℕ}
    (h : generateToken pid nanos n = generateToken pid' nanos' n') : pid = pid' ∧ nanos = nanos' ∧ n = n' := by
  rw [generateToken_eq, generateToken_eq] at h
  obtain ⟨hpid, hrest⟩ := cut_inj (dash_not_mem pid) (dash_not_mem pid') h
  obtain ⟨hnanos, hn⟩ := cut_inj (dash_not_mem nanos) (dash_not_mem nanos') hrest
  exact ⟨asBytes_toString_injective hpid, asBytes_toString_injective hnanos, asBytes_toString_injective hn⟩

/-! ## A host -/

structure Process where
  pid : ℕ
  /-- `COUNTER` -/
  counter : ℕ
  live : Bool
deriving DecidableEq

/-- a call of `generate_token`: its process, its count and the clock, once it was read -/
structure Call where
  proc : ℕ
  n : ℕ
  nanos : Option ℕ
deriving DecidableEq

structure Host where
  procs : List Process
  calls : List Call

inductive Event where
  /-- a process that imports the module anew -/
  | spawn (pid : ℕ)
  /-- a copy of a process; its other threads are not in it -/
  | fork (p pid : ℕ)
  | exit (p : ℕ)
  /-- `COUNTER.fetch_add(1)` -/
  | take (p : ℕ)
  /-- the clock, in nanoseconds from the epoch; 0 where it stands before it -/
  | stamp (c : ℕ) (now : Int)

def Host.start : Host := ⟨[], []⟩

/-- the process, while it lives -/
def Host.process (h : Host) (p : ℕ) : Option Process := h.procs[p]?.filter (·.live)

def step (h : Host) : Event → Host
  | .spawn pid => { h with procs := h.procs ++ [⟨pid, 0, true⟩] }
  | .fork p pid =>
    match h.process p with
    | some q => { h with procs := h.procs ++ [⟨pid, q.counter, true⟩] }
    | none => h
  | .exit p =>
    match h.process p with
    | some q => { h with procs := h.procs.set p { q with live := false } }
    | none => h
  | .take p =>
    match h.process p with
    | some q =>
      ⟨h.procs.set p { q with counter := (q.counter + 1) % 2 ^ 64 }, h.calls ++ [⟨p, q.counter, none⟩]⟩
    | none => h
  | .stamp c now =>
    match h.calls[c]? with
    | some ⟨p, n, none⟩ =>
      if (h.process p).isSome then { h with calls := h.calls.set c ⟨p, n, some now.toNat⟩ } else h
    | _ => h

def Host.pid (h : Host) (p : ℕ) : Option ℕ := h.procs[p]?.map (·.pid)

/-- the token of a call that has returned -/
def Host.token (h : Host) (c : ℕ) : Option Bytes := do
  let call ← h.calls[c]?
  let pid ← h.pid call.proc
  let nanos ← call.nanos
  some (generateToken pid nanos call.n)

/-- no live process has it -/
def Host.Free (h : Host) (pid : ℕ) : Prop := ∀ q ∈ h.procs, q.live = true → q.pid ≠ pid

/-- the clock is past what an ended process of the id `pid` has read -/
def Host.Later (h : Host) (pid : Option ℕ) (now : Int) : Prop :=
  ∀ call ∈ h.calls, ∀ nanos ∈ call.nanos, h.pid call.proc = pid → h.process call.proc = none → nanos < now.toNat

def Sound (h : Host) : Event → Prop
  | .spawn pid => h.Free pid
  | .fork _ pid => h.Free pid
  | .exit _ => True
  | .take p => ∀ q ∈ h.process p, q.counter + 1 < 2 ^ 64
  | .stamp c now => ∀ call ∈ h.calls[c]?, h.Later (h.pid call.proc) now

instance Sound.decidable (h : Host) : ∀ e, Decidable (Sound h e)
  | .spawn pid => inferInstanceAs (Decidable (∀ q ∈ h.procs, q.live = true → q.pid ≠ pid))
  | .fork _ pid => inferInstanceAs (Decidable (∀ q ∈ h.procs, q.live = true → q.pid ≠ pid))
  | .exit _ => inferInstanceAs (Decidable True)
  | .take p => inferInstanceAs (Decidable (∀ q ∈ h.process p, q.counter + 1 < 2 ^ 64))
  | .stamp c now => inferInstanceAs (Decidable (∀ call ∈ h.calls[c]?, ∀ k ∈ h.calls, ∀ nanos ∈ k.nanos,
      h.pid k.proc = h.pid call.proc → h.process k.proc = none → nanos < now.toNat))

/-! ## What a step does -/

inductive Moves (h : Host) (e : Event) : Host → Prop
  | started (pid counter : ℕ) (hfree : Sound h e → h.Free pid) :
    Moves h e { h with procs := h.procs ++ [⟨pid, counter, true⟩] }
  | ended (p : ℕ) (q : Process) (hq : h.procs[p]? = some q) :
    Moves h e { h with procs := h.procs.set p { q with live := false } }
  | taken (p : ℕ) (q : Process) (hq : h.procs[p]? = some q) (hwrap : Sound h e → q.counter + 1 < 2 ^ 64) :
    Moves h e ⟨h.procs.set p { q with counter := (q.counter + 1) % 2 ^ 64 }, h.calls ++ [⟨p, q.counter, none⟩]⟩
  | stamped (c p n : ℕ) (now : Int) (hcall : h.calls[c]? = some ⟨p, n, none⟩) (hlive : (h.process p).isSome = true)
    (hlater : Sound h e → h.Later (h.pid p) now) :
    Moves h e { h with calls := h.calls.set c ⟨p, n, some now.toNat⟩ }
  | still : Moves h e h

theorem process_eq_some {h : Host} {p : ℕ} {q : Process} :
    h.process p = some q ↔ h.procs[p]? = some q ∧ q.live = true :=
  Option.filter_eq_some_iff

theorem step_cases (h : Host) (e : Event) : Moves h e (step h e) := by
  cases e with
  | spawn pid => exact .started pid 0 id
  | fork p pid =>
    simp only [step]
    cases h.process p with
    | none => exact .still
    | some q => exact .started pid q.counter id
  | exit p =>
    simp only [step]
    cases hq : h.process p with
    | none => exact .still
    | some q => exact .ended p q (process_eq_some.1 hq).1
  | take p =>
    simp only [step]
    cases hq : h.process p with
    | none => exact .still
    | some q => exact .taken p q (process_eq_some.1 hq).1 fun hsound => hsound q hq
  | stamp c now =>
    simp only [step]
    split
    · rename_i p n hcall
      split_ifs with hlive
      · exact .stamped c p n now hcall hlive fun hsound => hsound _ hcall
      · exact .still
    · exact .still

/-! ## The invariant -/

structure Inv (h : Host) : Prop where
  /-- live processes have different ids -/
  pids : ∀ i j q r, h.process i = some q → h.process j = some r → q.pid = r.pid → i = j
  /-- the counts of a process are below its counter -/
  below : ∀ call ∈ h.calls, ∃ q, h.procs[call.proc]? = some q ∧ call.n < q.counter
  /-- and different -/
  counts : ∀ (c d : ℕ) (k l : Call), h.calls[c]? = some k → h.calls[d]? = some l → k.proc = l.proc → k.n = l.n → c = d
  /-- two processes of one id never read the same nanosecond -/
  clocks : ∀ k ∈ h.calls, ∀ l ∈ h.calls, h.pid k.proc = h.pid l.proc → ∀ nanos, k.nanos = some nanos →
    l.nanos = some nanos → k.proc = l.proc

theorem inv_start : Inv Host.start :=
  ⟨fun i j q r hq => by simp [Host.process, Host.start] at hq, fun call hcall => (nomatch hcall),
    fun c d k l hk => by simp [Host.start] at hk, fun k hk => (nomatch hk)⟩

theorem pid_of {h : Host} {p : ℕ} {q : Process} (hq : h.procs[p]? = some q) : h.pid p = some q.pid := by
  rw [Host.pid, hq]
  rfl

variable {h : Host}

/-- processes that keep their ids and never count back -/
theorem Inv.keep (hinv : Inv h) {procs : List Process}
    (hkeep : ∀ (p : ℕ) (q : Process), h.procs[p]? = some q →
      ∃ q' : Process, procs[p]? = some q' ∧ q'.pid = q.pid ∧ q.counter ≤ q'.counter)
    (hpids : ∀ i j q r, (⟨procs, h.calls⟩ : Host).process i = some q → (⟨procs, h.calls⟩ : Host).process j = some r →
      q.pid = r.pid → i = j) : Inv ⟨procs, h.calls⟩ := by
  have hpid : ∀ call ∈ h.calls, (⟨procs, h.calls⟩ : Host).pid call.proc = h.pid call.proc := by
    intro call hcall
    obtain ⟨q, hq, -⟩ := hinv.below call hcall
    obtain ⟨q', hq', heq, -⟩ := hkeep _ q hq
    rw [pid_of hq, pid_of (h := ⟨procs, h.calls⟩) hq', heq]
  refine ⟨hpids, fun call hcall => ?_, hinv.counts, fun k hk l hl heq => ?_⟩
  · obtain ⟨q, hq, hlt⟩ := hinv.below call hcall
    obtain ⟨q', hq', -, hle⟩ := hkeep _ q hq
    exact ⟨q', hq', Nat.lt_of_lt_of_le hlt hle⟩
  · rw [hpid k hk, hpid l hl] at heq
    exact hinv.clocks k hk l hl heq

theorem Inv.started (hinv : Inv h) {pid : ℕ} (counter : ℕ) (hfree : h.Free pid) :
    Inv { h with procs := h.procs ++ [⟨pid, counter, true⟩] } := by
  have hnew : ∀ i q, ({ h with procs := h.procs ++ [⟨pid, counter, true⟩] } : Host).process i = some q →
      h.process i = some q ∨ i = h.procs.length ∧ q.pid = pid := by
    intro i q hq
    obtain ⟨hget, hlive⟩ := process_eq_some.1 hq
    rcases Nat.lt_trichotomy i h.procs.length with hlt | rfl | hgt
    · rw [List.getElem?_append_left hlt] at hget
      exact .inl (process_eq_some.2 ⟨hget, hlive⟩)
    · rw [List.getElem?_append_right (Nat.le_refl _), Nat.sub_self] at hget
      cases hget
      exact .inr ⟨rfl, rfl⟩
    · rw [List.getElem?_eq_none (by simp only [List.length_append, List.length_singleton]; exact hgt)] at hget
      cases hget
  have hapart : ∀ i q, h.process i = some q → q.pid ≠ pid := by
    intro i q hq
    obtain ⟨hget, hlive⟩ := process_eq_some.1 hq
    exact hfree q (List.mem_of_getElem? hget) hlive
  refine hinv.keep (fun p q hq => ⟨q, ?_, rfl, Nat.le_refl _⟩) fun i j q r hq hr heq => ?_
  · exact (List.getElem?_append_left (List.getElem?_eq_some_iff.1 hq).1).trans hq
  · rcases hnew i q hq with hi | ⟨rfl, hi⟩ <;> rcases hnew j r hr with hj | ⟨rfl, hj⟩
    · exact hinv.pids i j q r hi hj heq
    · exact absurd (heq.trans hj) (hapart i q hi)
    · exact absurd (heq.symm.trans hi) (hapart j r hj)
    · rfl

/-- one process goes on, or ends -/
theorem Inv.set (hinv : Inv h) {p : ℕ} {q q' : Process} (hq : h.procs[p]? = some q) (hpid : q'.pid = q.pid)
    (hlive : q'.live = true → q.live = true) (hcounter : q.counter ≤ q'.counter) :
    Inv { h with procs := h.procs.set p q' } := by
  have hlt : p < h.procs.length := (List.getElem?_eq_some_iff.1 hq).1
  have hold : ∀ i r, ({ h with procs := h.procs.set p q' } : Host).process i = some r →
      ∃ r₀, h.process i = some r₀ ∧ r₀.pid = r.pid := by
    intro i r hr
    obtain ⟨hget, hrlive⟩ := process_eq_some.1 hr
    by_cases hi : p = i
    · subst hi
      rw [List.getElem?_set_self hlt] at hget
      cases hget
      exact ⟨q, process_eq_some.2 ⟨hq, hlive hrlive⟩, hpid.symm⟩
    · rw [List.getElem?_set_ne hi] at hget
      exact ⟨r, process_eq_some.2 ⟨hget, hrlive⟩, rfl⟩
  refine hinv.keep (fun i r hr => ?_) fun i j r s hr hs heq => ?_
  · by_cases hi : p = i
    · subst hi
      cases hq.symm.trans hr
      exact ⟨q', List.getElem?_set_self hlt, hpid, hcounter⟩
    · exact ⟨r, (List.getElem?_set_ne hi).trans hr, rfl, Nat.le_refl _⟩
  · obtain ⟨r₀, hr₀, hr'⟩ := hold i r hr
    obtain ⟨s₀, hs₀, hs'⟩ := hold j s hs
    exact hinv.pids i j r₀ s₀ hr₀ hs₀ (by rw [hr', hs', heq])

/-- a call takes a count that its process has not given yet -/
theorem Inv.called (hinv : Inv h) {p n : ℕ} {q : Process} (hq : h.procs[p]? = some q) (hn : n < q.counter)
    (hnew : ∀ call ∈ h.calls, call.proc = p → call.n ≠ n) : Inv { h with calls := h.calls ++ [⟨p, n, none⟩] } := by
  refine ⟨hinv.pids, fun call hcall => ?_, fun c d k l hk hl hproc hcount => ?_, fun k hk l hl heq nanos hk' hl' => ?_⟩
  · rcases List.mem_append.1 hcall with hold | hnew
    · exact hinv.below call hold
    · rw [List.mem_singleton.1 hnew]
      exact ⟨q, hq, hn⟩
  · have hcases : ∀ c k, (h.calls ++ [(⟨p, n, none⟩ : Call)])[c]? = some k →
        h.calls[c]? = some k ∨ c = h.calls.length ∧ k.proc = p ∧ k.n = n := by
      intro c k hk
      rcases Nat.lt_trichotomy c h.calls.length with hlt | rfl | hgt
      · rw [List.getElem?_append_left hlt] at hk
        exact .inl hk
      · rw [List.getElem?_append_right (Nat.le_refl _), Nat.sub_self] at hk
        cases hk
        exact .inr ⟨rfl, rfl, rfl⟩
      · rw [List.getElem?_eq_none (by simp only [List.length_append, List.length_singleton]; exact hgt)] at hk
        cases hk
    rcases hcases c k hk with hc | ⟨rfl, hc, hc'⟩ <;> rcases hcases d l hl with hd | ⟨rfl, hd, hd'⟩
    · exact hinv.counts c d k l hc hd hproc hcount
    · exact absurd (hcount.trans hd') (hnew k (List.mem_of_getElem? hc) (hproc.trans hd))
    · exact absurd (hcount.symm.trans hc') (hnew l (List.mem_of_getElem? hd) (hproc.symm.trans hc))
    · rfl
  · -- the new call has not read the clock
    have hold : ∀ k ∈ h.calls ++ [(⟨p, n, none⟩ : Call)], k.nanos = some nanos → k ∈ h.calls := by
      intro k hk hnanos
      rcases List.mem_append.1 hk with hold | hnew
      · exact hold
      · rw [List.mem_singleton.1 hnew] at hnanos
        cases hnanos
    exact hinv.clocks k (hold k hk hk') l (hold l hl hl') heq nanos hk' hl'

/-- a live process reads the clock, past the readings of the ended processes of its id -/
theorem Inv.stamped (hinv : Inv h) {c p n : ℕ} {now : Int} (hcall : h.calls[c]? = some ⟨p, n, none⟩)
    (hlive : (h.process p).isSome = true) (hlater : h.Later (h.pid p) now) :
    Inv { h with calls := h.calls.set c ⟨p, n, some now.toNat⟩ } := by
  have hlt : c < h.calls.length := (List.getElem?_eq_some_iff.1 hcall).1
  -- a call that the step gives is an old one, but for the clock of `c`
  have hold : ∀ (d : ℕ) (k : Call), (h.calls.set c ⟨p, n, some now.toNat⟩)[d]? = some k →
      ∃ k₀ : Call, h.calls[d]? = some k₀ ∧ k₀.proc = k.proc ∧ k₀.n = k.n ∧
        (k = k₀ ∨ k.proc = p ∧ k.nanos = some now.toNat) := by
    intro d k hk
    by_cases hd : c = d
    · subst hd
      rw [List.getElem?_set_self hlt] at hk
      cases hk
      exact ⟨_, hcall, rfl, rfl, .inr ⟨rfl, rfl⟩⟩
    · rw [List.getElem?_set_ne hd] at hk
      exact ⟨k, hk, rfl, rfl, .inl rfl⟩
  -- an old reading of another process of that id is behind the new one
  have hbehind : ∀ k ∈ h.calls, h.pid k.proc = h.pid p → ∀ nanos, k.nanos = some nanos → nanos = now.toNat →
      k.proc = p := by
    intro k hk hpid nanos hnanos heq
    obtain ⟨q, hq⟩ := Option.isSome_iff_exists.1 hlive
    cases hproc : h.process k.proc with
    | none => exact absurd heq (Nat.ne_of_lt (hlater k hk nanos hnanos hpid hproc))
    | some r =>
      rw [pid_of (process_eq_some.1 hproc).1, pid_of (process_eq_some.1 hq).1] at hpid
      exact hinv.pids _ _ r q hproc hq (Option.some.inj hpid)
  refine ⟨hinv.pids, fun call hmem => ?_, fun d e k l hk hl hproc hcount => ?_, fun k hk l hl hpid nanos hk' hl' => ?_⟩
  · obtain ⟨d, hd⟩ := List.mem_iff_getElem?.1 hmem
    obtain ⟨k₀, hk₀, hproc, hn, -⟩ := hold d call hd
    obtain ⟨q, hq, hlt⟩ := hinv.below k₀ (List.mem_of_getElem? hk₀)
    exact ⟨q, hproc ▸ hq, hn ▸ hlt⟩
  · obtain ⟨k₀, hk₀, hkproc, hkn, -⟩ := hold d k hk
    obtain ⟨l₀, hl₀, hlproc, hln, -⟩ := hold e l hl
    exact hinv.counts d e k₀ l₀ hk₀ hl₀ (by rw [hkproc, hlproc, hproc]) (by rw [hkn, hln, hcount])
  · obtain ⟨d, hd⟩ := List.mem_iff_getElem?.1 hk
    obtain ⟨e, he⟩ := List.mem_iff_getElem?.1 hl
    obtain ⟨k₀, hk₀, -, -, hk⟩ := hold d k hd
    obtain ⟨l₀, hl₀, -, -, hl⟩ := hold e l he
    change h.pid k.proc = h.pid l.proc at hpid
    rcases hk with rfl | ⟨hkp, hknow⟩ <;> rcases hl with rfl | ⟨hlp, hlnow⟩
    · exact hinv.clocks _ (List.mem_of_getElem? hk₀) _ (List.mem_of_getElem? hl₀) hpid nanos hk' hl'
    · rw [hlp] at hpid ⊢
      exact hbehind _ (List.mem_of_getElem? hk₀) hpid nanos hk' (Option.some.inj (hl'.symm.trans hlnow))
    · rw [hkp] at hpid ⊢
      exact (hbehind _ (List.mem_of_getElem? hl₀) hpid.symm nanos hl' (Option.some.inj (hk'.symm.trans hknow))).symm
    · rw [hkp, hlp]

theorem inv_step (h : Host) (e : Event) (hinv : Inv h) (he : Sound h e) : Inv (step h e) := by
  have hmoves := step_cases h e
  generalize step h e = h' at hmoves ⊢
  cases hmoves with
  | started pid counter hfree => exact hinv.started counter (hfree he)
  | ended p q hq => exact hinv.set hq rfl (fun hlive => nomatch hlive) (Nat.le_refl _)
  | taken p q hq hwrap =>
    have hnext : (q.counter + 1) % 2 ^ 64 = q.counter + 1 := Nat.mod_eq_of_lt (hwrap he)
    have hlt : p < h.procs.length := (List.getElem?_eq_some_iff.1 hq).1
    rw [hnext]
    have hset : Inv { h with procs := h.procs.set p { q with counter := q.counter + 1 } } :=
      hinv.set hq rfl id (Nat.le_succ _)
    refine hset.called (List.getElem?_set_self hlt) (Nat.lt_succ_self _) fun call hcall hproc => ?_
    obtain ⟨r, hr, hbelow⟩ := hinv.below call hcall
    rw [hproc] at hr
    cases hq.symm.trans hr
    exact Nat.ne_of_lt hbelow
  | stamped c p n now hcall hlive hlater => exact hinv.stamped hcall hlive (hlater he)
  | still => exact hinv

/-- no two calls make one token -/
theorem Inv.distinct (hinv : Inv h) {c d : ℕ} {token : Bytes} (hc : h.token c = some token)
    (hd : h.token d = some token) : c = d := by
  have hparts : ∀ c, h.token c = some token → ∃ k pid nanos, h.calls[c]? = some k ∧ h.pid k.proc = some pid ∧
      k.nanos = some nanos ∧ token = generateToken pid nanos k.n := by
    intro c hc
    obtain ⟨k, hk, hrest⟩ := Option.bind_eq_some_iff.1 hc
    obtain ⟨pid, hpid, hrest⟩ := Option.bind_eq_some_iff.1 hrest
    obtain ⟨nanos, hnanos, hrest⟩ := Option.bind_eq_some_iff.1 hrest
    exact ⟨k, pid, nanos, hk, hpid, hnanos, (Option.some.inj hrest).symm⟩
  obtain ⟨k, pid, nanos, hk, hpid, hnanos, htoken⟩ := hparts c hc
  obtain ⟨l, pid', nanos', hl, hpid', hnanos', htoken'⟩ := hparts d hd
  obtain ⟨rfl, rfl, hn⟩ := generateToken_injective (htoken.symm.trans htoken')
  have hproc : k.proc = l.proc := hinv.clocks k (List.mem_of_getElem? hk) l (List.mem_of_getElem? hl)
    (hpid.trans hpid'.symm) nanos hnanos hnanos'
  exact hinv.counts c d k l hk hl hproc hn

/-- an id used again and a clock that was set back: the second process makes the token of the first -/
theorem token_made_twice (pid : ℕ) (now : Int) :
    let h := run step Host.start [.spawn pid, .take 0, .stamp 0 now, .exit 0, .spawn pid, .take 1, .stamp 1 now]
    ∃ token, h.token 0 = some token ∧ h.token 1 = some token :=
  ⟨generateToken pid now.toNat 0, rfl, rfl⟩

/-! ## Locks that generate their tokens -/

section Locks

variable {ι κ : Type}

/-- the calls on some locks of one name, where each `acquire` has made its token itself -/
structure Generates (h : Host) (call : κ → Token.Call Bytes) where
  made : κ → ℕ
  inj : Function.Injective made
  token : ∀ c b bt t, call c = .acquire b bt t → h.token (made c) = some t

/-- no token is given to two of them -/
def Generates.scene {call : κ → Token.Call Bytes} (g : Generates h call) (hinv : Inv h) (lock : ι → Lock)
    (obj : κ → ι) : Token.Scene ι κ Bytes where
  lock := lock
  obj := obj
  call := call
  distinct c d b bt b' bt' t hc hd :=
    congrArg obj (g.inj (hinv.distinct (g.token c b bt t hc) (g.token d b' bt' t hd)))

variable [DecidableEq ι] [DecidableEq κ]

/-- **Generated tokens are safe.** The tokens that the processes of a host make are all different; locks of one name
that generate their tokens, in any of those processes, are therefore as safe as locks whose tokens differ, in every
run. -/
theorem generated_tokens_safe {l : List Event} (hl : Along step Sound Host.start l) :
    (∀ c d token, (run step Host.start l).token c = some token → (run step Host.start l).token d = some token → c = d) ∧
    ∀ (call : κ → Token.Call Bytes) (lock : ι → Lock) (obj : κ → ι), Nonempty (Generates (run step Host.start l) call) →
      ∃ scene : Token.Scene ι κ Bytes, scene.lock = lock ∧ scene.obj = obj ∧ scene.call = call ∧
        ∀ key events, Token.Safe scene (run (Token.step scene) (Token.World.start key) events) := by
  have hinv : Inv (run step Host.start l) := run_invariant inv_step inv_start hl
  refine ⟨fun c d token hc hd => hinv.distinct hc hd, fun call lock obj ⟨g⟩ => ?_⟩
  refine ⟨g.scene hinv lock obj, rfl, rfl, rfl, fun key events => ?_⟩
  have hsafe := run_invariant' (I := Token.Inv (g.scene hinv lock obj)) Token.inv_step events (Token.inv_start key)
  exact ⟨hsafe.own, fun c => Token.safe_call (hsafe.told c) (hsafe.traced c), Token.safe_key hsafe⟩

end Locks

/-- a worker is forked with the counter of its parent, ends, and its id is used again -/
def forked : List Event :=
  [.spawn 7, .fork 0 8, .take 0, .take 1, .stamp 1 500, .stamp 0 500, .exit 1, .spawn 8, .take 2, .stamp 2 501]

/-- the tokens of its three calls -/
def forkedToken : Fin 3 → Bytes
  | 0 => generateToken 7 500 0
  | 1 => generateToken 8 500 0
  | 2 => generateToken 8 501 0

theorem generates_forked :
    Nonempty (Generates (run step Host.start forked) fun c => .acquire none none (forkedToken c)) := by
  refine ⟨⟨Fin.val, fun _ _ heq => Fin.ext heq, fun c b bt t hcall => ?_⟩⟩
  cases hcall
  match c with
  | 0 => rfl
  | 1 => rfl
  | 2 => rfl

/-- three locks on one name, one for each of its processes, in every run -/
theorem generated_tokens_safe_fork :
    ∃ scene : Token.Scene (Fin 3) (Fin 3) Bytes, scene.lock = (fun _ => Lock.default) ∧ scene.obj = id ∧
      scene.call = (fun c => .acquire none none (forkedToken c)) ∧
      ∀ key events, Token.Safe scene (run (Token.step scene) (Token.World.start key) events) :=
  (generated_tokens_safe (l := forked) (by decide)).2 _ (fun _ => Lock.default) id generates_forked

end RedisRsPy.Locks.Generated
