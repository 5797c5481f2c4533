/-
How long a lock lives: the milliseconds that `Lock.acquire` and `Lock.extend` (`facade/sync.rs`) make of a duration, and
what the server does with them.

A duration is a positive number of seconds that an `f64` holds. Its product with 1000 is rounded to an `f64` again before
it is cut off to whole milliseconds; `carry` is what that rounding adds to them. The clock of the server counts
milliseconds, and it refuses an expiry beyond the range of `i64`.

Results:
- `millis_eq`: what the code makes of a duration;
- `carry_cases`: below 2 ^ 53 milliseconds the rounding adds nothing, or the millisecond that the product was short of;
- `expiry_iff`: when an expiry is the right one.
Witness (`expiry_wrong`): half a millisecond is no expiry, 9 ms are more than the `f64` below, and a second is all that is
left of eleven.
-/
import RedisRsPy.Lib.Binary64
import RedisRsPy.Locks.Lock

namespace RedisRsPy.Locks

open Lib.Binary64 Lib.Rounding

/-! ## Milliseconds -/

/-- `i64::MAX` -/
def maxI64 : Int := 9223372036854775807

/-- a positive number of seconds, as an `f64` -/
structure Seconds where
  float : Float
  secs : ℚ
  isValue : value float.toModel.unpack = some secs
  pos : 0 < secs

/-- the exact number of milliseconds -/
def Seconds.ms (d : Seconds) : ℚ := d.secs * 1000

/-- the nearest `f64`, and of two equally near the even one -/
def roundF64 (x : ℚ) : ℚ := nearest 53 (-1074) x

/-- the whole milliseconds that the rounding of the product adds -/
def Seconds.carry (d : Seconds) : Int := ⌊roundF64 d.ms⌋ - ⌊d.ms⌋

theorem Seconds.ms_pos (d : Seconds) : 0 < d.ms := mul_pos d.pos (by norm_num)

/-- the factor has all its bits -/
theorem thousand : (1000.0 : Float).toModel.unpack = .finite .positive (1000 * 2 ^ 43) (-43) (by decide) := rfl

/-- the product is rounded, cut off, and kept in range -/
theorem millis_eq (d : Seconds) : millis d.float = min (⌊d.ms⌋ + d.carry) maxI64 := by
  obtain ⟨m, e, hm, hunpack, hsecs⟩ := positive_of_value d.isValue d.pos
  have hms : d.ms = (m : ℚ) * 2 ^ e * (((1000 * 2 ^ 43 : ℕ) : ℚ) * 2 ^ (-43 : ℤ)) := by
    rw [Seconds.ms, hsecs]
    norm_num
  have hmul := toInt64_mul hunpack thousand (by norm_num)
  rw [← hms] at hmul
  have hsum : ⌊d.ms⌋ + d.carry = ⌊nearest 53 (-1074) d.ms⌋ := by
    rw [Seconds.carry, roundF64]
    omega
  rw [hsum]
  exact hmul

/-- below 2 ^ 53 milliseconds the product is rounded up to the next whole one at most -/
theorem carry_cases {d : Seconds} (h : d.ms < 2 ^ 53) : d.carry = 0 ∨ d.carry = 1 ∧ roundF64 d.ms = ⌊d.ms⌋ + 1 := by
  have hlow : ((⌊d.ms⌋ : ℤ) : ℚ) ≤ roundF64 d.ms := le_nearest (by norm_num) d.ms_pos h (Int.floor_le d.ms)
  have hhigh : roundF64 d.ms ≤ ((⌊d.ms⌋ + 1 : ℤ) : ℚ) :=
    nearest_le (by norm_num) d.ms_pos h (by exact_mod_cast (Int.lt_floor_add_one d.ms).le)
  rw [Seconds.carry]
  rcases hhigh.eq_or_lt with heq | hlt
  · refine .inr ⟨?_, by exact_mod_cast heq⟩
    rw [heq, Int.floor_intCast]
    omega
  · have hfloor : ⌊roundF64 d.ms⌋ = ⌊d.ms⌋ := Int.floor_eq_iff.2 ⟨hlow, by exact_mod_cast hlt⟩
    exact .inl (by omega)

/-- a millisecond is not rounded away -/
theorem one_le_floor_add_carry {d : Seconds} (h : 1 ≤ d.ms) : 1 ≤ ⌊d.ms⌋ + d.carry := by
  have hlog : 0 ≤ Int.log 2 d.ms := (Int.zpow_le_iff_le_log one_lt_two d.ms_pos).1 (by simpa using h)
  have hpow : (2 : ℚ) ^ Int.log 2 d.ms ≤ roundF64 d.ms := zpow_log_le_nearest d.ms_pos (by norm_num) (by omega)
  have hone : (1 : ℚ) ≤ 2 ^ Int.log 2 d.ms := one_le_zpow₀ one_le_two hlog
  have hfloor : 1 ≤ ⌊roundF64 d.ms⌋ := Int.le_floor.2 (by exact_mod_cast hone.trans hpow)
  rw [Seconds.carry]
  omega

/-! ## The server and its clock -/

variable {τ : Type} [DecidableEq τ]

/-- the expiry that a request gives to the key -/
def Op.expiry (op : Op τ) (key : Option (Key τ)) : Option Int :=
  match op, key with
  | .acquire _ _ _ px, _ => px
  | .extend token ms, some k => if k.value = token then some ms else none
  | _, _ => none

def invalidExpire : RedisError := .ofReply .responseError "ERR" "invalid expire time"

/-- the server runs a request at a time of its clock -/
def Op.serveAt (op : Op τ) (now : ℕ) (key : Option (Key τ)) : RedisResult Value × Option (Key τ) :=
  match op.expiry key with
  | some ms => if maxI64 < now + ms then (.error invalidExpire, key) else (.ok (op.serve key).1, (op.serve key).2)
  | none => (.ok (op.serve key).1, (op.serve key).2)

theorem serveAt_of_expiry {op : Op τ} {now : ℕ} {key : Option (Key τ)} {ms : Int} (h : op.expiry key = some ms) :
    op.serveAt now key =
      if maxI64 < now + ms then (.error invalidExpire, key) else (.ok (op.serve key).1, (op.serve key).2) := by
  rw [Op.serveAt, h]

/-- the script call of `Lock.extend`, which does not look at `replace_ttl` -/
def extendOp (token : τ) (additionalTime : Float) (_replaceTtl : Bool) : Op τ := .extend token (millis additionalTime)

/-! ## The right expiry -/

/-- a free lock is taken, for a positive time not longer than the timeout -/
def AcquireRight (now : ℕ) (op : Op τ) (timeout : Seconds) : Prop :=
  ∃ n : Int, op.serveAt now none = (.ok .okay, some ⟨op.token, some n⟩) ∧ 0 < n ∧ (n : ℚ) ≤ timeout.ms

/-- a duration in whole milliseconds -/
def Whole (n : Int) (ms : ℚ) : Prop := (n : ℚ) ≤ ms ∧ ms < n + 1

/-- the time that is left, prolonged or replaced -/
def Prolonged (additionalTime : Seconds) (replaceTtl : Bool) (old new : Option Int) : Prop :=
  match replaceTtl, old with
  | true, _ => ∃ n, new = some n ∧ Whole n additionalTime.ms
  | false, some r => ∃ n, new = some n ∧ Whole n (r + additionalTime.ms)
  | false, none => new = none

/-- a lock that is held lives so much longer -/
def ExtendRight (now : ℕ) (k : Key τ) (additionalTime : Seconds) (replaceTtl : Bool) : Prop :=
  ∃ ttl, (extendOp k.value additionalTime.float replaceTtl).serveAt now (some k) = (.ok (.int 1), some ⟨k.value, ttl⟩) ∧
    Prolonged additionalTime replaceTtl k.ttl ttl

/-! ## When the expiry is right -/

theorem whole_iff (n : Int) (ms : ℚ) : Whole n ms ↔ n = ⌊ms⌋ := by
  rw [Whole, eq_comm, Int.floor_eq_iff]

/-- what is not beyond the range of the server has not been cut to that of `i64` -/
theorem millis_of_accepted {now : ℕ} (hnow : 0 < now) {d : Seconds} (h : ¬ maxI64 < now + millis d.float) :
    millis d.float = ⌊d.ms⌋ + d.carry ∧ now + ⌊d.ms⌋ + d.carry ≤ maxI64 := by
  rw [millis_eq] at h ⊢
  omega

theorem accepted_of_le {now : ℕ} {d : Seconds} (h : now + ⌊d.ms⌋ + d.carry ≤ maxI64) :
    ¬ maxI64 < now + millis d.float ∧ millis d.float = ⌊d.ms⌋ + d.carry := by
  rw [millis_eq]
  omega

theorem px_of_timeout {lock : Lock} {d : Seconds} (h : lock.timeout = some d.float) :
    lock.px = if 0 < millis d.float then some (millis d.float) else none := by
  rw [Lock.px, h]
  rfl

/-- the SET of a lock with a timeout, on a free key -/
theorem acquire_right_iff {now : ℕ} (hnow : 0 < now) {lock : Lock} {d : Seconds} (h : lock.timeout = some d.float)
    (blocking : Bool) (deadline : Option Float) (token : τ) :
    AcquireRight now (.acquire blocking deadline token lock.px) d ↔
      1 ≤ d.ms ∧ d.carry ≤ 0 ∧ now + ⌊d.ms⌋ + d.carry ≤ maxI64 := by
  rw [px_of_timeout h]
  by_cases hpos : 0 < millis d.float
  · rw [if_pos hpos, AcquireRight, serveAt_of_expiry rfl]
    constructor
    · rintro ⟨n, hserve, -, hle⟩
      split_ifs at hserve with hrange
      · cases hserve
      obtain ⟨hmillis, haccepted⟩ := millis_of_accepted hnow hrange
      have hn : millis d.float = n := by
        have hkey := congrArg (fun r => r.2.bind (·.ttl)) hserve
        exact Option.some.inj hkey
      have hfloor : n ≤ ⌊d.ms⌋ := Int.le_floor.2 hle
      have hone : (1 : ℚ) ≤ n := by exact_mod_cast hn ▸ hpos
      exact ⟨hone.trans hle, by omega, haccepted⟩
    · rintro ⟨-, hcarry, hrange⟩
      obtain ⟨haccepted, hmillis⟩ := accepted_of_le hrange
      refine ⟨millis d.float, if_neg haccepted, hpos, ?_⟩
      exact Int.le_floor.1 (by omega)
  · -- no milliseconds, no expiry
    rw [if_neg hpos]
    refine iff_of_false ?_ fun ⟨hone, _, hrange⟩ => hpos ?_
    · rintro ⟨n, hserve, -⟩
      cases hserve
    · rw [(accepted_of_le hrange).2]
      exact one_le_floor_add_carry hone

/-- the script gives the key a new time to live, and PEXPIRE deletes it where that is not positive -/
theorem extend_serveAt {now : ℕ} (k : Key τ) (additionalTime : Float) (replaceTtl : Bool) :
    (extendOp k.value additionalTime replaceTtl).serveAt now (some k) =
      if maxI64 < now + millis additionalTime then (.error invalidExpire, some k)
      else (.ok (.int 1), pexpire k (millis additionalTime)) := by
  have hexpiry : (extendOp k.value additionalTime replaceTtl).expiry (some k) = some (millis additionalTime) := if_pos rfl
  have hserve : (extendOp k.value additionalTime replaceTtl).serve (some k) = (.int 1, pexpire k (millis additionalTime)) :=
    if_pos rfl
  rw [serveAt_of_expiry hexpiry, hserve]

/-- the time that is left becomes the additional time, whatever it was -/
theorem extend_sets_iff {now : ℕ} (hnow : 0 < now) (k : Key τ) (d : Seconds) (replaceTtl : Bool) (ttl : Option Int) :
    (extendOp k.value d.float replaceTtl).serveAt now (some k) = (.ok (.int 1), some ⟨k.value, ttl⟩) ↔
      1 ≤ ⌊d.ms⌋ + d.carry ∧ now + ⌊d.ms⌋ + d.carry ≤ maxI64 ∧ ttl = some (⌊d.ms⌋ + d.carry) := by
  rw [extend_serveAt]
  by_cases hrange : maxI64 < now + millis d.float
  · rw [if_pos hrange]
    exact iff_of_false (fun h => (nomatch h)) fun h => (accepted_of_le h.2.1).1 hrange
  · obtain ⟨hmillis, haccepted⟩ := millis_of_accepted hnow hrange
    rw [if_neg hrange, pexpire, hmillis]
    by_cases hpos : 0 < ⌊d.ms⌋ + d.carry
    · rw [if_pos hpos]
      constructor
      · intro h
        cases h
        exact ⟨hpos, haccepted, rfl⟩
      · rintro ⟨-, -, rfl⟩
        rfl
    · rw [if_neg hpos]
      exact iff_of_false (fun h => (nomatch h)) fun h => hpos h.1

/-- the additional time in whole milliseconds is the time that is left, replaced if the rounding adds nothing, prolonged if
just what the rounding adds was left -/
theorem prolonged_iff (d : Seconds) (replaceTtl : Bool) (old : Option Int) :
    Prolonged d replaceTtl old (some (⌊d.ms⌋ + d.carry)) ↔
      if replaceTtl then d.carry = 0 else old = some d.carry := by
  cases replaceTtl with
  | true =>
    have hiff : Prolonged d true old (some (⌊d.ms⌋ + d.carry)) ↔ Whole (⌊d.ms⌋ + d.carry) d.ms :=
      ⟨fun ⟨_, hn, hwhole⟩ => Option.some.inj hn ▸ hwhole, fun hwhole => ⟨_, rfl, hwhole⟩⟩
    rw [hiff, whole_iff, if_pos rfl]
    omega
  | false =>
    rw [if_neg Bool.false_ne_true]
    cases old with
    | none => exact iff_of_false (fun h => (nomatch h)) fun h => (nomatch h)
    | some r =>
      have hiff : Prolonged d false (some r) (some (⌊d.ms⌋ + d.carry)) ↔ Whole (⌊d.ms⌋ + d.carry) (r + d.ms) :=
        ⟨fun ⟨_, hn, hwhole⟩ => Option.some.inj hn ▸ hwhole, fun hwhole => ⟨_, rfl, hwhole⟩⟩
      rw [hiff, whole_iff, Int.floor_intCast_add, Option.some.injEq]
      omega

theorem extend_right_iff {now : ℕ} (hnow : 0 < now) (k : Key τ) (d : Seconds) (replaceTtl : Bool) :
    ExtendRight now k d replaceTtl ↔
      1 ≤ ⌊d.ms⌋ + d.carry ∧ now + ⌊d.ms⌋ + d.carry ≤ maxI64 ∧ if replaceTtl then d.carry = 0 else k.ttl = some d.carry := by
  unfold ExtendRight
  simp only [extend_sets_iff hnow]
  rw [← prolonged_iff]
  constructor
  · rintro ⟨ttl, ⟨hone, hrange, rfl⟩, hprolonged⟩
    exact ⟨hone, hrange, hprolonged⟩
  · rintro ⟨hone, hrange, hprolonged⟩
    exact ⟨_, ⟨hone, hrange, rfl⟩, hprolonged⟩

/-- **Expiry.** `acquire` gives a lock a positive expiry not longer than its timeout exactly from a millisecond on, where
the rounding adds nothing, and within the range of the server. `extend` gives the one that was asked for, with the time that
is left replaced, exactly there; prolonged, exactly where what was left is what the rounding adds. -/
theorem expiry_iff {now : ℕ} (hnow : 0 < now) (d : Seconds) :
    (∀ (lock : Lock) (clock : Float) (blocking : Option Bool) (blockingTimeout : Option Float) (token : τ) (op : Op τ),
      lock.timeout = some d.float → lock.acquire clock blocking blockingTimeout token = .sent op →
        (AcquireRight now op d ↔ 1 ≤ d.ms ∧ d.carry ≤ 0 ∧ now + ⌊d.ms⌋ + d.carry ≤ maxI64)) ∧
    (∀ k : Key τ, ExtendRight now k d false ↔
      1 ≤ ⌊d.ms⌋ + d.carry ∧ now + ⌊d.ms⌋ + d.carry ≤ maxI64 ∧ k.ttl = some d.carry) ∧
    ∀ k : Key τ, ExtendRight now k d true ↔ 1 ≤ d.ms ∧ d.carry = 0 ∧ now + ⌊d.ms⌋ + d.carry ≤ maxI64 := by
  refine ⟨fun lock clock blocking blockingTimeout token op htimeout hop => ?_, fun k => ?_, fun k => ?_⟩
  · cases hop
    exact acquire_right_iff hnow htimeout _ _ token
  · simpa using extend_right_iff hnow k d false
  · have hright := extend_right_iff hnow k d true
    rw [if_pos rfl] at hright
    rw [hright]
    constructor
    · rintro ⟨hone, hrange, hcarry⟩
      rw [hcarry, add_zero] at hone
      exact ⟨by exact_mod_cast (Int.le_floor.1 hone), hcarry, hrange⟩
    · rintro ⟨hone, hcarry, hrange⟩
      exact ⟨one_le_floor_add_carry hone, hrange, hcarry⟩

/-! ## Some locks -/

/-- ten seconds -/
def tenSeconds : Seconds := ⟨10.0, ((10 * 2 ^ 49 : ℤ) : ℚ) * 2 ^ (-49 : ℤ), rfl, by norm_num⟩

theorem tenSeconds_ms : tenSeconds.ms = 10000 := by norm_num [Seconds.ms, tenSeconds]

theorem tenSeconds_carry : tenSeconds.carry = 0 := by
  have hmillis : millis tenSeconds.float = 10000 := rfl
  have hfloor : ⌊tenSeconds.ms⌋ = 10000 := by rw [tenSeconds_ms]; norm_num
  rw [millis_eq, hfloor] at hmillis
  unfold maxI64 at hmillis
  omega

theorem ten_seconds :
    AcquireRight 1 (.acquire true none [116] (some 10000) : Op Bytes) tenSeconds :=
  ((expiry_iff Nat.one_pos tenSeconds).1 { Lock.default with timeout := some 10.0 } 0 none none [116] _ rfl rfl).2
    ⟨by rw [tenSeconds_ms]; norm_num, tenSeconds_carry.le, by rw [tenSeconds_carry, tenSeconds_ms]; decide⟩

/-- half a millisecond, and a bit of rounding -/
def halfMilli : Seconds := ⟨0.0005, ((4611686018427388 : ℤ) : ℚ) * 2 ^ (-63 : ℤ), rfl, by norm_num⟩

/-- the `f64` of nine milliseconds, which is less -/
def nineMillis : Seconds := ⟨0.009, ((5188146770730811 : ℤ) : ℚ) * 2 ^ (-59 : ℤ), rfl, by norm_num⟩

def oneSecond : Seconds := ⟨1.0, ((2 ^ 52 : ℤ) : ℚ) * 2 ^ (-52 : ℤ), rfl, by norm_num⟩

/-- a lock with ten seconds left -/
def tenLeft : Key Bytes := ⟨[116], some 10000⟩

/-- the request of a lock with this timeout -/
def acquireFor (timeout : Float) : Op Bytes := .acquire true none [116] { Lock.default with timeout := some timeout }.px

/-- half a millisecond is no expiry at all; nine milliseconds are more than the `f64` of them; and a second more leaves one
second of ten -/
theorem expiry_wrong :
    (acquireFor halfMilli.float).serveAt 1 none = (.ok .okay, some ⟨[116], none⟩) ∧
      ¬ AcquireRight 1 (acquireFor halfMilli.float) halfMilli ∧
      (acquireFor nineMillis.float).serveAt 1 none = (.ok .okay, some ⟨[116], some 9⟩) ∧
      ¬ AcquireRight 1 (acquireFor nineMillis.float) nineMillis ∧
      (extendOp [116] oneSecond.float false).serveAt 1 (some tenLeft) = (.ok (.int 1), some ⟨[116], some 1000⟩) ∧
      ¬ ExtendRight 1 tenLeft oneSecond false := by
  have hhalf : (acquireFor halfMilli.float).serveAt 1 none = (.ok .okay, some ⟨[116], none⟩) := rfl
  have hnine : (acquireFor nineMillis.float).serveAt 1 none = (.ok .okay, some ⟨[116], some 9⟩) := rfl
  have hsecond : (extendOp [116] oneSecond.float false).serveAt 1 (some tenLeft) =
      (.ok (.int 1), some ⟨[116], some 1000⟩) := rfl
  refine ⟨hhalf, ?_, hnine, ?_, hsecond, ?_⟩
  · rintro ⟨n, hserve, -⟩
    cases hhalf.symm.trans hserve
  · rintro ⟨n, hserve, -, hle⟩
    cases hnine.symm.trans hserve
    norm_num [Seconds.ms, nineMillis] at hle
  · rintro ⟨ttl, hserve, hprolonged⟩
    cases hsecond.symm.trans hserve
    obtain ⟨n, hn, -, hlt⟩ := hprolonged
    cases hn
    norm_num [Seconds.ms, oneSecond] at hlt

end RedisRsPy.Locks
