/-
The loop of `percent_decode` over an index, with its two steps and the check at the end of the text.

An encoder of a text writes every byte as it is or as an escape, in either case of digits, and always escapes `%`; which
of the two may differ from byte to byte (`Encodes`).

Results:
- `percentDecodeLoop_eq`: with as many turns as there are bytes left the loop ends, inside the bytes, with what
  `percentDecodeBytes` reads;
- `percentDecodeBytes_of_encodes`: what an encoder wrote is read back;
- `percentDecode_truncated`: a `%` that two digits do not follow stands for itself, wherever it is;
- `percent_decode_inverts`: all of it, for the loop.
Witness: `percent_decode_inverts_mixed`.
-/
import RedisRsPy.Facade.Percent

namespace RedisRsPy.Facade

open Lib.Utf8

/-! ## The loop -/

/-- how a run of the loop ends -/
inductive LoopEnd
  | running
  /-- an index that is not below the length -/
  | outOfBounds
  | finished (out : List UInt8)
  deriving Repr, DecidableEq

/-- the `while` of `percent_decode`; every `bytes[i]` is checked -/
def percentDecodeLoop (bytes : List UInt8) : ℕ → ℕ → List UInt8 → LoopEnd
  | 0, _, _ => .running
  | fuel + 1, i, out =>
    if i < bytes.length then
      match bytes[i]? with
      | none => .outOfBounds
      | some b =>
        if b = 37 ∧ i + 2 < bytes.length then
          match bytes[i + 1]?, bytes[i + 2]? with
          | some h, some l =>
            match escapedByte (toDigit h.toNat) (toDigit l.toNat) with
            | some x => percentDecodeLoop bytes fuel (i + 3) (out ++ [x])
            | none => percentDecodeLoop bytes fuel (i + 1) (out ++ [b])
          | _, _ => .outOfBounds
        else percentDecodeLoop bytes fuel (i + 1) (out ++ [b])
    else .finished out

/-- the text that a finished loop returns -/
def LoopEnd.text : LoopEnd → Option Str
  | .finished out => some (decodeLossy out)
  | _ => none

/-- `percent_decode`, given that many turns -/
def percentDecodeRun (fuel : ℕ) (s : Str) : Option Str := (percentDecodeLoop (encode s) fuel 0 []).text

theorem drop_eq_cons {bytes : List UInt8} {i : ℕ} (h : i < bytes.length) :
    ∃ b, bytes[i]? = some b ∧ bytes.drop i = b :: bytes.drop (i + 1) :=
  ⟨bytes[i], List.getElem?_eq_getElem h, List.drop_eq_getElem_cons h⟩

/-- a `%` near the end starts no escape -/
theorem percentDecodeBytes_short {b : UInt8} {rest : List UInt8} (h : rest.length < 2) :
    percentDecodeBytes (b :: rest) = b :: percentDecodeBytes rest := by
  rcases rest with _ | ⟨x, _ | ⟨y, rest⟩⟩
  · rfl
  · rfl
  · simp only [List.length_cons] at h
    omega

/-- **The loop reads all bytes.** It ends after at most one turn a byte, and no index is out of bounds. -/
theorem percentDecodeLoop_eq (bytes : List UInt8) {fuel i : ℕ} (out : List UInt8) (h : bytes.length - i < fuel) :
    percentDecodeLoop bytes fuel i out = .finished (out ++ percentDecodeBytes (bytes.drop i)) := by
  induction fuel generalizing i out with
  | zero => exact absurd h (Nat.not_lt_zero _)
  | succ fuel ih =>
    rw [percentDecodeLoop]
    by_cases hi : i < bytes.length
    · obtain ⟨b, hb, hdrop⟩ := drop_eq_cons hi
      rw [if_pos hi, hb, hdrop]
      -- one byte kept, and the rest by the induction
      have hkeep : percentDecodeBytes (b :: bytes.drop (i + 1)) = b :: percentDecodeBytes (bytes.drop (i + 1)) →
          percentDecodeLoop bytes fuel (i + 1) (out ++ [b]) =
            .finished (out ++ percentDecodeBytes (b :: bytes.drop (i + 1))) := by
        intro hread
        rw [hread, ih (out ++ [b]) (by omega), List.append_assoc]
        rfl
      by_cases hescape : b = 37 ∧ i + 2 < bytes.length
      · obtain ⟨hpercent, hend⟩ := hescape
        have hnext : i + 1 < bytes.length := by omega
        obtain ⟨x, hx, hdropx⟩ := drop_eq_cons hnext
        obtain ⟨y, hy, hdropy⟩ := drop_eq_cons hend
        have hread : percentDecodeBytes (b :: bytes.drop (i + 1)) =
            match escapedByte (toDigit x.toNat) (toDigit y.toNat) with
            | some z => z :: percentDecodeBytes (bytes.drop (i + 3))
            | none => b :: percentDecodeBytes (bytes.drop (i + 1)) := by
          rewrite [hdropx, hdropy, percentDecodeBytes, if_pos hpercent]
          rfl
        simp only [if_pos (And.intro hpercent hend), hx, hy]
        cases hz : escapedByte (toDigit x.toNat) (toDigit y.toNat) with
        | none =>
          rw [hz] at hread
          exact hkeep hread
        | some z =>
          rw [hz] at hread
          simp only [hread]
          rw [ih (out ++ [z]) (by omega), List.append_assoc]
          rfl
      · simp only [if_neg hescape]
        refine hkeep ?_
        by_cases hpercent : b = 37
        · have hshort : (bytes.drop (i + 1)).length < 2 := by
            rw [List.length_drop]
            have hnot : ¬ i + 2 < bytes.length := fun hend => hescape ⟨hpercent, hend⟩
            omega
          exact percentDecodeBytes_short hshort
        · exact percentDecodeBytes_of_ne hpercent _
    · rw [if_neg hi, List.drop_eq_nil_of_le (Nat.le_of_not_lt hi)]
      show LoopEnd.finished out = .finished (out ++ [])
      rw [List.append_nil]

/-- the whole text is read, whatever it holds -/
theorem percentDecodeRun_eq {fuel : ℕ} {s : Str} (h : (encode s).length < fuel) :
    percentDecodeRun fuel s = some (percentDecode s) := by
  rw [percentDecodeRun, percentDecodeLoop_eq (encode s) [] h]
  rfl

/-! ## What an encoder writes -/

/-- bytes and what an encoder wrote for them: each as it is or as an escape, `%` as an escape -/
inductive Encodes : List UInt8 → List UInt8 → Prop
  | nil : Encodes [] []
  | plain {b : UInt8} {bytes text : List UInt8} (ne : b ≠ 37) (rest : Encodes bytes text) :
      Encodes (b :: bytes) (b :: text)
  | escape {b h l : UInt8} {bytes text : List UInt8} (high : toDigit h.toNat = some (b.toNat / 16))
      (low : toDigit l.toNat = some (b.toNat % 16)) (rest : Encodes bytes text) :
      Encodes (b :: bytes) (37 :: h :: l :: text)

theorem escapedByte_digits (b : UInt8) : escapedByte (some (b.toNat / 16)) (some (b.toNat % 16)) = some b := by
  show some (UInt8.ofNat (b.toNat / 16 * 16 + b.toNat % 16)) = some b
  rw [Nat.div_add_mod', UInt8.ofNat_toNat]

theorem percentDecodeBytes_of_encodes {bytes text : List UInt8} (h : Encodes bytes text) :
    percentDecodeBytes text = bytes := by
  induction h with
  | nil => rfl
  | plain hne hrest ih => rw [percentDecodeBytes_of_ne hne, ih]
  | @escape b h l bytes text hhigh hlow hrest ih =>
    have hbyte : escapedByte (toDigit h.toNat) (toDigit l.toNat) = some b := by
      rw [hhigh, hlow]
      exact escapedByte_digits b
    rw [percentDecodeBytes, if_pos rfl, hbyte]
    exact congrArg (b :: ·) ih

/-! ## What starts no escape -/

/-- no two digits stand first -/
def NoDigits (s : Str) : Prop := ∀ h l rest, s = h :: l :: rest → escapedByte (toDigit h.toNat) (toDigit l.toNat) = none

theorem escapedByte_none_left (l : Option ℕ) : escapedByte none l = none := rfl

theorem escapedByte_none_right (h : Option ℕ) : escapedByte h none = none := by
  cases h with
  | none => rfl
  | some n => rfl

theorem items_percent {after : Str} (h : NoDigits after) : items ('%' :: after) = .inl '%' :: items after := by
  rcases after with _ | ⟨x, _ | ⟨y, rest⟩⟩
  · rfl
  · rfl
  · rw [items, if_pos rfl, h x y rest rfl]

/-- a character that is no digit starts no two digits -/
theorem noDigits_cons {c : Char} (h : toDigit c.toNat = none) (after : Str) : NoDigits (c :: after) := by
  intro x y rest hs
  obtain ⟨rfl, -⟩ := List.cons.inj hs
  rw [h]
  exact escapedByte_none_left _

theorem noDigits_second (b : Char) {c : Char} (h : toDigit c.toNat = none) (after : Str) : NoDigits (b :: c :: after) := by
  intro x y rest hs
  obtain ⟨-, hs⟩ := List.cons.inj hs
  obtain ⟨rfl, -⟩ := List.cons.inj hs
  rw [h]
  exact escapedByte_none_right _

theorem items_cons {c : Char} {s : Str} (h : c = '%' → NoDigits s) : items (c :: s) = .inl c :: items s := by
  by_cases hc : c = '%'
  · rw [hc]
    exact items_percent (h hc)
  · exact items_of_ne hc s

/-- no escape goes over a character that is no digit and starts none -/
theorem items_append_cons (before : Str) {c : Char} {after : Str} (hdigit : toDigit c.toNat = none)
    (h : c = '%' → NoDigits after) : items (before ++ c :: after) = items before ++ .inl c :: items after := by
  fun_induction items before with
  | case1 x y rest b hb ih =>
    rw [List.cons_append, List.cons_append, List.cons_append, items, if_pos rfl, hb, ih]
    rfl
  | case2 x y rest hb ih =>
    rw [List.cons_append, List.cons_append, List.cons_append, items, if_pos rfl, hb]
    exact congrArg (.inl '%' :: ·) ih
  | case3 d x y rest hd ih =>
    rw [List.cons_append, items_of_ne hd]
    exact congrArg (.inl d :: ·) ih
  | case4 rest hrest =>
    rcases rest with _ | ⟨x, _ | ⟨y, _ | ⟨z, rest⟩⟩⟩
    · exact items_cons h
    · rw [List.singleton_append, items_cons fun _ => noDigits_cons hdigit after, items_cons h]
      rfl
    · rw [List.cons_append, List.singleton_append, items_cons fun _ => noDigits_second y hdigit after,
        items_cons fun _ => noDigits_cons hdigit after, items_cons h]
      rfl
    · exact (hrest x y z rest rfl).elim

/-- such a character is read by itself -/
theorem percentDecode_append_cons (before : Str) {c : Char} {after : Str} (hdigit : toDigit c.toNat = none)
    (h : c = '%' → NoDigits after) :
    percentDecode (before ++ c :: after) = percentDecode before ++ c :: percentDecode after := by
  have hbytes : (items (before ++ c :: after)).flatMap bytesOf =
      (items before).flatMap bytesOf ++ (String.utf8EncodeChar c ++ (items after).flatMap bytesOf) := by
    rw [items_append_cons before hdigit h, List.flatMap_append, List.flatMap_cons]
    rfl
  have hhead : (String.utf8EncodeChar c ++ (items after).flatMap bytesOf).head?.any continues = false := by
    obtain ⟨b, tail, hchar, hcontinues, -⟩ := utf8EncodeChar_cases c
    rw [hchar]
    exact hcontinues
  rw [percentDecode, percentDecodeBytes_encode, hbytes, decodeLossy_append _ hhead, decodeLossy_char_append,
    ← percentDecodeBytes_encode, ← percentDecodeBytes_encode]
  rfl

/-- **A malformed or truncated escape.** A `%` that two digits do not follow stands for itself, between what the text
before it and the text after it stand for. -/
theorem percentDecode_truncated (before : Str) {after : Str} (h : NoDigits after) :
    percentDecode (before ++ '%' :: after) = percentDecode before ++ '%' :: percentDecode after :=
  percentDecode_append_cons before (by decide) fun _ => h

/-- every character that is no digit and starts no escape stays -/
theorem count_le_percentDecode {c : Char} (hdigit : toDigit c.toNat = none) (hne : c ≠ '%') (s : Str) :
    s.count c ≤ (percentDecode s).count c := by
  induction hn : s.length using Nat.strongRecOn generalizing s with
  | _ n ih =>
    subst hn
    by_cases hmem : c ∈ s
    · obtain ⟨before, after, rfl⟩ := List.append_of_mem hmem
      have hbefore := ih before.length (by simp only [List.length_append, List.length_cons]; omega) before rfl
      have hafter := ih after.length (by simp only [List.length_append, List.length_cons]; omega) after rfl
      rw [percentDecode_append_cons before hdigit fun h => absurd h hne, List.count_append, List.count_append,
        List.count_cons_self, List.count_cons_self]
      omega
    · rw [List.count_eq_zero.2 hmem]
      exact Nat.zero_le _

/-! ## The whole function -/

/-- no turn reads past the end, also of a loop that is cut short -/
theorem percentDecodeLoop_inBounds (bytes : List UInt8) (fuel i : ℕ) (out : List UInt8) :
    percentDecodeLoop bytes fuel i out ≠ .outOfBounds := by
  induction fuel generalizing i out with
  | zero =>
    intro h
    cases h
  | succ fuel ih =>
    rw [percentDecodeLoop]
    by_cases hi : i < bytes.length
    · obtain ⟨b, hb, -⟩ := drop_eq_cons hi
      rw [if_pos hi, hb]
      by_cases hescape : b = 37 ∧ i + 2 < bytes.length
      · have hnext : i + 1 < bytes.length := Nat.lt_of_succ_lt hescape.2
        obtain ⟨x, hx, -⟩ := drop_eq_cons hnext
        obtain ⟨y, hy, -⟩ := drop_eq_cons hescape.2
        simp only [if_pos hescape, hx, hy]
        cases escapedByte (toDigit x.toNat) (toDigit y.toNat) with
        | none => exact ih _ _
        | some z => exact ih _ _
      · simp only [if_neg hescape]
        exact ih _ _
    · rw [if_neg hi]
      intro h
      cases h

/-- **Percent-encoding is inverted.** What any encoder wrote for a text is read back as the text. On every text the loop
ends after at most one turn a byte, with a text; no index of any turn is out of bounds; and a `%` that starts no escape
stays as it is. -/
theorem percent_decode_inverts :
    (∀ (s t : Str) (fuel : ℕ), Encodes (encode s) (encode t) → (encode t).length < fuel →
        percentDecodeRun fuel t = some s) ∧
      (∀ (t : Str) (fuel : ℕ), (encode t).length < fuel → percentDecodeRun fuel t = some (percentDecode t)) ∧
      (∀ (t : Str) (fuel : ℕ), percentDecodeLoop (encode t) fuel 0 [] ≠ .outOfBounds) ∧
      (∀ before after : Str, NoDigits after →
        percentDecode (before ++ '%' :: after) = percentDecode before ++ '%' :: percentDecode after) := by
  refine ⟨?_, fun t fuel => percentDecodeRun_eq, fun t fuel => percentDecodeLoop_inBounds _ _ _ _,
    fun before after => percentDecode_truncated before⟩
  intro s t fuel hwritten hfuel
  have hread : percentDecode t = s := by
    rw [percentDecode, percentDecodeBytes_of_encodes hwritten, decodeLossy_encode]
  rw [percentDecodeRun_eq hfuel, hread]

/-- two bytes of one character, the digits in either case, beside a `%` -/
theorem percent_decode_inverts_mixed :
    percentDecodeRun 10 ['%', 'C', '3', '%', 'a', '9', '%', '2', '5'] = some ['é', '%'] ∧
      percentDecode ['%', '%', '4', '1'] = '%' :: percentDecode ['%', '4', '1'] := by
  have hwritten : Encodes (encode ['é', '%']) (encode ['%', 'C', '3', '%', 'a', '9', '%', '2', '5']) :=
    .escape rfl rfl (.escape rfl rfl (.escape rfl rfl .nil))
  have hempty : percentDecode [] = [] := decodeLossy_encode []
  refine ⟨percent_decode_inverts.1 _ _ 10 hwritten (by decide), ?_⟩
  have hkept := percent_decode_inverts.2.2.2 [] ['%', '4', '1'] (noDigits_cons (by decide) _)
  rwa [hempty] at hkept

end RedisRsPy.Facade
