/-
Percent-encoding in connection URLs: `percent_decode` of `facade/sync.rs`, which reads `%` and two hexadecimal digits as
one byte and takes the bytes for UTF-8.

`items` is the same on characters: what a text says, character by character and byte by byte.

Results:
- `percentDecode_eq_self_iff`: exactly the texts without an escape stand for themselves;
- `percentDecode_percentEncode`: an encoded text is read back, whatever its characters are;
- `weight_percentDecode_le`: decoding adds no weight, where `%` weighs as much as any character.
-/
import RedisRsPy.Lib.Utf8
import RedisRsPy.Text

namespace RedisRsPy.Facade

open Lib.Utf8

/-- a Rust string, as its characters -/
abbrev Str := List Char

/-! ## Decoding -/

/-- `char::to_digit(16)`, by the number of the character -/
def toDigit (n : ℕ) : Option ℕ :=
  if 48 ≤ n ∧ n ≤ 57 then some (n - 48)
  else if 97 ≤ n ∧ n ≤ 102 then some (n - 87)
  else if 65 ≤ n ∧ n ≤ 70 then some (n - 55)
  else none

/-- the byte of two digits -/
def escapedByte (h l : Option ℕ) : Option UInt8 :=
  match h, l with
  | some h, some l => some (UInt8.ofNat (h * 16 + l))
  | _, _ => none

/-- the loop of `percent_decode`; the last two bytes start no escape -/
def percentDecodeBytes : List UInt8 → List UInt8
  | b :: h :: l :: rest =>
    if b = 37 then
      match escapedByte (toDigit h.toNat) (toDigit l.toNat) with
      | some x => x :: percentDecodeBytes rest
      | none => b :: percentDecodeBytes (h :: l :: rest)
    else b :: percentDecodeBytes (h :: l :: rest)
  | rest => rest

/-- `percent_decode` -/
def percentDecode (s : Str) : Str := decodeLossy (percentDecodeBytes (encode s))

/-! ## Characters and escapes -/

/-- the characters of a text, and the bytes of its escapes -/
def items : Str → List (Char ⊕ UInt8)
  | c :: h :: l :: rest =>
    if c = '%' then
      match escapedByte (toDigit h.toNat) (toDigit l.toNat) with
      | some x => .inr x :: items rest
      | none => .inl c :: items (h :: l :: rest)
    else .inl c :: items (h :: l :: rest)
  | rest => rest.map .inl

/-- a text without an escape -/
def Plain (s : Str) : Prop :=
  ∀ before h l after, s = before ++ '%' :: h :: l :: after → escapedByte (toDigit h.toNat) (toDigit l.toNat) = none

theorem percentDecodeBytes_of_ne {b : UInt8} (h : b ≠ 37) (rest : List UInt8) :
    percentDecodeBytes (b :: rest) = b :: percentDecodeBytes rest := by
  rcases rest with _ | ⟨x, _ | ⟨y, rest⟩⟩
  · rfl
  · rfl
  · rw [percentDecodeBytes, if_neg h]

theorem percentDecodeBytes_append {front : List UInt8} (h : ∀ b ∈ front, b ≠ 37) (rest : List UInt8) :
    percentDecodeBytes (front ++ rest) = front ++ percentDecodeBytes rest := by
  induction front with
  | nil => rfl
  | cons b front ih =>
    rw [List.cons_append, percentDecodeBytes_of_ne (h b List.mem_cons_self),
      ih fun x hx => h x (List.mem_cons_of_mem b hx)]
    rfl

theorem items_of_ne {c : Char} (h : c ≠ '%') (rest : Str) : items (c :: rest) = .inl c :: items rest := by
  rcases rest with _ | ⟨x, _ | ⟨y, rest⟩⟩
  · rfl
  · rfl
  · rw [items, if_neg h]

/-- the bytes of a character other than `%` start no escape -/
theorem utf8EncodeChar_ne {c : Char} (h : c ≠ '%') : ∀ b ∈ String.utf8EncodeChar c, b ≠ 37 := by
  intro b hb hpercent
  subst hpercent
  obtain ⟨first, tail, hbytes, -, htail, -⟩ := utf8EncodeChar_cases c
  rw [hbytes] at hb
  rcases List.mem_cons.1 hb with hfirst | hmem
  · have hthis : front (37 :: tail) = some c := front_eq_some_iff.2 ⟨[], by rw [hbytes, hfirst, List.append_nil]⟩
    have hother : front (37 :: tail) = some '%' := front_eq_some_iff.2 ⟨tail, rfl⟩
    rw [hthis, Option.some.injEq] at hother
    exact h hother
  · exact absurd (htail 37 hmem) (by decide)

/-- a byte that goes on with a character, or starts one of several bytes, is no digit -/
theorem toDigit_of_large {n : ℕ} (h : 128 ≤ n) : toDigit n = none := by
  rw [toDigit, if_neg (by omega), if_neg (by omega), if_neg (by omega)]

theorem toNat_ofNat_byte (b : UInt8) : (Char.ofNat b.toNat).toNat = b.toNat := by
  have hlt := b.toNat_lt
  have hvalid : b.toNat.isValidChar := Or.inl (by omega)
  rw [Char.ofNat, dif_pos hvalid]
  rfl

/-- the first byte of a character of several bytes is no ASCII character -/
theorem le_first {c : Char} (h : 128 ≤ c.toNat) {b : UInt8} {tail : List UInt8} (hbytes : String.utf8EncodeChar c = b :: tail) :
    128 ≤ b.toNat := by
  by_contra hsmall
  have hnat := toNat_ofNat_byte b
  have hascii : String.utf8EncodeChar (Char.ofNat b.toNat) = [b] := by
    rw [utf8EncodeChar_ascii (by omega), asciiByte, hnat, UInt8.ofNat_toNat]
  have hthis : front (b :: tail) = some c := front_eq_some_iff.2 ⟨[], by rw [hbytes, List.append_nil]⟩
  have hother : front (b :: tail) = some (Char.ofNat b.toNat) := front_eq_some_iff.2 ⟨tail, by rw [hascii]; rfl⟩
  rw [hthis, Option.some.injEq] at hother
  rw [hother, hnat] at h
  exact hsmall h

/-- the first byte of a character is a digit as the character is one, and then the only one -/
theorem toDigit_first (c : Char) : ∃ b tail, String.utf8EncodeChar c = b :: tail ∧ toDigit b.toNat = toDigit c.toNat ∧
    (toDigit c.toNat ≠ none → tail = []) := by
  by_cases hascii : c.toNat < 128
  · refine ⟨asciiByte c, [], utf8EncodeChar_ascii hascii, ?_, fun _ => rfl⟩
    have hnat : (asciiByte c).toNat = c.toNat := Nat.mod_eq_of_lt (by omega)
    rw [hnat]
  · have hlarge : 128 ≤ c.toNat := Nat.le_of_not_lt hascii
    obtain ⟨b, tail, hbytes, -⟩ := utf8EncodeChar_cases c
    refine ⟨b, tail, hbytes, ?_, fun hsome => absurd (toDigit_of_large hlarge) hsome⟩
    rw [toDigit_of_large hlarge, toDigit_of_large (le_first hlarge hbytes)]

/-- an escape of a text is one of its bytes -/
theorem percentDecodeBytes_percent {h l : Char} {rest : Str} :
    percentDecodeBytes (encode ('%' :: h :: l :: rest)) =
      match escapedByte (toDigit h.toNat) (toDigit l.toNat) with
      | some x => x :: percentDecodeBytes (encode rest)
      | none => 37 :: percentDecodeBytes (encode (h :: l :: rest)) := by
  obtain ⟨b, tail, hbytes, hdigit, htail⟩ := toDigit_first h
  have hencode : encode ('%' :: h :: l :: rest) = 37 :: b :: (tail ++ encode (l :: rest)) := by
    rw [encode, List.flatMap_cons, List.flatMap_cons, hbytes]
    rfl
  have hencode' : encode (h :: l :: rest) = b :: (tail ++ encode (l :: rest)) := by
    rw [encode, List.flatMap_cons, hbytes]
    rfl
  rw [hencode, hencode']
  by_cases hnone : toDigit h.toNat = none
  · rw [hnone] at hdigit ⊢
    cases hrest : tail ++ encode (l :: rest) with
    | nil => rfl
    | cons x more =>
      rw [percentDecodeBytes, if_pos rfl, hdigit]
      rfl
  · rw [htail hnone, List.nil_append]
    obtain ⟨b', tail', hbytes', hdigit', htail'⟩ := toDigit_first l
    have hencode'' : encode (l :: rest) = b' :: (tail' ++ encode rest) := by
      rw [encode, List.flatMap_cons, hbytes']
      rfl
    rw [hencode'', percentDecodeBytes, if_pos rfl, hdigit, hdigit']
    by_cases hnone' : toDigit l.toNat = none
    · rw [hnone']
      cases toDigit h.toNat with
      | none => rfl
      | some n => rfl
    · rw [htail' hnone']
      rfl

/-- one character after `%` is no escape, however many bytes it has -/
theorem percentDecodeBytes_pair (h : Char) :
    percentDecodeBytes (encode ['%', h]) = 37 :: percentDecodeBytes (encode [h]) := by
  obtain ⟨b, tail, hbytes, hdigit, htail⟩ := toDigit_first h
  have hencode : encode [h] = b :: tail := by
    rw [encode, List.flatMap_cons, hbytes]
    exact congrArg (b :: ·) (List.append_nil tail)
  have hencode' : encode ['%', h] = 37 :: b :: tail := congrArg (37 :: ·) hencode
  rw [hencode', hencode]
  by_cases hnone : toDigit h.toNat = none
  · cases tail with
    | nil => rfl
    | cons x more =>
      rw [percentDecodeBytes, if_pos rfl, hdigit, hnone]
      rfl
  · rw [htail hnone]
    rfl

/-- **The bytes that a text says.** -/
theorem percentDecodeBytes_encode (s : Str) : percentDecodeBytes (encode s) = (items s).flatMap bytesOf := by
  induction hn : s.length using Nat.strongRecOn generalizing s with
  | _ n ih =>
    subst hn
    cases s with
    | nil => rfl
    | cons c rest =>
      have hrest := ih rest.length (Nat.lt_succ_self _) rest rfl
      by_cases hc : c = '%'
      · subst hc
        rcases rest with _ | ⟨h, _ | ⟨l, rest⟩⟩
        · rfl
        · rw [percentDecodeBytes_pair, hrest]
          rfl
        · have hlen : rest.length < ('%' :: h :: l :: rest).length := by
            simp only [List.length_cons]
            omega
          have hskip := ih rest.length hlen rest rfl
          rw [percentDecodeBytes_percent, items, if_pos rfl]
          cases escapedByte (toDigit h.toNat) (toDigit l.toNat) with
          | none =>
            rw [hrest]
            rfl
          | some x =>
            rw [hskip]
            rfl
      · rw [encode, List.flatMap_cons, percentDecodeBytes_append (utf8EncodeChar_ne hc), items_of_ne hc, List.flatMap_cons]
        exact congrArg (String.utf8EncodeChar c ++ ·) hrest

theorem percentDecode_cons_of_ne {c : Char} (h : c ≠ '%') (s : Str) : percentDecode (c :: s) = c :: percentDecode s := by
  rw [percentDecode, percentDecodeBytes_encode, items_of_ne h, List.flatMap_cons, bytesOf, decodeLossy_char_append,
    ← percentDecodeBytes_encode]
  rfl

/-! ## Weight -/

theorem itemWeight_items_le {w : Char → ℕ} (hw : 1 ≤ w '%') (s : Str) :
    ((items s).map (itemWeight w 1)).sum ≤ weight w s := by
  fun_induction items s with
  | case1 h l rest x hx ih =>
    rw [List.map_cons, List.sum_cons, weight_cons, weight_cons, weight_cons]
    show 1 + _ ≤ _
    omega
  | case2 h l rest hx ih =>
    rw [List.map_cons, List.sum_cons, weight_cons]
    exact Nat.add_le_add_left ih _
  | case3 c h l rest hc ih =>
    rw [List.map_cons, List.sum_cons, weight_cons]
    exact Nat.add_le_add_left ih _
  | case4 rest hrest =>
    rw [List.map_map]
    exact Nat.le_refl _

/-- **Decoding adds no weight.** -/
theorem weight_percentDecode_le {w : Char → ℕ} (hw : ∀ c, w c ≤ 1) (hpercent : w '%' = 1) (s : Str) :
    weight w (percentDecode s) ≤ weight w s := by
  rw [percentDecode, percentDecodeBytes_encode]
  exact Nat.le_trans (weight_decodeLossy_le hw (items s)) (itemWeight_items_le (Nat.le_of_eq hpercent.symm) s)

theorem weight_one (s : Str) : weight (fun _ => 1) s = s.length := by
  induction s with
  | nil => rfl
  | cons c s ih => rw [weight_cons, ih, List.length_cons, Nat.add_comm]

theorem sum_itemWeight_one (l : List (Char ⊕ UInt8)) : (l.map (itemWeight (fun _ => 1) 1)).sum = l.length := by
  induction l with
  | nil => rfl
  | cons item l ih =>
    rw [List.map_cons, List.sum_cons, ih, List.length_cons, Nat.add_comm]
    cases item with
    | inl c => rfl
    | inr b => rfl

theorem length_percentDecode_le (s : Str) : (percentDecode s).length ≤ s.length := by
  rw [← weight_one, ← weight_one]
  exact weight_percentDecode_le (fun _ => Nat.le_refl 1) rfl s

/-! ## Texts without an escape -/

theorem Plain.tail {c : Char} {s : Str} (h : Plain (c :: s)) : Plain s := by
  intro before x y after hs
  refine h (c :: before) x y after ?_
  rw [hs]
  rfl

theorem plain_of_not_mem {s : Str} (h : '%' ∉ s) : Plain s := by
  rintro before x y after rfl
  exact absurd (List.mem_append_right before List.mem_cons_self) h

theorem items_of_plain {s : Str} (h : Plain s) : items s = s.map .inl := by
  fun_induction items s with
  | case1 x y rest b hb ih =>
    rw [h [] x y rest rfl] at hb
    cases hb
  | case2 x y rest hb ih =>
    rw [ih h.tail]
    rfl
  | case3 c x y rest hc ih =>
    rw [ih h.tail]
    rfl
  | case4 rest hrest => rfl

theorem length_items_le (s : Str) : (items s).length ≤ s.length := by
  fun_induction items s with
  | case1 x y rest b hb ih =>
    simp only [List.length_cons]
    omega
  | case2 x y rest hb ih => exact Nat.succ_le_succ ih
  | case3 c x y rest hc ih => exact Nat.succ_le_succ ih
  | case4 rest hrest => exact Nat.le_of_eq (List.length_map _)

/-- an escape is shorter than its three characters -/
theorem length_items_lt {s : Str} (h : ¬ Plain s) : (items s).length < s.length := by
  fun_induction items s with
  | case1 x y rest b hb ih =>
    have hrest := length_items_le rest
    simp only [List.length_cons]
    omega
  | case2 x y rest hb ih =>
    refine Nat.succ_lt_succ (ih fun hplain => h ?_)
    intro before x' y' after hs
    cases before with
    | nil =>
      cases hs
      exact hb
    | cons c before => exact hplain before x' y' after (List.cons.inj hs).2
  | case3 c x y rest hc ih =>
    refine Nat.succ_lt_succ (ih fun hplain => h ?_)
    intro before x' y' after hs
    cases before with
    | nil => exact absurd (List.cons.inj hs).1 hc
    | cons c' before => exact hplain before x' y' after (List.cons.inj hs).2
  | case4 rest hrest =>
    refine absurd (fun before x y after hs => ?_) h
    have hlen : rest.length = before.length + (after.length + 3) := by
      rw [hs, List.length_append]
      rfl
    rcases rest with _ | ⟨a, _ | ⟨b, _ | ⟨c, rest⟩⟩⟩
    · simp at hlen
    · simp only [List.length_cons, List.length_nil] at hlen
      omega
    · simp only [List.length_cons, List.length_nil] at hlen
      omega
    · exact (hrest a b c rest rfl).elim

/-- **What stands for itself.** A text is decoded to itself if and only if it has no escape. -/
theorem percentDecode_eq_self_iff (s : Str) : percentDecode s = s ↔ Plain s := by
  constructor
  · intro hself
    by_contra hescape
    have hle := weight_decodeLossy_le (w := fun _ => 1) (fun _ => Nat.le_refl 1) (items s)
    rw [← percentDecodeBytes_encode, weight_one] at hle
    rw [sum_itemWeight_one] at hle
    have hlt := length_items_lt hescape
    change (percentDecode s).length ≤ _ at hle
    rw [hself] at hle
    exact absurd hlt (Nat.not_lt.2 hle)
  · intro hplain
    rw [percentDecode, percentDecodeBytes_encode, items_of_plain hplain, List.flatMap_map]
    exact decodeLossy_encode s

/-! ## Encoding -/

/-- the characters that separate the parts of a URL -/
def delimiters : Str := [':', '/', '?', '#', '[', ']', '@']

def unreserved (c : Char) : Bool := c.isAlphanum || c ∈ ['-', '.', '_', '~']

def hexChar (n : ℕ) : Char := if n < 10 then Char.ofNat (48 + n) else Char.ofNat (55 + n)

/-- an unreserved byte, or its escape -/
def percentEncodeByte (b : UInt8) : Str :=
  if b.toNat < 128 ∧ unreserved (Char.ofNat b.toNat) then [Char.ofNat b.toNat]
  else ['%', hexChar (b.toNat / 16), hexChar (b.toNat % 16)]

/-- a text whose characters other than the unreserved ones are escaped -/
def percentEncode (s : Str) : Str := (encode s).flatMap percentEncodeByte

theorem toDigit_hexChar {n : ℕ} (h : n < 16) : toDigit (hexChar n).toNat = some n := by
  have hall : ∀ n < 16, toDigit (hexChar n).toNat = some n := by decide
  exact hall n h

theorem hexChar_not_delimiter {n : ℕ} (h : n < 16) : hexChar n ∉ delimiters := by
  have hall : ∀ n < 16, hexChar n ∉ delimiters := by decide
  exact hall n h

theorem unreserved_not_delimiter {c : Char} (h : unreserved c = true) : c ∉ delimiters := by
  intro hc
  have hall : delimiters.all (fun d => !unreserved d) = true := by decide
  have hnot := List.all_eq_true.1 hall c hc
  rw [h] at hnot
  cases hnot

theorem percentEncode_not_delimiter {s : Str} : ∀ c ∈ percentEncode s, c ∉ delimiters := by
  intro c hc
  obtain ⟨b, -, hb⟩ := List.mem_flatMap.1 hc
  have hlt := b.toNat_lt
  unfold percentEncodeByte at hb
  split_ifs at hb with hplain
  · obtain rfl := List.mem_singleton.1 hb
    exact unreserved_not_delimiter hplain.2
  · simp only [List.mem_cons, List.not_mem_nil, or_false] at hb
    rcases hb with rfl | rfl | rfl
    · decide
    · exact hexChar_not_delimiter (by omega)
    · exact hexChar_not_delimiter (by omega)

theorem items_percentEncodeByte (b : UInt8) (rest : Str) :
    (items (percentEncodeByte b ++ rest)).flatMap bytesOf = b :: (items rest).flatMap bytesOf := by
  have hlt := b.toNat_lt
  unfold percentEncodeByte
  split_ifs with hplain
  · have hne : Char.ofNat b.toNat ≠ '%' := by
      intro hpercent
      have hunreserved := hplain.2
      rw [hpercent] at hunreserved
      exact absurd hunreserved (by decide)
    have hnat := toNat_ofNat_byte b
    rw [List.singleton_append, items_of_ne hne, List.flatMap_cons, bytesOf, utf8EncodeChar_ascii (by omega), asciiByte,
      hnat, UInt8.ofNat_toNat, List.singleton_append]
  · have hbyte : escapedByte (toDigit (hexChar (b.toNat / 16)).toNat) (toDigit (hexChar (b.toNat % 16)).toNat) = some b := by
      rw [toDigit_hexChar (by omega), toDigit_hexChar (by omega)]
      show some (UInt8.ofNat (b.toNat / 16 * 16 + b.toNat % 16)) = some b
      rw [Nat.div_add_mod', UInt8.ofNat_toNat]
    show (items ('%' :: hexChar (b.toNat / 16) :: hexChar (b.toNat % 16) :: rest)).flatMap bytesOf = _
    rw [items, if_pos rfl, hbyte, List.flatMap_cons]
    rfl

/-- **Encoded text is read back.** -/
theorem percentDecode_percentEncode (s : Str) : percentDecode (percentEncode s) = s := by
  have hbytes : ∀ l : List UInt8, (items (l.flatMap percentEncodeByte)).flatMap bytesOf = l := by
    intro l
    induction l with
    | nil => rfl
    | cons b l ih => rw [List.flatMap_cons, items_percentEncodeByte, ih]
  rw [percentDecode, percentDecodeBytes_encode, percentEncode, hbytes, decodeLossy_encode]

end RedisRsPy.Facade
