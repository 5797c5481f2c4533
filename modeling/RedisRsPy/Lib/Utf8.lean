/-
UTF-8 read from bytes that may be no UTF-8: characters where there are some, and a replacement character for every part
that starts a character and does not go on with it.

A text that is made of characters and of single bytes is read so that no character is lost: it may take in single bytes
before it, but never part of a character. `weight_decodeLossy_le` counts with that.

Results:
- `front_eq_some_iff`: what is read first is the character whose bytes stand first;
- `decodeLossy_encode`: the bytes of a text are read as the text;
- `decodeLossy_append`: bytes are read apart where the second ones do not go on with a character;
- `weight_decodeLossy_le`: reading adds no weight;
- `decodeLossy_determines_iff`: the bytes that a reading comes from can be told from it exactly if they are the bytes of a
  text without the replacement character.
-/
import Mathlib.Algebra.GroupWithZero.Nat
import Mathlib.Algebra.BigOperators.Group.List.Basic

namespace Lib.Utf8

/-- the bytes of a text -/
def encode (s : List Char) : List UInt8 := s.flatMap String.utf8EncodeChar

/-- the character whose bytes these start with -/
def front (b : List UInt8) : Option Char := b.toByteArray.utf8DecodeChar? 0

/-- a byte that goes on with a character -/
def continues (b : UInt8) : Bool := decide (128 ≤ b ∧ b < 192)

/-- two bytes that start a character of three or four bytes -/
def starts (b₀ b₁ : UInt8) : Bool :=
  if b₀ = 0xE0 then decide (0xA0 ≤ b₁ ∧ b₁ < 0xC0)
  else if b₀ = 0xED then decide (0x80 ≤ b₁ ∧ b₁ < 0xA0)
  else if b₀ = 0xF0 then decide (0x90 ≤ b₁ ∧ b₁ < 0xC0)
  else if b₀ = 0xF4 then decide (0x80 ≤ b₁ ∧ b₁ < 0x90)
  else decide (0xE1 ≤ b₀ ∧ b₀ < 0xF4) && continues b₁

/-- how many bytes more than the first are replaced with it, where no character stands -/
def broken : List UInt8 → ℕ
  | b₀ :: b₁ :: rest =>
    if starts b₀ b₁ then
      match rest with
      | b₂ :: _ => if 0xF0 ≤ b₀ ∧ continues b₂ = true then 2 else 1
      | [] => 1
    else 0
  | _ => 0

/-- U+FFFD -/
def replacement : Char := Char.ofNat 0xFFFD

/-- `String::from_utf8_lossy` -/
def decodeLossy : List UInt8 → List Char
  | [] => []
  | b :: rest =>
    match front (b :: rest) with
    | some c => c :: decodeLossy (rest.drop (c.utf8Size - 1))
    | none => replacement :: decodeLossy (rest.drop (broken (b :: rest)))
termination_by b => b.length
decreasing_by
  · simp only [List.length_drop, List.length_cons]
    omega
  · simp only [List.length_drop, List.length_cons]
    omega

/-! ## The first character -/

theorem front_eq_some_iff {b : List UInt8} {c : Char} :
    front b = some c ↔ ∃ rest, b = String.utf8EncodeChar c ++ rest := by
  constructor
  · intro h
    obtain ⟨l, hl⟩ := ByteArray.exists_of_utf8DecodeChar?_eq_some h
    refine ⟨l.data.toList, ?_⟩
    have hdata : b.toByteArray.data.toList = ((String.utf8EncodeChar c).toByteArray ++ l).data.toList := by rw [hl]
    simpa using hdata
  · rintro ⟨rest, rfl⟩
    rw [front, List.toByteArray_append]
    exact ByteArray.utf8DecodeChar?_utf8EncodeChar_append

theorem continues_iff {b : UInt8} : continues b = true ↔ 128 ≤ b.toNat ∧ b.toNat < 192 := by
  rw [continues, decide_eq_true_iff, UInt8.le_iff_toNat_le, UInt8.lt_iff_toNat_lt]
  rfl

theorem continues_ofNat {n : ℕ} (h : n < 256) : continues (UInt8.ofNat n) = decide (128 ≤ n ∧ n < 192) := by
  have hnat : (UInt8.ofNat n).toNat = n := Nat.mod_eq_of_lt h
  rw [Bool.eq_iff_iff, continues_iff, hnat, decide_eq_true_iff]

/-- the first byte of a character does not go on with another, and its other bytes do -/
theorem utf8EncodeChar_cases (c : Char) :
    ∃ b tail, String.utf8EncodeChar c = b :: tail ∧ continues b = false ∧ (∀ x ∈ tail, continues x = true) ∧
      tail.length = c.utf8Size - 1 := by
  have hmax : c.val.toNat < 0x110000 := by
    rcases c.valid with h | h <;> omega
  have hlen : (String.utf8EncodeChar c).length = c.utf8Size := String.length_utf8EncodeChar c
  have hdrop : ∀ {b : UInt8} {tail : List UInt8}, String.utf8EncodeChar c = b :: tail → tail.length = c.utf8Size - 1 := by
    intro b tail h
    rw [← hlen, h]
    rfl
  have hfirst : ∀ {n : ℕ}, n < 256 → (n < 128 ∨ 192 ≤ n) → continues (UInt8.ofNat n) = false := by
    intro n hn hrange
    rw [continues_ofNat hn, decide_eq_false_iff_not]
    omega
  have htail : ∀ {n : ℕ}, 128 ≤ n → n < 192 → continues (UInt8.ofNat n) = true := by
    intro n hlow hhigh
    rw [continues_ofNat (by omega), decide_eq_true_iff]
    exact ⟨hlow, hhigh⟩
  have hcases : String.utf8EncodeChar c = String.utf8EncodeChar c := rfl
  revert hcases
  nth_rewrite 2 [String.utf8EncodeChar]
  split_ifs with h₁ h₂ h₃ <;> intro hcases
  · refine ⟨_, _, hcases, hfirst (by omega) (by omega), ?_, hdrop hcases⟩
    simp
  · refine ⟨_, _, hcases, hfirst (by omega) (by omega), ?_, hdrop hcases⟩
    simp only [List.mem_cons, List.not_mem_nil, or_false, forall_eq]
    exact htail (by omega) (by omega)
  · refine ⟨_, _, hcases, hfirst (by omega) (by omega), ?_, hdrop hcases⟩
    simp only [List.mem_cons, List.not_mem_nil, or_false, forall_eq_or_imp, forall_eq]
    exact ⟨htail (by omega) (by omega), htail (by omega) (by omega)⟩
  · refine ⟨_, _, hcases, hfirst (by omega) (by omega), ?_, hdrop hcases⟩
    simp only [List.mem_cons, List.not_mem_nil, or_false, forall_eq_or_imp, forall_eq]
    exact ⟨htail (by omega) (by omega), htail (by omega) (by omega), htail (by omega) (by omega)⟩

theorem decodeLossy_char_append (c : Char) (rest : List UInt8) :
    decodeLossy (String.utf8EncodeChar c ++ rest) = c :: decodeLossy rest := by
  obtain ⟨b, tail, hbytes, -, -, hlen⟩ := utf8EncodeChar_cases c
  have hfront : front (b :: (tail ++ rest)) = some c := front_eq_some_iff.2 ⟨rest, by rw [hbytes]; rfl⟩
  rw [hbytes, List.cons_append, decodeLossy, hfront]
  show c :: decodeLossy ((tail ++ rest).drop (c.utf8Size - 1)) = _
  rw [← hlen, List.drop_left]

/-- **Text is read back.** -/
theorem decodeLossy_encode (s : List Char) : decodeLossy (encode s) = s := by
  induction s with
  | nil => rw [encode, List.flatMap_nil, decodeLossy]
  | cons c s ih =>
    rw [encode, List.flatMap_cons, decodeLossy_char_append]
    exact congrArg (c :: ·) ih

/-! ## Weight -/

/-- a character, or a single byte, of a text that is made of both -/
def bytesOf : Char ⊕ UInt8 → List UInt8
  | .inl c => String.utf8EncodeChar c
  | .inr b => [b]

def weight (w : Char → ℕ) (s : List Char) : ℕ := (s.map w).sum

/-- a single byte weighs as much as the heaviest character -/
def itemWeight (w : Char → ℕ) (m : ℕ) : Char ⊕ UInt8 → ℕ
  | .inl c => w c
  | .inr _ => m

theorem weight_cons (w : Char → ℕ) (c : Char) (s : List Char) : weight w (c :: s) = w c + weight w s := List.sum_cons

theorem weight_append (w : Char → ℕ) (s t : List Char) : weight w (s ++ t) = weight w s + weight w t := by
  rw [weight, List.map_append, List.sum_append]
  rfl

theorem toNat_range {b low high : UInt8} (h : decide (low ≤ b ∧ b < high) = true) :
    low.toNat ≤ b.toNat ∧ b.toNat < high.toNat := by
  have hrange := of_decide_eq_true h
  rwa [UInt8.le_iff_toNat_le, UInt8.lt_iff_toNat_lt] at hrange

theorem continues_of_starts {b₀ b₁ : UInt8} (h : starts b₀ b₁ = true) : continues b₁ = true := by
  rw [continues_iff]
  unfold starts at h
  split_ifs at h
  · have hrange : 0xA0 ≤ b₁.toNat ∧ b₁.toNat < 0xC0 := toNat_range h
    omega
  · have hrange : 0x80 ≤ b₁.toNat ∧ b₁.toNat < 0xA0 := toNat_range h
    omega
  · have hrange : 0x90 ≤ b₁.toNat ∧ b₁.toNat < 0xC0 := toNat_range h
    omega
  · have hrange : 0x80 ≤ b₁.toNat ∧ b₁.toNat < 0x90 := toNat_range h
    omega
  · exact continues_iff.1 (Bool.and_eq_true_iff.1 h).2

theorem broken_cons_cons (b₀ b₁ : UInt8) (rest : List UInt8) :
    broken (b₀ :: b₁ :: rest) =
      if starts b₀ b₁ then (if 0xF0 ≤ b₀ ∧ rest.head?.any continues then 2 else 1) else 0 := by
  cases rest with
  | nil =>
    have hnone : ¬ (0xF0 ≤ b₀ ∧ ([] : List UInt8).head?.any continues = true) := fun h => Bool.false_ne_true h.2
    rw [if_neg hnone]
    rfl
  | cons b₂ rest => rfl

/-- what is replaced together with a byte goes on with it -/
theorem continues_of_mem_broken (b : UInt8) (rest : List UInt8) :
    ∀ x ∈ rest.take (broken (b :: rest)), continues x = true := by
  intro x hx
  cases rest with
  | nil => cases hx
  | cons b₁ rest =>
    rw [broken_cons_cons] at hx
    split_ifs at hx with hstarts hthird
    · cases rest with
      | nil =>
        obtain rfl := List.mem_singleton.1 hx
        exact continues_of_starts hstarts
      | cons b₂ rest =>
        rcases List.mem_cons.1 hx with rfl | hx
        · exact continues_of_starts hstarts
        · obtain rfl := List.mem_singleton.1 hx
          exact hthird.2
    · obtain rfl := List.mem_singleton.1 hx
      exact continues_of_starts hstarts
    · cases hx

/-- single bytes that go on with a character stand for themselves -/
theorem strip_continues {items : List (Char ⊕ UInt8)} {front rest : List UInt8} (hfront : ∀ x ∈ front, continues x = true)
    (h : items.flatMap bytesOf = front ++ rest) :
    ∃ items', items = front.map .inr ++ items' ∧ items'.flatMap bytesOf = rest := by
  induction front generalizing items with
  | nil => exact ⟨items, rfl, h⟩
  | cons x front ih =>
    cases items with
    | nil => cases h
    | cons item items =>
      rw [List.flatMap_cons, List.cons_append] at h
      cases item with
      | inl c =>
        obtain ⟨b, tail, hbytes, hfirst, -⟩ := utf8EncodeChar_cases c
        have hb : b = x := by
          rw [bytesOf, hbytes] at h
          exact (List.cons.inj h).1
        rw [hb, hfront x List.mem_cons_self] at hfirst
        cases hfirst
      | inr b =>
        obtain ⟨rfl, hrest⟩ := List.cons.inj h
        obtain ⟨items', rfl, hitems'⟩ := ih (fun y hy => hfront y (List.mem_cons_of_mem b hy)) hrest
        exact ⟨items', rfl, hitems'⟩

/-- **Reading adds no weight.** -/
theorem weight_decodeLossy_le {w : Char → ℕ} {m : ℕ} (hw : ∀ c, w c ≤ m) (items : List (Char ⊕ UInt8)) :
    weight w (decodeLossy (items.flatMap bytesOf)) ≤ (items.map (itemWeight w m)).sum := by
  induction hn : items.length using Nat.strongRecOn generalizing items with
  | _ n ih =>
    subst hn
    cases items with
    | nil =>
      rw [List.flatMap_nil, decodeLossy]
      exact Nat.le_refl 0
    | cons item items =>
      have hnext : ∀ {items' : List (Char ⊕ UInt8)} {taken : List UInt8}, items = taken.map .inr ++ items' →
          weight w (decodeLossy (items'.flatMap bytesOf)) ≤ (items.map (itemWeight w m)).sum := by
        rintro items' taken rfl
        have hlen : items'.length < (item :: (taken.map .inr ++ items')).length := by
          rw [List.length_cons, List.length_append]
          omega
        have hitems' := ih items'.length hlen items' rfl
        rw [List.map_append, List.sum_append]
        omega
      rw [List.flatMap_cons, List.map_cons, List.sum_cons]
      cases item with
      | inl c =>
        rw [bytesOf, decodeLossy_char_append, weight_cons]
        have hself : items = ([] : List UInt8).map .inr ++ items := rfl
        exact Nat.add_le_add_left (hnext hself) (w c)
      | inr b =>
        rw [bytesOf, List.singleton_append, decodeLossy]
        cases hfront : front (b :: items.flatMap bytesOf) with
        | some c =>
          obtain ⟨rest, hrest⟩ := front_eq_some_iff.1 hfront
          obtain ⟨b', tail, hbytes, -, htail, hlen⟩ := utf8EncodeChar_cases c
          rw [hbytes, List.cons_append] at hrest
          obtain ⟨items', hitems', hflat⟩ := strip_continues htail (List.cons.inj hrest).2
          show weight w (c :: decodeLossy ((items.flatMap bytesOf).drop (c.utf8Size - 1))) ≤ _
          rw [(List.cons.inj hrest).2, ← hlen, List.drop_left, ← hflat, weight_cons]
          exact Nat.add_le_add (hw c) (hnext hitems')
        | none =>
          have hbroken := continues_of_mem_broken b (items.flatMap bytesOf)
          obtain ⟨items', hitems', hflat⟩ := strip_continues hbroken (List.take_append_drop _ _).symm
          show weight w (replacement :: decodeLossy _) ≤ _
          rw [← hflat, weight_cons]
          exact Nat.add_le_add (hw replacement) (hnext hitems')

/-! ## Reading apart -/

theorem broken_le (b : UInt8) (rest : List UInt8) : broken (b :: rest) ≤ rest.length := by
  rcases rest with _ | ⟨b₁, rest⟩
  · exact Nat.le_refl 0
  · rw [broken_cons_cons, List.length_cons]
    split_ifs with hstarts hthird
    · cases rest with
      | nil => exact absurd hthird.2 Bool.false_ne_true
      | cons b₂ rest => simp only [List.length_cons]; omega
    · omega
    · exact Nat.zero_le _

/-- where a new character starts, no character is cut -/
theorem front_append {a x : List UInt8} (hx : x.head?.any continues = false) (hne : a ≠ []) :
    front (a ++ x) = front a := by
  cases hfront : front a with
  | some c =>
    obtain ⟨rest, hrest⟩ := front_eq_some_iff.1 hfront
    refine front_eq_some_iff.2 ⟨rest ++ x, ?_⟩
    rw [hrest, List.append_assoc]
  | none =>
    by_contra hsome
    obtain ⟨c, hc⟩ := Option.ne_none_iff_exists'.1 hsome
    obtain ⟨rest, hrest⟩ := front_eq_some_iff.1 hc
    rcases List.append_eq_append_iff.1 hrest with ⟨more, henc, hxmore⟩ | ⟨more, ha, -⟩
    · obtain ⟨b, tail, hbytes, -, htail, -⟩ := utf8EncodeChar_cases c
      obtain ⟨b', a', rfl⟩ := List.exists_cons_of_ne_nil hne
      rw [hbytes, List.cons_append] at henc
      cases more with
      | nil =>
        rw [List.append_nil] at henc
        have hself : front (b' :: a') = some c := front_eq_some_iff.2 ⟨[], by rw [hbytes, henc, List.append_nil]⟩
        rw [hself] at hfront
        cases hfront
      | cons y more =>
        have hy : continues y = true := by
          refine htail y ?_
          rw [(List.cons.inj henc).2]
          exact List.mem_append_right a' List.mem_cons_self
        rw [hxmore] at hx
        exact absurd hy (ne_true_of_eq_false hx)
    · have hself : front a = some c := front_eq_some_iff.2 ⟨more, ha⟩
      rw [hself] at hfront
      cases hfront

theorem broken_append {x : List UInt8} (hx : x.head?.any continues = false) (b : UInt8) (rest : List UInt8) :
    broken (b :: (rest ++ x)) = broken (b :: rest) := by
  rcases rest with _ | ⟨b₁, rest⟩
  · cases x with
    | nil => rfl
    | cons y x =>
      have hstarts : ¬ starts b y = true := fun hstarts =>
        absurd (continues_of_starts hstarts) (ne_true_of_eq_false hx)
      rw [List.nil_append, broken_cons_cons, if_neg hstarts]
      rfl
  · rw [List.cons_append, broken_cons_cons, broken_cons_cons]
    cases rest with
    | nil => rw [List.nil_append, hx]; rfl
    | cons b₂ rest => rfl

/-- **Two readings.** What follows is read on its own if it does not go on with a character. -/
theorem decodeLossy_append (a : List UInt8) {x : List UInt8} (hx : x.head?.any continues = false) :
    decodeLossy (a ++ x) = decodeLossy a ++ decodeLossy x := by
  induction hn : a.length using Nat.strongRecOn generalizing a with
  | _ n ih =>
    subst hn
    cases a with
    | nil =>
      have hnil : decodeLossy [] = [] := by rw [decodeLossy]
      rw [hnil]
      rfl
    | cons b rest =>
      have hfront : front (b :: (rest ++ x)) = front (b :: rest) := front_append hx (List.cons_ne_nil b rest)
      have hdrop : ∀ k, k ≤ rest.length →
          decodeLossy ((rest ++ x).drop k) = decodeLossy (rest.drop k) ++ decodeLossy x := by
        intro k hk
        have hlen : (rest.drop k).length < (b :: rest).length := by
          rw [List.length_drop, List.length_cons]
          omega
        rw [List.drop_append_of_le_length hk, ih _ hlen (rest.drop k) rfl]
      rw [List.cons_append, decodeLossy, decodeLossy, hfront]
      cases hc : front (b :: rest) with
      | some c =>
        obtain ⟨more, hmore⟩ := front_eq_some_iff.1 hc
        obtain ⟨b', tail, hbytes, -, -, hlen⟩ := utf8EncodeChar_cases c
        rw [hbytes, List.cons_append] at hmore
        have hle : c.utf8Size - 1 ≤ rest.length := by
          rw [(List.cons.inj hmore).2, List.length_append]
          omega
        exact congrArg (c :: ·) (hdrop _ hle)
      | none =>
        have hbroken := broken_append hx b rest
        simp only [hbroken]
        exact congrArg (replacement :: ·) (hdrop _ (broken_le b rest))

/-! ## What a reading tells -/

theorem decodeLossy_nil : decodeLossy [] = [] := by rw [decodeLossy]

theorem encode_append (s t : List Char) : encode (s ++ t) = encode s ++ encode t := List.flatMap_append

/-- where nothing is replaced, the bytes are those of what is read -/
theorem encode_decodeLossy {b : List UInt8} (h : replacement ∉ decodeLossy b) : encode (decodeLossy b) = b := by
  induction hn : b.length using Nat.strongRecOn generalizing b with
  | _ n ih =>
    subst hn
    cases b with
    | nil => rw [decodeLossy_nil]; rfl
    | cons x rest =>
      cases hfront : front (x :: rest) with
      | none =>
        rw [decodeLossy, hfront] at h
        exact absurd List.mem_cons_self h
      | some c =>
        obtain ⟨more, hmore⟩ := front_eq_some_iff.1 hfront
        have hlen : more.length < (x :: rest).length := by
          have hpos : 0 < (String.utf8EncodeChar c).length := by
            rw [String.length_utf8EncodeChar]
            exact Char.utf8Size_pos c
          rw [hmore, List.length_append]
          omega
        rw [hmore, decodeLossy_char_append] at h ⊢
        have hrest := ih more.length hlen (fun hmem => h (List.mem_cons_of_mem c hmem)) rfl
        rw [encode, List.flatMap_cons]
        exact congrArg (String.utf8EncodeChar c ++ ·) hrest

/-- no character starts with the byte 255 -/
theorem front_max (rest : List UInt8) : front (255 :: rest) = none := by
  cases hfront : front (255 :: rest) with
  | none => rfl
  | some c =>
    obtain ⟨more, hmore⟩ := front_eq_some_iff.1 hfront
    have hmax : c.val.toNat < 0x110000 := by
      rcases c.valid with h | h <;> omega
    have hfirst : ∀ {n : ℕ} {tail : List UInt8}, n < 255 → String.utf8EncodeChar c = UInt8.ofNat n :: tail → False := by
      intro n tail hn hbytes
      rw [hbytes, List.cons_append] at hmore
      have hnat : (UInt8.ofNat n).toNat = n := Nat.mod_eq_of_lt (by omega)
      have hbyte := congrArg UInt8.toNat (List.cons.inj hmore).1
      rw [hnat] at hbyte
      have hmaxByte : (255 : UInt8).toNat = 255 := rfl
      omega
    have hcases : String.utf8EncodeChar c = String.utf8EncodeChar c := rfl
    revert hcases
    nth_rewrite 2 [String.utf8EncodeChar]
    split_ifs with h₁ h₂ h₃ <;> intro hcases
    · exact (hfirst (by omega) hcases).elim
    · exact (hfirst (by omega) hcases).elim
    · exact (hfirst (by omega) hcases).elim
    · exact (hfirst (by omega) hcases).elim

/-- the byte 255 is replaced on its own -/
theorem decodeLossy_max (rest : List UInt8) : decodeLossy (255 :: rest) = replacement :: decodeLossy rest := by
  have hbroken : broken (255 :: rest) = 0 := by
    cases rest with
    | nil => rfl
    | cons b rest =>
      have hstarts : ¬ starts 255 b = true := by
        show ¬ (decide ((0xE1 : UInt8) ≤ 255 ∧ (255 : UInt8) < 0xF4) && continues b) = true
        exact Bool.false_ne_true
      rw [broken_cons_cons, if_neg hstarts]
  rw [decodeLossy, front_max, hbroken]
  rfl

/-- **What a reading tells.** No other bytes are read as these exactly if these are the bytes of a text without the
replacement character. -/
theorem decodeLossy_determines_iff {b : List UInt8} :
    (∀ b', decodeLossy b' = decodeLossy b → b' = b) ↔ ∃ s, encode s = b ∧ replacement ∉ s := by
  constructor
  · intro h
    refine ⟨decodeLossy b, h _ (decodeLossy_encode _), ?_⟩
    intro hmem
    obtain ⟨before, after, hsplit⟩ := List.append_of_mem hmem
    -- the byte 255 in the place of the replacement character is read in the same way
    have hread : decodeLossy (encode before ++ 255 :: encode after) = decodeLossy b := by
      rw [decodeLossy_append _ rfl, decodeLossy_max, decodeLossy_encode, decodeLossy_encode, hsplit]
    have hbytes : encode (before ++ replacement :: after) = b := by
      rw [← hsplit]
      exact h _ (decodeLossy_encode _)
    have hother := (h _ hread).trans hbytes.symm
    have hreplacement : encode (replacement :: after) = 239 :: 191 :: 189 :: encode after := by
      rw [encode, List.flatMap_cons]
      rfl
    rw [encode_append, List.append_cancel_left_eq, hreplacement] at hother
    exact absurd (List.cons.inj hother).1 (by decide)
  · rintro ⟨s, rfl, hs⟩ b' hb'
    rw [decodeLossy_encode] at hb'
    rw [← encode_decodeLossy (b := b') (by rwa [hb']), hb']

end Lib.Utf8
