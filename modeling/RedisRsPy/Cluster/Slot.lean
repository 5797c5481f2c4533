/-
Slots (`facade/cluster.rs`): `cluster_slot`, `crc16_xmodem` and the grouping of keys by slot, against the rule HASH_SLOT
of the cluster.

The rule looks for the first closing brace AFTER the first opening one; `cluster_slot` takes the first closing brace
anywhere. The two read the same tag unless a closing brace stands before the first opening one and that one opens a
non-empty tag (`Misread`): then the rule hashes the tag and `cluster_slot` the whole key.

Results:
- `crc16Xmodem_toNat`: the bit loop computes CRC-16/XMODEM, defined as a polynomial remainder;
- `clusterSlot_eq_iff`: for every key, exactly when the slot is right;
- `cluster_slot_iff`: for every list of keys, exactly when all slots are right and the groups of `group_by_slot` and
  `fanout_mset` are those of the cluster.
-/
import Mathlib.Data.Nat.Bitwise
import RedisRsPy.Lib.Crc
import RedisRsPy.Lib.Grouping
import RedisRsPy.Errors

namespace RedisRsPy.Cluster

open Lib Polynomial

/-! ## The code -/

/-- one round of the inner loop of `crc16_xmodem` -/
def crcBit (crc : UInt16) : UInt16 := if crc &&& 0x8000 ≠ 0 then (crc <<< 1) ^^^ 0x1021 else crc <<< 1

/-- one round of the outer loop -/
def crcByte (crc : UInt16) (b : UInt8) : UInt16 := crcBit^[8] (crc ^^^ (b.toUInt16 <<< 8))

def crc16Xmodem (data : Bytes) : UInt16 := data.foldl crcByte 0

/-- `b'{'` -/
def lbrace : UInt8 := 0x7b

/-- `b'}'` -/
def rbrace : UInt8 := 0x7d

/-- what `cluster_slot` hashes -/
def slotTarget (key : Bytes) : Bytes :=
  let start := key.findIdx? (· == lbrace)
  let stop := key.findIdx? (· == rbrace)
  match start, stop with
  | some s, some e => if e > s + 1 then (key.take e).drop (s + 1) else key
  | _, _ => key

def clusterSlot (key : Bytes) : UInt16 := crc16Xmodem (slotTarget key) % 16384

/-- `keys.iter().enumerate()` -/
def enumerate (keys : List String) : List (ℕ × String) := keys.zipIdx.map fun e => (e.2, e.1)

def groupBySlot (keys : List String) : List (UInt16 × List (ℕ × String)) :=
  groupBy (fun e => clusterSlot (asBytes e.2)) (enumerate keys)

/-- the groups of `fanout_mset` -/
def groupPairs (pairs : List (String × Bytes)) : List (UInt16 × List (String × Bytes)) :=
  groupBy (fun e => clusterSlot (asBytes e.1)) pairs

/-! ## The rule -/

/-- CRC-16/XMODEM: the remainder of `X ^ 16` times the message by `X ^ 16 + X ^ 12 + X ^ 5 + 1`, as a number -/
noncomputable def crcXmodem (data : Bytes) : ℕ :=
  let r := (X ^ 16 * Crc.message (data.map UInt8.toBitVec)) %ₘ (X ^ 16 + X ^ 12 + X ^ 5 + 1 : (ZMod 2)[X])
  Nat.ofBits fun i : Fin 16 => decide (r.coeff i = 1)

/-- what the rule hashes: between the first opening brace and the first closing brace strictly after it, if there is
something between them; otherwise the whole key -/
def hashTag (key : Bytes) : Bytes :=
  match key.findIdx? (· == lbrace) with
  | none => key
  | some s =>
    match (key.drop (s + 1)).findIdx? (· == rbrace) with
    | none => key
    | some d =>
      let e := s + 1 + d
      if e > s + 1 then (key.take e).drop (s + 1) else key

noncomputable def hashSlot (key : Bytes) : ℕ := crcXmodem (hashTag key) % 16384

/-! ## The check -/

theorem toBitVec_crcBit (crc : UInt16) : (crcBit crc).toBitVec = Crc.shiftStep 0x1021#16 crc.toBitVec := by
  have hmsb : crc &&& 0x8000 ≠ 0 ↔ crc.toBitVec.msb = true := by
    have hpow : (0x8000 : UInt16).toBitVec = BitVec.twoPow 16 15 := rfl
    rw [Ne, ← UInt16.toBitVec_inj, UInt16.toBitVec_and, hpow, BitVec.and_twoPow, BitVec.msb_eq_getLsbD_last]
    cases h : crc.toBitVec.getLsbD 15 with
    | false => simp_all
    | true => simp_all
  unfold crcBit Crc.shiftStep
  by_cases h : crc &&& 0x8000 ≠ 0
  · rw [if_pos h, if_pos (hmsb.1 h)]
    rfl
  · rw [if_neg h, if_neg fun hm => h (hmsb.2 hm)]
    rfl

theorem toBitVec_crcByte (crc : UInt16) (b : UInt8) :
    (crcByte crc b).toBitVec = Crc.byteStep 0x1021#16 crc.toBitVec b.toBitVec := by
  have hiter : ∀ n v, (crcBit^[n] v).toBitVec = (Crc.shiftStep 0x1021#16)^[n] v.toBitVec := by
    intro n
    induction n with
    | zero => exact fun v => rfl
    | succ n ih =>
      intro v
      rw [Function.iterate_succ_apply, ih, toBitVec_crcBit, Function.iterate_succ_apply]
  rw [crcByte, hiter, Crc.byteStep]
  rfl

theorem toBitVec_foldl_crcByte (data : Bytes) (crc : UInt16) : (data.foldl crcByte crc).toBitVec =
    (data.map UInt8.toBitVec).foldl (Crc.byteStep 0x1021#16) crc.toBitVec := by
  induction data generalizing crc with
  | nil => rfl
  | cons b data ih => rw [List.foldl_cons, ih, toBitVec_crcByte, List.map_cons, List.foldl_cons]

theorem toBitVec_crc16Xmodem (data : Bytes) :
    (crc16Xmodem data).toBitVec = Crc.crc 0x1021#16 (data.map UInt8.toBitVec) :=
  toBitVec_foldl_crcByte data 0

/-- the low bits `0x1021` -/
theorem generator_xmodem : Crc.generator 0x1021#16 = X ^ 16 + X ^ 12 + X ^ 5 + 1 := by
  have hpoly : Crc.poly 0x1021#16 = X ^ 12 + X ^ 5 + 1 := by
    simp [Crc.poly, Finset.sum_range_succ]
    ring
  rw [Crc.generator, hpoly]
  ring

/-- **The bit loop is CRC-16/XMODEM.** -/
theorem crc16Xmodem_toNat (data : Bytes) : (crc16Xmodem data).toNat = crcXmodem data := by
  have hrem := Crc.poly_crc 0x1021#16 (by decide) (data.map UInt8.toBitVec)
  rw [← toBitVec_crc16Xmodem, generator_xmodem] at hrem
  apply Nat.eq_of_testBit_eq
  intro i
  unfold crcXmodem
  rw [← hrem, Nat.testBit_ofBits, ← UInt16.toNat_toBitVec, BitVec.testBit_toNat]
  split_ifs with hi
  · rw [Crc.coeff_poly]
    cases (crc16Xmodem data).toBitVec.getLsbD i <;> decide
  · exact BitVec.getLsbD_of_ge _ _ (not_lt.1 hi)

theorem clusterSlot_toNat (key : Bytes) : (clusterSlot key).toNat = crcXmodem (slotTarget key) % 16384 := by
  rw [clusterSlot, UInt16.toNat_mod, crc16Xmodem_toNat]
  rfl

/-! ## The braces -/

/-- a closing brace stands before the first opening one, which opens the non-empty tag `tag` -/
def Misread (key tag : Bytes) : Prop :=
  ∃ a b, key = a ++ lbrace :: (tag ++ rbrace :: b) ∧ lbrace ∉ a ∧ rbrace ∈ a ∧ rbrace ∉ tag ∧ tag ≠ []

/-- the first opening brace of a key -/
theorem position_append {x : UInt8} {a r : Bytes} (ha : x ∉ a) :
    (a ++ x :: r).findIdx? (· == x) = some a.length := by
  have hnone : a.findIdx? (· == x) = none := by
    rw [List.findIdx?_eq_none_iff]
    intro y hy
    have hne : y ≠ x := fun h => ha (h ▸ hy)
    simpa using hne
  simp [List.findIdx?_append, hnone, List.findIdx?_cons]

theorem position_none {x : UInt8} {l : Bytes} (h : x ∉ l) : l.findIdx? (· == x) = none := by
  rw [List.findIdx?_eq_none_iff]
  intro y hy
  have hne : y ≠ x := fun hyx => h (hyx ▸ hy)
  simpa using hne

/-- a byte that occurs in `a` is found inside `a` -/
theorem position_lt {x : UInt8} {a r : Bytes} (ha : x ∈ a) : ∃ e < a.length, (a ++ r).findIdx? (· == x) = some e := by
  obtain ⟨u, v, rfl, hu⟩ := List.eq_append_cons_of_mem ha
  refine ⟨u.length, by simp, ?_⟩
  rw [List.append_assoc, List.cons_append, position_append hu]

/-- the shapes of a key -/
theorem braces_cases (key : Bytes) :
    lbrace ∉ key ∨
      ∃ a rest, key = a ++ lbrace :: rest ∧ lbrace ∉ a ∧
        (rbrace ∉ rest ∨ ∃ tag b, rest = tag ++ rbrace :: b ∧ rbrace ∉ tag) := by
  by_cases hl : lbrace ∈ key
  · obtain ⟨a, rest, hkey, ha⟩ := List.eq_append_cons_of_mem hl
    refine Or.inr ⟨a, rest, hkey, ha, ?_⟩
    by_cases hr : rbrace ∈ rest
    · obtain ⟨tag, b, hrest, htag⟩ := List.eq_append_cons_of_mem hr
      exact Or.inr ⟨tag, b, hrest, htag⟩
    · exact Or.inl hr
  · exact Or.inl hl

theorem drop_open (a rest : Bytes) : (a ++ lbrace :: rest).drop (a.length + 1) = rest := by
  rw [← List.drop_drop, List.drop_left]
  rfl

/-- the slice between two braces -/
theorem slice_tag (a tag b : Bytes) :
    ((a ++ lbrace :: (tag ++ rbrace :: b)).take (a.length + 1 + tag.length)).drop (a.length + 1) = tag := by
  have hsplit : a ++ lbrace :: (tag ++ rbrace :: b) = (a ++ [lbrace]) ++ tag ++ rbrace :: b := by simp
  have hlen : a.length + 1 + tag.length = ((a ++ [lbrace]) ++ tag).length := by
    simp only [List.length_append, List.length_cons, List.length_nil]
  have hlen' : a.length + 1 = (a ++ [lbrace]).length := by simp
  rw [hsplit, hlen, List.take_left, hlen', List.drop_left]

/-! The rule, shape by shape. -/

theorem hashTag_unopened {key : Bytes} (h : lbrace ∉ key) : hashTag key = key := by
  simp only [hashTag, position_none h]

theorem hashTag_unclosed {a rest : Bytes} (ha : lbrace ∉ a) (hr : rbrace ∉ rest) :
    hashTag (a ++ lbrace :: rest) = a ++ lbrace :: rest := by
  simp only [hashTag, position_append ha, drop_open, position_none hr]

theorem hashTag_tag {a tag b : Bytes} (ha : lbrace ∉ a) (htag : rbrace ∉ tag) :
    hashTag (a ++ lbrace :: (tag ++ rbrace :: b)) =
      if tag ≠ [] then tag else a ++ lbrace :: (tag ++ rbrace :: b) := by
  simp only [hashTag, position_append ha, drop_open, position_append htag, gt_iff_lt, Nat.lt_add_right_iff_pos,
    List.length_pos_iff, slice_tag]

/-! The code, shape by shape. -/

theorem slotTarget_unopened {key : Bytes} (h : lbrace ∉ key) : slotTarget key = key := by
  simp only [slotTarget, position_none h]

theorem slotTarget_closed_before {a rest : Bytes} (ha : lbrace ∉ a) (hr : rbrace ∈ a) :
    slotTarget (a ++ lbrace :: rest) = a ++ lbrace :: rest := by
  obtain ⟨e, he, hpos⟩ := position_lt (r := lbrace :: rest) hr
  simp only [slotTarget, position_append ha, hpos]
  rw [if_neg (by omega)]

theorem slotTarget_unclosed {a rest : Bytes} (ha : lbrace ∉ a) (hr : rbrace ∉ a) (hr' : rbrace ∉ rest) :
    slotTarget (a ++ lbrace :: rest) = a ++ lbrace :: rest := by
  have hnone : rbrace ∉ a ++ lbrace :: rest := by
    simp only [List.mem_append, List.mem_cons, not_or]
    exact ⟨hr, by decide, hr'⟩
  simp only [slotTarget, position_append ha, position_none hnone]

theorem slotTarget_tag {a tag b : Bytes} (ha : lbrace ∉ a) (hr : rbrace ∉ a) (htag : rbrace ∉ tag) :
    slotTarget (a ++ lbrace :: (tag ++ rbrace :: b)) =
      if tag ≠ [] then tag else a ++ lbrace :: (tag ++ rbrace :: b) := by
  have hpos : (a ++ lbrace :: (tag ++ rbrace :: b)).findIdx? (· == rbrace) = some (a.length + 1 + tag.length) := by
    have hsplit : a ++ lbrace :: (tag ++ rbrace :: b) = (a ++ lbrace :: tag) ++ rbrace :: b := by simp
    have hnone : rbrace ∉ a ++ lbrace :: tag := by
      simp only [List.mem_append, List.mem_cons, not_or]
      exact ⟨hr, by decide, htag⟩
    rw [hsplit, position_append hnone]
    simp only [List.length_append, List.length_cons]
    congr 1
    omega
  simp only [slotTarget, position_append ha, hpos, gt_iff_lt, Nat.lt_add_right_iff_pos, List.length_pos_iff, slice_tag]

/-- where no tag is misread, code and rule hash the same bytes -/
theorem slotTarget_eq {key : Bytes} (h : ∀ tag, ¬ Misread key tag) : slotTarget key = hashTag key := by
  rcases braces_cases key with hl | ⟨a, rest, rfl, ha, hr | ⟨tag, b, rfl, htag⟩⟩
  · rw [slotTarget_unopened hl, hashTag_unopened hl]
  · rw [hashTag_unclosed ha hr]
    by_cases hra : rbrace ∈ a
    · exact slotTarget_closed_before ha hra
    · exact slotTarget_unclosed ha hra hr
  · rw [hashTag_tag ha htag]
    by_cases hra : rbrace ∈ a
    · have hnil : tag = [] := by
        by_contra hne
        exact h tag ⟨a, b, rfl, ha, hra, htag, hne⟩
      rw [if_neg (not_not.2 hnil)]
      exact slotTarget_closed_before ha hra
    · exact slotTarget_tag ha hra htag

/-- where one is, the rule hashes it and the code the whole key -/
theorem slotTarget_misread {key tag : Bytes} (h : Misread key tag) : slotTarget key = key ∧ hashTag key = tag := by
  obtain ⟨a, b, rfl, ha, hra, htag, hne⟩ := h
  rw [hashTag_tag ha htag, if_pos hne]
  exact ⟨slotTarget_closed_before ha hra, rfl⟩

/-- the key's braces give the right slot: a misread tag happens to have the slot of the whole key -/
def SlotsAgree (key : Bytes) : Prop := ∀ tag, Misread key tag → crcXmodem tag % 16384 = crcXmodem key % 16384

/-- **The slot of a key is right exactly when no tag is misread**, or the two checks collide. -/
theorem clusterSlot_eq_iff (key : Bytes) : (clusterSlot key).toNat = hashSlot key ↔ SlotsAgree key := by
  rw [clusterSlot_toNat, hashSlot]
  constructor
  · intro h tag htag
    obtain ⟨hcode, hrule⟩ := slotTarget_misread htag
    rw [hcode, hrule] at h
    exact h.symm
  · intro h
    by_cases hm : ∃ tag, Misread key tag
    · obtain ⟨tag, htag⟩ := hm
      obtain ⟨hcode, hrule⟩ := slotTarget_misread htag
      rw [hcode, hrule]
      exact (h tag htag).symm
    · rw [slotTarget_eq fun tag htag => hm ⟨tag, htag⟩]

/-! ## Grouping -/

/-- the groups put two elements together exactly when the cluster serves their keys in one slot -/
def GroupsRight {α κ : Type} (key : α → Bytes) (l : List α) (groups : List (κ × List α)) : Prop :=
  ∀ x ∈ l, ∀ y ∈ l, (∃ g ∈ groups, x ∈ g.2 ∧ y ∈ g.2) ↔ hashSlot (key x) = hashSlot (key y)

theorem groupsRight_of_slots {α : Type} {key : α → Bytes} {l : List α} {groups : List (UInt16 × List α)}
    (hg : groups.Perm (groupBy (fun x => clusterSlot (key x)) l))
    (hs : ∀ x ∈ l, (clusterSlot (key x)).toNat = hashSlot (key x)) : GroupsRight key l groups := by
  intro x hx y hy
  rw [same_group_iff hg hx hy, ← hs x hx, ← hs y hy]
  exact UInt16.toNat_inj.symm

theorem mem_enumerate_snd {keys : List String} {e : ℕ × String} (h : e ∈ enumerate keys) : e.2 ∈ keys := by
  obtain ⟨e', he', rfl⟩ := List.mem_map.1 h
  exact (List.mem_zipIdx' he').2 ▸ List.getElem_mem _

/-- **Slots and groups are right exactly when no key is misread.** For every key, every key list and every list of pairs,
in every iteration order of the groups. -/
theorem cluster_slot_iff (key : Bytes) (keys : List String) (groups : List (UInt16 × List (ℕ × String)))
    (hgroups : groups.Perm (groupBySlot keys)) (pairs : List (String × Bytes))
    (pairGroups : List (UInt16 × List (String × Bytes))) (hpairGroups : pairGroups.Perm (groupPairs pairs)) :
    ((clusterSlot key).toNat = hashSlot key ↔ SlotsAgree key) ∧
      ((∀ k ∈ keys, (clusterSlot (asBytes k)).toNat = hashSlot (asBytes k)) ∧
        GroupsRight (fun e => asBytes e.2) (enumerate keys) groups ↔ ∀ k ∈ keys, SlotsAgree (asBytes k)) ∧
      ((∀ e ∈ pairs, (clusterSlot (asBytes e.1)).toNat = hashSlot (asBytes e.1)) ∧
        GroupsRight (fun e => asBytes e.1) pairs pairGroups ↔ ∀ e ∈ pairs, SlotsAgree (asBytes e.1)) := by
  refine ⟨clusterSlot_eq_iff key, ⟨fun h k hk => (clusterSlot_eq_iff _).1 (h.1 k hk), fun h => ?_⟩,
    fun h e he => (clusterSlot_eq_iff _).1 (h.1 e he), fun h => ?_⟩
  · have hs : ∀ k ∈ keys, (clusterSlot (asBytes k)).toNat = hashSlot (asBytes k) :=
      fun k hk => (clusterSlot_eq_iff _).2 (h k hk)
    exact ⟨hs, groupsRight_of_slots hgroups fun e he => hs e.2 (mem_enumerate_snd he)⟩
  · have hs : ∀ e ∈ pairs, (clusterSlot (asBytes e.1)).toNat = hashSlot (asBytes e.1) :=
      fun e he => (clusterSlot_eq_iff _).2 (h e he)
    exact ⟨hs, groupsRight_of_slots hpairGroups hs⟩

/-- a key without braces has its slot and is a group of its own -/
theorem plain_key_slot :
    (clusterSlot (asBytes "a")).toNat = hashSlot (asBytes "a") ∧
      GroupsRight (fun e => asBytes e.2) (enumerate ["a"]) (groupBySlot ["a"]) := by
  have hplain : SlotsAgree (asBytes "a") := by
    rintro tag ⟨a, b, hkey, -, -, -, -⟩
    have hmem : lbrace ∈ asBytes "a" := by
      rw [hkey]
      simp
    exact absurd hmem (by decide)
  have h := cluster_slot_iff (asBytes "a") ["a"] (groupBySlot ["a"]) (List.Perm.refl _) [] [] (List.Perm.refl _)
  exact ⟨h.1.2 hplain, (h.2.1.2 (by simpa using hplain)).2⟩

/-- the keys `}{a}` and `{a}` -/
def misreadKey : String := "\x7d\x7ba\x7d"

def tagKey : String := "\x7ba\x7d"

/-- the cluster serves `}{a}` in the slot of `a`, with `{a}`; the code computes another slot and separates the two -/
theorem misread_key_slot :
    (clusterSlot (asBytes misreadKey)).toNat ≠ hashSlot (asBytes misreadKey) ∧
      ¬ GroupsRight (fun e => asBytes e.2) (enumerate [misreadKey, tagKey]) (groupBySlot [misreadKey, tagKey]) := by
  constructor
  · rw [hashSlot, ← crc16Xmodem_toNat]
    decide +kernel
  · intro h
    have hmem : (0, misreadKey) ∈ enumerate [misreadKey, tagKey] := by simp [enumerate]
    have hmem' : (1, tagKey) ∈ enumerate [misreadKey, tagKey] := by simp [enumerate]
    have hslot : hashSlot (asBytes misreadKey) = hashSlot (asBytes tagKey) := by
      rw [hashSlot, hashSlot, ← crc16Xmodem_toNat, ← crc16Xmodem_toNat]
      decide +kernel
    have hgroup := (h _ hmem _ hmem').2 hslot
    have hsame : clusterSlot (asBytes misreadKey) = clusterSlot (asBytes tagKey) :=
      (same_group_iff (List.Perm.refl (groupBySlot [misreadKey, tagKey])) hmem hmem').1 hgroup
    revert hsame
    decide +kernel

end RedisRsPy.Cluster
