/-
Text as bytes: the UTF-8 of a string, and of the digits of a number.
-/
import RedisRsPy.Errors

namespace RedisRsPy

theorem asBytes_injective : Function.Injective asBytes := by
  intro s t h
  have hbytes : s.toByteArray = t.toByteArray := ByteArray.ext (Array.ext' h)
  exact String.toByteArray_inj.1 hbytes

theorem asBytes_ofList (l : List Char) : asBytes (String.ofList l) = l.flatMap String.utf8EncodeChar := by
  show (String.ofList l).toByteArray.data.toList = _
  rw [String.toByteArray_ofList, List.utf8Encode, List.data_toByteArray]

theorem asBytes_eq (s : String) : asBytes s = s.toList.flatMap String.utf8EncodeChar := by
  rw [← asBytes_ofList, String.ofList_toList]

theorem asBytes_append (s t : String) : asBytes (s ++ t) = asBytes s ++ asBytes t := by
  rw [asBytes_eq, asBytes_eq, asBytes_eq, String.toList_append, List.flatMap_append]

/-! ## ASCII -/

/-- the byte of an ASCII character -/
def asciiByte (c : Char) : UInt8 := UInt8.ofNat c.toNat

theorem utf8EncodeChar_ascii {c : Char} (h : c.toNat < 128) : String.utf8EncodeChar c = [asciiByte c] := by
  have hsize : c.utf8Size = 1 := by
    rw [Char.utf8Size_eq_one_iff, UInt32.le_iff_toNat_le]
    exact Nat.le_of_lt_succ h
  rw [String.utf8EncodeChar_eq_singleton hsize]
  rfl

theorem asBytes_ascii {l : List Char} (h : ∀ c ∈ l, c.toNat < 128) : asBytes (String.ofList l) = l.map asciiByte := by
  rw [asBytes_ofList]
  induction l with
  | nil => rfl
  | cons c rest ih =>
    rw [List.flatMap_cons, utf8EncodeChar_ascii (h c List.mem_cons_self), ih fun d hd => h d (List.mem_cons_of_mem c hd)]
    rfl

theorem digit_range {c : Char} (h : c.isDigit = true) : 48 ≤ c.toNat ∧ c.toNat ≤ 57 := Char.isDigit_iff_toNat.1 h

theorem toNat_asciiByte_digit {c : Char} (h : c.isDigit = true) : (asciiByte c).toNat = c.toNat := by
  have hrange := digit_range h
  show c.toNat % 2 ^ 8 = c.toNat
  omega

/-- the digits of a number, as bytes -/
theorem asBytes_toString (n : ℕ) : asBytes (toString n) = (Nat.toDigits 10 n).map asciiByte := by
  rw [Nat.toString_eq_ofList_toDigits]
  refine asBytes_ascii fun c hc => ?_
  have hrange := digit_range (Nat.isDigit_of_mem_toDigits (by decide) (by decide) hc)
  omega

end RedisRsPy
