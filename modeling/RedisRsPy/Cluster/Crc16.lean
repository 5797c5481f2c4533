/-
`crc16_xmodem` (`facade/cluster.rs`) as a check: what it computes, how it goes on, and the table that clusters use.

A word of 16 bits is a polynomial over the field of two elements, its highest bit the coefficient of `X ^ 15`; a message
is the polynomial of its bits, the most significant of each byte first.

`crc16` is the function of the cluster's own code: a byte at a time, with a table of 256 words.

Results:
- `crc16tab_eq`: the table holds what the bit loop makes of the single bytes;
- `crc16Xmodem_eq_crc16`, `clusterSlot_eq_crc16`: with it the same checks and slots are computed;
- `word_foldl`: a register that goes on with further bytes is the remainder of the two;
- `crc16_xmodem_is_crc`: all of it.
-/
import RedisRsPy.Cluster.Slot

namespace RedisRsPy.Cluster

open Lib Polynomial

/-! ## Messages and words as polynomials -/

noncomputable def word (crc : UInt16) : (ZMod 2)[X] := Crc.poly crc.toBitVec

/-- the polynomial of a message, the most significant bit of the first byte highest -/
noncomputable def messagePoly (d : Bytes) : (ZMod 2)[X] := Crc.ofBits (Crc.bits (d.map UInt8.toBitVec))

/-- **Going on.** The remainder of what the register holds, moved up by the bytes that follow, and of these. -/
theorem word_foldl (crc : UInt16) (b : Bytes) :
    word (b.foldl crcByte crc) =
      (X ^ (8 * b.length) * word crc + X ^ 16 * messagePoly b) %ₘ (X ^ 16 + X ^ 12 + X ^ 5 + 1) := by
  have hfold := Crc.poly_foldl 0x1021#16 crc.toBitVec (by decide) (b.map UInt8.toBitVec)
  rw [← toBitVec_foldl_crcByte, generator_xmodem, List.length_map, Crc.message_eq] at hfold
  exact hfold

/-- **The bit loop is the remainder.** -/
theorem word_crc16Xmodem (d : Bytes) :
    word (crc16Xmodem d) = (X ^ 16 * messagePoly d) %ₘ (X ^ 16 + X ^ 12 + X ^ 5 + 1) := by
  have hfold := word_foldl 0 d
  have hzero : word 0 = 0 := Crc.poly_zero
  rw [hzero, mul_zero, zero_add] at hfold
  exact hfold

/-! ## The table -/

/-- `crc16tab` of the cluster -/
def crc16tab : List UInt16 := [
  0x0000, 0x1021, 0x2042, 0x3063, 0x4084, 0x50a5, 0x60c6, 0x70e7, 0x8108, 0x9129, 0xa14a, 0xb16b,
  0xc18c, 0xd1ad, 0xe1ce, 0xf1ef, 0x1231, 0x0210, 0x3273, 0x2252, 0x52b5, 0x4294, 0x72f7, 0x62d6,
  0x9339, 0x8318, 0xb37b, 0xa35a, 0xd3bd, 0xc39c, 0xf3ff, 0xe3de, 0x2462, 0x3443, 0x0420, 0x1401,
  0x64e6, 0x74c7, 0x44a4, 0x5485, 0xa56a, 0xb54b, 0x8528, 0x9509, 0xe5ee, 0xf5cf, 0xc5ac, 0xd58d,
  0x3653, 0x2672, 0x1611, 0x0630, 0x76d7, 0x66f6, 0x5695, 0x46b4, 0xb75b, 0xa77a, 0x9719, 0x8738,
  0xf7df, 0xe7fe, 0xd79d, 0xc7bc, 0x48c4, 0x58e5, 0x6886, 0x78a7, 0x0840, 0x1861, 0x2802, 0x3823,
  0xc9cc, 0xd9ed, 0xe98e, 0xf9af, 0x8948, 0x9969, 0xa90a, 0xb92b, 0x5af5, 0x4ad4, 0x7ab7, 0x6a96,
  0x1a71, 0x0a50, 0x3a33, 0x2a12, 0xdbfd, 0xcbdc, 0xfbbf, 0xeb9e, 0x9b79, 0x8b58, 0xbb3b, 0xab1a,
  0x6ca6, 0x7c87, 0x4ce4, 0x5cc5, 0x2c22, 0x3c03, 0x0c60, 0x1c41, 0xedae, 0xfd8f, 0xcdec, 0xddcd,
  0xad2a, 0xbd0b, 0x8d68, 0x9d49, 0x7e97, 0x6eb6, 0x5ed5, 0x4ef4, 0x3e13, 0x2e32, 0x1e51, 0x0e70,
  0xff9f, 0xefbe, 0xdfdd, 0xcffc, 0xbf1b, 0xaf3a, 0x9f59, 0x8f78, 0x9188, 0x81a9, 0xb1ca, 0xa1eb,
  0xd10c, 0xc12d, 0xf14e, 0xe16f, 0x1080, 0x00a1, 0x30c2, 0x20e3, 0x5004, 0x4025, 0x7046, 0x6067,
  0x83b9, 0x9398, 0xa3fb, 0xb3da, 0xc33d, 0xd31c, 0xe37f, 0xf35e, 0x02b1, 0x1290, 0x22f3, 0x32d2,
  0x4235, 0x5214, 0x6277, 0x7256, 0xb5ea, 0xa5cb, 0x95a8, 0x8589, 0xf56e, 0xe54f, 0xd52c, 0xc50d,
  0x34e2, 0x24c3, 0x14a0, 0x0481, 0x7466, 0x6447, 0x5424, 0x4405, 0xa7db, 0xb7fa, 0x8799, 0x97b8,
  0xe75f, 0xf77e, 0xc71d, 0xd73c, 0x26d3, 0x36f2, 0x0691, 0x16b0, 0x6657, 0x7676, 0x4615, 0x5634,
  0xd94c, 0xc96d, 0xf90e, 0xe92f, 0x99c8, 0x89e9, 0xb98a, 0xa9ab, 0x5844, 0x4865, 0x7806, 0x6827,
  0x18c0, 0x08e1, 0x3882, 0x28a3, 0xcb7d, 0xdb5c, 0xeb3f, 0xfb1e, 0x8bf9, 0x9bd8, 0xabbb, 0xbb9a,
  0x4a75, 0x5a54, 0x6a37, 0x7a16, 0x0af1, 0x1ad0, 0x2ab3, 0x3a92, 0xfd2e, 0xed0f, 0xdd6c, 0xcd4d,
  0xbdaa, 0xad8b, 0x9de8, 0x8dc9, 0x7c26, 0x6c07, 0x5c64, 0x4c45, 0x3ca2, 0x2c83, 0x1ce0, 0x0cc1,
  0xef1f, 0xff3e, 0xcf5d, 0xdf7c, 0xaf9b, 0xbfba, 0x8fd9, 0x9ff8, 0x6e17, 0x7e36, 0x4e55, 0x5e74,
  0x2e93, 0x3eb2, 0x0ed1, 0x1ef0]

/-- one byte of `crc16` of the cluster -/
def crc16Byte (crc : UInt16) (b : UInt8) : UInt16 :=
  (crc <<< 8) ^^^ crc16tab.getD (((crc >>> 8) ^^^ b.toUInt16) &&& 0x00ff).toNat 0

def crc16 (buf : Bytes) : UInt16 := buf.foldl crc16Byte 0

/-- the table holds the checks of the single bytes -/
theorem crc16tab_eq : crc16tab = (List.range 256).map fun i => crcByte 0 (UInt8.ofNat i) := by
  decide +kernel

theorem getD_crc16tab (b : UInt8) : crc16tab.getD b.toNat 0 = crcByte 0 b := by
  rw [crc16tab_eq, List.getD_eq_getElem?_getD, List.getElem?_map, List.getElem?_range b.toNat_lt, Option.map_some,
    Option.getD_some, UInt8.ofNat_toNat]

/-- what is looked up: the next byte, and the high one of the register -/
theorem index_crc16tab (crc : UInt16) (b : UInt8) :
    (((crc >>> 8) ^^^ b.toUInt16) &&& 0x00ff).toNat = (Crc.index crc.toBitVec b.toBitVec).toNat := by
  have hhigh : crc.toNat >>> 8 < 2 ^ 8 := by
    have hlt := crc.toNat_lt
    rw [Nat.shiftRight_eq_div_pow]
    omega
  have hmask : (0x00ff : UInt16).toNat = 2 ^ 8 - 1 := rfl
  have hshift : (8 : UInt16).toNat % 16 = 8 := rfl
  have hcode : (((crc >>> 8) ^^^ b.toUInt16) &&& 0x00ff).toNat = crc.toNat >>> 8 ^^^ b.toNat := by
    rw [UInt16.toNat_and, UInt16.toNat_xor, UInt16.toNat_shiftRight, UInt8.toNat_toUInt16, hmask, hshift,
      Nat.and_two_pow_sub_one_eq_mod, Nat.mod_eq_of_lt (Nat.xor_lt_two_pow hhigh b.toNat_lt)]
  have hindex : (Crc.index crc.toBitVec b.toBitVec).toNat = crc.toNat >>> 8 ^^^ b.toNat := by
    rw [Crc.index, BitVec.toNat_xor, BitVec.toNat_setWidth, BitVec.toNat_ushiftRight]
    exact congrArg (· ^^^ b.toNat) (Nat.mod_eq_of_lt hhigh)
  rw [hcode, hindex]

/-- **One look-up is one round of the outer loop.** -/
theorem crcByte_eq_crc16Byte (crc : UInt16) (b : UInt8) : crcByte crc b = crc16Byte crc b := by
  have htable : ∀ i : BitVec 8, (crc16tab.getD i.toNat 0).toBitVec = Crc.byteStep 0x1021#16 0 i := by
    intro i
    have hentry := getD_crc16tab ⟨i⟩
    exact (congrArg UInt16.toBitVec hentry).trans (toBitVec_crcByte 0 ⟨i⟩)
  have hstep := Crc.byteStep_eq_tableStep (by decide) htable crc.toBitVec b.toBitVec
  rw [← UInt16.toBitVec_inj, toBitVec_crcByte, hstep, Crc.tableStep, ← index_crc16tab]
  rfl

theorem crc16Xmodem_eq_crc16 (d : Bytes) : crc16Xmodem d = crc16 d := by
  have hstep : crcByte = crc16Byte := by
    funext crc b
    exact crcByte_eq_crc16Byte crc b
  rw [crc16Xmodem, crc16, hstep]

/-- the slot of a key, by the table -/
theorem clusterSlot_eq_crc16 (key : Bytes) : clusterSlot key = crc16 (slotTarget key) % 16384 := by
  rw [clusterSlot, crc16Xmodem_eq_crc16]

/-! ## The check -/

/-- **`crc16_xmodem` is the check.** For every message it is the remainder of the message times `X ^ 16`; with further
bytes it goes on from the check alone, to the remainder of both; and it is what clusters compute by their table. -/
theorem crc16_xmodem_is_crc (d : Bytes) :
    word (crc16Xmodem d) = (X ^ 16 * messagePoly d) %ₘ (X ^ 16 + X ^ 12 + X ^ 5 + 1) ∧
      (∀ b, crc16Xmodem (d ++ b) = b.foldl crcByte (crc16Xmodem d) ∧
        word (crc16Xmodem (d ++ b)) =
          (X ^ (8 * b.length) * word (crc16Xmodem d) + X ^ 16 * messagePoly b) %ₘ (X ^ 16 + X ^ 12 + X ^ 5 + 1)) ∧
      crc16Xmodem d = crc16 d := by
  refine ⟨word_crc16Xmodem d, ?_, crc16Xmodem_eq_crc16 d⟩
  intro b
  have happend : crc16Xmodem (d ++ b) = b.foldl crcByte (crc16Xmodem d) := List.foldl_append
  refine ⟨happend, ?_⟩
  rw [happend]
  exact word_foldl (crc16Xmodem d) b

/-- the check of `123456789` -/
example : crc16Xmodem [0x31, 0x32, 0x33, 0x34, 0x35, 0x36, 0x37, 0x38, 0x39] = 0x31c3 := by decide +kernel

end RedisRsPy.Cluster
