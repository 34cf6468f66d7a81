import Mathlib.Data.List.Basic
import Mathlib.Data.BitVec
import Mathlib.Tactic.Ring

/-!
# Words on a circle and their little-endian bytes

`serialDiff` is the signed distance between two counters that wrap at a power of
two. As long as the counters are less than half the circle apart it agrees with the
distance of the natural numbers they stand for (`serialDiff_of_near`), which is the only
fact a sliding-window argument needs about wrapping.

The codec half of the module stores words least significant byte first and reads
them back. Decoders return the bytes they leave, so that a record decoder is a
chain of them.
-/

namespace KcpRs.Lib

/-- Octets, the alphabet of every wire format here. -/
abbrev Byte := BitVec 8

/-- Byte strings. -/
abbrev Bytes := List Byte

/-- Signed distance from `earlier` to `later` on the circle of `w`-bit words. -/
def serialDiff {w : Nat} (later earlier : BitVec w) : Int :=
  (later - earlier).toInt

/-- Counters less than half the circle apart are as far apart as the numbers they stand
for. -/
theorem serialDiff_of_near {w a b : Nat} (positive : 0 < w) (above : a < b + 2 ^ (w - 1))
    (below : b ≤ a + 2 ^ (w - 1)) :
    serialDiff (BitVec.ofNat w a) (BitVec.ofNat w b) = (a : Int) - b := by
  have half : (2 : Int) ^ w = 2 * 2 ^ (w - 1) := by
    rw [← pow_succ', Nat.sub_add_cancel positive]
  have above' : (a : Int) < b + 2 ^ (w - 1) := by exact_mod_cast above
  have below' : (b : Int) ≤ a + 2 ^ (w - 1) := by exact_mod_cast below
  simp only [serialDiff, BitVec.toInt_sub, BitVec.toInt_ofNat', Int.bmod_sub_bmod,
    Int.sub_bmod_bmod]
  apply Int.bmod_eq_of_le
  · push_cast
    rw [half]
    omega
  · push_cast
    rw [half]
    omega

@[simp] theorem serialDiff_self {w : Nat} (word : BitVec w) : serialDiff word word = 0 := by
  simp [serialDiff]

/-- Distances do not depend on where on the circle they start. -/
theorem serialDiff_add_left {w : Nat} (base distance : BitVec w) :
    serialDiff (base + distance) base = distance.toInt := by
  simp [serialDiff, BitVec.add_comm base distance]

/-- Distinct numbers in the lower half of the circle are distinct words. -/
theorem ofNat_inj_of_lt {w a b : Nat} (left : a < 2 ^ w) (right : b < 2 ^ w)
    (equal : BitVec.ofNat w a = BitVec.ofNat w b) : a = b := by
  have values := congrArg BitVec.toNat equal
  simpa [Nat.mod_eq_of_lt left, Nat.mod_eq_of_lt right] using values

/-- The two's complement reading of an unbounded result in 32 bits. -/
def wrap32 (value : Int) : Int :=
  value.bmod (2 ^ 32)

/-- Values that fit are read back unchanged. -/
theorem wrap32_of_lt {value : Int} (lower : 0 ≤ value) (upper : value < 2 ^ 31) :
    wrap32 value = value := by
  apply Int.bmod_eq_of_le <;> norm_num <;> omega

/-- Wrapping a partial sum does not change the wrapped sum. -/
theorem wrap32_wrap32_add (value other : Int) :
    wrap32 (wrap32 value + other) = wrap32 (value + other) := by
  unfold wrap32
  rw [Int.bmod_add_bmod]

/-- One byte. -/
def encode8u (value : Byte) : Bytes :=
  [value]

/-- Two bytes, least significant first. -/
def encode16u (value : BitVec 16) : Bytes :=
  [value.setWidth 8, (value >>> 8).setWidth 8]

/-- Four bytes, least significant first. -/
def encode32u (value : BitVec 32) : Bytes :=
  [value.setWidth 8, (value >>> 8).setWidth 8, (value >>> 16).setWidth 8,
    (value >>> 24).setWidth 8]

/-- Read one byte; a missing byte reads as zero. -/
def decode8u : Bytes → Byte × Bytes
  | byte :: rest => (byte, rest)
  | [] => (0, [])

/-- Read two bytes, least significant first. -/
def decode16u : Bytes → BitVec 16 × Bytes
  | b0 :: b1 :: rest => (b0.setWidth 16 + (b1.setWidth 16 <<< 8), rest)
  | _ => (0, [])

/-- Read four bytes, least significant first. -/
def decode32u : Bytes → BitVec 32 × Bytes
  | b0 :: b1 :: b2 :: b3 :: rest =>
      (b0.setWidth 32 + ((b1.setWidth 32 + ((b2.setWidth 32 +
        (b3.setWidth 32 <<< 8)) <<< 8)) <<< 8), rest)
  | _ => (0, [])

@[simp] theorem length_encode8u (value : Byte) : (encode8u value).length = 1 := rfl

@[simp] theorem length_encode16u (value : BitVec 16) : (encode16u value).length = 2 := rfl

@[simp] theorem length_encode32u (value : BitVec 32) : (encode32u value).length = 4 := rfl

@[simp] theorem decode8u_encode8u (value : Byte) (rest : Bytes) :
    decode8u (encode8u value ++ rest) = (value, rest) := rfl

@[simp] theorem decode16u_encode16u (value : BitVec 16) (rest : Bytes) :
    decode16u (encode16u value ++ rest) = (value, rest) := by
  simp only [encode16u, decode16u, List.cons_append, List.nil_append, Prod.mk.injEq, and_true]
  apply BitVec.eq_of_toNat_eq
  simp only [BitVec.toNat_add, BitVec.toNat_setWidth, BitVec.toNat_shiftLeft,
    BitVec.toNat_ushiftRight, Nat.shiftLeft_eq, Nat.shiftRight_eq_div_pow]
  omega

@[simp] theorem decode32u_encode32u (value : BitVec 32) (rest : Bytes) :
    decode32u (encode32u value ++ rest) = (value, rest) := by
  simp only [encode32u, decode32u, List.cons_append, List.nil_append, Prod.mk.injEq, and_true]
  apply BitVec.eq_of_toNat_eq
  simp only [BitVec.toNat_add, BitVec.toNat_setWidth, BitVec.toNat_shiftLeft,
    BitVec.toNat_ushiftRight, Nat.shiftLeft_eq, Nat.shiftRight_eq_div_pow]
  omega

/-- Putting the bytes of a word together by disjunction gives the word back. -/
theorem or_bytes (value : BitVec 32) :
    (value.setWidth 8).setWidth 32 ||| ((value >>> 8).setWidth 8).setWidth 32 <<< 8 |||
      ((value >>> 16).setWidth 8).setWidth 32 <<< 16 |||
      ((value >>> 24).setWidth 8).setWidth 32 <<< 24 = value := by
  apply BitVec.eq_of_getLsbD_eq
  intro i bound
  simp only [BitVec.getLsbD_or, BitVec.getLsbD_setWidth, BitVec.getLsbD_shiftLeft,
    BitVec.getLsbD_ushiftRight]
  -- One case for each byte that bit `i` may be in.
  by_cases first : i < 8
  · simp [first, bound, show i < 16 by omega, show i < 24 by omega]
  by_cases second : i < 16
  · have : 8 + (i - 8) = i := by omega
    simp [first, second, bound, this, show i < 24 by omega, show i - 8 < 8 by omega,
      show i - 8 < 32 by omega]
  by_cases third : i < 24
  · have : 16 + (i - 16) = i := by omega
    simp [first, second, third, bound, this, show ¬ i - 8 < 8 by omega,
      show i - 16 < 8 by omega, show i - 16 < 32 by omega]
  · have : 24 + (i - 24) = i := by omega
    simp [first, second, third, bound, this, show ¬ i - 8 < 8 by omega,
      show ¬ i - 16 < 8 by omega, show i - 24 < 8 by omega, show i - 24 < 32 by omega]

/-- Four bytes are decoded to the word that has them. -/
theorem decode32u_bytes (b0 b1 b2 b3 : Byte) (rest : Bytes) :
    (decode32u (b0 :: b1 :: b2 :: b3 :: rest)).1 =
      b0.setWidth 32 ||| b1.setWidth 32 <<< 8 ||| b2.setWidth 32 <<< 16 |||
        b3.setWidth 32 <<< 24 := by
  generalize equal : (decode32u (b0 :: b1 :: b2 :: b3 :: rest)).1 = value
  have first : value.setWidth 8 = b0 := by
    subst equal
    apply BitVec.eq_of_toNat_eq
    simp [decode32u, BitVec.toNat_shiftLeft, Nat.shiftLeft_eq]
    omega
  have second : (value >>> 8).setWidth 8 = b1 := by
    subst equal
    apply BitVec.eq_of_toNat_eq
    simp [decode32u, BitVec.toNat_shiftLeft, Nat.shiftLeft_eq, Nat.shiftRight_eq_div_pow]
    omega
  have third : (value >>> 16).setWidth 8 = b2 := by
    subst equal
    apply BitVec.eq_of_toNat_eq
    simp [decode32u, BitVec.toNat_shiftLeft, Nat.shiftLeft_eq, Nat.shiftRight_eq_div_pow]
    omega
  have fourth : (value >>> 24).setWidth 8 = b3 := by
    subst equal
    apply BitVec.eq_of_toNat_eq
    simp [decode32u, BitVec.toNat_shiftLeft, Nat.shiftLeft_eq, Nat.shiftRight_eq_div_pow]
    omega
  rw [← first, ← second, ← third, ← fourth, or_bytes]

end KcpRs.Lib
