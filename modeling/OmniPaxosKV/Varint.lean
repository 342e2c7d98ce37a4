import Mathlib.Algebra.Group.Nat.Defs
import Mathlib.Data.List.Basic
import Mathlib.Order.Nat

/-!
Numbers of 64 bits in one to nine bytes.

A number up to 250 is its own byte. Before a larger one a byte says whether two, four or eight
bytes follow, the least significant first. What is read need not be as short as it could be.
-/

namespace OmniPaxosKV.Varint

/-! ### Little endian -/

/-- The `k` lowest bytes, the least significant first. -/
def littleEndian : ℕ → ℕ → List UInt8
  | 0, _ => []
  | k + 1, n => UInt8.ofNat n :: littleEndian k (n / 256)

def ofLittleEndian : List UInt8 → ℕ
  | [] => 0
  | b :: bytes => b.toNat + 256 * ofLittleEndian bytes

@[simp] lemma length_littleEndian (k n : ℕ) : (littleEndian k n).length = k := by
  induction k generalizing n with
  | zero => rfl
  | succ k ih => rw [littleEndian, List.length_cons, ih]

lemma ofLittleEndian_littleEndian {k n : ℕ} (h : n < 256 ^ k) :
    ofLittleEndian (littleEndian k n) = n := by
  induction k generalizing n with
  | zero =>
    have hn : n = 0 := by omega
    rw [hn]
    rfl
  | succ k ih =>
    have hdiv : n / 256 < 256 ^ k := by
      rw [pow_succ] at h
      omega
    rw [littleEndian, ofLittleEndian, ih hdiv, UInt8.toNat_ofNat']
    omega

/-- The number in the first `k` bytes, and the bytes after them. -/
def read (k : ℕ) (bytes : List UInt8) : Option (ℕ × List UInt8) :=
  if k ≤ bytes.length then some (ofLittleEndian (bytes.take k), bytes.drop k) else none

lemma read_littleEndian {k n : ℕ} (h : n < 256 ^ k) (rest : List UInt8) :
    read k (littleEndian k n ++ rest) = some (n, rest) := by
  have hle : k ≤ (littleEndian k n ++ rest).length := by
    rw [List.length_append, length_littleEndian]
    omega
  rw [read, if_pos hle]
  have htake : (littleEndian k n ++ rest).take k = littleEndian k n := by
    simp
  have hdrop : (littleEndian k n ++ rest).drop k = rest := by
    simp
  rw [htake, hdrop, ofLittleEndian_littleEndian h]

/-! ### Varints -/

def encode (n : ℕ) : List UInt8 :=
  if n ≤ 250 then [UInt8.ofNat n]
  else if n < 256 ^ 2 then 251 :: littleEndian 2 n
  else if n < 256 ^ 4 then 252 :: littleEndian 4 n
  else 253 :: littleEndian 8 n

/-- The number at the start, and the bytes after it. The two last bytes are for wider numbers and
for nothing. -/
def decode : List UInt8 → Option (ℕ × List UInt8)
  | [] => none
  | b :: rest =>
    if b.toNat ≤ 250 then some (b.toNat, rest)
    else if b = 251 then read 2 rest
    else if b = 252 then read 4 rest
    else if b = 253 then read 8 rest
    else none

lemma decode_small {n : ℕ} (h : n ≤ 250) (rest : List UInt8) :
    decode (UInt8.ofNat n :: rest) = some (n, rest) := by
  have hbyte : (UInt8.ofNat n).toNat = n := by
    rw [UInt8.toNat_ofNat']
    omega
  rw [decode, hbyte, if_pos h]

/-- **Round trip**: a number of 64 bits is read back, whatever follows it. -/
theorem decode_encode {n : ℕ} (h : n < 256 ^ 8) (rest : List UInt8) :
    decode (encode n ++ rest) = some (n, rest) := by
  unfold encode
  split_ifs with hsmall htwo hfour
  · exact decode_small hsmall rest
  · exact read_littleEndian htwo rest
  · exact read_littleEndian hfour rest
  · exact read_littleEndian h rest

lemma length_encode_le (n : ℕ) : (encode n).length ≤ 9 := by
  unfold encode
  split_ifs <;> simp

end OmniPaxosKV.Varint
