import Mathlib.Data.Nat.Digits.Lemmas
import Mathlib.Tactic.Common

/-!
# Little-endian numbers in byte lists

Fixed-width encoding of a natural number, least significant byte first, and
the 32-bit words of a byte list.
-/

namespace LittleEndian

/-- The `w` low bytes of `n`; what does not fit is dropped. -/
def encode : Nat → Nat → List UInt8
  | 0, _ => []
  | w + 1, n => UInt8.ofNat n :: encode w (n / 256)

/-- The number whose bytes, least significant first, are given. -/
def decode (bs : List UInt8) : Nat := Nat.ofDigits 256 (bs.map UInt8.toNat)

@[simp] theorem decode_nil : decode [] = 0 := rfl

@[simp] theorem decode_cons (b : UInt8) (bs : List UInt8) :
    decode (b :: bs) = b.toNat + 256 * decode bs := rfl

@[simp] theorem length_encode (w n : Nat) : (encode w n).length = w := by
  induction w generalizing n with
  | zero => rfl
  | succ w ih => simp only [encode, List.length_cons, ih]

/-- Decoding recovers the number up to the width. -/
theorem decode_encode (w n : Nat) : decode (encode w n) = n % 256 ^ w := by
  induction w generalizing n with
  | zero => simp [encode, Nat.mod_one]
  | succ w ih =>
      have hb : (UInt8.ofNat n).toNat = n % 256 := by simp
      rw [encode, decode_cons, ih, hb, pow_succ', Nat.mod_mul]

theorem decode_lt (bs : List UInt8) : decode bs < 256 ^ bs.length := by
  induction bs with
  | nil => simp
  | cons b bs ih =>
      have hb : b.toNat < 256 := b.toNat_lt
      rw [decode_cons, List.length_cons, pow_succ]
      omega

/-- Encoding recovers the bytes of the number. -/
theorem encode_decode (bs : List UInt8) : encode bs.length (decode bs) = bs := by
  induction bs with
  | nil => rfl
  | cons b bs ih =>
      have hb := b.toNat_lt
      have hlow : UInt8.ofNat (b.toNat + 256 * decode bs) = b := by
        apply UInt8.toNat_inj.mp
        rw [UInt8.toNat_ofNat']
        omega
      have hhigh : (b.toNat + 256 * decode bs) / 256 = decode bs := by omega
      rw [decode_cons, List.length_cons, encode, hlow, hhigh, ih]

/-- The `i`-th 32-bit word of a byte list. -/
def word (bs : List UInt8) (i : Nat) : Nat := decode ((bs.drop (4 * i)).take 4)

theorem word_lt (bs : List UInt8) (i : Nat) : word bs i < 2 ^ 32 := by
  have hlen : ((bs.drop (4 * i)).take 4).length ≤ 4 := by simp
  calc
    word bs i < 256 ^ ((bs.drop (4 * i)).take 4).length := decode_lt _
    _ ≤ 256 ^ 4 := Nat.pow_le_pow_right (by decide) hlen
    _ = 2 ^ 32 := by decide

/-- The bytes of a word that lies in the list. -/
theorem take_eq_encode_word {bs : List UInt8} {i : Nat} (h : 4 * i + 4 ≤ bs.length) :
    (bs.drop (4 * i)).take 4 = encode 4 (word bs i) := by
  have hlen : ((bs.drop (4 * i)).take 4).length = 4 := by
    rw [List.length_take, List.length_drop]
    omega
  have hbytes := encode_decode ((bs.drop (4 * i)).take 4)
  rw [hlen] at hbytes
  exact hbytes.symm

@[simp] theorem word_encode_zero (n : Nat) (rest : List UInt8) :
    word (encode 4 n ++ rest) 0 = n % 2 ^ 32 := by
  simp [word, decode_encode]

@[simp] theorem word_encode_succ (n i : Nat) (rest : List UInt8) :
    word (encode 4 n ++ rest) (i + 1) = word rest i := by
  have hd : (encode 4 n ++ rest).drop (4 * (i + 1)) = rest.drop (4 * i) := by
    rw [List.drop_append, length_encode, List.drop_eq_nil_of_le (by simp)]
    simp [Nat.mul_succ]
  rw [word, hd, word]

/-- Words inside a prefix do not depend on what follows it. -/
theorem word_append (as bs : List UInt8) (i : Nat) (h : 4 * i + 4 ≤ as.length) :
    word (as ++ bs) i = word as i := by
  rw [word, word, List.drop_append_of_le_length (by omega),
    List.take_append_of_le_length (by simp; omega)]

/-- Words inside a prefix of the list are words of the list. -/
theorem word_take (bs : List UInt8) (n i : Nat) (h : 4 * i + 4 ≤ n) :
    word (bs.take n) i = word bs i := by
  rw [word, word, List.drop_take, List.take_take, Nat.min_eq_left (by omega)]

end LittleEndian
