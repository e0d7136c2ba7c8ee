import Mathlib.Data.Nat.Basic
import Mathlib.Tactic.Common

/-!
# Dotted IPv4 addresses

The text form of an IPv4 address: four decimal numbers up to 255 without leading zeros,
separated by dots. Every address has one text and every other string is refused.
-/

structure Ipv4 where
  b₀ : UInt8
  b₁ : UInt8
  b₂ : UInt8
  b₃ : UInt8
  deriving DecidableEq

namespace Ipv4

/-- The address whose bytes are all zero. -/
def zero : Ipv4 := ⟨0, 0, 0, 0⟩

/-- The character of a digit. -/
def digit (k : Nat) : UInt8 := UInt8.ofNat (48 + k)

def isDigit (c : UInt8) : Prop := 48 ≤ c.toNat ∧ c.toNat ≤ 57

instance (c : UInt8) : Decidable (isDigit c) := inferInstanceAs (Decidable (_ ∧ _))

def digitVal (c : UInt8) : Nat := c.toNat - 48

/-- The decimal text of a byte. -/
def octetText (b : UInt8) : List UInt8 :=
  let n := b.toNat
  if n < 10 then [digit n]
  else if n < 100 then [digit (n / 10), digit (n % 10)]
  else [digit (n / 100), digit (n / 10 % 10), digit (n % 10)]

/-- The number that one to three digits stand for, none of them a leading zero. -/
def octetVal : List UInt8 → Option Nat
  | [x] => if isDigit x then some (digitVal x) else none
  | [x, y] =>
      if isDigit x ∧ isDigit y ∧ digitVal x ≠ 0 then some (10 * digitVal x + digitVal y)
      else none
  | [x, y, z] =>
      if isDigit x ∧ isDigit y ∧ isDigit z ∧ digitVal x ≠ 0 then
        some (100 * digitVal x + 10 * digitVal y + digitVal z)
      else none
  | _ => none

def octet (ds : List UInt8) : Option UInt8 := do
  let n ← octetVal ds
  if n ≤ 255 then some (UInt8.ofNat n) else none

def text (a : Ipv4) : List UInt8 :=
  [46].intercalate [octetText a.b₀, octetText a.b₁, octetText a.b₂, octetText a.b₃]

def parse (s : List UInt8) : Option Ipv4 :=
  match s.splitOn 46 with
  | [s₀, s₁, s₂, s₃] => do
      let b₀ ← octet s₀
      let b₁ ← octet s₁
      let b₂ ← octet s₂
      let b₃ ← octet s₃
      return ⟨b₀, b₁, b₂, b₃⟩
  | _ => none

theorem toNat_digit {k : Nat} (h : k < 10) : (digit k).toNat = 48 + k := by
  rw [digit, UInt8.toNat_ofNat']
  exact Nat.mod_eq_of_lt (by omega)

theorem isDigit_digit {k : Nat} (h : k < 10) : isDigit (digit k) := by
  rw [isDigit, toNat_digit h]
  omega

theorem digitVal_digit {k : Nat} (h : k < 10) : digitVal (digit k) = k := by
  rw [digitVal, toNat_digit h]
  omega

theorem digitVal_lt {c : UInt8} (h : isDigit c) : digitVal c < 10 := by
  rw [isDigit] at h
  rw [digitVal]
  omega

theorem digit_digitVal {c : UInt8} (h : isDigit c) : digit (digitVal c) = c := by
  apply UInt8.toNat_inj.mp
  rw [toNat_digit (digitVal_lt h), digitVal]
  have := h.1
  omega

theorem octet_octetText (b : UInt8) : octet (octetText b) = some b := by
  have hb := b.toNat_lt
  have hval : octetVal (octetText b) = some b.toNat := by
    rw [octetText]
    split_ifs with h10 h100
    · rw [octetVal, if_pos (isDigit_digit h10), digitVal_digit h10]
    · have hx : b.toNat / 10 < 10 := by omega
      have hy : b.toNat % 10 < 10 := by omega
      rw [octetVal, digitVal_digit hx, digitVal_digit hy,
        if_pos ⟨isDigit_digit hx, isDigit_digit hy, by omega⟩]
      congr 1
      omega
    · have hx : b.toNat / 100 < 10 := by omega
      have hy : b.toNat / 10 % 10 < 10 := by omega
      have hz : b.toNat % 10 < 10 := by omega
      rw [octetVal, digitVal_digit hx, digitVal_digit hy, digitVal_digit hz,
        if_pos ⟨isDigit_digit hx, isDigit_digit hy, isDigit_digit hz, by omega⟩]
      congr 1
      omega
  rw [octet, hval, Option.bind_eq_bind, Option.bind_some, if_pos (by omega), UInt8.ofNat_toNat]

/-- The digits are those of the number they stand for. -/
theorem octetVal_eq_some {ds : List UInt8} {n : Nat} (h : octetVal ds = some n) :
    ds = if n < 10 then [digit n] else if n < 100 then [digit (n / 10), digit (n % 10)]
      else [digit (n / 100), digit (n / 10 % 10), digit (n % 10)] := by
  unfold octetVal at h
  split at h
  · rename_i x
    split at h
    · rename_i hx
      obtain rfl := Option.some.inj h
      rw [if_pos (digitVal_lt hx), digit_digitVal hx]
    · cases h
  · rename_i x y
    split at h
    · rename_i hxy
      obtain ⟨hx, hy, hne⟩ := hxy
      obtain rfl := Option.some.inj h
      have hxlt := digitVal_lt hx
      have hylt := digitVal_lt hy
      have hdiv : (10 * digitVal x + digitVal y) / 10 = digitVal x := by omega
      have hmod : (10 * digitVal x + digitVal y) % 10 = digitVal y := by omega
      rw [if_neg (by omega), if_pos (by omega), hdiv, hmod, digit_digitVal hx,
        digit_digitVal hy]
    · cases h
  · rename_i x y z
    split at h
    · rename_i hxyz
      obtain ⟨hx, hy, hz, hne⟩ := hxyz
      obtain rfl := Option.some.inj h
      have hxlt := digitVal_lt hx
      have hylt := digitVal_lt hy
      have hzlt := digitVal_lt hz
      have h100 : (100 * digitVal x + 10 * digitVal y + digitVal z) / 100 = digitVal x := by
        omega
      have h10 : (100 * digitVal x + 10 * digitVal y + digitVal z) / 10 % 10 = digitVal y := by
        omega
      have h1 : (100 * digitVal x + 10 * digitVal y + digitVal z) % 10 = digitVal z := by omega
      rw [if_neg (by omega), if_neg (by omega), h100, h10, h1, digit_digitVal hx,
        digit_digitVal hy, digit_digitVal hz]
    · cases h
  · cases h

/-- Only the text of a byte is read as it. -/
theorem octet_eq_some {ds : List UInt8} {b : UInt8} (h : octet ds = some b) :
    ds = octetText b := by
  obtain ⟨n, hval, h⟩ := Option.bind_eq_some_iff.mp h
  split at h
  · rename_i hle
    have hn : b.toNat = n := by
      rw [← Option.some.inj h, UInt8.toNat_ofNat']
      exact Nat.mod_eq_of_lt (by omega)
    rw [octetText, hn]
    exact octetVal_eq_some hval
  · cases h

theorem dot_not_mem_octetText (b : UInt8) : 46 ∉ octetText b := by
  have hdot : ∀ {k : Nat}, k < 10 → (46 : UInt8) ≠ digit k := by
    intro k hk heq
    have hnat := congrArg UInt8.toNat heq
    rw [toNat_digit hk] at hnat
    change 46 = 48 + k at hnat
    omega
  have hb := b.toNat_lt
  rw [octetText]
  split_ifs with h10 h100
  · simp [hdot h10]
  · simp [hdot (by omega : b.toNat / 10 < 10), hdot (by omega : b.toNat % 10 < 10)]
  · simp [hdot (by omega : b.toNat / 100 < 10), hdot (by omega : b.toNat / 10 % 10 < 10),
      hdot (by omega : b.toNat % 10 < 10)]

/-- A string is read as an address exactly if it is its text. -/
theorem parse_eq_some_iff {s : List UInt8} {a : Ipv4} : parse s = some a ↔ s = text a := by
  constructor
  · intro h
    unfold parse at h
    split at h
    · rename_i s₀ s₁ s₂ s₃ hsplit
      obtain ⟨b₀, h₀, h⟩ := Option.bind_eq_some_iff.mp h
      obtain ⟨b₁, h₁, h⟩ := Option.bind_eq_some_iff.mp h
      obtain ⟨b₂, h₂, h⟩ := Option.bind_eq_some_iff.mp h
      obtain ⟨b₃, h₃, h⟩ := Option.bind_eq_some_iff.mp h
      cases h
      have hjoin : [46].intercalate (s.splitOn 46) = s := List.intercalate_splitOn 46
      rw [hsplit, octet_eq_some h₀, octet_eq_some h₁, octet_eq_some h₂, octet_eq_some h₃] at hjoin
      exact hjoin.symm
    · cases h
  · rintro rfl
    have hdots : ∀ l ∈ [octetText a.b₀, octetText a.b₁, octetText a.b₂, octetText a.b₃],
        46 ∉ l := by
      intro l hl
      simp only [List.mem_cons, List.not_mem_nil, or_false] at hl
      rcases hl with rfl | rfl | rfl | rfl <;> exact dot_not_mem_octetText _
    rw [parse, text, List.splitOn_intercalate 46 hdots (List.cons_ne_nil _ _)]
    simp only [octet_octetText]
    rfl

end Ipv4
