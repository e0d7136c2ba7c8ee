import Mathlib.Data.List.TakeWhile
import Mathlib.Tactic.Common

/-!
# C strings

A string is its bytes before the terminator; a buffer is searched for the
terminator from its front.
-/

/-- The characters of a NUL-terminated string. -/
structure CStr where
  bytes : List UInt8
  nulFree : 0 ∉ bytes
  deriving DecidableEq

namespace CStr

/-- The bytes in memory, terminator included. -/
def stored (s : CStr) : List UInt8 := s.bytes ++ [0]

/-- `strlen` of what a buffer holds: the number of bytes before the first NUL.
Without a NUL the search runs off the buffer, and the count is at least the
number of bytes it holds. -/
def strlen (buf : List UInt8) : Nat := (buf.takeWhile (· ≠ 0)).length

theorem takeWhile_append_nul {as : List UInt8} (h : 0 ∉ as) (bs : List UInt8) :
    (as ++ 0 :: bs).takeWhile (· ≠ 0) = as := by
  induction as with
  | nil => simp
  | cons a as ih =>
      have ha : a ≠ 0 := fun h0 => h (h0 ▸ List.mem_cons_self)
      have has : 0 ∉ as := fun h0 => h (List.mem_cons_of_mem a h0)
      rw [List.cons_append, List.takeWhile_cons_of_pos (by simpa using ha), ih has]

/-- A terminator in the buffer ends the search inside it. -/
theorem strlen_lt {buf : List UInt8} (h : 0 ∈ buf) : strlen buf < buf.length := by
  obtain ⟨as, bs, rfl, has⟩ := List.eq_append_cons_of_mem h
  rw [strlen, takeWhile_append_nul has, List.length_append, List.length_cons]
  omega

/-- What lies behind the terminator does not matter. -/
theorem takeWhile_take {buf : List UInt8} {n : Nat} (h : 0 ∈ buf.take n) :
    (buf.take n).takeWhile (· ≠ 0) = buf.takeWhile (· ≠ 0) := by
  obtain ⟨as, bs, htake, has⟩ := List.eq_append_cons_of_mem h
  have hbuf : buf = as ++ 0 :: (bs ++ buf.drop n) := by
    rw [← List.cons_append, ← List.append_assoc, ← htake, List.take_append_drop]
  rw [htake, takeWhile_append_nul has]
  conv_rhs => rw [hbuf]
  rw [takeWhile_append_nul has]

/-- A string ends within the first bytes when there is a NUL among them. -/
theorem strlen_lt_iff {buf : List UInt8} {n : Nat} (hn : n ≤ buf.length) :
    strlen buf < n ↔ 0 ∈ buf.take n := by
  constructor
  · intro hlt
    by_contra hno
    have hall : (buf.take n).takeWhile (· ≠ 0) = buf.take n := by
      rw [List.takeWhile_eq_self_iff]
      intro b hb
      exact decide_eq_true fun h0 : b = 0 => hno (h0 ▸ hb)
    have hle : (buf.take n).length ≤ strlen buf := by
      conv_rhs => rw [← List.take_append_drop n buf]
      rw [strlen, List.takeWhile_append, hall, if_pos rfl, List.length_append]
      exact Nat.le_add_right _ _
    rw [List.length_take, Nat.min_eq_left hn] at hle
    omega
  · intro h0
    have hsame : strlen (buf.take n) = strlen buf := congrArg List.length (takeWhile_take h0)
    have hlt := strlen_lt h0
    rw [hsame, List.length_take] at hlt
    omega

/-- Strings one after another, each with its terminator. -/
def joined (ss : List (List UInt8)) : List UInt8 := ss.flatMap fun s => s ++ [0]

/-- The strings in a block: its NUL-terminated runs. What follows the last NUL is padding. -/
def strings (block : List UInt8) : List (List UInt8) := (block.splitOn 0).dropLast

theorem joined_cons (s : List UInt8) (ss : List (List UInt8)) :
    joined (s :: ss) = s ++ 0 :: joined ss := by
  rw [joined, List.flatMap_cons, List.append_assoc]
  rfl

/-- Joined strings are found again in front of any padding. -/
theorem strings_joined {ss : List (List UInt8)} {pad : List UInt8} (hss : ∀ s ∈ ss, 0 ∉ s)
    (hpad : 0 ∉ pad) : strings (joined ss ++ pad) = ss := by
  induction ss with
  | nil =>
      have hsplit : pad.splitOn 0 = [pad] := List.splitOn_eq_singleton hpad
      rw [strings, joined, List.flatMap_nil, List.nil_append, hsplit]
      rfl
  | cons s ss ih =>
      have hs : 0 ∉ s := hss s List.mem_cons_self
      have hrest := ih fun t ht => hss t (List.mem_cons_of_mem s ht)
      rw [strings] at hrest
      rw [strings, joined_cons, List.append_assoc, List.cons_append,
        List.splitOn_append_cons_self_of_not_mem hs,
        List.dropLast_cons_of_ne_nil (List.splitOn_ne_nil 0 _), hrest]

/-- A block holds as many strings as terminators. -/
theorem length_strings (block : List UInt8) : (strings block).length = block.count 0 := by
  induction block with
  | nil => rfl
  | cons b block ih =>
      have hne := List.splitOn_ne_nil 0 block
      rw [strings] at ih
      rw [strings, List.splitOn_cons_eq_if_modifyHead]
      by_cases hb : b = 0
      · rw [if_pos (beq_iff_eq.mpr hb), List.dropLast_cons_of_ne_nil hne, List.length_cons, ih, hb,
          List.count_cons_self]
      · rw [if_neg (by simpa using hb), List.length_dropLast, List.length_modifyHead,
          ← List.length_dropLast, ih, List.count_cons_of_ne hb]

theorem count_joined {ss : List (List UInt8)} {pad : List UInt8} (hss : ∀ s ∈ ss, 0 ∉ s)
    (hpad : 0 ∉ pad) : (joined ss ++ pad).count 0 = ss.length := by
  rw [← length_strings, strings_joined hss hpad]

end CStr
