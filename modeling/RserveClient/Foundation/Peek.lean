import RserveClient.Foundation.Interaction

/-!
# Looking at the bytes of a buffer

A program that looks at memory from the start of a buffer, one index at a time.
Behind the buffer there is memory too, so that a look past the end has a value
and can be told from one inside.
-/

namespace Peek

open Interaction

/-- A program that looks at bytes by their index. -/
abbrev BufProg (α : Type) := Prog Nat (fun _ => UInt8) α

def byteAt (i : Nat) : BufProg UInt8 := Prog.perform i

/-- Memory from the start of a buffer: its bytes and then whatever lies behind it. -/
def memory (buf : List UInt8) (past : Nat → UInt8) : Handler Nat (fun _ => UInt8) Unit :=
  fun i _ => (buf[i]?.getD (past i), ())

section Rules

variable {α β : Type} (buf : List UInt8) (past : Nat → UInt8) (len : Nat)

/-- What the program makes of the bytes it sees. -/
def look (p : BufProg α) : α := (Prog.run (memory buf past) p ()).1

/-- Every index the program looks at is below `len`. -/
def Inside (p : BufProg α) : Prop := Prog.Along (memory buf past) (fun i _ => i < len) p ()

instance (p : BufProg α) : Decidable (Inside buf past len p) :=
  inferInstanceAs (Decidable (Prog.Along _ _ _ _))

@[simp] theorem look_pure (a : α) : look buf past (pure a) = a := rfl

@[simp] theorem look_byteAt (i : Nat) : look buf past (byteAt i) = buf[i]?.getD (past i) := rfl

@[simp] theorem look_bind (p : BufProg α) (f : α → BufProg β) :
    look buf past (p >>= f) = look buf past (f (look buf past p)) := by
  rw [look, Prog.run_bind]
  rfl

@[simp] theorem inside_pure (a : α) : Inside buf past len (pure a) := trivial

@[simp] theorem inside_byteAt (i : Nat) : Inside buf past len (byteAt i) ↔ i < len :=
  ⟨fun h => h.1, fun h => ⟨h, trivial⟩⟩

@[simp] theorem inside_bind (p : BufProg α) (f : α → BufProg β) :
    Inside buf past len (p >>= f) ↔
      Inside buf past len p ∧ Inside buf past len (f (look buf past p)) :=
  Prog.along_bind'

end Rules

/-- The `k` bytes from index `i` on. -/
def bytesAt : Nat → Nat → BufProg (List UInt8)
  | _, 0 => pure []
  | i, k + 1 => do
      let b ← byteAt i
      let bs ← bytesAt (i + 1) k
      return b :: bs

/-- Whether the NUL-terminated string at index `i` is the given one, as `strcmp` finds out:
up to the first difference or the terminator. -/
def strEq : List UInt8 → Nat → BufProg Bool
  | [], i => do
      let b ← byteAt i
      return b == 0
  | k :: ks, i => do
      let b ← byteAt i
      if b = k then strEq ks (i + 1) else pure false

section Specs

variable {buf : List UInt8} {past : Nat → UInt8}

theorem inside_bytesAt {len i k : Nat} (hpos : 0 < k) :
    Inside buf past len (bytesAt i k) ↔ i + k ≤ len := by
  induction k generalizing i with
  | zero => omega
  | succ k ih =>
      rw [bytesAt, inside_bind, inside_byteAt, inside_bind]
      rcases Nat.eq_zero_or_pos k with rfl | hk
      · simp only [bytesAt, inside_pure, and_true]
        omega
      · rw [ih hk]
        simp only [inside_pure, and_true]
        omega

/-- Inside the buffer these are its bytes. -/
theorem look_bytesAt {i k : Nat} (h : i + k ≤ buf.length) :
    look buf past (bytesAt i k) = (buf.drop i).take k := by
  induction k generalizing i with
  | zero => simp [bytesAt]
  | succ k ih =>
      have hi : i < buf.length := by omega
      rw [bytesAt, look_bind, look_byteAt, look_bind, ih (by omega), look_pure,
        List.getElem?_eq_getElem hi, Option.getD_some, List.drop_eq_getElem_cons hi,
        List.take_succ_cons]

/-- The comparison runs off the buffer exactly if all that is left of the buffer begins the
string it is compared with. -/
theorem inside_strEq {ks : List UInt8} {i : Nat} (hi : i ≤ buf.length) :
    Inside buf past buf.length (strEq ks i) ↔ ¬ buf.drop i <+: ks := by
  induction ks generalizing i with
  | nil =>
      rw [strEq, inside_bind, inside_byteAt, List.prefix_nil, List.drop_eq_nil_iff]
      simp only [inside_pure, and_true, Nat.not_le]
  | cons k ks ih =>
      rw [strEq, inside_bind, inside_byteAt]
      rcases Nat.eq_or_lt_of_le hi with rfl | hlt
      · simp
      · have hhead : look buf past (byteAt i) = buf[i] := by
          rw [look_byteAt, List.getElem?_eq_getElem hlt, Option.getD_some]
        rw [hhead, List.drop_eq_getElem_cons hlt, List.cons_prefix_cons]
        by_cases heq : buf[i] = k
        · rw [if_pos heq, ih hlt]
          simp only [hlt, heq, true_and]
        · rw [if_neg heq]
          simp only [hlt, heq, inside_pure, false_and, and_self, not_false_eq_true]

end Specs

end Peek
