import RserveClient.Client.Commands
import RserveClient.Encoding.CanonicalReply
import RserveClient.Memory.OutputPointer

/-!
# What the callers of `exec_str` read

Seven functions look at the block that `exec_str` leaves, after different tests
of its length. Whether they stay inside it depends on the payload of the reply.
-/

namespace RserveClient

open Interaction Arrivals Peek

/-- The functions that read the output of `exec_str`. -/
inductive Caller where
  | exists1
  | exists2
  | isVector
  | getBool
  | getVecLen
  | nDf
  | chkRClass (cls : CStr)

namespace Caller

/-- The XT type they ask `exec_str` for. -/
def xt : Caller → Nat
  | exists1 | exists2 | isVector | getBool => xtArrayBool
  | getVecLen | nDf => xtArrayInt
  | chkRClass _ => xtArrayStr

/-- How they look at an output of the given length. -/
def peek : Caller → Nat → BufProg Unit
  | exists1, lenOut | getBool, lenOut => do let _ ← peekOneLogical lenOut
  | exists2, lenOut | isVector, lenOut => do let _ ← peekFourthByte lenOut
  | getVecLen, lenOut | nDf, lenOut => do let _ ← peekInt lenOut
  | chkRClass cls, lenOut => do let _ ← peekClass cls lenOut

/-- Every byte of the output it examines has an index below `*ptr_len_out`. -/
def ReadsInside (f : Caller) (past : Nat → UInt8) (v : OutVars) : Prop :=
  Inside (v.output.getD []) past v.lenOut (f.peek v.lenOut)

instance (f : Caller) (past : Nat → UInt8) (v : OutVars) : Decidable (f.ReadsInside past v) :=
  inferInstanceAs (Decidable (Inside _ _ _ _))

/-- A payload is safe to read: empty, or as long as what is looked at; for the class, not a
beginning of it. -/
def Enough : Caller → Bytes → Prop
  | exists1, _ | getBool, _ => True
  | exists2, payload | isVector, payload => payload = [] ∨ 5 ≤ payload.length
  | getVecLen, payload | nDf, payload => payload = [] ∨ 4 ≤ payload.length
  | chkRClass cls, payload => payload = [] ∨ ¬ payload <+: cls.bytes

instance : (f : Caller) → (payload : Bytes) → Decidable (f.Enough payload)
  | exists1, _ | getBool, _ => isTrue trivial
  | exists2, _ | isVector, _ | getVecLen, _ | nDf, _ | chkRClass _, _ =>
      inferInstanceAs (Decidable (_ ∨ _))

end Caller

section Inside

variable {buf : Bytes} {past : Nat → UInt8}

/-- Eight bytes hold the count and the word. -/
theorem inside_peekOneLogical (lenOut : Nat) : Inside buf past lenOut (peekOneLogical lenOut) := by
  rw [peekOneLogical]
  split
  · exact inside_pure buf past lenOut _
  rename_i h8
  rw [inside_bind, inside_byteAt]
  refine ⟨by omega, ?_⟩
  split
  · exact inside_pure buf past lenOut _
  · rw [inside_bind, inside_bytesAt (by decide)]
    exact ⟨by omega, inside_pure buf past lenOut _⟩

theorem inside_peekFourthByte (lenOut : Nat) :
    Inside buf past lenOut (peekFourthByte lenOut) ↔ lenOut = 0 ∨ 5 ≤ lenOut := by
  rw [peekFourthByte]
  split
  · rename_i h0
    exact iff_of_true (inside_pure buf past lenOut _) (Or.inl h0)
  · rw [inside_bind, inside_byteAt]
    simp only [inside_pure, and_true]
    omega

theorem inside_peekInt (lenOut : Nat) :
    Inside buf past lenOut (peekInt lenOut) ↔ lenOut = 0 ∨ 4 ≤ lenOut := by
  rw [peekInt]
  split
  · rename_i h0
    exact iff_of_true (inside_pure buf past lenOut _) (Or.inl h0)
  · rw [inside_bind, inside_bytesAt (by decide)]
    simp only [inside_pure, and_true]
    omega

theorem inside_peekClass (cls : CStr) :
    Inside buf past buf.length (peekClass cls buf.length) ↔ buf = [] ∨ ¬ buf <+: cls.bytes := by
  rw [peekClass]
  split
  · rename_i h0
    exact iff_of_true (inside_pure buf past _ _) (Or.inl (List.length_eq_zero_iff.mp h0))
  · rename_i h0
    have hne : buf ≠ [] := mt List.length_eq_zero_iff.mpr h0
    rw [inside_bind, inside_strEq (Nat.zero_le _), List.drop_zero]
    simp only [inside_pure, and_true, hne, false_or]

end Inside

/-- The payload of a reply that `exec_str` accepts: what follows the type words. -/
def execPayload (inc : List (Arrival UInt8)) : Bytes :=
  ((avail inc).drop 24).take ((replyHdr inc).len.toInt.toNat - 8)

/-- On a reply that `exec_str` accepts with the type asked for, the callers read only what was
received exactly where the payload is long enough for them. -/
theorem reads_inside_iff (f : Caller) (past : Nat → UInt8) {sock : Int} {str : Option CStr}
    {c c' : Conn} {v : OutVars}
    (hrun : Prog.run Conn.handle (execStr sock str true f.xt ⟨none, 0⟩) c = ((.ok, v), c')) :
    f.ReadsInside past v ↔ f.Enough (execPayload c.inc) := by
  have hout := run_execStr_output sock str f.xt c
  rw [hrun] at hout
  rcases hout with ⟨_, h8, payload, hsome, hlen, hlength, hpayload⟩ | ⟨hneg, _⟩
  · have hlenOut : v.lenOut = (replyHdr c.inc).len.toInt.toNat - 8 := by
      dsimp only at hlen
      omega
    have hbuf : v.output.getD [] = execPayload c.inc := by
      rw [hsome, Option.getD_some, hpayload, execPayload, ← hlenOut]
    have hlast : v.lenOut = (execPayload c.inc).length := by
      rw [← hbuf, hsome, Option.getD_some, hlength]
    rw [Caller.ReadsInside, hbuf, hlast]
    generalize execPayload c.inc = buf
    cases f <;> simp only [Caller.peek, Caller.Enough, inside_bind, inside_pure, and_true,
      inside_peekOneLogical, inside_peekFourthByte, inside_peekInt, inside_peekClass,
      List.length_eq_zero_iff]
  · cases hneg

/-- `exists("x")` -/
def existsX : CStr := existsBuilder.format.paste nameX

theorem reads_inside_iff_oneTrue :
    Caller.exists2.ReadsInside (fun _ => 0) ⟨some [1, 0, 0, 0, 1, 255, 255, 255], 8⟩ ↔
      Caller.exists2.Enough (execPayload oneTrue) :=
  reads_inside_iff .exists2 (fun _ => 0) (c := Conn.fresh oneTrue)
    (show Prog.run Conn.handle
        (execStr 3 (some existsX) true Caller.exists2.xt ⟨none, 0⟩) (Conn.fresh oneTrue) =
          (_, (Conn.fresh []).push (requestBytes .eval existsX))
      by decide)

/-- A logical vector without elements. -/
def emptyLogical : List (Arrival UInt8) :=
  pushBack (vecReply 0 xtArrayBool [0, 0, 0, 0]).bytes []

/-- The four bytes of an empty vector are accepted, and the fifth is read: what lies behind the
block decides whether the name exists. -/
theorem fifth_byte_read :
    Prog.run Conn.handle (execStr 3 (some existsX) true Caller.exists2.xt ⟨none, 0⟩)
        (Conn.fresh emptyLogical) =
      ((.ok, ⟨some [0, 0, 0, 0], 4⟩), (Conn.fresh []).push (requestBytes .eval existsX)) ∧
    ¬ Caller.exists2.ReadsInside (fun _ => 0) ⟨some [0, 0, 0, 0], 4⟩ ∧
    (Prog.run Conn.handle (exists2 3 0 (some nameX) false) (Conn.fresh emptyLogical)).1 =
      (.ok, false) ∧
    (Prog.run Conn.handle (exists2 3 1 (some nameX) false) (Conn.fresh emptyLogical)).1 =
      (.ok, true) := by
  refine ⟨by decide, by decide, by decide, by decide⟩

end RserveClient
