import RserveClient.Client.Predicates
import RserveClient.Client.Sends

/-!
# The output pointer of `exec_str`

On every path `*ptr_output` tells success from failure, so that the functions
that test it behave as if they had tested the status.
-/

namespace RserveClient

open Interaction Arrivals

/-- Status 0 and a block with the `ph.len - 8` bytes that follow the type words. -/
def OutputFilled (inc : List (Arrival UInt8)) (r : Status × OutVars) : Prop :=
  r.1.code = 0 ∧ 8 ≤ (replyHdr inc).len.toInt ∧
    ∃ payload, r.2.output = some payload ∧ (r.2.lenOut : Int) = (replyHdr inc).len.toInt - 8 ∧
      payload.length = r.2.lenOut ∧ payload = ((avail inc).drop 24).take r.2.lenOut

/-- A negative status and no block. -/
def OutputCleared (r : Status × OutVars) : Prop := r.1.code < 0 ∧ r.2 = ⟨none, 0⟩

section ExecStr

variable {sock : Int} {str : Option CStr} {xt : Int} {c : Conn}

/-- The end of `exec_str`, as its caller sees it. -/
def execStrBye (r : Final Why OutVars Conn Unit) : Status × OutVars :=
  (Status.ofExit r.exit, r.vars)

theorem outputCleared_error (why : Why) (c : Conn) :
    OutputCleared (execStrBye ⟨.error why, ⟨none, 0⟩, c⟩) := ⟨why.code_neg, rfl⟩

/-- However the reply half ends, the pointer is set or cleared with its status. -/
theorem execStrReply_output (hsock : 0 ≤ sock) (hopen : c.isOpen = true) (xt : Int) :
    OutputFilled c.inc (execStrBye (execOn (execStrReply sock true xt) ⟨none, 0⟩ c)) ∨
      OutputCleared (execStrBye (execOn (execStrReply sock true xt) ⟨none, 0⟩ c)) := by
  rw [exec_execStrReply hsock hopen xt rfl]
  split_ifs with h16 h0 h8 h24 htypes hall
  · exact Or.inr (outputCleared_error _ _)
  · exact Or.inr (outputCleared_error _ _)
  · exact Or.inr (outputCleared_error _ _)
  · exact Or.inr (outputCleared_error _ _)
  · exact Or.inr (outputCleared_error _ _)
  · left
    refine ⟨rfl, Int.not_lt.mp h8, _, rfl, ?_, ?_, rfl⟩
    · change (((replyHdr c.inc).len.toInt.toNat - 8 : Nat) : Int) = _
      omega
    · change (((avail c.inc).drop 24).take _).length = (replyHdr c.inc).len.toInt.toNat - 8
      rw [List.length_take, List.length_drop]
      omega
  · exact Or.inr (outputCleared_error _ _)

/-- So it is for the whole call: before the reply nothing is stored. -/
theorem execStrBody_output (sock : Int) (str : Option CStr) (xt : Int) (c : Conn) :
    OutputFilled c.inc (execStrBye (execOn (execStrBody sock str true xt) ⟨none, 0⟩ c)) ∨
      OutputCleared (execStrBye (execOn (execStrBody sock str true xt) ⟨none, 0⟩ c)) := by
  by_cases hneg : sock < 0
  · right
    rw [execOn, execStrBody, Proc.exec_exitIf_pos hneg]
    exact outputCleared_error _ _
  have hsock : 0 ≤ sock := Int.not_lt.mp hneg
  cases hreq : execStrRequest str true with
  | none =>
      obtain ⟨why, hexec⟩ := exec_execStrBody_refused (c := c) hsock hreq xt ⟨none, 0⟩
      rw [hexec]
      exact Or.inr (outputCleared_error _ _)
  | some bs =>
      obtain ⟨s, rfl, hfits, rfl⟩ := nameRequest_eq_some hreq
      obtain ⟨_, _, hon, _⟩ := Conn.sendPieces_sentOn (requestPieces (evalCommand true) s) c
      rw [exec_execStrBody_pieces c hsock hfits, sentPieces]
      split_ifs with hsent
      · have hopen := hon.isOpen.trans (Conn.isOpen_of_sendPieces (List.cons_ne_nil _ _) hsent)
        have hreply := execStrReply_output hsock hopen xt
        rwa [hon.inc] at hreply
      · exact Or.inr (outputCleared_error _ _)

theorem run_execStr_output (sock : Int) (str : Option CStr) (xt : Int) (c : Conn) :
    OutputFilled c.inc (Prog.run Conn.handle (execStr sock str true xt ⟨none, 0⟩) c).1 ∨
      OutputCleared (Prog.run Conn.handle (execStr sock str true xt ⟨none, 0⟩) c).1 := by
  rw [execStr, Proc.run_finish]
  exact execStrBody_output sock str xt c

/-- What the callers test is what the status says. -/
theorem outputIsNull_eq {inc : List (Arrival UInt8)} {r : Status × OutVars}
    (h : OutputFilled inc r ∨ OutputCleared r) :
    outputIsNull r.1 r.2 = statusIsNegative r.1 r.2 := by
  rcases h with ⟨hcode, _, payload, houtput, _⟩ | ⟨hcode, hcleared⟩
  · simp [outputIsNull, statusIsNegative, houtput, hcode]
  · simp [outputIsNull, statusIsNegative, hcleared, hcode]

end ExecStr

/-- The output pointer of `exec_str` tells success from failure, and the functions that test
it run as if they tested the status. -/
theorem output_tells_status (sock : Int) (c : Conn) :
    (∀ str xt,
      OutputFilled c.inc (Prog.run Conn.handle (execStr sock str true xt ⟨none, 0⟩) c).1 ∨
        OutputCleared (Prog.run Conn.handle (execStr sock str true xt ⟨none, 0⟩) c).1) ∧
    (∀ name x,
      Prog.run Conn.handle (exists1 sock name x) c =
          Prog.run Conn.handle (finishLogical (exists1With statusIsNegative sock name) x) c ∧
        Prog.run Conn.handle (getBool sock name x) c =
          Prog.run Conn.handle (finishLogical (getBoolWith statusIsNegative sock name) x) c) ∧
    ∀ past name x,
      Prog.run Conn.handle (exists2 sock past name x) c =
          Prog.run Conn.handle (finishLogical (exists2With statusIsNegative sock past name) x) c ∧
        Prog.run Conn.handle (isVector sock past name x) c =
          Prog.run Conn.handle
            (finishLogical (isVectorWith statusIsNegative sock past name) x) c := by
  have hsame : ∀ rcmd, ∀ r : Status × OutVars,
      (Prog.run Conn.handle (execStr sock (some rcmd) true xtArrayBool ⟨none, 0⟩) c).1 = r →
        outputIsNull r.1 r.2 = statusIsNegative r.1 r.2 := by
    rintro rcmd r rfl
    exact outputIsNull_eq (run_execStr_output sock (some rcmd) xtArrayBool c)
  refine ⟨fun str xt => run_execStr_output sock str xt c, fun name x => ⟨?_, ?_⟩,
    fun past name x => ⟨?_, ?_⟩⟩
  · exact run_finishLogical_congr hsame (sock < 0) x
  · exact run_finishLogical_congr hsame (sock ≤ 0) x
  · exact run_finishLogical_congr hsame (sock < 0) x
  · exact run_finishLogical_congr hsame (sock < 0) x

end RserveClient
