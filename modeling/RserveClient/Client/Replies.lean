import RserveClient.Client.Calls

/-!
# Which replies a call takes for a success

For every operation, the replies that make it return 0 and the bytes it has
taken by then. None of the conditions looks at the `cmd` field of the header.
-/

namespace RserveClient

open Interaction Arrivals

namespace Call

/-- The replies after which the call returns 0. -/
def accepts : Call → List (Arrival UInt8) → Prop
  | execStr _ ptrOutput xt _, inc => execAccepted ptrOutput xt inc
  | getVec _ qtype _, inc => ∃ q, getVecType qtype = .ok q ∧ vecAccepted q inc
  | getF8 _ _, inc => scalarAccepted .F8 inc
  | getI4 _ _, inc => scalarAccepted .I4 inc
  | getNamedVecF8 _ szKeyBlob szVals _, inc => namedAccepted szKeyBlob szVals inc
  | setVec _ _ _ _ _, inc => 16 ≤ (avail inc).length ∧ (replyHdr inc).len.toInt = 0
  | rshutdown, inc => 0 < (front inc).length

/-- The bytes taken by then. -/
def taken : Call → List (Arrival UInt8) → Nat
  | execStr _ ptrOutput _ _, inc => execTaken ptrOutput inc
  | getVec _ qtype _, inc =>
      match getVecType qtype with
      | .ok q => vecTaken q inc
      | .error _ => 0
  | getF8 _ _, inc => 24 + scalarRead .F8 inc
  | getI4 _ _, inc => 24 + scalarRead .I4 inc
  | getNamedVecF8 _ _ _ _, inc => namedTaken inc
  | setVec _ _ _ _ _, _ => 16
  | rshutdown, inc => min 32 (front inc).length

/-- The caller's memory by then. -/
def output : Call → List (Arrival UInt8) → Output
  | execStr _ ptrOutput _ out, inc => .buffer (execOut ptrOutput inc out)
  | getVec _ qtype out, inc =>
      match getVecType qtype with
      | .ok q => .vec ⟨some (vecData q inc), q.count (xtLen inc)⟩
      | .error _ => .vec out
  | getF8 _ dval, inc => .scalar (scalarOut .F8 inc dval)
  | getI4 _ dval, inc => .scalar (scalarOut .I4 inc dval)
  | getNamedVecF8 _ szKeyBlob szVals vars, inc =>
      .named (namedOut inc (vars.cleared szKeyBlob szVals))
  | setVec _ _ _ _ _, _ => .nothing
  | rshutdown, _ => .nothing

/-- The connection by then; `rshutdown` has closed it. -/
def after (call : Call) (c : Conn) : Conn :=
  match call with
  | rshutdown => (c.skip (rshutdown.taken c.inc)).closed
  | call => c.skip (call.taken c.inc)

@[simp] theorem inc_after (call : Call) (c : Conn) :
    (call.after c).inc = skip (call.taken c.inc) c.inc := by
  cases call <;> rfl

@[simp] theorem sent_after (call : Call) (c : Conn) : (call.after c).sent = c.sent := by
  cases call <;> rfl

end Call

section Replies

variable {sock : Int} {call : Call} {c : Conn} {bs : Bytes}

/-- A reply the call accepts: status 0, the output filled, just these bytes taken. -/
theorem run_reply_ok (hsock : 0 ≤ sock) (hopen : c.isOpen = true) (h : call.accepts c.inc) :
    Prog.run Conn.handle (call.reply sock) c = (⟨.ok, call.output c.inc⟩, call.after c) := by
  cases call with
  | execStr str ptrOutput xt out =>
      have hrun := exec_execStrReply_ok (v := out) hsock hopen h
      rw [Call.reply, Proc.run_finish_of_exec hrun]
      rfl
  | getVec name qtype out =>
      obtain ⟨q, hq, h⟩ := h
      have hrun := exec_getVecReply_ok (v := .start out) hsock hopen h
      simp only [Call.reply, Call.output, Call.after, Call.taken, hq,
        Proc.run_finish_of_exec hrun]
      rfl
  | getF8 name dval =>
      have hrun := exec_getScalarReply_ok (v := dval) hsock hopen (by decide) h
      rw [Call.reply, Proc.run_finish_of_exec hrun]
      rfl
  | getI4 name dval =>
      have hrun := exec_getScalarReply_ok (v := dval) hsock hopen (by decide) h
      rw [Call.reply, Proc.run_finish_of_exec hrun]
      rfl
  | getNamedVecF8 name szKeyBlob szVals vars =>
      have hrun := exec_getNamedVecReply_ok (v := vars.cleared szKeyBlob szVals) hsock hopen h
      rw [Call.reply, Proc.run_finish_of_exec hrun]
      rfl
  | setVec name qtype data n inWidth =>
      have hrun := exec_setVecReply hsock hopen ()
      rw [if_neg (Nat.not_lt.mpr h.1), if_neg (not_not_intro h.2)] at hrun
      rw [Call.reply, Proc.run_finish_of_exec hrun]
      rfl
  | rshutdown =>
      have hrun := exec_rshutdownReply hsock hopen h ()
      rw [Call.reply, Proc.run_finish_of_exec hrun]
      rfl

/-- Any other reply: a negative status. -/
theorem run_reply_bad (hsock : 0 ≤ sock) (hopen : c.isOpen = true) (h : ¬ call.accepts c.inc) :
    ∃ why out inc', Prog.run Conn.handle (call.reply sock) c =
      (⟨.bad why, out⟩, c.withInc inc') := by
  cases call with
  | execStr str ptrOutput xt out =>
      obtain ⟨why, v', inc', hrun⟩ := exec_execStrReply_bad (v := out) hsock hopen h
      refine ⟨why, .buffer v', inc', ?_⟩
      rw [Call.reply, Proc.run_finish_of_exec hrun]
      rfl
  | getVec name qtype out =>
      cases hq : getVecType qtype with
      | error why =>
          refine ⟨why, .vec out, c.inc, ?_⟩
          simp only [Call.reply, hq, Prog.run_pure]
          rfl
      | ok q =>
          obtain ⟨why, v', inc', hrun⟩ := exec_getVecReply_bad (q := q)
            (v := .start out) hsock hopen (fun hacc => h ⟨q, hq, hacc⟩)
          refine ⟨why, .vec ⟨none, 0⟩, inc', ?_⟩
          simp only [Call.reply, hq, Proc.run_finish_of_exec hrun]
          rfl
  | getF8 name dval =>
      obtain ⟨why, v', inc', hrun⟩ := exec_getScalarReply_bad (v := dval) hsock hopen h
      refine ⟨why, .scalar v', inc', ?_⟩
      rw [Call.reply, Proc.run_finish_of_exec hrun]
      rfl
  | getI4 name dval =>
      obtain ⟨why, v', inc', hrun⟩ := exec_getScalarReply_bad (v := dval) hsock hopen h
      refine ⟨why, .scalar v', inc', ?_⟩
      rw [Call.reply, Proc.run_finish_of_exec hrun]
      rfl
  | getNamedVecF8 name szKeyBlob szVals vars =>
      obtain ⟨why, v', inc', hrun⟩ :=
        exec_getNamedVecReply_bad (v := vars.cleared szKeyBlob szVals) hsock hopen h
      refine ⟨why, .named v', inc', ?_⟩
      rw [Call.reply, Proc.run_finish_of_exec hrun]
      rfl
  | setVec name qtype data n inWidth =>
      have hrun := exec_setVecReply hsock hopen ()
      by_cases h16 : (avail c.inc).length < 16
      · rw [if_pos h16, stoppedAt] at hrun
        refine ⟨whyStopped (stop c.inc), .nothing, afterFault c.inc, ?_⟩
        rw [Call.reply, Proc.run_finish_of_exec hrun]
        rfl
      · have hlen : (replyHdr c.inc).len.toInt ≠ 0 := fun h0 => h ⟨Nat.le_of_not_lt h16, h0⟩
        rw [if_neg h16, if_pos hlen] at hrun
        refine ⟨.reply, .nothing, skip 16 c.inc, ?_⟩
        rw [Call.reply, Proc.run_finish_of_exec hrun]
        rfl
  | rshutdown =>
      have hnone : (front c.inc).length = 0 := Nat.eq_zero_of_not_pos h
      obtain ⟨why, inc', hrun, _⟩ := exec_rshutdownReply_none sock hopen hnone ()
      refine ⟨why, .nothing, inc', ?_⟩
      rw [Call.reply, Proc.run_finish_of_exec hrun]
      rfl

/-- A whole call on a reply it accepts. -/
theorem run_prog_ok (hsock : 0 ≤ sock) (hc : c.Ready) (hdata : call.HoldsVector)
    (hreq : call.request sock = some bs) (h : call.accepts c.inc) :
    Prog.run Conn.handle (call.prog sock) c =
      (⟨.ok, call.output c.inc⟩, call.after (c.push bs)) := by
  calc
    Prog.run Conn.handle (call.prog sock) c =
        Prog.run Conn.handle (call.reply sock) (c.push bs) := run_prog hsock hc hdata hreq
    _ = (⟨.ok, call.output c.inc⟩, call.after (c.push bs)) :=
      run_reply_ok (c := c.push bs) hsock hc.isOpen h

/-- A whole call on any other reply. -/
theorem run_prog_bad (hsock : 0 ≤ sock) (hc : c.Ready) (hdata : call.HoldsVector)
    (hreq : call.request sock = some bs) (h : ¬ call.accepts c.inc) :
    ∃ why out inc', Prog.run Conn.handle (call.prog sock) c =
      (⟨.bad why, out⟩, (c.push bs).withInc inc') := by
  rw [run_prog hsock hc hdata hreq]
  exact run_reply_bad (c := c.push bs) hsock hc.isOpen h

/-- A call whose request goes out returns 0 exactly after the replies it accepts. -/
theorem status_ok_iff (hsock : 0 ≤ sock) (hc : c.Ready) (hdata : call.HoldsVector)
    (hreq : call.request sock = some bs) :
    (Prog.run Conn.handle (call.prog sock) c).1.status = .ok ↔ call.accepts c.inc := by
  constructor
  · intro hok
    by_contra hno
    obtain ⟨why, out, inc', hrun⟩ := run_prog_bad hsock hc hdata hreq hno
    rw [hrun] at hok
    cases hok
  · intro hacc
    rw [run_prog_ok hsock hc hdata hreq hacc]

/-- A call sends its request and nothing else, whatever the reply. -/
theorem sent_run_prog (hsock : 0 ≤ sock) (hc : c.Ready) (hdata : call.HoldsVector)
    (hreq : call.request sock = some bs) :
    (Prog.run Conn.handle (call.prog sock) c).2.sent = c.sent ++ bs := by
  by_cases hacc : call.accepts c.inc
  · rw [run_prog_ok hsock hc hdata hreq hacc, Call.sent_after]
    rfl
  · obtain ⟨why, out, inc', hrun⟩ := run_prog_bad hsock hc hdata hreq hacc
    rw [hrun]
    rfl

end Replies

/-- Status 0 tells that the command succeeded only where some other check of the
reply would have failed otherwise: `cmd` itself is never examined. -/
theorem status_zero_implies_respOk_iff {sock : Int} {call : Call} {c : Conn} {bs : Bytes}
    (hsock : 0 ≤ sock) (hc : c.Ready) (hdata : call.HoldsVector)
    (hreq : call.request sock = some bs) :
    ((Prog.run Conn.handle (call.prog sock) c).1.status.code = 0 →
        (replyHdr c.inc).cmd = respOk) ↔
      ((replyHdr c.inc).cmd = respOk ∨ ¬ call.accepts c.inc) := by
  rw [Status.code_eq_zero_iff, status_ok_iff hsock hc hdata hreq]
  constructor
  · intro himp
    by_cases hacc : call.accepts c.inc
    · exact Or.inl (himp hacc)
    · exact Or.inr hacc
  · rintro (hcmd | hno) hacc
    · exact hcmd
    · exact absurd hacc hno

/-- The string `x`. -/
def nameX : CStr := ⟨[120], by decide⟩

/-- A void evaluation of `x`. -/
def evalX : Call := .execStr (some nameX) false (-1) ⟨none, 0⟩

/-- A bare `RESP_ERR` header with stat code 127. -/
def errorReply : List (Arrival UInt8) := pushBack (Phdr.mk (setStat respErr 127) 0 0 0).bytes []

theorem status_zero_implies_respOk_iff_evalX :
    (((Prog.run Conn.handle (evalX.prog 3) (Conn.fresh errorReply)).1.status.code = 0 →
        (replyHdr errorReply).cmd = respOk) ↔
      ((replyHdr errorReply).cmd = respOk ∨ ¬ evalX.accepts errorReply)) :=
  status_zero_implies_respOk_iff (c := Conn.fresh errorReply) (by decide) ⟨rfl, rfl⟩ trivial
    (show evalX.request 3 = some (requestBytes .voidEval nameX) by decide)

/-- The failed evaluation is reported as a success. -/
theorem status_zero_after_respErr :
    (Prog.run Conn.handle (evalX.prog 3) (Conn.fresh errorReply)).1.status.code = 0 ∧
      (replyHdr errorReply).cmd = setStat respErr 127 ∧ (replyHdr errorReply).cmd ≠ respOk := by
  decide

end RserveClient
