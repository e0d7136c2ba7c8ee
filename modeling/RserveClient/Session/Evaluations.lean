import RserveClient.Client.Replies

/-!
# A session of evaluations

Any number of `exec_str` calls on one socket, each answered by one complete
packet, over a stream that is cut into reads in any way. The invariant of the
session is that the stream stands at the packet of the next call.
-/

namespace RserveClient

open Interaction Arrivals Framing

/-- One call of `exec_str` and the packet the server answers it with. -/
structure Evaluation where
  str : CStr
  ptrOutput : Bool
  expectedXt : Int
  out : OutVars
  hdr : Phdr
  payload : Bytes

namespace Evaluation

def call (e : Evaluation) : Call := .execStr (some e.str) e.ptrOutput e.expectedXt e.out

def answer (e : Evaluation) : Bytes := (packet e.hdr e.payload).bytes

/-- The request can be sent, and the answer is complete and of the form asked for;
`cmd`, `msg_id` and `res` of its header are free. -/
structure Answered (e : Evaluation) : Prop where
  fits : requestFits e.str
  len : e.hdr.len.toInt = e.payload.length
  form : match e.ptrOutput with
    | true => 8 ≤ e.payload.length ∧ typesAccepted e.expectedXt e.payload
    | false => e.payload = []

/-- What the call should return. -/
def ret (e : Evaluation) : Ret :=
  ⟨.ok, .buffer (match e.ptrOutput with
    | true => ⟨some (e.payload.drop 8), e.payload.length - 8⟩
    | false => e.out)⟩

end Evaluation

section Step

variable {sock : Int} {c : Conn} {e : Evaluation} {rest : Bytes}

/-- The stream as the call finds it. -/
theorem Evaluation.avail_eq (hclean : Clean c.inc) (hstream : elems c.inc = e.answer ++ rest) :
    avail c.inc = e.hdr.bytes ++ (e.payload ++ rest) ∧ replyHdr c.inc = e.hdr ∧
      (avail c.inc).drop 16 = e.payload ++ rest := by
  have hav : avail c.inc = e.hdr.bytes ++ (e.payload ++ rest) := by
    rw [hclean.avail_eq, hstream, Evaluation.answer, packet, Frame.bytes, List.append_assoc]
  refine ⟨hav, ?_, ?_⟩
  · rw [replyHdr, hav, Phdr.ofBytes_bytes_append]
  · rw [hav]
    have hlen : e.hdr.bytes.length = 16 := e.hdr.length_bytes
    rw [← hlen, List.drop_left]

theorem Evaluation.length_answer (e : Evaluation) : e.answer.length = 16 + e.payload.length := by
  rw [answer, packet, Frame.bytes, List.length_append, Phdr.length_bytes]

/-- The type words lie inside the payload. -/
theorem typesAccepted_append {xt : Int} {payload : Bytes} (h8 : 8 ≤ payload.length)
    (h : typesAccepted xt payload) (rest : Bytes) : typesAccepted xt (payload ++ rest) := by
  rw [typesAccepted, LittleEndian.word_append payload rest 0 (by omega),
    LittleEndian.word_append payload rest 1 (by omega)]
  exact h

/-- The answer is one that the call accepts, and takes whole. -/
theorem Evaluation.accepted (hclean : Clean c.inc) (he : e.Answered)
    (hstream : elems c.inc = e.answer ++ rest) :
    e.call.accepts c.inc ∧ e.call.taken c.inc = e.answer.length ∧
      e.call.output c.inc = e.ret.output := by
  obtain ⟨hav, hhdr, hpay⟩ := Evaluation.avail_eq hclean hstream
  have htotal : e.answer.length ≤ (avail c.inc).length := by
    rw [hclean.avail_eq, hstream, List.length_append]
    exact Nat.le_add_right _ _
  have hlen : (replyHdr c.inc).len.toInt.toNat = e.payload.length := by
    rw [hhdr, he.len, Int.toNat_natCast]
  have hdata : ((avail c.inc).drop 24).take (e.payload.length - 8) = e.payload.drop 8 := by
    have hdrop : (avail c.inc).drop 24 = (e.payload ++ rest).drop 8 := by
      rw [← hpay, List.drop_drop]
    rcases Nat.lt_or_ge e.payload.length 8 with hlt | h8
    · rw [Nat.sub_eq_zero_of_le hlt.le, List.take_zero, List.drop_eq_nil_of_le hlt.le]
    · rw [hdrop, List.drop_append_of_le_length h8, ← List.length_drop, List.take_left]
  rw [e.length_answer] at htotal ⊢
  have hform := he.form
  cases hout : e.ptrOutput with
  | true =>
      rw [hout] at hform
      have htypes := typesAccepted_append hform.1 hform.2 rest
      have h8 : 8 ≤ (replyHdr c.inc).len.toInt := by
        rw [hhdr, he.len]
        exact_mod_cast hform.1
      rw [← hpay] at htypes
      refine ⟨?_, ?_, ?_⟩
      · rw [Evaluation.call, hout]
        exact ⟨h8, htypes, hlen ▸ htotal⟩
      · simp only [Evaluation.call, Call.taken, execTaken, hout, if_true, hlen]
      · simp only [Evaluation.call, Call.output, execOut, Evaluation.ret, hout, if_true, hlen,
          hdata]
  | false =>
      rw [hout] at hform
      rw [hform, List.length_nil] at htotal ⊢
      refine ⟨?_, ?_, ?_⟩
      · rw [Evaluation.call, hout]
        exact htotal
      · simp only [Evaluation.call, Call.taken, execTaken, hout, Bool.false_eq_true, if_false]
      · simp only [Evaluation.call, Call.output, execOut, Evaluation.ret, hout,
          Bool.false_eq_true, if_false]

/-- One call: status 0, its own payload, and the stream at the next packet. -/
theorem run_evaluation (hsock : 0 ≤ sock) (hc : c.Ready) (hclean : Clean c.inc)
    (he : e.Answered) (hstream : elems c.inc = e.answer ++ rest) :
    ∃ c', Prog.run Conn.handle (e.call.prog sock) c = (e.ret, c') ∧ c'.Ready ∧
      Clean c'.inc ∧ elems c'.inc = rest := by
  obtain ⟨hacc, htaken, hout⟩ := Evaluation.accepted hclean he hstream
  have hreq : e.call.request sock =
      some (requestBytes (evalCommand e.ptrOutput) e.str) := if_pos he.fits
  have hdata : e.call.HoldsVector := trivial
  have hrun := run_prog_ok hsock hc hdata hreq hacc
  have hle : e.answer.length ≤ (avail c.inc).length := by
    rw [hclean.avail_eq, hstream, List.length_append]
    exact Nat.le_add_right _ _
  refine ⟨(c.push (requestBytes (evalCommand e.ptrOutput) e.str)).skip e.answer.length, ?_, ?_,
    ?_, ?_⟩
  · rw [hrun, hout, ← htaken]
    rfl
  · exact ⟨hc.isOpen, hc.outc⟩
  · exact hclean.skip
  · rw [Conn.inc_skip, Conn.inc_push, elems_skip hle, hstream, List.drop_left]

end Step

/-- After any number `k` of calls each of them has returned 0 with the payload of its
own reply, and exactly the first `k` packets are gone from the stream. -/
theorem session_correct {sock : Int} (hsock : 0 ≤ sock) {evs : List Evaluation} {c : Conn}
    {rest : Bytes} (hc : c.Ready) (hclean : Clean c.inc) (hevs : ∀ e ∈ evs, e.Answered)
    (hstream : elems c.inc = evs.flatMap Evaluation.answer ++ rest) (k : Nat) :
    (runCalls sock ((evs.take k).map Evaluation.call) c).1 = (evs.take k).map Evaluation.ret ∧
      elems (runCalls sock ((evs.take k).map Evaluation.call) c).2.inc =
        (evs.drop k).flatMap Evaluation.answer ++ rest := by
  induction evs generalizing c k with
  | nil =>
      rw [List.take_nil, List.drop_nil]
      exact ⟨rfl, hstream⟩
  | cons e evs ih =>
      cases k with
      | zero => exact ⟨rfl, hstream⟩
      | succ k =>
          rw [List.flatMap_cons, List.append_assoc] at hstream
          obtain ⟨c', hrun, hc', hclean', hstream'⟩ :=
            run_evaluation hsock hc hclean (hevs e List.mem_cons_self) hstream
          obtain ⟨hrets, hrest⟩ := ih hc' hclean'
            (fun e' he' => hevs e' (List.mem_cons_of_mem e he')) hstream' k
          rw [List.take_succ_cons, List.map_cons, List.map_cons, List.drop_succ_cons, runCalls,
            hrun]
          exact ⟨congrArg (List.cons e.ret) hrets, hrest⟩

/-- A void evaluation, then one that returns a double, each of `x`. -/
def twoEvaluations : List Evaluation :=
  [⟨nameX, false, -1, ⟨none, 0⟩, ⟨respOk, 0, 0, 0⟩, []⟩,
    ⟨nameX, true, xtArrayDouble, ⟨none, 0⟩, ⟨respOk, 16, 0, 0⟩,
      LittleEndian.encode 4 (parWord 12 dtSexp) ++
        (LittleEndian.encode 4 (parWord 8 xtArrayDouble) ++ [0, 0, 0, 0, 0, 0, 240, 63])⟩]

/-- Their answers, one byte to a read. -/
def bytewise : List (Arrival UInt8) :=
  (twoEvaluations.flatMap Evaluation.answer).map fun b => .piece b []

theorem twoEvaluations_answered : ∀ e ∈ twoEvaluations, e.Answered := by
  intro e he
  rcases List.mem_cons.mp he with rfl | he
  · exact ⟨by decide, by decide, rfl⟩
  · obtain rfl := List.mem_singleton.mp he
    exact ⟨by decide, by decide, by decide⟩

theorem session_correct_twoEvaluations :
    (runCalls 3 ((twoEvaluations.take 2).map Evaluation.call) (Conn.fresh bytewise)).1 =
        (twoEvaluations.take 2).map Evaluation.ret ∧
      elems (runCalls 3 ((twoEvaluations.take 2).map Evaluation.call)
          (Conn.fresh bytewise)).2.inc =
        (twoEvaluations.drop 2).flatMap Evaluation.answer ++ [] :=
  session_correct (c := Conn.fresh bytewise) (by decide) ⟨rfl, rfl⟩
    (by unfold Clean; decide) twoEvaluations_answered (by decide) 2

end RserveClient
