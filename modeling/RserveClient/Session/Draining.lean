import RserveClient.Client.Replies

/-!
# Draining the reply

How many bytes a call takes from the stream, against the length the reply
header declares: after a success, and after a reply that the call refuses.
-/

namespace RserveClient

open Interaction Arrivals

/-- The calls of this module: evaluations, the vector and scalar getters, and
`set_vec`. -/
def Call.isBasic : Call → Prop
  | .getNamedVecF8 _ _ _ _ => False
  | .rshutdown => False
  | _ => True

/-- The accepted replies that are used up: no high length word, and nothing in the
packet beyond what the call reads. -/
def Call.drains : Call → List (Arrival UInt8) → Prop
  | .execStr _ ptrOutput _ _, inc =>
      (replyHdr inc).res = 0 ∧ (ptrOutput = false → (replyHdr inc).len = 0)
  | .getVec _ qtype _, inc =>
      (replyHdr inc).res = 0 ∧
        ∀ q, getVecType qtype = .ok q → q.width ∣ xtLen inc - q.countLen
  | .getF8 _ _, inc =>
      (replyHdr inc).res = 0 ∧ xtLen inc = 8 ∧ 8 ≤ (front (skip 24 inc)).length
  | .getI4 _ _, inc =>
      (replyHdr inc).res = 0 ∧ xtLen inc = 4 ∧ 4 ≤ (front (skip 24 inc)).length
  | .setVec _ _ _ _ _, inc => (replyHdr inc).res = 0
  | _, _ => True

theorem res_eq_zero_iff (h : Phdr) : h.res = 0 ↔ h.res.toUInt32.toNat = 0 := by
  constructor
  · intro h0
    rw [h0]
    rfl
  · intro h0
    have hword : h.res.toUInt32 = 0 := UInt32.toNat_inj.mp h0
    have hback := Int32.toInt32_toUInt32 h.res
    rw [hword] at hback
    exact hback.symm

theorem len_eq_zero_iff (h : Phdr) : h.len = 0 ↔ h.len.toUInt32.toNat = 0 := by
  constructor
  · intro h0
    rw [h0]
    rfl
  · intro h0
    have hword : h.len.toUInt32 = 0 := UInt32.toNat_inj.mp h0
    have hback := Int32.toInt32_toUInt32 h.len
    rw [hword] at hback
    exact hback.symm

/-- A call that returns 0 found in the stream all it has taken. -/
theorem Call.taken_le {call : Call} {inc : List (Arrival UInt8)} (h : call.accepts inc) :
    call.taken inc ≤ (avail inc).length := by
  have hscalar : ∀ q, scalarAccepted q inc → 24 + scalarRead q inc ≤ (avail inc).length := by
    intro q hacc
    have hle := length_front_le (skip 24 inc)
    have h24 := hacc.1.le_length
    have hmin : scalarRead q inc ≤ (front (skip 24 inc)).length := Nat.min_le_right _ _
    rw [avail_skip h24, List.length_drop] at hle
    omega
  cases call with
  | execStr str ptrOutput xt out =>
      cases ptrOutput with
      | true => exact h.2.2
      | false => exact h
  | getVec name qtype out =>
      obtain ⟨q, hq, hacc⟩ := h
      simp only [Call.taken, hq]
      exact hacc.2.2.2
  | getF8 name dval => exact hscalar .F8 h
  | getI4 name dval => exact hscalar .I4 h
  | getNamedVecF8 name szKeyBlob szVals vars => exact h.2.2.2
  | setVec name qtype data n inWidth => exact h.1
  | rshutdown =>
      have hle := length_front_le inc
      have hmin : min 32 (front inc).length ≤ (front inc).length := Nat.min_le_right _ _
      exact hmin.trans hle

theorem vecTaken_eq_iff {q : QType} {inc : List (Arrival UInt8)} (h : vecAccepted q inc) :
    vecTaken q inc = 16 + (replyHdr inc).declared ↔
      (replyHdr inc).res = 0 ∧ q.width ∣ xtLen inc - q.countLen := by
  obtain ⟨_, ⟨_, _, hlen⟩, hcount, _⟩ := h
  have hlen' : (replyHdr inc).len.toInt = 8 + (xtLen inc : Int) := hlen
  have hnat := CInt.toNat_toUInt32 (x := (replyHdr inc).len) (by omega)
  have hmod := Nat.div_add_mod (xtLen inc - q.countLen) q.width
  have hlt := xtLen_lt inc
  rw [Nat.mul_comm] at hmod
  rw [res_eq_zero_iff, Nat.dvd_iff_mod_eq_zero, vecTaken, QType.count, Phdr.declared]
  omega

theorem scalarTaken_eq_iff {q : QType} {inc : List (Arrival UInt8)} (hq : q ≠ .SC)
    (h : scalarAccepted q inc) :
    24 + scalarRead q inc = 16 + (replyHdr inc).declared ↔
      (replyHdr inc).res = 0 ∧ xtLen inc = q.width ∧
        q.width ≤ (front (skip 24 inc)).length := by
  obtain ⟨_, ⟨_, _, hlen⟩, hone, _⟩ := h
  have hlen' : (replyHdr inc).len.toInt = 8 + (xtLen inc : Int) := hlen
  have hnat := CInt.toNat_toUInt32 (x := (replyHdr inc).len) (by omega)
  have hmod := Nat.div_add_mod (xtLen inc) q.width
  have hlt := xtLen_lt inc
  have hwidth := QType.width_pos hq
  rw [hone, Nat.mul_one] at hmod
  rw [res_eq_zero_iff, scalarRead, Phdr.declared]
  omega

/-- What a successful call has taken is the packet exactly when the reply drains. -/
theorem Call.taken_eq_iff {call : Call} {inc : List (Arrival UInt8)} (hbasic : call.isBasic)
    (h : call.accepts inc) :
    call.taken inc = 16 + (replyHdr inc).declared ↔ call.drains inc := by
  cases call with
  | execStr str ptrOutput xt out =>
      cases ptrOutput with
      | true =>
          have h8 : 8 ≤ (replyHdr inc).len.toInt := h.1
          have hnat := CInt.toNat_toUInt32 (x := (replyHdr inc).len) (by omega)
          simp only [Call.taken, Call.drains, execTaken, res_eq_zero_iff, Phdr.declared, if_true,
            reduceCtorEq, false_implies, and_true]
          omega
      | false =>
          simp only [Call.taken, Call.drains, execTaken, res_eq_zero_iff, len_eq_zero_iff,
            Phdr.declared, Bool.false_eq_true, if_false, true_implies]
          omega
  | getVec name qtype out =>
      obtain ⟨q, hq, hacc⟩ := h
      have hiff := vecTaken_eq_iff hacc
      simp only [Call.taken, Call.drains, hq, hiff, Except.ok.injEq, forall_eq']
  | getF8 name dval => exact scalarTaken_eq_iff (by decide) h
  | getI4 name dval => exact scalarTaken_eq_iff (by decide) h
  | getNamedVecF8 name szKeyBlob szVals vars => exact hbasic.elim
  | setVec name qtype data n inWidth =>
      have hlen : (replyHdr inc).len.toInt = 0 := h.2
      have hnat := CInt.toNat_toUInt32 (x := (replyHdr inc).len) (by omega)
      simp only [Call.taken, Call.drains, res_eq_zero_iff, Phdr.declared]
      omega
  | rshutdown => exact hbasic.elim

section Drain

variable {sock : Int} {call : Call} {c : Conn} {bs : Bytes}

/-- A call that returns 0 has used up the packet its reply header declares exactly
when the reply drains. -/
theorem success_consumes_packet_iff (hsock : 0 ≤ sock) (hc : c.Ready)
    (hdata : call.HoldsVector) (hreq : call.request sock = some bs) (hbasic : call.isBasic) :
    ((Prog.run Conn.handle (call.prog sock) c).1.status.code = 0 →
        consumed c.inc (Prog.run Conn.handle (call.prog sock) c).2.inc =
          16 + (replyHdr c.inc).declared) ↔
      (¬ call.accepts c.inc ∨ call.drains c.inc) := by
  rw [Status.code_eq_zero_iff, status_ok_iff hsock hc hdata hreq]
  by_cases hacc : call.accepts c.inc
  · have hcons := consumed_skip (Call.taken_le hacc)
    rw [run_prog_ok hsock hc hdata hreq hacc, Call.inc_after]
    simp only [Conn.inc_push, hcons, hacc, not_true_eq_false, false_or, true_implies]
    exact Call.taken_eq_iff hbasic hacc
  · simp only [hacc, false_implies, not_false_eq_true, true_or]

end Drain

/-- A success that leaves eight bytes of its packet behind. -/
def unreadPayload : List (Arrival UInt8) :=
  pushBack (packet ⟨respOk, 8, 0, 0⟩ [1, 2, 3, 4, 5, 6, 7, 8]).bytes []

theorem success_consumes_packet_iff_evalX :
    (((Prog.run Conn.handle (evalX.prog 3) (Conn.fresh unreadPayload)).1.status.code = 0 →
        consumed unreadPayload
            (Prog.run Conn.handle (evalX.prog 3) (Conn.fresh unreadPayload)).2.inc =
          16 + (replyHdr unreadPayload).declared) ↔
      (¬ evalX.accepts unreadPayload ∨ evalX.drains unreadPayload)) :=
  success_consumes_packet_iff (c := Conn.fresh unreadPayload) (by decide) ⟨rfl, rfl⟩ trivial
    (show evalX.request 3 = some (requestBytes .voidEval nameX) by decide) trivial

theorem success_leaves_payload :
    (Prog.run Conn.handle (evalX.prog 3) (Conn.fresh unreadPayload)).1.status.code = 0 ∧
      consumed unreadPayload
        (Prog.run Conn.handle (evalX.prog 3) (Conn.fresh unreadPayload)).2.inc = 16 ∧
      (replyHdr unreadPayload).declared = 8 := by
  decide

/-- The failures by which a call refuses the types, lengths or element count of a
reply; an allocation is refused for a size made from its lengths. -/
def Why.dislikes : Why → Prop
  | .reply | .memory => True
  | _ => False

theorem Why.dislikes_reply : Why.reply.dislikes := trivial

theorem Why.dislikes_memory : Why.memory.dislikes := trivial

/-- If the run ended by disliking the reply, `total` bytes are gone. -/
def drainedAfter (r : Ret × Conn) (inc : List (Arrival UInt8)) (total : Nat) : Prop :=
  ∀ why, r.1.status = .bad why → why.dislikes → consumed inc r.2.inc = total

/-- The complete replies that are used up or not disliked. -/
def Call.refusesWhole : Call → List (Arrival UInt8) → Prop
  | .execStr _ ptrOutput xt _, inc =>
      ptrOutput = true → (replyHdr inc).len.toInt = 0 ∨ (replyHdr inc).len.toInt = 8 ∨
        (8 ≤ (replyHdr inc).len.toInt ∧ typesAccepted xt ((avail inc).drop 16))
  | .getVec _ qtype _, inc =>
      ∀ q, getVecType qtype = .ok q → headArrives inc →
        if replyHeadAccepted q.xt inc then
          q.countLen ≤ xtLen inc ∨ (avail inc).length < 24 + q.countLen
        else (replyHdr inc).len.toInt = 8
  | .getF8 _ _, inc =>
      headArrives inc → (replyHdr inc).len.toInt = 8 ∨
        (replyHeadAccepted xtArrayDouble inc ∧ xtLen inc / 8 = 1)
  | .getI4 _ _, inc =>
      headArrives inc → (replyHdr inc).len.toInt = 8 ∨
        (replyHeadAccepted xtArrayInt inc ∧ xtLen inc / 4 = 1)
  | .setVec _ _ _ _ _, inc => (replyHdr inc).len.toInt = 0
  | _, _ => True

section Refusal

variable {sock : Int} {c : Conn} {inc : List (Arrival UInt8)} {total : Nat} {out : Output}

theorem drainedAfter_ok {c' : Conn} : drainedAfter (⟨.ok, out⟩, c') inc total := by
  intro why hbad
  cases hbad

theorem drainedAfter_transport {why : Why} {c' : Conn} (h : why.isTransport) :
    drainedAfter (⟨.bad why, out⟩, c') inc total := by
  intro why' hbad hdislikes
  cases hbad
  cases why <;> first | exact h.elim | exact hdislikes.elim

theorem drainedAfter_skip {why : Why} {c' : Conn} {n : Nat} (h : why.dislikes)
    (hn : n ≤ (avail inc).length) (hinc : c'.inc = skip n inc) :
    drainedAfter (⟨.bad why, out⟩, c') inc total ↔ n = total := by
  have hcons := consumed_skip hn
  constructor
  · intro hdrained
    have htotal := hdrained why rfl h
    rw [hinc, hcons] at htotal
    exact htotal
  · intro htotal why' hbad _
    rw [hinc, hcons]
    exact htotal

end Refusal

section Operations

variable {sock : Int} {c : Conn} {len : Nat}

theorem drainedAfter_execStr (hsock : 0 ≤ sock) (hopen : c.isOpen = true)
    (hlen : (replyHdr c.inc).len.toInt = len) (hfull : 16 + len ≤ (avail c.inc).length)
    (str : Option CStr) (ptrOutput : Bool) (xt : Int) (out : OutVars) :
    drainedAfter (Prog.run Conn.handle ((Call.execStr str ptrOutput xt out).reply sock) c) c.inc
        (16 + len) ↔ (Call.execStr str ptrOutput xt out).refusesWhole c.inc := by
  rw [Call.reply, Proc.run_finish, Call.refusesWhole, hlen]
  cases ptrOutput with
  | false =>
      have hrun := exec_execStrReply_void (v := out) hsock hopen xt
      rw [execOn, if_pos (by unfold hdrLen; omega)] at hrun
      rw [hrun]
      exact iff_of_true drainedAfter_ok (fun h => by cases h)
  | true =>
      have hrun := exec_execStrReply (v := out) hsock hopen xt hlen
      rw [execOn, if_neg (by unfold hdrLen; omega)] at hrun
      rw [hrun]
      by_cases h0 : (len : Int) = 0
      · rw [if_pos h0]
        refine (drainedAfter_skip Why.dislikes_reply (by omega) rfl).trans ?_
        exact iff_of_true (by omega) (fun _ => Or.inl h0)
      rw [if_neg h0]
      by_cases h8 : (len : Int) < 8
      · rw [if_pos h8]
        refine (drainedAfter_skip Why.dislikes_memory (by omega) rfl).trans ?_
        refine iff_of_false (by omega) (fun h => ?_)
        have hcases := h rfl
        omega
      rw [if_neg h8, if_neg (by omega)]
      by_cases htypes : typesAccepted xt ((avail c.inc).drop 16)
      · rw [if_neg (not_not_intro htypes), if_neg (by omega)]
        exact iff_of_true drainedAfter_ok (fun _ => Or.inr (Or.inr ⟨by omega, htypes⟩))
      · rw [if_pos htypes]
        refine (drainedAfter_skip Why.dislikes_reply (by omega) rfl).trans ?_
        constructor
        · intro htotal _
          exact Or.inr (Or.inl (by omega))
        · intro h
          rcases h rfl with hz | h8' | ⟨_, hacc⟩
          · exact absurd hz h0
          · omega
          · exact absurd hacc htypes

theorem drainedAfter_getVec (hsock : 0 ≤ sock) (hopen : c.isOpen = true)
    (hlen : (replyHdr c.inc).len.toInt = len) (hfull : 16 + len ≤ (avail c.inc).length)
    (name qtype : Option CStr) (out : VecOut) {q : QType} (hq : getVecType qtype = .ok q) :
    drainedAfter (Prog.run Conn.handle ((Call.getVec name qtype out).reply sock) c) c.inc
        (16 + len) ↔ (Call.getVec name qtype out).refusesWhole c.inc := by
  simp only [Call.reply, Call.refusesWhole, hq, Proc.run_finish, Except.ok.injEq, forall_eq']
  by_cases hhead : headArrives c.inc
  swap
  · obtain ⟨why, inc', hrun, htransport⟩ := exec_getVecReply_transport
      (v := .start out) (q := q) hsock hopen hhead
    rw [execOn] at hrun
    rw [hrun]
    exact iff_of_true (drainedAfter_transport htransport) (fun h => absurd h hhead)
  have hrun := exec_getVecReply (v := .start out) (q := q) hsock hopen hhead
  have h24 := hhead.le_length
  rw [execOn] at hrun
  rw [hrun, hlen]
  by_cases hgood : replyHeadAccepted q.xt c.inc
  swap
  · rw [if_pos hgood, if_neg hgood]
    refine (drainedAfter_skip Why.dislikes_reply h24 rfl).trans ?_
    constructor
    · intro htotal _
      omega
    · intro h
      have h8 := h hhead
      omega
  have hxt : (len : Int) = 8 + (xtLen c.inc : Int) := hlen ▸ hgood.2.2
  rw [if_neg (not_not_intro hgood), if_pos hgood]
  by_cases hword : (avail c.inc).length < 24 + q.countLen
  · rw [if_pos hword]
    exact iff_of_true (drainedAfter_transport (isTransport_whyStopped _))
      (fun _ => Or.inr hword)
  rw [if_neg hword]
  by_cases hcount : xtLen c.inc < q.countLen
  · rw [if_pos hcount]
    refine (drainedAfter_skip Why.dislikes_memory (by omega) rfl).trans ?_
    refine iff_of_false (by omega) (fun h => ?_)
    have hcases := h hhead
    omega
  · have hmul := Nat.div_mul_le_self (xtLen c.inc - q.countLen) q.width
    have hall : ¬ (avail c.inc).length <
        24 + q.countLen + q.count (xtLen c.inc) * q.width := by
      rw [QType.count]
      omega
    rw [if_neg hcount, if_neg hall]
    exact iff_of_true drainedAfter_ok (fun _ => Or.inl (Nat.le_of_not_lt hcount))

/-- A head that is disliked for want of `P` is the whole packet if its payload is 8 bytes. -/
theorem drainedAfter_head {c' : Conn} {out : Output} {P : Prop} (hno : ¬ P)
    (hhead : headArrives c.inc) (hinc : c'.inc = skip 24 c.inc) :
    drainedAfter (⟨.bad .reply, out⟩, c') c.inc (16 + len) ↔
      (headArrives c.inc → (len : Int) = 8 ∨ P) := by
  refine (drainedAfter_skip Why.dislikes_reply hhead.le_length hinc).trans ?_
  constructor
  · intro htotal _
    exact Or.inl (by omega)
  · intro h
    rcases h hhead with h8 | hyes
    · omega
    · exact absurd hyes hno

theorem drainedAfter_scalar {q : QType} (hq : q ≠ .SC) (hsock : 0 ≤ sock)
    (hopen : c.isOpen = true) (hlen : (replyHdr c.inc).len.toInt = len) (dval : Bytes) :
    drainedAfter (Prog.run Conn.handle ((getScalarReply q sock).finish dval
        fun exit v => Ret.mk (Status.ofExit exit) (.scalar v)) c) c.inc (16 + len) ↔
      (headArrives c.inc → (replyHdr c.inc).len.toInt = 8 ∨
        (replyHeadAccepted q.xt c.inc ∧ xtLen c.inc / q.width = 1)) := by
  rw [Proc.run_finish]
  by_cases hhead : headArrives c.inc
  swap
  · obtain ⟨why, inc', hrun, htransport⟩ := exec_getScalarReply_transport (v := dval) (q := q)
      hsock hopen hhead
    rw [execOn] at hrun
    rw [hrun]
    exact iff_of_true (drainedAfter_transport htransport) (fun h => absurd h hhead)
  have hrun := exec_getScalarReply (v := dval) (q := q) hsock hopen hhead
  have h24 := hhead.le_length
  rw [execOn] at hrun
  rw [hrun, hlen]
  by_cases hgood : replyHeadAccepted q.xt c.inc
  swap
  · rw [if_pos hgood]
    exact drainedAfter_head (fun hacc => hgood hacc.1) hhead rfl
  rw [if_neg (not_not_intro hgood)]
  by_cases hone : xtLen c.inc / q.width = 1
  swap
  · rw [if_pos hone]
    exact drainedAfter_head (fun hacc => hone hacc.2) hhead rfl
  rw [if_neg (not_not_intro hone)]
  refine iff_of_true ?_ (fun _ => Or.inr ⟨hgood, hone⟩)
  rcases Nat.eq_zero_or_pos (front (c.skip 24).inc).length with h0 | hpos
  · obtain ⟨why, inc', hread, htransport⟩ :=
      exec_recvScalar_none q sock (c := c.skip 24) hopen h0 dval
    rw [hread]
    exact drainedAfter_transport htransport
  · rw [exec_recvScalar hopen hq h24 hpos]
    exact drainedAfter_ok

theorem drainedAfter_setVec (hsock : 0 ≤ sock) (hopen : c.isOpen = true)
    (hlen : (replyHdr c.inc).len.toInt = len) (hfull : 16 + len ≤ (avail c.inc).length)
    (name qtype : Option CStr) (data : Option Bytes) (n inWidth : UInt32) :
    drainedAfter (Prog.run Conn.handle ((Call.setVec name qtype data n inWidth).reply sock) c)
        c.inc (16 + len) ↔ (Call.setVec name qtype data n inWidth).refusesWhole c.inc := by
  have hrun := exec_setVecReply hsock hopen ()
  rw [execOn, if_neg (by omega)] at hrun
  rw [Call.reply, Proc.run_finish, Call.refusesWhole, hrun, hlen]
  by_cases h0 : (len : Int) = 0
  · rw [if_neg (not_not_intro h0)]
    exact iff_of_true drainedAfter_ok h0
  · rw [if_pos h0]
    refine (drainedAfter_skip Why.dislikes_reply (by omega) rfl).trans ?_
    omega

end Operations

/-- A complete reply that a call dislikes has been used up exactly under
`refusesWhole`. -/
theorem refused_reply_consumed_iff {sock : Int} {call : Call} {c : Conn} {bs : Bytes}
    (hsock : 0 ≤ sock) (hc : c.Ready) (hdata : call.HoldsVector)
    (hreq : call.request sock = some bs) (hbasic : call.isBasic) (h : Phdr)
    (payload rest : Bytes) (hlen : h.len.toInt = payload.length)
    (hpacket : avail c.inc = (packet h payload).bytes ++ rest) :
    drainedAfter (Prog.run Conn.handle (call.prog sock) c) c.inc (16 + payload.length) ↔
      call.refusesWhole c.inc := by
  have hhdr : replyHdr c.inc = h := by
    rw [replyHdr, hpacket, packet, Framing.Frame.bytes, List.append_assoc,
      Phdr.ofBytes_bytes_append]
  have hlen' : (replyHdr (c.push bs).inc).len.toInt = payload.length := by
    rw [Conn.inc_push, hhdr, hlen]
  have hfull : 16 + payload.length ≤ (avail (c.push bs).inc).length := by
    rw [Conn.inc_push, hpacket, List.length_append, packet, Framing.Frame.bytes,
      List.length_append, Phdr.length_bytes]
    exact Nat.le_add_right _ _
  have hopen : (c.push bs).isOpen = true := hc.isOpen
  rw [run_prog hsock hc hdata hreq]
  cases call with
  | execStr str ptrOutput xt out =>
      exact drainedAfter_execStr hsock hopen hlen' hfull str ptrOutput xt out
  | getVec name qtype out =>
      obtain ⟨s, q, _, hq, _, _⟩ := getVecRequest_eq_some hreq
      exact drainedAfter_getVec hsock hopen hlen' hfull name qtype out hq
  | getF8 name dval => exact drainedAfter_scalar (q := .F8) (by decide) hsock hopen hlen' dval
  | getI4 name dval => exact drainedAfter_scalar (q := .I4) (by decide) hsock hopen hlen' dval
  | getNamedVecF8 name szKeyBlob szVals vars => exact hbasic.elim
  | setVec name qtype data n inWidth =>
      exact drainedAfter_setVec hsock hopen hlen' hfull name qtype data n inWidth
  | rshutdown => exact hbasic.elim

/-- A double vector of one element. -/
def doubleReply : Bytes :=
  (packet ⟨respOk, 16, 0, 0⟩
    (LittleEndian.encode 4 (parWord 12 dtSexp) ++
      (LittleEndian.encode 4 (parWord 8 xtArrayDouble) ++ [0, 0, 0, 0, 0, 0, 240, 63]))).bytes

/-- An evaluation of `x` for which an integer vector is expected. -/
def evalInt : Call := .execStr (some nameX) true xtArrayInt ⟨none, 0⟩

theorem refused_reply_consumed_iff_evalInt :
    (drainedAfter (Prog.run Conn.handle (evalInt.prog 3) (Conn.fresh (pushBack doubleReply [])))
        (pushBack doubleReply []) 32 ↔ evalInt.refusesWhole (pushBack doubleReply [])) :=
  refused_reply_consumed_iff (c := Conn.fresh (pushBack doubleReply [])) (by decide) ⟨rfl, rfl⟩
    (show evalInt.HoldsVector from trivial)
    (show evalInt.request 3 = some (requestBytes .eval nameX) by decide)
    (show evalInt.isBasic from trivial) ⟨respOk, 16, 0, 0⟩ (doubleReply.drop 16) []
    (by decide) (by decide)

/-- The refusal comes after the type words, with the element still unread. -/
theorem refused_reply_left_behind :
    (Prog.run Conn.handle (evalInt.prog 3)
        (Conn.fresh (pushBack doubleReply []))).1.status = .bad .reply ∧
      consumed (pushBack doubleReply [])
        (Prog.run Conn.handle (evalInt.prog 3)
          (Conn.fresh (pushBack doubleReply []))).2.inc = 24 ∧
      doubleReply.length = 32 := by
  decide

end RserveClient
