import RserveClient.Client.Replies
import RserveClient.Foundation.Padding

/-!
# Canonical vector replies

The packet in which a server returns a vector, and what `get_vec` makes of it.
For logicals the elements are followed by padding, which is returned as if it
were elements.
-/

namespace RserveClient

open Interaction Arrivals Framing Padding
open LittleEndian (encode word)

/-- A vector as a server sends it: a `DT_SEXP` whose XT word covers its content. -/
def vecReply (msgId : Int32) (xt : Nat) (content : Bytes) : Frame UInt8 :=
  packet ⟨respOk, Int32.ofInt (8 + content.length : Nat), msgId, 0⟩
    (encode 4 (parWord (4 + content.length) dtSexp) ++
      (encode 4 (parWord content.length xt) ++ content))

/-- The next packet to arrive is such a vector. -/
def BringsVec (xt : Nat) (content : Bytes) (inc : List (Arrival UInt8)) : Prop :=
  ∃ msgId rest, avail inc = (vecReply msgId xt content).bytes ++ rest

theorem length_vecReply (msgId : Int32) (xt : Nat) (content : Bytes) :
    (vecReply msgId xt content).bytes.length = 24 + content.length := by
  simp only [vecReply, packet, Frame.bytes, List.length_append, Phdr.length_bytes,
    LittleEndian.length_encode, hdrLen]
  omega

namespace BringsVec

variable {xt : Nat} {content : Bytes} {inc : List (Arrival UInt8)}

theorem drop_hdr (h : BringsVec xt content inc) :
    ∃ rest, (avail inc).drop 16 =
      encode 4 (parWord (4 + content.length) dtSexp) ++
        (encode 4 (parWord content.length xt) ++ (content ++ rest)) := by
  obtain ⟨msgId, rest, hav⟩ := h
  refine ⟨rest, ?_⟩
  rw [hav, vecReply, packet, Frame.bytes, List.append_assoc, List.append_assoc,
    List.append_assoc]
  exact List.drop_left' (Phdr.length_bytes _)

theorem drop_head (h : BringsVec xt content inc) :
    ∃ rest, (avail inc).drop 24 = content ++ rest := by
  obtain ⟨rest, hdrop⟩ := h.drop_hdr
  refine ⟨rest, ?_⟩
  have h24 : (avail inc).drop 24 = (((avail inc).drop 16).drop 4).drop 4 := by
    rw [List.drop_drop, List.drop_drop]
  rw [h24, hdrop, List.drop_left' (LittleEndian.length_encode 4 _),
    List.drop_left' (LittleEndian.length_encode 4 _)]

theorem le_length (h : BringsVec xt content inc) :
    24 + content.length ≤ (avail inc).length := by
  obtain ⟨msgId, rest, hav⟩ := h
  rw [hav, List.length_append, length_vecReply]
  exact Nat.le_add_right _ _

theorem len_replyHdr (h : BringsVec xt content inc) (hlen : content.length < 2 ^ 24) :
    (replyHdr inc).len.toInt = 8 + content.length := by
  obtain ⟨msgId, rest, hav⟩ := h
  rw [replyHdr, hav, vecReply, packet, Frame.bytes, List.append_assoc,
    Phdr.ofBytes_bytes_append, CInt.toInt_ofInt, CInt.toInt_eq (by omega) (by omega),
    Nat.cast_add]
  rfl

/-- The XT word of the reply tells the type and the length of the content. -/
theorem xtWord (h : BringsVec xt content inc) (hlen : content.length < 2 ^ 24) (hxt : xt < 256) :
    parType (word ((avail inc).drop 16) 1) = xt ∧ xtLen inc = content.length := by
  obtain ⟨rest, hdrop⟩ := h.drop_hdr
  rw [xtLen, hdrop, LittleEndian.word_encode_succ, LittleEndian.word_encode_zero,
    Nat.mod_eq_of_lt (parWord_lt _ _)]
  refine ⟨parType_parWord _ hxt, ?_⟩
  rw [parLen_parWord _ hxt, Nat.mod_eq_of_lt hlen]

theorem headAccepted (h : BringsVec xt content inc) (hlen : content.length < 2 ^ 24)
    (hxt : xt < 256) : replyHeadAccepted xt inc := by
  obtain ⟨hty, hxtLen⟩ := h.xtWord hlen hxt
  obtain ⟨rest, hdrop⟩ := h.drop_hdr
  refine ⟨?_, hty, ?_⟩
  · rw [hdrop, LittleEndian.word_encode_zero, Nat.mod_eq_of_lt (parWord_lt _ _)]
    exact parType_parWord _ (by decide)
  · rw [h.len_replyHdr hlen, ← hxtLen]
    rfl

/-- The whole packet is accepted if its type words arrive in one read. -/
theorem vecAccepted_iff {q : QType} (h : BringsVec q.xt content inc)
    (hlen : content.length < 2 ^ 24) (hcount : q.countLen ≤ content.length) :
    vecAccepted q inc ↔ 8 ≤ (front (skip hdrLen inc)).length := by
  have hle := h.le_length
  obtain ⟨_, hxtLen⟩ := h.xtWord hlen q.xt_lt
  constructor
  · intro hacc
    exact hacc.1.2
  · intro h8
    have hmul := Nat.div_mul_le_self (content.length - q.countLen) q.width
    refine ⟨⟨?_, h8⟩, h.headAccepted hlen q.xt_lt, ?_, ?_⟩
    · rw [hdrLen]
      omega
    · rw [hxtLen]
      exact hcount
    · rw [vecTaken, hxtLen, QType.count]
      omega

/-- What is stored are the whole elements of the content after the count word. -/
theorem vecData_eq {q : QType} (h : BringsVec q.xt content inc) (hlen : content.length < 2 ^ 24) :
    vecData q inc = (content.drop q.countLen).take (q.count content.length * q.width) := by
  obtain ⟨_, hxtLen⟩ := h.xtWord hlen q.xt_lt
  obtain ⟨rest, hdrop⟩ := h.drop_head
  have hmul := Nat.div_mul_le_self (content.length - q.countLen) q.width
  rw [vecData, hxtLen, ← List.drop_drop, hdrop, List.drop_append, List.take_append_of_le_length]
  rw [List.length_drop]
  exact hmul

end BringsVec

section GetVec

variable {sock : Int} {c : Conn} {name qtype : Option CStr} {bs content : Bytes}
variable {q : QType}

/-- `get_vec` on a canonical reply whose type words arrive in one read. -/
theorem run_getVec_vecReply (hsock : 0 ≤ sock) (hc : c.Ready)
    (hreq : getVecRequest name qtype = some bs) (hq : getVecType qtype = .ok q)
    (hvec : BringsVec q.xt content c.inc) (hlen : content.length < 2 ^ 24)
    (hcount : q.countLen ≤ content.length) (h8 : 8 ≤ (front (skip hdrLen c.inc)).length)
    (out : VecOut) :
    (Prog.run Conn.handle ((Call.getVec name qtype out).prog sock) c).1 =
      ⟨.ok, .vec ⟨some ((content.drop q.countLen).take (q.count content.length * q.width)),
        q.count content.length⟩⟩ := by
  have hacc : (Call.getVec name qtype out).accepts c.inc :=
    ⟨q, hq, (hvec.vecAccepted_iff hlen hcount).mpr h8⟩
  obtain ⟨_, hxtLen⟩ := hvec.xtWord hlen q.xt_lt
  have hreq' : (Call.getVec name qtype out).request sock = some bs := hreq
  have hholds : (Call.getVec name qtype out).HoldsVector := trivial
  rw [run_prog_ok hsock hc hholds hreq' hacc, Call.output]
  simp only [hq, hvec.vecData_eq hlen, hxtLen]

/-- A reply whose type words do not arrive in one read is refused. -/
theorem getVec_vecReply_status (hsock : 0 ≤ sock) (hc : c.Ready)
    (hreq : getVecRequest name qtype = some bs) (hq : getVecType qtype = .ok q)
    (hvec : BringsVec q.xt content c.inc) (hlen : content.length < 2 ^ 24)
    (hcount : q.countLen ≤ content.length) (out : VecOut) :
    (Prog.run Conn.handle ((Call.getVec name qtype out).prog sock) c).1.status = .ok ↔
      8 ≤ (front (skip hdrLen c.inc)).length := by
  have hreq' : (Call.getVec name qtype out).request sock = some bs := hreq
  have hholds : (Call.getVec name qtype out).HoldsVector := trivial
  rw [status_ok_iff hsock hc hholds hreq', ← hvec.vecAccepted_iff hlen hcount]
  constructor
  · rintro ⟨q', hq', hacc⟩
    obtain rfl := Except.ok.inj (hq.symm.trans hq')
    exact hacc
  · intro hacc
    exact ⟨q, hq, hacc⟩

end GetVec

/-- The content of a logical vector: count word, elements, padding. -/
def boolContent (data pad : Bytes) : Bytes := encode 4 data.length ++ (data ++ pad)

theorem length_boolContent (data pad : Bytes) :
    (boolContent data pad).length = 4 + (data.length + pad.length) := by
  rw [boolContent, List.length_append, List.length_append, LittleEndian.length_encode]

/-- The vector of logicals comes back as it is exactly when it needs no padding and
the type words arrive in one read. -/
theorem getVec_logicals_iff {sock : Int} {c : Conn} {name : Option CStr} {out : VecOut}
    {bs data pad : Bytes} (hsock : 0 ≤ sock) (hc : c.Ready)
    (hreq : getVecRequest name (some QType.I1.str) = some bs)
    (hpad : data.length + pad.length = roundUp 4 data.length)
    (hsize : 4 + (boolContent data pad).length < 2 ^ 24)
    (hvec : BringsVec xtArrayBool (boolContent data pad) c.inc) :
    (Prog.run Conn.handle ((Call.getVec name (some QType.I1.str) out).prog sock) c).1 =
        ⟨.ok, .vec ⟨some data, data.length⟩⟩ ↔
      (4 ∣ data.length ∧ 8 ≤ (front (skip hdrLen c.inc)).length) := by
  have hq : getVecType (some QType.I1.str) = .ok .I1 := rfl
  have hword : QType.I1.countLen = 4 := rfl
  have hlen : (boolContent data pad).length < 2 ^ 24 := by omega
  have hcount : QType.I1.countLen ≤ (boolContent data pad).length := by
    rw [hword, length_boolContent]
    exact Nat.le_add_right 4 _
  -- the count word is skipped and the padded length is the count
  have hn : QType.I1.count (boolContent data pad).length = data.length + pad.length := by
    rw [length_boolContent]
    simp [QType.count, QType.countLen, QType.width]
  have helems : ((boolContent data pad).drop QType.I1.countLen).take
      (QType.I1.count (boolContent data pad).length * QType.I1.width) = data ++ pad := by
    rw [hn, hword, boolContent, List.drop_left' (LittleEndian.length_encode 4 _)]
    exact List.take_of_length_le (by simp [QType.width])
  have hvec' : BringsVec QType.I1.xt (boolContent data pad) c.inc := hvec
  have hstatus := getVec_vecReply_status hsock hc hreq hq hvec' hlen hcount out
  constructor
  · intro hrun
    have h8 := hstatus.mp (by rw [hrun])
    have hout := run_getVec_vecReply hsock hc hreq hq hvec' hlen hcount h8 out
    rw [hrun, helems, hn] at hout
    have hsame : data.length = data.length + pad.length := by
      simpa using congrArg Ret.output hout
    refine ⟨?_, h8⟩
    rw [hsame, hpad]
    exact dvd_roundUp 4 _
  · rintro ⟨hdvd, h8⟩
    rw [roundUp_eq_self (by decide) hdvd] at hpad
    obtain rfl : pad = [] := List.eq_nil_of_length_eq_zero (by omega)
    rw [run_getVec_vecReply hsock hc hreq hq hvec' hlen hcount h8 out, helems, hn]
    simp

/-- One `TRUE`, as a server sends it. -/
def oneTrue : List (Arrival UInt8) :=
  pushBack ((vecReply 0 xtArrayBool (boolContent [1] [255, 255, 255])).bytes.take 16)
    (pushBack ((vecReply 0 xtArrayBool (boolContent [1] [255, 255, 255])).bytes.drop 16) [])

theorem getVec_logicals_iff_oneTrue :
    ((Prog.run Conn.handle ((Call.getVec (some nameX) (some QType.I1.str)
        ⟨none, 0⟩).prog 3) (Conn.fresh oneTrue)).1 = ⟨.ok, .vec ⟨some [1], 1⟩⟩ ↔
      (4 ∣ [1].length ∧ 8 ≤ (front (skip hdrLen oneTrue)).length)) :=
  getVec_logicals_iff (c := Conn.fresh oneTrue) (by decide) ⟨rfl, rfl⟩
    (show getVecRequest (some nameX) (some QType.I1.str) =
      some (requestBytes .eval nameX) by decide)
    (show ([1] : Bytes).length + ([255, 255, 255] : Bytes).length = roundUp 4 1 by decide)
    (by decide) ⟨0, [], by decide⟩

/-- A single logical comes back as four. -/
theorem getVec_oneTrue :
    (Prog.run Conn.handle ((Call.getVec (some nameX) (some QType.I1.str)
        ⟨none, 0⟩).prog 3) (Conn.fresh oneTrue)).1 =
      ⟨.ok, .vec ⟨some [1, 255, 255, 255], 4⟩⟩ ∧
    (Prog.run Conn.handle ((Call.getVec (some nameX) (some QType.I1.str)
        ⟨none, 0⟩).prog 3) (Conn.fresh oneTrue)).1 ≠ ⟨.ok, .vec ⟨some [1], 1⟩⟩ := by
  decide

/-- The reply `1.0`, in one piece. -/
def oneDouble : List (Arrival UInt8) :=
  pushBack (vecReply 0 xtArrayDouble [0, 0, 0, 0, 0, 0, 240, 63]).bytes []

end RserveClient
