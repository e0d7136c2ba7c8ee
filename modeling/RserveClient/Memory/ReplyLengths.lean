import RserveClient.Client.Sends
import RserveClient.Encoding.CanonicalReply

/-!
# The lengths of the buffers that replies fill

`exec_str` and `get_vec` compute the size of a buffer and the number of bytes to
read into it from words that the server controls. Both functions are cut where
the buffer has been allocated and is about to be filled.
-/

namespace RserveClient

open Interaction Arrivals
open LittleEndian (word)

/-- A buffer about to be filled: its size, as `malloc` has it, and the `int` that
`get_buf_from_sock` is asked for. -/
structure Fill where
  allocated : Nat
  requested : Int
  deriving DecidableEq, Repr

/-- The request fits the buffer, is not negative, and asks for no more than a packet of
length `len` has after its type words. -/
def Fill.Safe (f : Fill) (len : Int) : Prop :=
  f.requested = f.allocated ∧ 0 ≤ f.requested ∧ f.requested ≤ len - 8

/-- `exec_str` up to the read into `out_buf`. -/
def execStrToFill (sock : Int) (expectedXt : Int) : Body OutVars Fill := do
  let ph ← readHdr sock
  let payloadLen := CInt.toSizeT ph.len.toInt
  Proc.update fun _ => ⟨none, 0⟩
  Proc.exitIf (payloadLen = 0) .reply
  let szOutBuf := CInt.toSizeT ((payloadLen : Int) - 8)
  Proc.exitIf (ptrdiffMax < szOutBuf) .memory
  let hdr ← recvBuf sock 8
  let dtVal := parType (word hdr 0)
  Proc.exitIf (dtVal ≠ dtSexp) .reply
  let xtVal := parType (word hdr 1)
  Proc.exitIf (0 ≤ expectedXt ∧ (xtVal : Int) ≠ expectedXt) .reply
  return ⟨szOutBuf, CInt.toInt szOutBuf⟩

def execStrFill (sock : Int) (f : Fill) : Body OutVars Unit := do
  let outBuf ← recvBuf sock f.requested
  Proc.update fun _ => ⟨some outBuf, f.allocated⟩

/-- `get_vec` up to the read into `data`, with the number of elements. -/
def recvElementsToFill (q : QType) (numLeftToRead : Int) : Body VecFrame (Int × Fill) := do
  let n := CInt.toInt (CInt.toUInt32 numLeftToRead / q.width : Nat)
  let sz := CInt.toInt (CInt.toUInt32 n * q.width : Nat)
  Proc.update (VecFrame.mallocData sz)
  Proc.exitIf (ptrdiffMax < CInt.toSizeT sz) .memory
  return (n, ⟨CInt.toSizeT sz, sz⟩)

def getVecToFill (sock : Int) (q : QType) : Body VecFrame (Int × Fill) := do
  let numLeftToRead ← recvVecHead sock q.xt
  let numLeftToRead ← recvCountWord sock q numLeftToRead
  recvElementsToFill q numLeftToRead

def getVecFill (sock : Int) (f : Int × Fill) : Body VecFrame Unit := do
  let data ← recvBuf sock f.2.requested
  Proc.update fun v => { v with out := ⟨some data, f.1⟩ }

theorem execStrReply_eq (sock xt : Int) :
    execStrReply sock true xt = execStrToFill sock xt >>= execStrFill sock := by
  simp only [execStrReply, execStrToFill, execStrFill, if_true, bind_assoc, pure_bind]

theorem getVecReply_eq (sock : Int) (q : QType) :
    getVecReply sock q = getVecToFill sock q >>= getVecFill sock := by
  simp only [getVecReply, getVecToFill, getVecFill, recvElements, recvElementsToFill, bind_assoc,
    pure_bind]

section Safe

variable {sock : Int} {c : Conn}

/-- Below 8 the size of `out_buf` has wrapped to one that cannot be allocated. -/
theorem execStrToFill_safe {xt : Int} {v : OutVars} {f : Fill}
    (hexec : (execOn (execStrToFill sock xt) v c).exit = .ok f) :
    f.Safe (replyHdr c.inc).len.toInt := by
  obtain ⟨ph, v1, c1, hhdr, hexec⟩ := Proc.of_exec_bind_ok hexec
  obtain ⟨_, _, rfl⟩ := of_exec_readHdr_ok hhdr
  obtain ⟨hzero, hsmall, hbig⟩ := outBuf_size (replyHdr c.inc).len
  rw [Proc.exec_update_bind] at hexec
  obtain ⟨hlen, hexec⟩ := Proc.of_exec_exitIf_ok hexec
  obtain ⟨hfits, hexec⟩ := Proc.of_exec_exitIf_ok hexec
  obtain ⟨hdr, v2, c2, _, hexec⟩ := Proc.of_exec_bind_ok hexec
  obtain ⟨_, hexec⟩ := Proc.of_exec_exitIf_ok hexec
  obtain ⟨_, hexec⟩ := Proc.of_exec_exitIf_ok hexec
  obtain rfl := Except.ok.inj hexec
  have h8 : 8 ≤ (replyHdr c.inc).len.toInt :=
    Int.not_lt.mp fun hlt => hfits ((hsmall (mt hzero.mpr hlen)).mpr hlt)
  obtain ⟨hsz, hszInt⟩ := hbig h8
  rw [Fill.Safe]
  dsimp only
  rw [hszInt, hsz]
  omega

/-- The size of the elements of `left` bytes. -/
theorem recvElementsToFill_safe {q : QType} {left : Nat} (hleft : left < 2 ^ 24) {v : VecFrame}
    {f : Int × Fill} (hexec : (execOn (recvElementsToFill q left) v c).exit = .ok f) :
    f.2.Safe (left + 8) := by
  obtain ⟨hn, hsz⟩ := vecData_size (q := q) hleft
  have hmul : left / q.width * q.width ≤ left := Nat.div_mul_le_self left q.width
  rw [execOn, recvElementsToFill, Proc.exec_update_bind] at hexec
  obtain ⟨_, hexec⟩ := Proc.of_exec_exitIf_ok hexec
  obtain rfl := Except.ok.inj hexec
  rw [Fill.Safe]
  dsimp only
  rw [hn, hsz, CInt.toSizeT_natCast (by omega)]
  omega

/-- Fewer bytes than the count word takes make the size negative, and the allocation fail. -/
theorem getVecToFill_safe {q : QType} {v : VecFrame} {f : Int × Fill}
    (hexec : (execOn (getVecToFill sock q) v c).exit = .ok f) :
    f.2.Safe (replyHdr c.inc).len.toInt := by
  obtain ⟨n, v1, c1, hhead, hexec⟩ := Proc.of_exec_bind_ok hexec
  obtain ⟨rfl, hlen⟩ := of_exec_recvVecHead_ok hhead
  have hlt := xtLen_lt c.inc
  obtain ⟨left, v2, c2, hcount, hexec⟩ := Proc.of_exec_bind_ok hexec
  have hsafe : ∀ {l : Nat} {f : Fill}, f.Safe (l + 8) → l ≤ xtLen c.inc →
      f.Safe (replyHdr c.inc).len.toInt := by
    rintro l f ⟨heq, hpos, hle⟩ hl
    exact ⟨heq, hpos, by omega⟩
  rw [recvCountWord] at hcount
  by_cases hI1 : q = .I1
  · have hwidth : q.width = 1 := by rw [hI1]; rfl
    rw [if_pos hI1] at hcount
    obtain ⟨buf, v3, c3, _, hcount⟩ := Proc.of_exec_bind_ok (congrArg Final.exit hcount)
    obtain rfl := Except.ok.inj hcount
    rw [CInt.toSizeT_natCast (by omega)] at hexec
    by_cases h4 : xtLen c.inc < 4
    · rw [recvElementsToFill, Proc.exec_update_bind] at hexec
      exact absurd (vecData_wraps hwidth h4) (Proc.of_exec_exitIf_ok hexec).1
    · have hleft : CInt.toInt ((xtLen c.inc : Int) - 4) = ((xtLen c.inc - 4 : Nat) : Int) := by
        rw [CInt.toInt_eq (by omega) (by omega)]
        omega
      rw [hleft] at hexec
      exact hsafe (recvElementsToFill_safe (by omega) hexec) (Nat.sub_le _ _)
  · rw [if_neg hI1] at hcount
    obtain rfl := Except.ok.inj (congrArg Final.exit hcount)
    exact hsafe (recvElementsToFill_safe hlt hexec) (Nat.le_refl _)

/-- What `get_vec` returns holds just the elements it reports. -/
theorem getVec_ok_length {name qtype : Option CStr} {out o : VecOut}
    (hrun : (Prog.run Conn.handle (getVec sock name qtype out) c).1 = (.ok, o)) :
    ∃ q data, getVecType qtype = .ok q ∧ o.data = some data ∧ 0 ≤ o.n ∧
      o.n * q.width = data.length := by
  rcases exec_getVecBody_cases sock name qtype c (.start out) with
    ⟨q, c', hq, h⟩ | ⟨why, v, c', hexec, _⟩
  · have hbody := h.exec_getVecBody hq (.start out)
    by_cases hacc : vecAccepted q c'.inc
    · rw [exec_getVecReply_ok h.sock_nonneg h.isOpen hacc] at hbody
      rw [getVec, Proc.run_finish_of_exec hbody] at hrun
      obtain rfl := (Prod.mk.inj hrun).2
      have hall := hacc.2.2.2
      refine ⟨q, vecData q c'.inc, hq, rfl, Int.natCast_nonneg _, ?_⟩
      rw [vecTaken] at hall
      rw [vecData, List.length_take, List.length_drop, Nat.min_eq_left (by omega)]
      exact (Nat.cast_mul _ _).symm
    · obtain ⟨why, v, inc', hbad⟩ := exec_getVecReply_bad (q := q)
        (v := (VecFrame.start out).allocParam1.freeParam1) h.sock_nonneg h.isOpen hacc
      rw [hbad] at hbody
      rw [getVec, Proc.run_finish_of_exec hbody] at hrun
      cases hrun
  · rw [getVec, Proc.run_finish_of_exec hexec] at hrun
    cases hrun

end Safe

/-- Whatever the header and the type words hold, a buffer is filled with as many bytes as
it was allocated for, and with no more than the packet has. -/
theorem reply_lengths_safe (sock : Int) (c : Conn) :
    (∀ xt v f, execStrReply sock true xt = execStrToFill sock xt >>= execStrFill sock ∧
      ((execOn (execStrToFill sock xt) v c).exit = .ok f →
        f.Safe (replyHdr c.inc).len.toInt)) ∧
    (∀ q v f, getVecReply sock q = getVecToFill sock q >>= getVecFill sock ∧
      ((execOn (getVecToFill sock q) v c).exit = .ok f →
        f.2.Safe (replyHdr c.inc).len.toInt)) ∧
    ∀ name qtype out o, (Prog.run Conn.handle (getVec sock name qtype out) c).1 = (.ok, o) →
      ∃ q data, getVecType qtype = .ok q ∧ o.data = some data ∧ 0 ≤ o.n ∧
        o.n * q.width = data.length := by
  refine ⟨fun xt v f => ⟨execStrReply_eq sock xt, execStrToFill_safe⟩,
    fun q v f => ⟨getVecReply_eq sock q, getVecToFill_safe⟩, ?_⟩
  intro name qtype out o hrun
  exact getVec_ok_length hrun

/-- The buffer for one double, in both functions. -/
theorem reply_lengths_safe_oneDouble :
    (Fill.mk 8 8).Safe (replyHdr oneDouble).len.toInt ∧
      (Fill.mk 8 8).Safe (replyHdr oneDouble).len.toInt :=
  ⟨((reply_lengths_safe 3 (Conn.fresh oneDouble)).1 xtArrayDouble ⟨none, 0⟩ ⟨8, 8⟩).2 (by decide),
    ((reply_lengths_safe 3 (Conn.fresh oneDouble)).2.1 .F8 (.start ⟨none, 0⟩) (1, ⟨8, 8⟩)).2
      (by decide +kernel)⟩

end RserveClient
