import RserveClient.Client.VecReply

/-!
# Setting a vector

`set_vec` encodes a vector as a `DT_STRING` with its name and a `DT_SEXP` with
its elements, and scatters the packet over four sends. Lengths run through
`uint32_t`, `size_t`, `int` and 24-bit fields as in the source.

## Implementation notes

Everything up to `mk_hdr` works on memory alone and is kept as one function
into `Except`. The branch under `use_memcpy` is dead and left out.
-/

namespace RserveClient

open Interaction Arrivals Padding
open LittleEndian (encode)

/-- The type and element width chosen by `qtype`. -/
def setVecType (qtype : CStr) (inWidth : UInt32) : Except Why (QType × Nat) :=
  match QType.ofStr qtype with
  | some .F8 => .ok (.F8, 8)
  | some .I4 => .ok (.I4, 4)
  | some .I1 => .ok (.I1, 1)
  | some .SC => if inWidth = 0 then .error .argument else .ok (.SC, inWidth.toNat)
  | none => .error .argument

/-- What memory holds from slot `i` on; the offset is computed in 32 bits. -/
def slotFrom (data : Bytes) (width i : Nat) : Bytes :=
  data.drop (CInt.toUInt32 (i * width : Nat))

/-- `strlen` of a slot, kept in a `uint32_t`. -/
def slotLen (data : Bytes) (width i : Nat) : Nat :=
  CInt.toUInt32 (CStr.strlen (slotFrom data width i))

/-- The first loop: `k` slots from `i` on are added to `cumLen`; a slot with a length, as
the code finds it, of `width` or more is refused. -/
def sumSlots (data : Bytes) (width : Nat) : Nat → Nat → Nat → Except Why Nat
  | 0, _, cumLen => .ok cumLen
  | k + 1, i, cumLen =>
      if width ≤ slotLen data width i then .error .argument
      else sumSlots data width k (i + 1) (CInt.toUInt32 (cumLen + slotLen data width i + 1 : Nat))

/-- Round up to a multiple of 8 in 32 bits. -/
def padTo8 (cumLen : Nat) : Nat :=
  let uitmp := cumLen / 8
  if uitmp * 8 ≠ cumLen then CInt.toUInt32 ((uitmp + 1) * 8 : Nat) else cumLen

/-- Memory after bytes were stored from an offset on; stores beyond its end extend it. -/
def writeAt (mem : Bytes) (idx : Nat) (bs : Bytes) : Bytes :=
  mem.take idx ++ bs ++ mem.drop (idx + bs.length)

/-- The second loop: copy `k` strings from slot `i` on to `idx` and after. -/
def copySlots (data : Bytes) (width : Nat) : Nat → Nat → Nat → Bytes → Nat × Bytes
  | 0, _, idx, altData => (idx, altData)
  | k + 1, i, idx, altData =>
      let len := slotLen data width i
      copySlots data width k (i + 1) (CInt.toUInt32 (idx + len + 1 : Nat))
        (writeAt altData idx ((slotFrom data width i).take len))

/-- The third loop: `'X'` from `idx` to the end. -/
def fillX (idx cumLen : Nat) (altData : Bytes) : Bytes :=
  writeAt altData idx (List.replicate (cumLen - idx) 88)

/-- `alt_data`: strings with their terminators, then padding. -/
def packSlots (data : Bytes) (n width cumLen : Nat) : Bytes :=
  let r := copySlots data width n 0 0 (List.replicate cumLen 0)
  fillX r.1 cumLen r.2

/-- The memory the four sends read, and the lengths they are given. -/
structure SetVecParams where
  ph : Phdr
  param1 : Bytes
  hdrParam2 : Bytes
  elems : Bytes
  cumLen : Nat
  deriving DecidableEq

/-- The number of element bytes and the memory they are sent from. -/
def setVecElems (q : QType) (data : Bytes) (n width : Nat) : Except Why (Nat × Bytes) :=
  if q = .SC then do
    let cumLen ← sumSlots data width n 0 0
    let cumLen := padTo8 cumLen
    return (cumLen, packSlots data n width cumLen)
  else .ok (CInt.toUInt32 (n * width : Nat), data)

/-- The length that `set_vec` writes into the XT word. -/
def xtWordLen (q : QType) (n width cumLen lenParam2 : Nat) : Nat :=
  match q with
  | .F8 | .I4 => CInt.toUInt32 (n * width : Nat)
  | .SC => cumLen
  | .I1 => lenParam2

/-- The words in front of the elements take 8 bytes, 12 with the count of `I1`; the
sum with the element bytes is one of `uint32_t`. -/
def lenParam2 (q : QType) (cumLen : Nat) : Nat := CInt.toUInt32 (8 + q.countLen + cumLen : Nat)

/-- The words in front of the elements. -/
def mkHdrParam2 (q : QType) (n width cumLen lenParam2 : Nat) : Bytes :=
  encode 4 (parWord lenParam2 dtSexp) ++
    (encode 4 (parWord (xtWordLen q n width cumLen lenParam2) q.xt) ++
      if q = .I1 then encode 4 n else [])

/-- Everything before the first `send`. -/
def setVecParams (sock : Int) (name qtype : Option CStr) (data : Option Bytes)
    (n inWidth : UInt32) : Except Why SetVecParams :=
  if sock < 0 then .error .argument
  else
    match name, qtype, data with
    | some name, some qtype, some data =>
        if name.bytes = [] ∨ qtype.bytes = [] ∨ n = 0 then .error .argument
        else do
          let (q, width) ← setVecType qtype inWidth
          let param1 ← mkDtString (some name)
          let (cumLen, elems) ← setVecElems q data n.toNat width
          let lenParam2 := lenParam2 q cumLen
          let hdrParam2 := mkHdrParam2 q n.toNat width cumLen lenParam2
          let payloadLen := param1.length + lenParam2
          let ph ← mkHdr .setSexp (Int32.ofInt payloadLen)
          return ⟨ph, param1, hdrParam2, elems, cumLen⟩
    | _, _, _ => .error .argument

/-- The four sends; the third count is compared as `int`. -/
def sendParams {σ : Type} (sock : Int) (p : SetVecParams) : Body σ Unit := do
  sendBuf sock p.ph.bytes hdrLen
  sendBuf sock p.param1 p.param1.length
  let numSent ← Proc.lift (sysSend sock p.hdrParam2)
  Proc.exitIf (CInt.toInt (CInt.toSizeT numSent) ≠ p.hdrParam2.length) .send
  sendBuf sock (p.elems.take p.cumLen) p.cumLen

/-- The reply half of `set_vec`: any header without a payload passes. -/
def setVecReply {σ : Type} (sock : Int) : Body σ Unit := do
  let ph ← readHdr sock
  Proc.exitIf (ph.len.toInt ≠ 0) .reply

def setVecBody {σ : Type} (sock : Int) (name qtype : Option CStr) (data : Option Bytes)
    (n inWidth : UInt32) : Body σ Unit := do
  let p ← Proc.ofExcept (setVecParams sock name qtype data n inWidth)
  sendParams sock p
  setVecReply sock

def setVec (sock : Int) (name qtype : Option CStr) (data : Option Bytes) (n inWidth : UInt32) :
    SysProg Status :=
  (setVecBody sock name qtype data n inWidth).finish () fun exit _ => Status.ofExit exit

theorem le_length_writeAt (mem : Bytes) (idx : Nat) (bs : Bytes) :
    mem.length ≤ (writeAt mem idx bs).length := by
  simp only [writeAt, List.length_append, List.length_take, List.length_drop]
  omega

/-- The copying loop never shrinks `alt_data`. -/
theorem le_length_copySlots (data : Bytes) (width k i idx : Nat) (altData : Bytes) :
    altData.length ≤ (copySlots data width k i idx altData).2.length := by
  induction k generalizing i idx altData with
  | zero => exact Nat.le_refl _
  | succ k ih =>
      apply Nat.le_trans (le_length_writeAt _ _ _)
      exact ih _ _ _

theorem le_length_packSlots (data : Bytes) (n width cumLen : Nat) :
    cumLen ≤ (packSlots data n width cumLen).length := by
  have hcopy := le_length_copySlots data width n 0 0 (List.replicate cumLen 0)
  rw [List.length_replicate] at hcopy
  apply Nat.le_trans hcopy
  exact le_length_writeAt _ _ _

theorem padTo8_lt {cumLen : Nat} (h : cumLen < 2 ^ 32) : padTo8 cumLen < 2 ^ 32 := by
  rw [padTo8]
  split
  · exact CInt.toUInt32_lt _
  · exact h

theorem sumSlots_lt {data : Bytes} {width k i cumLen total : Nat} (h : cumLen < 2 ^ 32)
    (hsum : sumSlots data width k i cumLen = .ok total) : total < 2 ^ 32 := by
  induction k generalizing i cumLen with
  | zero =>
      cases hsum
      exact h
  | succ k ih =>
      rw [sumSlots] at hsum
      split at hsum
      · cases hsum
      · exact ih (CInt.toUInt32_lt _) hsum

theorem setVecElems_ok {q : QType} {data : Bytes} {n width cumLen : Nat} {elems : Bytes}
    (hdata : data.length = n * width) (h : setVecElems q data n width = .ok (cumLen, elems)) :
    cumLen < 2 ^ 32 ∧ cumLen ≤ elems.length := by
  rw [setVecElems] at h
  split at h
  · cases hsum : sumSlots data width n 0 0 with
    | error why =>
        rw [hsum] at h
        cases h
    | ok total =>
        rw [hsum] at h
        cases h
        exact ⟨padTo8_lt (sumSlots_lt (by decide) hsum), le_length_packSlots _ _ _ _⟩
  · cases h
    refine ⟨CInt.toUInt32_lt _, ?_⟩
    rw [hdata, CInt.toUInt32_natCast]
    exact Nat.mod_le _ _

/-- The packet as it goes out. -/
def SetVecParams.bytes (p : SetVecParams) : Bytes :=
  p.ph.bytes ++ (p.param1 ++ (p.hdrParam2 ++ p.elems.take p.cumLen))

/-- Arguments that pass every check, and the packet they are encoded as. -/
structure Encodes (sock : Int) (name qtype : Option CStr) (data : Option Bytes)
    (n inWidth : UInt32) (s : CStr) (d : Bytes) (q : QType) (width : Nat)
    (p : SetVecParams) : Prop where
  sock_nonneg : 0 ≤ sock
  name_eq : name = some s
  name_ne : s.bytes ≠ []
  type_eq : ∃ t, qtype = some t ∧ t.bytes ≠ [] ∧ setVecType t inWidth = .ok (q, width)
  data_eq : data = some d
  n_ne : n ≠ 0
  mem : 4 + lenName s ≤ ptrdiffMax
  elems_eq : setVecElems q d n.toNat width = .ok (p.cumLen, p.elems)
  accepted : lenAccepted (4 + lenName s + lenParam2 q p.cumLen)
  ph_eq : p.ph = requestHdr .setSexp (4 + lenName s + lenParam2 q p.cumLen)
  param1_eq : p.param1 = nameParam s
  hdrParam2_eq : p.hdrParam2 = mkHdrParam2 q n.toNat width p.cumLen (lenParam2 q p.cumLen)

section Build

variable {sock : Int} {name qtype : Option CStr} {data : Option Bytes} {n inWidth : UInt32}
variable {p : SetVecParams}

/-- A packet is built exactly for arguments that pass every check. -/
theorem setVecParams_ok (h : setVecParams sock name qtype data n inWidth = .ok p) :
    ∃ s d q width, Encodes sock name qtype data n inWidth s d q width p := by
  unfold setVecParams at h
  by_cases hsock : sock < 0
  · rw [if_pos hsock] at h
    cases h
  rw [if_neg hsock] at h
  split at h
  · rename_i s t d
    by_cases hchecks : s.bytes = [] ∨ t.bytes = [] ∨ n = 0
    · rw [if_pos hchecks] at h
      cases h
    rw [if_neg hchecks] at h
    rw [not_or, not_or] at hchecks
    obtain ⟨⟨q, width⟩, htype, h⟩ := of_bind_eq_ok h
    obtain ⟨param1, hparam, h⟩ := of_bind_eq_ok h
    obtain ⟨⟨cumLen, elems⟩, helems, h⟩ := of_bind_eq_ok h
    obtain ⟨ph, hph, h⟩ := of_bind_eq_ok h
    obtain rfl := Except.ok.inj h
    obtain ⟨hmem, rfl⟩ := mkDtString_eq_ok hparam
    rw [length_nameParam, mkHdr_eq] at hph
    by_cases hlen : lenAccepted (4 + lenName s + lenParam2 q cumLen)
    · rw [if_pos hlen] at hph
      exact ⟨s, d, q, width, Int.not_lt.mp hsock, rfl, hchecks.1, ⟨t, rfl, hchecks.2.1, htype⟩,
        rfl, hchecks.2.2, hmem, helems, hlen, (Except.ok.inj hph).symm, rfl, rfl⟩
    · rw [if_neg hlen] at hph
      cases hph
  · cases h

theorem Encodes.setVecParams_eq {s : CStr} {d : Bytes} {q : QType} {width : Nat}
    (h : Encodes sock name qtype data n inWidth s d q width p) :
    setVecParams sock name qtype data n inWidth = .ok p := by
  obtain ⟨hsock, rfl, hname, ⟨t, rfl, ht, htype⟩, rfl, hn, hmem, helems, hlen, hph, hparam,
    hhdr⟩ := h
  have hchecks : ¬ (s.bytes = [] ∨ t.bytes = [] ∨ n = 0) := by
    rw [not_or, not_or]
    exact ⟨hname, ht, hn⟩
  unfold setVecParams
  rw [if_neg (Int.not_lt.mpr hsock)]
  simp only [if_neg hchecks, htype, mkDtString_some, if_neg (Nat.not_lt.mpr hmem), helems,
    length_nameParam, mkHdr_eq, if_pos hlen, bind, Except.bind]
  rw [← hph, ← hparam, ← hhdr]
  rfl

/-- What `set_vec` sends for arguments it accepts. -/
def setVecRequest (sock : Int) (name qtype : Option CStr) (data : Option Bytes)
    (n inWidth : UInt32) : Option Bytes :=
  match setVecParams sock name qtype data n inWidth with
  | .ok p => some p.bytes
  | .error _ => none

theorem setVecRequest_eq_some {bs : Bytes}
    (h : setVecRequest sock name qtype data n inWidth = some bs) :
    ∃ p, setVecParams sock name qtype data n inWidth = .ok p ∧ bs = p.bytes := by
  rw [setVecRequest] at h
  cases hp : setVecParams sock name qtype data n inWidth with
  | error why =>
      rw [hp] at h
      cases h
  | ok p =>
      rw [hp] at h
      exact ⟨p, rfl, (Option.some.inj h).symm⟩

end Build

theorem length_mkHdrParam2 (q : QType) (n width cumLen len : Nat) :
    (mkHdrParam2 q n width cumLen len).length = 8 + q.countLen := by
  cases q <;> simp [mkHdrParam2, QType.countLen]

section Exec

variable {σ : Type} {sock : Int} {name qtype : Option CStr} {data : Option Bytes}
variable {n inWidth : UInt32} {p : SetVecParams} {c : Conn} {s : CStr} {d : Bytes} {q : QType}
variable {width : Nat}

/-- The element memory holds what the last send takes, if the caller's holds the vector. -/
theorem Encodes.length_elems (h : Encodes sock name qtype data n inWidth s d q width p)
    (hdata : d.length = n.toNat * width) :
    p.cumLen < 2 ^ 32 ∧ (p.elems.take p.cumLen).length = p.cumLen := by
  obtain ⟨hlt, hle⟩ := setVecElems_ok hdata h.elems_eq
  refine ⟨hlt, ?_⟩
  rw [List.length_take]
  omega

/-- Four whole sends send the packet. -/
theorem exec_sendParams (h : Encodes sock name qtype data n inWidth s d q width p)
    (hdata : d.length = n.toNat * width) (hc : c.Ready) (v : σ) :
    execOn (sendParams sock p) v c = ⟨.ok (), v, c.push p.bytes⟩ := by
  obtain ⟨hcum, hlen⟩ := h.length_elems hdata
  have hmem := h.mem
  have hhdr := length_mkHdrParam2 q n.toNat width p.cumLen (lenParam2 q p.cumLen)
  have hcount : q.countLen ≤ 4 := by cases q <;> decide
  rw [← h.hdrParam2_eq] at hhdr
  have hsend1 := exec_sendBuf hc sock p.ph.bytes v (by rw [Phdr.length_bytes]; decide)
  rw [Phdr.length_bytes] at hsend1
  have hsend2 := exec_sendBuf (hc.push p.ph.bytes) sock p.param1 v (by
    rw [h.param1_eq, length_nameParam]
    rw [ptrdiffMax] at hmem
    omega)
  have hsend3 : Prog.run Conn.handle (sysSend sock p.hdrParam2)
      ((c.push p.ph.bytes).push p.param1) =
      ((p.hdrParam2.length : Int), ((c.push p.ph.bytes).push p.param1).push p.hdrParam2) := by
    rw [run_sysSend, Conn.send_ready ((hc.push _).push _)]
  have hcnt : ¬ CInt.toInt (CInt.toSizeT (p.hdrParam2.length : Int)) ≠ p.hdrParam2.length := by
    rw [hhdr, CInt.toSizeT_natCast (by omega), not_not]
    exact CInt.toInt_eq (by omega) (by omega)
  have hsend4 := exec_sendBuf (((hc.push p.ph.bytes).push p.param1).push p.hdrParam2) sock
    (p.elems.take p.cumLen) v (by omega)
  rw [hlen] at hsend4
  rw [execOn, sendParams, Proc.exec_bind_ok hsend1, Proc.exec_bind_ok hsend2,
    Proc.exec_lift_bind hsend3, Proc.exec_exitIf_neg hcnt]
  rw [execOn] at hsend4
  rw [hsend4, Conn.push_push, Conn.push_push, Conn.push_push, SetVecParams.bytes]

theorem exec_setVecBody (h : Encodes sock name qtype data n inWidth s d q width p)
    (hdata : d.length = n.toNat * width) (hc : c.Ready) (v : σ) :
    execOn (setVecBody sock name qtype data n inWidth) v c =
      execOn (setVecReply sock) v (c.push p.bytes) := by
  rw [execOn, setVecBody, h.setVecParams_eq,
    Proc.exec_bind_ok (Proc.exec_ofExcept_ok _ _ _ _),
    Proc.exec_bind_ok (exec_sendParams h hdata hc v)]

/-- Refused arguments leave the connection alone, whatever its sends would do. -/
theorem exec_setVecBody_refused (h : setVecRequest sock name qtype data n inWidth = none)
    (v : σ) :
    ∃ why, execOn (setVecBody sock name qtype data n inWidth) v c = ⟨.error why, v, c⟩ := by
  cases hp : setVecParams sock name qtype data n inWidth with
  | ok p =>
      rw [setVecRequest, hp] at h
      cases h
  | error why =>
      rw [execOn, setVecBody, hp]
      exact ⟨why, Proc.exec_bind_error (Proc.exec_ofExcept_error _ _ _ _)⟩

/-- The reply half reads a header and nothing else. -/
theorem exec_setVecReply (hsock : 0 ≤ sock) (hopen : c.isOpen = true) (v : σ) :
    execOn (setVecReply sock) v c =
      if (avail c.inc).length < 16 then stoppedAt v c
      else if (replyHdr c.inc).len.toInt ≠ 0 then ⟨.error .reply, v, c.skip 16⟩
      else ⟨.ok (), v, c.skip 16⟩ := by
  by_cases h16 : (avail c.inc).length < 16
  · rw [if_pos h16]
    exact Proc.exec_bind_error (exec_readHdr_short hsock hopen h16 v)
  · rw [if_neg h16, execOn, setVecReply,
      Proc.exec_bind_ok (exec_readHdr hsock hopen (Nat.le_of_not_lt h16) v), Proc.exec_exitIf]

end Exec

end RserveClient
