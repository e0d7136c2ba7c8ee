import RserveClient.Client.VecReply

/-!
# Getting a vector

`get_vec` evaluates a name and stores the elements of the numeric or logical
vector that comes back in a buffer of its own.
-/

namespace RserveClient

open Interaction Arrivals
open LittleEndian (word)

/-- What a pointer variable of the function holds on the path taken. -/
inductive Local where
  | unassigned
  | null
  | block
  deriving DecidableEq, Repr

/-- The caller's `*ptr_data` and `*ptr_n`. -/
structure VecOut where
  data : Option Bytes
  n : Int
  deriving DecidableEq, Repr

/-- The buffers that `get_vec` allocates. -/
inductive Buffer where
  | param1
  | data
  deriving DecidableEq, Repr

/-- The variables that `BYE` inspects or sets, and the buffers allocated and not yet
released. -/
structure VecFrame where
  param1 : Local
  data : Local
  out : VecOut
  live : List Buffer
  deriving DecidableEq, Repr

namespace VecFrame

/-- The variables at the start: `data` is declared further down. -/
def start (out : VecOut) : VecFrame := ⟨.null, .unassigned, out, []⟩

/-- `mk_dt_string` has stored its block in `param1`. -/
def allocParam1 (v : VecFrame) : VecFrame :=
  { v with param1 := .block, live := .param1 :: v.live }

/-- `free_if_non_null(param1)` after the parameter has been sent. -/
def freeParam1 (v : VecFrame) : VecFrame :=
  { v with param1 := .null, live := v.live.erase .param1 }

def allocData (v : VecFrame) : VecFrame := { v with data := .block, live := .data :: v.live }

def dataNull (v : VecFrame) : VecFrame := { v with data := .null }

/-- `data = malloc(sz)` -/
def mallocData (sz : Int) (v : VecFrame) : VecFrame :=
  if ptrdiffMax < CInt.toSizeT sz then v.dataNull else v.allocData

/-- When the request is out all is as it was at the start. -/
theorem start_sent (out : VecOut) : (start out).allocParam1.freeParam1 = start out := rfl

end VecFrame

/-- The types `get_vec` knows; `SC` is not one of them. -/
def getVecType : Option CStr → Except Why QType
  | none => .error .argument
  | some qtype =>
      match QType.ofStr qtype with
      | some .F8 => .ok .F8
      | some .I4 => .ok .I4
      | some .I1 => .ok .I1
      | _ => .error .argument

/-- Logicals come after a count word, which is read and not used. -/
def recvCountWord {σ : Type} (sock : Int) (q : QType) (numLeftToRead : Int) : Body σ Int :=
  if q = .I1 then do
    let _ ← recvBuf sock 4
    return CInt.toInt ((CInt.toSizeT numLeftToRead : Int) - 4)
  else return numLeftToRead

/-- From the number of bytes left to the stored data. -/
def recvElements (sock : Int) (q : QType) (numLeftToRead : Int) : Body VecFrame Unit := do
  let n := CInt.toInt (CInt.toUInt32 numLeftToRead / q.width : Nat)
  let sz := CInt.toInt (CInt.toUInt32 n * q.width : Nat)
  Proc.update (VecFrame.mallocData sz)
  Proc.exitIf (ptrdiffMax < CInt.toSizeT sz) .memory
  let data ← recvBuf sock sz
  Proc.update fun v => { v with out := ⟨some data, n⟩ }

/-- The reply half of `get_vec`. -/
def getVecReply (sock : Int) (q : QType) : Body VecFrame Unit := do
  let numLeftToRead ← recvVecHead sock q.xt
  let numLeftToRead ← recvCountWord sock q numLeftToRead
  recvElements sock q numLeftToRead

def getVecBody (sock : Int) (name qtype : Option CStr) : Body VecFrame Unit := do
  let param1 ← Proc.ofExcept (mkDtString name)
  Proc.update VecFrame.allocParam1
  Proc.exitIf (name = none) .argument
  let q ← Proc.ofExcept (getVecType qtype)
  sendRequest sock .eval param1
  Proc.update VecFrame.freeParam1
  getVecReply sock q

/-- `BYE`: a failure clears the outputs. -/
def getVecBye (exit : Except Why Unit) (v : VecFrame) : Status × VecOut :=
  match exit with
  | .ok _ => (.ok, v.out)
  | .error why => (.bad why, ⟨none, 0⟩)

def getVec (sock : Int) (name qtype : Option CStr) (out : VecOut) : SysProg (Status × VecOut) :=
  (getVecBody sock name qtype).finish (.start out) getVecBye

/-- The number of elements the code makes of an XT length. -/
def QType.count (q : QType) (len : Nat) : Nat := (len - q.countLen) / q.width

/-- The element count and the size of the data, free of wraps. -/
theorem vecData_size {q : QType} {left : Nat} (hleft : left < 2 ^ 24) :
    CInt.toInt (CInt.toUInt32 left / q.width : Nat) = (left / q.width : Nat) ∧
    CInt.toInt (CInt.toUInt32 (left / q.width : Nat) * q.width : Nat) =
      (left / q.width * q.width : Nat) := by
  have hdiv : left / q.width ≤ left := Nat.div_le_self left q.width
  have hmul : left / q.width * q.width ≤ left := Nat.div_mul_le_self left q.width
  have hleft32 : CInt.toUInt32 left = left := by
    rw [CInt.toUInt32_natCast, Nat.mod_eq_of_lt (by omega)]
  have hn32 : CInt.toUInt32 (left / q.width : Nat) = left / q.width := by
    rw [CInt.toUInt32_natCast, Nat.mod_eq_of_lt (by omega)]
  constructor
  · rw [hleft32]
    exact CInt.toInt_eq (by omega) (by omega)
  · rw [hn32]
    exact CInt.toInt_eq (by omega) (by omega)

/-- With fewer bytes than the count word takes the size wraps to one that cannot be
allocated. -/
theorem vecData_wraps {q : QType} {len : Nat} (hwidth : q.width = 1) (hlen : len < 4) :
    ptrdiffMax < CInt.toSizeT (CInt.toInt (CInt.toUInt32 (CInt.toInt (CInt.toUInt32
      (CInt.toInt ((len : Int) - 4)) / q.width : Nat)) * q.width : Nat)) := by
  have hleft : CInt.toInt ((len : Int) - 4) = (len : Int) - 4 :=
    CInt.toInt_eq (by omega) (by omega)
  have hsz := CInt.le_toSizeT_of_neg (n := (len : Int) - 4) (by omega) (by omega)
  rw [hwidth, Nat.div_one, Nat.mul_one, CInt.toInt_toUInt32, CInt.toInt_toUInt32, hleft, hleft,
    hleft, ptrdiffMax]
  omega

section Reply

variable {sock : Int} {c : Conn} {v : VecFrame} {q : QType}

/-- The frame and the outputs once the data has come. -/
def VecFrame.filled (v : VecFrame) (data : Bytes) (n : Nat) : VecFrame :=
  { v.allocData with out := ⟨some data, n⟩ }

/-- The elements are the whole multiples of the width among the bytes left. -/
theorem exec_recvElements (hsock : 0 ≤ sock) (hopen : c.isOpen = true) {pos left : Nat}
    (hleft : left < 2 ^ 24) (hpos : pos ≤ (avail c.inc).length) :
    execOn (recvElements sock q left) v (c.skip pos) =
      if (avail c.inc).length < pos + left / q.width * q.width then
        stoppedAt v.allocData (c.skip pos)
      else
        ⟨.ok (), v.filled (((avail c.inc).drop pos).take (left / q.width * q.width))
          (left / q.width), c.skip (pos + left / q.width * q.width)⟩ := by
  obtain ⟨hn, hsz⟩ := vecData_size (q := q) hleft
  have hmul : left / q.width * q.width ≤ left := Nat.div_mul_le_self left q.width
  have hfits : ¬ ptrdiffMax < CInt.toSizeT
      (CInt.toInt (CInt.toUInt32 (CInt.toInt (CInt.toUInt32 left / q.width : Nat)) *
        q.width : Nat)) := by
    rw [hn, hsz, CInt.toSizeT_natCast (by omega), ptrdiffMax]
    omega
  rw [execOn, recvElements, Proc.exec_update_bind, Proc.exec_exitIf_neg hfits,
    VecFrame.mallocData, if_neg hfits, hn, hsz]
  split
  · rename_i hshort
    exact Proc.exec_bind_error (exec_recvBuf_short hsock hopen rfl hpos hshort _)
  · rename_i hall
    rw [Proc.exec_bind_ok (exec_recvBuf hsock hopen rfl (by omega) _)]
    rfl

/-- Everything that can happen once the head of the reply has passed. -/
theorem exec_recvVecData (hsock : 0 ≤ sock) (hopen : c.isOpen = true) {len : Nat}
    (hlen : len < 2 ^ 24) (h24 : 24 ≤ (avail c.inc).length) :
    execOn (recvCountWord sock q len >>= recvElements sock q) v (c.skip 24) =
      if (avail c.inc).length < 24 + q.countLen then stoppedAt v (c.skip 24)
      else if len < q.countLen then
        ⟨.error .memory, v.dataNull, c.skip (24 + q.countLen)⟩
      else if (avail c.inc).length < 24 + q.countLen + q.count len * q.width then
        stoppedAt v.allocData (c.skip (24 + q.countLen))
      else
        ⟨.ok (), v.filled (((avail c.inc).drop (24 + q.countLen)).take (q.count len * q.width))
          (q.count len), c.skip (24 + q.countLen + q.count len * q.width)⟩ := by
  by_cases hI1 : q = .I1
  · have hcount : q.countLen = 4 := by rw [hI1]; rfl
    have hwidth : q.width = 1 := by rw [hI1]; rfl
    have h4 : (4 : Int) = (q.countLen : Int) := by rw [hcount]; rfl
    have hsz : CInt.toSizeT (len : Int) = len := CInt.toSizeT_natCast (by omega)
    rw [execOn, recvCountWord, if_pos hI1, hsz]
    by_cases hshort : (avail c.inc).length < 24 + q.countLen
    · rw [if_pos hshort]
      exact Proc.exec_bind_error
        (Proc.exec_bind_error (exec_recvBuf_short hsock hopen h4 h24 hshort _))
    have hword : execOn (do
          let _ ← recvBuf sock 4
          return CInt.toInt ((len : Int) - 4)) v (c.skip 24) =
        ⟨.ok (CInt.toInt ((len : Int) - 4)), v, c.skip (24 + q.countLen)⟩ :=
      Proc.exec_bind_ok (exec_recvBuf hsock hopen h4 (Nat.le_of_not_lt hshort) v)
    rw [if_neg hshort, Proc.exec_bind_ok hword]
    by_cases hneg : len < q.countLen
    · have hwraps := vecData_wraps hwidth (hcount ▸ hneg)
      rw [if_pos hneg, recvElements, Proc.exec_update_bind,
        VecFrame.mallocData, if_pos hwraps]
      exact Proc.exec_exitIf_pos hwraps
    · have hleft : CInt.toInt ((len : Int) - 4) = ((len - q.countLen : Nat) : Int) := by
        rw [CInt.toInt_eq (by omega) (by omega)]
        omega
      rw [if_neg hneg, hleft]
      exact exec_recvElements hsock hopen (by omega) (Nat.le_of_not_lt hshort)
  · have hcount : q.countLen = 0 := by
      cases q <;> first | rfl | exact absurd rfl hI1
    have helems := exec_recvElements (q := q) (v := v) hsock hopen hlen h24
    rw [if_neg (by omega), if_neg (by omega), execOn, recvCountWord, if_neg hI1,
      Proc.exec_bind_ok (Proc.exec_pure _ _ _ _), QType.count, hcount]
    exact helems

/-- The reply half once its head has arrived, in the order of its checks. -/
theorem exec_getVecReply (hsock : 0 ≤ sock) (hopen : c.isOpen = true)
    (hhead : headArrives c.inc) :
    execOn (getVecReply sock q) v c =
      if ¬ replyHeadAccepted q.xt c.inc then ⟨.error .reply, v, c.skip 24⟩
      else if (avail c.inc).length < 24 + q.countLen then stoppedAt v (c.skip 24)
      else if xtLen c.inc < q.countLen then
        ⟨.error .memory, v.dataNull, c.skip (24 + q.countLen)⟩
      else if (avail c.inc).length < 24 + q.countLen + q.count (xtLen c.inc) * q.width then
        stoppedAt v.allocData (c.skip (24 + q.countLen))
      else
        ⟨.ok (), v.filled
            (((avail c.inc).drop (24 + q.countLen)).take (q.count (xtLen c.inc) * q.width))
            (q.count (xtLen c.inc)),
          c.skip (24 + q.countLen + q.count (xtLen c.inc) * q.width)⟩ := by
  have hrecv := exec_recvVecHead (s := v) hsock hopen hhead q.xt
  rw [execOn, getVecReply]
  by_cases hgood : replyHeadAccepted q.xt c.inc
  · rw [if_pos hgood] at hrecv
    rw [if_neg (not_not_intro hgood), Proc.exec_bind_ok hrecv]
    exact exec_recvVecData hsock hopen (xtLen_lt c.inc) hhead.le_length
  · rw [if_neg hgood] at hrecv
    rw [if_pos hgood]
    exact Proc.exec_bind_error hrecv

/-- Otherwise the reply fails in the transport. -/
theorem exec_getVecReply_transport (hsock : 0 ≤ sock) (hopen : c.isOpen = true)
    (h : ¬ headArrives c.inc) :
    ∃ why inc', execOn (getVecReply sock q) v c = ⟨.error why, v, c.withInc inc'⟩ ∧
      why.isTransport := by
  obtain ⟨why, inc', hrecv, htransport⟩ :=
    exec_recvVecHead_transport (s := v) hsock hopen h q.xt
  exact ⟨why, inc', Proc.exec_bind_error hrecv, htransport⟩

/-- The bytes an accepted reply takes from the stream. -/
def vecTaken (q : QType) (inc : List (Arrival UInt8)) : Nat :=
  24 + q.countLen + q.count (xtLen inc) * q.width

/-- The replies that pass: an accepted head, room for a count word, and all whole
elements. -/
def vecAccepted (q : QType) (inc : List (Arrival UInt8)) : Prop :=
  headArrives inc ∧ replyHeadAccepted q.xt inc ∧ q.countLen ≤ xtLen inc ∧
    vecTaken q inc ≤ (avail inc).length

instance (q : QType) (inc : List (Arrival UInt8)) : Decidable (vecAccepted q inc) :=
  inferInstanceAs (Decidable (_ ∧ _ ∧ _ ∧ _))

/-- The element bytes of an accepted reply. -/
def vecData (q : QType) (inc : List (Arrival UInt8)) : Bytes :=
  ((avail inc).drop (24 + q.countLen)).take (q.count (xtLen inc) * q.width)

theorem exec_getVecReply_ok (hsock : 0 ≤ sock) (hopen : c.isOpen = true)
    (h : vecAccepted q c.inc) :
    execOn (getVecReply sock q) v c =
      ⟨.ok (), v.filled (vecData q c.inc) (q.count (xtLen c.inc)),
        c.skip (vecTaken q c.inc)⟩ := by
  obtain ⟨hhead, hgood, hcount, hall⟩ := h
  have hall' : 24 + q.countLen + q.count (xtLen c.inc) * q.width ≤ (avail c.inc).length := hall
  rw [exec_getVecReply hsock hopen hhead, if_neg (not_not_intro hgood), if_neg (by omega),
    if_neg (Nat.not_lt.mpr hcount), if_neg (Nat.not_lt.mpr hall')]
  rfl

theorem exec_getVecReply_bad (hsock : 0 ≤ sock) (hopen : c.isOpen = true)
    (h : ¬ vecAccepted q c.inc) :
    ∃ why v' inc', execOn (getVecReply sock q) v c =
      ⟨.error why, v', c.withInc inc'⟩ := by
  by_cases hhead : headArrives c.inc
  · rw [exec_getVecReply hsock hopen hhead]
    split_ifs with hgood hword hcount hall
    · exact ⟨_, _, _, rfl⟩
    · exact ⟨_, _, _, rfl⟩
    · exact ⟨_, _, _, rfl⟩
    · exact absurd ⟨hhead, hgood, Nat.le_of_not_lt hcount, Nat.le_of_not_lt hall⟩ h
    · exact ⟨_, _, _, rfl⟩
  · obtain ⟨why, inc', hrecv, _⟩ := exec_getVecReply_transport (v := v) (q := q) hsock hopen hhead
    exact ⟨why, v, inc', hrecv⟩

end Reply

/-- What `get_vec` sends for arguments it accepts. -/
def getVecRequest (name qtype : Option CStr) : Option Bytes :=
  match getVecType qtype with
  | .ok _ => nameRequest .eval name
  | .error _ => none

section Whole

variable {c : Conn} {name qtype : Option CStr} {bs : Bytes}

theorem getVecRequest_eq_some (h : getVecRequest name qtype = some bs) :
    ∃ s q, name = some s ∧ getVecType qtype = .ok q ∧ requestFits s ∧
      bs = requestBytes .eval s := by
  cases hq : getVecType qtype with
  | error why =>
      rw [getVecRequest, hq] at h
      cases h
  | ok q =>
      rw [getVecRequest, hq] at h
      obtain ⟨s, hs, hfits, hbs⟩ := nameRequest_eq_some h
      exact ⟨s, q, hs, rfl, hfits, hbs⟩

/-- An accepted name is sent whole before the reply is read. -/
theorem exec_getVecBody (sock : Int) {q : QType} (hc : c.Ready)
    (hreq : getVecRequest name qtype = some bs) (hq : getVecType qtype = .ok q) (v : VecFrame) :
    execOn (getVecBody sock name qtype) v c =
      execOn (getVecReply sock q) v.allocParam1.freeParam1 (c.push bs) := by
  obtain ⟨s, q', rfl, hq', hfits, rfl⟩ := getVecRequest_eq_some hreq
  have hsend := exec_sendName hc sock .eval hfits.1 v.allocParam1
  rw [if_pos hfits] at hsend
  rw [execOn, getVecBody, mkDtString_some, if_neg (Nat.not_lt.mpr hfits.1),
    Proc.exec_bind_ok (Proc.exec_ofExcept_ok _ _ _ _), Proc.exec_update_bind,
    Proc.exec_exitIf_neg (by simp), hq, Proc.exec_bind_ok (Proc.exec_ofExcept_ok _ _ _ _),
    Proc.exec_bind_ok hsend, Proc.exec_update_bind]

/-- Refused arguments leave the connection alone, and `data` unassigned. -/
theorem exec_getVecBody_refused (sock : Int) (hreq : getVecRequest name qtype = none)
    (v : VecFrame) :
    ∃ why v', execOn (getVecBody sock name qtype) v c = ⟨.error why, v', c⟩ ∧
      v'.data = v.data := by
  cases name with
  | none =>
      exact ⟨.argument, v, Proc.exec_bind_error (Proc.exec_ofExcept_error _ _ _ _), rfl⟩
  | some s =>
      rw [execOn, getVecBody, mkDtString_some]
      by_cases hmem : ptrdiffMax < 4 + lenName s
      · rw [if_pos hmem]
        exact ⟨.memory, v, Proc.exec_bind_error (Proc.exec_ofExcept_error _ _ _ _), rfl⟩
      rw [if_neg hmem, Proc.exec_bind_ok (Proc.exec_ofExcept_ok _ _ _ _),
        Proc.exec_update_bind, Proc.exec_exitIf_neg (by simp)]
      cases hq : getVecType qtype with
      | error why =>
          exact ⟨why, v.allocParam1, Proc.exec_bind_error (Proc.exec_ofExcept_error _ _ _ _), rfl⟩
      | ok q =>
          have hfits : ¬ requestFits s := by
            intro hfits
            simp [getVecRequest, nameRequest, hq, hfits] at hreq
          have hsend := exec_sendName_refused sock .eval (Nat.le_of_not_lt hmem) hfits
            v.allocParam1 c
          rw [Proc.exec_bind_ok (Proc.exec_ofExcept_ok _ _ _ _)]
          exact ⟨.argument, v.allocParam1, Proc.exec_bind_error hsend, rfl⟩

end Whole

end RserveClient
