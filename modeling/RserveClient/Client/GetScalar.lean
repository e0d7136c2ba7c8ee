import RserveClient.Client.VecReply

/-!
# Getting a scalar

`get_F8` and `get_I4` differ only in the type they ask for. The reply is
checked like that of `get_vec`, but the value is taken by a single `read`.
-/

namespace RserveClient

open Interaction Arrivals
open LittleEndian (word)

/-- The final `read` into the memory at `ptr_dval`: any positive count passes. -/
def recvScalar (q : QType) (sock : Int) : Body Bytes Unit := do
  match ← Proc.lift (sysRead sock q.width) with
  | none => Proc.exit .fault
  | some buf =>
      Proc.update fun dval => overwrite dval buf
      Proc.exitIf (buf.length = 0) .eof

/-- The reply half of the scalar getters. -/
def getScalarReply (q : QType) (sock : Int) : Body Bytes Unit := do
  let numLeftToRead ← recvVecHead sock q.xt
  let n := CInt.toInt (CInt.toSizeT numLeftToRead / q.width : Nat)
  Proc.exitIf (n ≠ 1) .reply
  recvScalar q sock

def getScalarBody (q : QType) (sock : Int) (name : Option CStr) : Body Bytes Unit := do
  let param1 ← Proc.ofExcept (mkDtString name)
  sendRequest sock .eval param1
  getScalarReply q sock

def getScalar (q : QType) (sock : Int) (name : Option CStr) (dval : Bytes) :
    SysProg (Status × Bytes) :=
  (getScalarBody q sock name).finish dval fun exit v => (Status.ofExit exit, v)

def getF8 : Int → Option CStr → Bytes → SysProg (Status × Bytes) := getScalar .F8

def getI4 : Int → Option CStr → Bytes → SysProg (Status × Bytes) := getScalar .I4

section Reply

variable {sock : Int} {c : Conn} {v : Bytes} {q : QType}

/-- The bytes the final read brings. -/
def scalarRead (q : QType) (inc : List (Arrival UInt8)) : Nat :=
  min q.width (front (skip 24 inc)).length

/-- The final read stores what the piece in front holds of the value. -/
theorem exec_recvScalar (hopen : c.isOpen = true) (hq : q ≠ .SC)
    (h24 : 24 ≤ (avail c.inc).length) (hfront : 0 < (front (skip 24 c.inc)).length) :
    execOn (recvScalar q sock) v (c.skip 24) =
      ⟨.ok (), overwrite v (((avail c.inc).drop 24).take (scalarRead q c.inc)),
        c.skip (24 + scalarRead q c.inc)⟩ := by
  have hwidth := QType.width_pos hq
  have hle := length_front_le (skip 24 c.inc)
  have hav : avail (skip 24 c.inc) = (avail c.inc).drop 24 := avail_skip h24
  have hnum : scalarRead q c.inc = min q.width (front (skip 24 c.inc)).length := rfl
  rw [hav, List.length_drop] at hle
  have hskip : skip (scalarRead q c.inc) (skip 24 c.inc) = skip (24 + scalarRead q c.inc) c.inc :=
    skip_skip (by omega)
  have hread := run_sysRead_front (c := c.skip 24) hopen hfront sock hwidth
  rw [Conn.inc_skip, ← hnum, hav] at hread
  have hworld : (c.skip 24).skip (scalarRead q c.inc) = c.skip (24 + scalarRead q c.inc) := by
    rw [Conn.skip, Conn.inc_skip, hskip]
    rfl
  have hlen : (((avail c.inc).drop 24).take (scalarRead q c.inc)).length ≠ 0 := by
    rw [List.length_take, List.length_drop]
    omega
  rw [execOn, recvScalar, Proc.exec_lift_bind hread, hworld]
  dsimp only
  rw [Proc.exec_update_bind, Proc.exec_exitIf, if_neg hlen]

/-- Otherwise it fails in the transport and leaves the memory alone. -/
theorem exec_recvScalar_none (q : QType) (sock : Int) (hopen : c.isOpen = true)
    (hfront : (front c.inc).length = 0) (v : Bytes) :
    ∃ why inc', execOn (recvScalar q sock) v c = ⟨.error why, v, c.withInc inc'⟩ ∧
      why.isTransport := by
  rcases run_sysRead_none hopen hfront sock q.width with ⟨inc', hrun⟩ | ⟨inc', hrun⟩
  · refine ⟨.eof, inc', ?_, trivial⟩
    rw [execOn, recvScalar, Proc.exec_lift_bind hrun]
    rfl
  · refine ⟨.fault, inc', ?_, trivial⟩
    rw [execOn, recvScalar, Proc.exec_lift_bind hrun, Proc.exec_exit]

/-- One element exactly. -/
theorem scalar_count {len : Nat} (hlen : len < 2 ^ 24) :
    CInt.toInt (CInt.toSizeT len / q.width : Nat) = (len / q.width : Nat) := by
  have hdiv : len / q.width ≤ len := Nat.div_le_self len q.width
  rw [CInt.toSizeT_natCast (by omega)]
  generalize len / q.width = n at hdiv ⊢
  exact CInt.toInt_eq (by omega) (by omega)

/-- The reply half once its head has arrived: refused after 24 bytes, or the value
read from there on. -/
theorem exec_getScalarReply (hsock : 0 ≤ sock) (hopen : c.isOpen = true)
    (hhead : headArrives c.inc) :
    execOn (getScalarReply q sock) v c =
      if ¬ replyHeadAccepted q.xt c.inc then ⟨.error .reply, v, c.skip 24⟩
      else if xtLen c.inc / q.width ≠ 1 then ⟨.error .reply, v, c.skip 24⟩
      else execOn (recvScalar q sock) v (c.skip 24) := by
  have hrecv := exec_recvVecHead (s := v) hsock hopen hhead q.xt
  have hcount := scalar_count (q := q) (xtLen_lt c.inc)
  rw [execOn, getScalarReply]
  by_cases hgood : replyHeadAccepted q.xt c.inc
  swap
  · rw [if_neg hgood] at hrecv
    rw [if_pos hgood]
    exact Proc.exec_bind_error hrecv
  rw [if_pos hgood] at hrecv
  rw [if_neg (not_not_intro hgood), Proc.exec_bind_ok hrecv, hcount]
  by_cases hone : xtLen c.inc / q.width = 1
  · rw [if_neg (not_not_intro hone), Proc.exec_exitIf_neg (by omega)]
  · rw [if_pos hone]
    exact Proc.exec_exitIf_pos (by omega)

theorem exec_getScalarReply_transport (hsock : 0 ≤ sock) (hopen : c.isOpen = true)
    (h : ¬ headArrives c.inc) :
    ∃ why inc', execOn (getScalarReply q sock) v c = ⟨.error why, v, c.withInc inc'⟩ ∧
      why.isTransport := by
  obtain ⟨why, inc', hrecv, htransport⟩ :=
    exec_recvVecHead_transport (s := v) hsock hopen h q.xt
  exact ⟨why, inc', Proc.exec_bind_error hrecv, htransport⟩

/-- The replies that pass: an accepted head that tells one element, and at least one
byte of it. -/
def scalarAccepted (q : QType) (inc : List (Arrival UInt8)) : Prop :=
  headArrives inc ∧ replyHeadAccepted q.xt inc ∧ xtLen inc / q.width = 1 ∧
    0 < (front (skip 24 inc)).length

instance (q : QType) (inc : List (Arrival UInt8)) : Decidable (scalarAccepted q inc) :=
  inferInstanceAs (Decidable (_ ∧ _ ∧ _ ∧ _))

/-- The memory at `ptr_dval` after an accepted reply. -/
def scalarOut (q : QType) (inc : List (Arrival UInt8)) (dval : Bytes) : Bytes :=
  overwrite dval (((avail inc).drop 24).take (scalarRead q inc))

theorem exec_getScalarReply_ok (hsock : 0 ≤ sock) (hopen : c.isOpen = true) (hq : q ≠ .SC)
    (h : scalarAccepted q c.inc) :
    execOn (getScalarReply q sock) v c =
      ⟨.ok (), scalarOut q c.inc v, c.skip (24 + scalarRead q c.inc)⟩ := by
  obtain ⟨hhead, hgood, hone, hfront⟩ := h
  rw [exec_getScalarReply hsock hopen hhead, if_neg (not_not_intro hgood),
    if_neg (not_not_intro hone)]
  exact exec_recvScalar hopen hq hhead.le_length hfront

theorem exec_getScalarReply_bad (hsock : 0 ≤ sock) (hopen : c.isOpen = true)
    (h : ¬ scalarAccepted q c.inc) :
    ∃ why v' inc', execOn (getScalarReply q sock) v c =
      ⟨.error why, v', c.withInc inc'⟩ := by
  by_cases hhead : headArrives c.inc
  · rw [exec_getScalarReply hsock hopen hhead]
    split_ifs with hgood hone
    · exact ⟨_, _, _, rfl⟩
    · have hnone : (front (c.skip 24).inc).length = 0 :=
        Nat.eq_zero_of_not_pos fun hpos => h ⟨hhead, hgood, not_not.mp hone, hpos⟩
      obtain ⟨why, inc', hrecv, _⟩ :=
        exec_recvScalar_none q sock (c := c.skip 24) hopen hnone v
      exact ⟨why, v, inc', hrecv⟩
    · exact ⟨_, _, _, rfl⟩
  · obtain ⟨why, inc', hrecv, _⟩ :=
      exec_getScalarReply_transport (v := v) (q := q) hsock hopen hhead
    exact ⟨why, v, inc', hrecv⟩

end Reply

end RserveClient
