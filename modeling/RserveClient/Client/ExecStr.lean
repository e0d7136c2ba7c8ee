import RserveClient.Client.Param

/-!
# Evaluating an R expression

`exec_str` sends an expression and, when the caller passes an output pointer,
reads the encoded result into a buffer of its own.
-/

namespace RserveClient

open Interaction Arrivals
open LittleEndian (word)

/-- The caller's `*ptr_output` and `*ptr_len_out`; a `NULL` pointer is `none`. -/
structure OutVars where
  output : Option Bytes
  lenOut : Nat
  deriving DecidableEq, Repr

/-- The reply half of `exec_str`. -/
def execStrReply (sock : Int) (ptrOutput : Bool) (expectedXt : Int) : Body OutVars Unit := do
  let ph ← readHdr sock
  let payloadLen := CInt.toSizeT ph.len.toInt
  if ptrOutput then do
    Proc.update fun _ => ⟨none, 0⟩
    Proc.exitIf (payloadLen = 0) .reply
    -- below 8 the subtraction wraps and the allocation is what fails
    let szOutBuf := CInt.toSizeT ((payloadLen : Int) - 8)
    Proc.exitIf (ptrdiffMax < szOutBuf) .memory
    let hdr ← recvBuf sock 8
    let dtVal := parType (word hdr 0)
    Proc.exitIf (dtVal ≠ dtSexp) .reply
    let xtVal := parType (word hdr 1)
    Proc.exitIf (0 ≤ expectedXt ∧ (xtVal : Int) ≠ expectedXt) .reply
    let outBuf ← recvBuf sock (CInt.toInt szOutBuf)
    Proc.update fun _ => ⟨some outBuf, szOutBuf⟩
  else pure ()

/-- The command an evaluation sends. -/
def evalCommand (ptrOutput : Bool) : Command := if ptrOutput then .eval else .voidEval

def execStrBody (sock : Int) (str : Option CStr) (ptrOutput : Bool) (expectedXt : Int) :
    Body OutVars Unit := do
  Proc.exitIf (sock < 0) .argument
  Proc.exitIf (str = none) .argument
  let param1 ← Proc.ofExcept (mkDtString str)
  sendRequest sock (evalCommand ptrOutput) param1
  execStrReply sock ptrOutput expectedXt

def execStr (sock : Int) (str : Option CStr) (ptrOutput : Bool) (expectedXt : Int)
    (v : OutVars) : SysProg (Status × OutVars) :=
  (execStrBody sock str ptrOutput expectedXt).finish v fun exit v => (Status.ofExit exit, v)

section Reply

variable {sock : Int} {c : Conn} {v : OutVars}

/-- Without an output pointer the header is all that is read. -/
theorem exec_execStrReply_void (hsock : 0 ≤ sock) (hopen : c.isOpen = true) (xt : Int) :
    execOn (execStrReply sock false xt) v c =
      if hdrLen ≤ (avail c.inc).length then ⟨.ok (), v, c.skip hdrLen⟩
      else stoppedAt v c := by
  split
  · rename_i h16
    rw [execOn, execStrReply, Proc.exec_bind_ok (exec_readHdr hsock hopen h16 v)]
    rfl
  · rename_i h16
    exact Proc.exec_bind_error (exec_readHdr_short hsock hopen (Nat.lt_of_not_le h16) v)

/-- The size of the output buffer wraps exactly for payloads below 8 bytes. -/
theorem outBuf_size (len : Int32) :
    (CInt.toSizeT len.toInt = 0 ↔ len.toInt = 0) ∧
    (len.toInt ≠ 0 →
      (ptrdiffMax < CInt.toSizeT ((CInt.toSizeT len.toInt : Int) - 8) ↔ len.toInt < 8)) ∧
    (8 ≤ len.toInt →
      CInt.toSizeT ((CInt.toSizeT len.toInt : Int) - 8) = (len.toInt - 8).toNat ∧
      CInt.toInt (CInt.toSizeT ((CInt.toSizeT len.toInt : Int) - 8)) =
        ((len.toInt - 8).toNat : Int)) := by
  have hlo := len.le_toInt
  have hhi := len.toInt_lt
  simp only [CInt.toSizeT, CInt.toInt, ptrdiffMax]
  refine ⟨?_, ?_, ?_⟩ <;> omega

/-- The type words of a reply: the first a `DT_SEXP`, the second of the type
asked for, if one is asked for. -/
def typesAccepted (expectedXt : Int) (words : Bytes) : Prop :=
  parType (word words 0) = dtSexp ∧
    (0 ≤ expectedXt → (parType (word words 1) : Int) = expectedXt)

instance (expectedXt : Int) (words : Bytes) : Decidable (typesAccepted expectedXt words) :=
  inferInstanceAs (Decidable (_ ∧ _))

/-- Everything the reply half can do with an output pointer, in the order of its
checks. -/
theorem exec_execStrReply (hsock : 0 ≤ sock) (hopen : c.isOpen = true) (xt : Int)
    {len : Int} (hlen : (replyHdr c.inc).len.toInt = len) :
    execOn (execStrReply sock true xt) v c =
      if (avail c.inc).length < hdrLen then stoppedAt v c
      else if len = 0 then ⟨.error .reply, ⟨none, 0⟩, c.skip 16⟩
      else if len < 8 then ⟨.error .memory, ⟨none, 0⟩, c.skip 16⟩
      else if (avail c.inc).length < 24 then stoppedAt ⟨none, 0⟩ (c.skip 16)
      else if ¬ typesAccepted xt ((avail c.inc).drop 16) then
        ⟨.error .reply, ⟨none, 0⟩, c.skip 24⟩
      else if (avail c.inc).length < 16 + len.toNat then stoppedAt ⟨none, 0⟩ (c.skip 24)
      else
        ⟨.ok (), ⟨some (((avail c.inc).drop 24).take (len.toNat - 8)), len.toNat - 8⟩,
          c.skip (16 + len.toNat)⟩ := by
  obtain ⟨hzero, hsmall, hbig⟩ := outBuf_size (replyHdr c.inc).len
  rw [hlen] at hzero hsmall hbig
  split
  · rename_i h16
    exact Proc.exec_bind_error (exec_readHdr_short hsock hopen h16 v)
  rename_i h16
  have h16' : 16 ≤ (avail c.inc).length := Nat.le_of_not_lt h16
  rw [execOn, execStrReply, Proc.exec_bind_ok (exec_readHdr hsock hopen h16' v), if_pos rfl,
    Proc.exec_update_bind, hlen]
  split
  · rename_i h0
    exact Proc.exec_exitIf_pos (hzero.mpr h0)
  rename_i h0
  rw [Proc.exec_exitIf_neg (mt hzero.mp h0)]
  split
  · rename_i h8
    exact Proc.exec_exitIf_pos ((hsmall h0).mpr h8)
  rename_i h8
  obtain ⟨hsz, hszInt⟩ := hbig (Int.not_lt.mp h8)
  rw [Proc.exec_exitIf_neg (mt (hsmall h0).mp h8)]
  have h8int : (8 : Int) = ((8 : Nat) : Int) := rfl
  split
  · rename_i h24
    exact Proc.exec_bind_error
      (exec_recvBuf_short hsock hopen (n := 16) h8int h16' (by omega) _)
  rename_i h24
  have hw0 := LittleEndian.word_take ((avail c.inc).drop 16) 8 0 (by decide)
  have hw1 := LittleEndian.word_take ((avail c.inc).drop 16) 8 1 (by decide)
  rw [Proc.exec_bind_ok (exec_recvBuf hsock hopen (n := 16) h8int (by omega) _), hw0, hw1]
  split
  · rename_i htypes
    by_cases hdt : parType (word ((avail c.inc).drop 16) 0) = dtSexp
    · have hxt : 0 ≤ xt ∧ (parType (word ((avail c.inc).drop 16) 1) : Int) ≠ xt := by
        by_contra hno
        exact htypes ⟨hdt, fun hpos => by_contra fun hne => hno ⟨hpos, hne⟩⟩
      rw [Proc.exec_exitIf_neg (not_not_intro hdt)]
      exact Proc.exec_exitIf_pos hxt
    · exact Proc.exec_exitIf_pos hdt
  rename_i htypes
  obtain ⟨hdt, hxt⟩ := not_not.mp htypes
  rw [Proc.exec_exitIf_neg (not_not_intro hdt),
    Proc.exec_exitIf_neg (fun hbad => hbad.2 (hxt hbad.1))]
  have htotal : 24 + (len - 8).toNat = 16 + len.toNat := by omega
  split
  · rename_i hall
    exact Proc.exec_bind_error
      (exec_recvBuf_short hsock hopen (n := 24) hszInt (by omega) (by omega) _)
  rename_i hall
  have hn : (len - 8).toNat = len.toNat - 8 := by omega
  rw [Proc.exec_bind_ok (exec_recvBuf hsock hopen (n := 24) hszInt (by omega) _), htotal, hsz, hn]
  rfl

/-- The replies that pass: for a void evaluation any header, otherwise at least two
type words that are accepted and all of the declared payload. -/
def execAccepted (ptrOutput : Bool) (xt : Int) (inc : List (Arrival UInt8)) : Prop :=
  match ptrOutput with
  | true =>
      8 ≤ (replyHdr inc).len.toInt ∧ typesAccepted xt ((avail inc).drop 16) ∧
        16 + (replyHdr inc).len.toInt.toNat ≤ (avail inc).length
  | false => 16 ≤ (avail inc).length

instance : (ptrOutput : Bool) → (xt : Int) → (inc : List (Arrival UInt8)) →
    Decidable (execAccepted ptrOutput xt inc)
  | true, _, _ => inferInstanceAs (Decidable (_ ∧ _ ∧ _))
  | false, _, _ => inferInstanceAs (Decidable (_ ≤ _))

/-- The bytes an accepted reply takes from the stream. -/
def execTaken (ptrOutput : Bool) (inc : List (Arrival UInt8)) : Nat :=
  if ptrOutput then 16 + (replyHdr inc).len.toInt.toNat else 16

/-- The caller's variables after an accepted reply. -/
def execOut (ptrOutput : Bool) (inc : List (Arrival UInt8)) (v : OutVars) : OutVars :=
  let size := (replyHdr inc).len.toInt.toNat - 8
  if ptrOutput then ⟨some (((avail inc).drop 24).take size), size⟩ else v

theorem exec_execStrReply_ok {ptrOutput : Bool} {xt : Int} (hsock : 0 ≤ sock)
    (hopen : c.isOpen = true) (h : execAccepted ptrOutput xt c.inc) :
    execOn (execStrReply sock ptrOutput xt) v c =
      ⟨.ok (), execOut ptrOutput c.inc v, c.skip (execTaken ptrOutput c.inc)⟩ := by
  cases ptrOutput with
  | false =>
      have h16 : hdrLen ≤ (avail c.inc).length := h
      rw [exec_execStrReply_void hsock hopen, if_pos h16]
      rfl
  | true =>
      obtain ⟨h8, htypes, hall⟩ := h
      have hdr : hdrLen = 16 := rfl
      rw [exec_execStrReply hsock hopen xt rfl, if_neg (by omega), if_neg (by omega),
        if_neg (by omega), if_neg (by omega), if_neg (not_not_intro htypes),
        if_neg (Nat.not_lt.mpr hall)]
      rfl

theorem exec_execStrReply_bad {ptrOutput : Bool} {xt : Int} (hsock : 0 ≤ sock)
    (hopen : c.isOpen = true) (h : ¬ execAccepted ptrOutput xt c.inc) :
    ∃ why v' inc', execOn (execStrReply sock ptrOutput xt) v c =
      ⟨.error why, v', c.withInc inc'⟩ := by
  cases ptrOutput with
  | false =>
      have h16 : ¬ hdrLen ≤ (avail c.inc).length := h
      rw [exec_execStrReply_void hsock hopen, if_neg h16]
      exact ⟨_, _, _, rfl⟩
  | true =>
      rw [exec_execStrReply hsock hopen xt rfl]
      split_ifs with h16 h0 h8 h24 htypes hall
      · exact ⟨_, _, _, rfl⟩
      · exact ⟨_, _, _, rfl⟩
      · exact ⟨_, _, _, rfl⟩
      · exact ⟨_, _, _, rfl⟩
      · exact ⟨_, _, _, rfl⟩
      · exact absurd ⟨Int.not_lt.mp h8, htypes, Nat.le_of_not_lt hall⟩ h
      · exact ⟨_, _, _, rfl⟩

end Reply

/-- What `exec_str` sends for an argument it accepts. -/
def execStrRequest (str : Option CStr) (ptrOutput : Bool) : Option Bytes :=
  nameRequest (evalCommand ptrOutput) str

section Whole

variable {sock : Int} {c : Conn} {str : Option CStr} {ptrOutput : Bool} {bs : Bytes}

theorem exec_execStrBody (hsock : 0 ≤ sock) (hc : c.Ready)
    (hreq : execStrRequest str ptrOutput = some bs) (xt : Int) (v : OutVars) :
    execOn (execStrBody sock str ptrOutput xt) v c =
      execOn (execStrReply sock ptrOutput xt) v (c.push bs) := by
  have hsome : ¬ str = none := by
    rintro rfl
    cases hreq
  rw [execOn, execStrBody, Proc.exec_exitIf_neg (Int.not_lt.mpr hsock), Proc.exec_exitIf_neg hsome]
  exact exec_nameRequest sock hc hreq v _

theorem exec_execStrBody_refused (hsock : 0 ≤ sock)
    (hreq : execStrRequest str ptrOutput = none) (xt : Int) (v : OutVars) :
    ∃ why, execOn (execStrBody sock str ptrOutput xt) v c = ⟨.error why, v, c⟩ := by
  rw [execOn, execStrBody, Proc.exec_exitIf_neg (Int.not_lt.mpr hsock)]
  by_cases hnone : str = none
  · exact ⟨.argument, Proc.exec_exitIf_pos hnone⟩
  · rw [Proc.exec_exitIf_neg hnone]
    exact exec_nameRequest_refused sock hreq v _

end Whole

end RserveClient
