import RserveClient.Client.Param

/-!
# Getting a named vector

`get_named_vec_F8` evaluates a name and takes the reply apart into the names
and the values of the vector. It does not look at the base type of the vector
nor at the tag of the attribute.
-/

namespace RserveClient

open Interaction Arrivals
open LittleEndian (word)

/-- The caller's memory: the two arrays from their starts, and the two counts. -/
structure NamedVars where
  keyBlob : Bytes
  nKeyBlob : Nat
  vals : Bytes
  nVals : Nat
  deriving DecidableEq, Repr

namespace NamedVars

def storeKeys (bs : Bytes) (v : NamedVars) : NamedVars :=
  { v with keyBlob := overwrite v.keyBlob bs }

def storeVals (bs : Bytes) (v : NamedVars) : NamedVars :=
  { v with vals := overwrite v.vals bs }

/-- The two `memset`; the second counts `sz_vals` in bytes. -/
def cleared (szKeyBlob szVals : UInt32) (v : NamedVars) : NamedVars :=
  (v.storeKeys (List.replicate szKeyBlob.toNat 0)).storeVals (List.replicate szVals.toNat 0)

end NamedVars

/-- The checks on the four words after the header. -/
def checkNamedHead {σ : Type} (szKeyBlob : UInt32) (n1 : Int) (hdr : Bytes) : Body σ Unit := do
  let dtVal := parType (word hdr 0)
  Proc.exitIf (dtVal ≠ dtSexp) .reply
  let n2 := CInt.toInt ((parLen (word hdr 0) : Int) - 12)
  Proc.exitIf (CInt.toInt ((CInt.toSizeT n1 : Int) - hdrLen) ≠ n2) .reply
  Proc.exitIf (parType (word hdr 2) ≠ xtListTag) .reply
  let xtVal := parType (word hdr 3)
  Proc.exitIf (xtVal ≠ xtArrayStr) .reply
  let lSzKeyBlob := parLen (word hdr 3)
  Proc.exitIf (szKeyBlob.toNat ≤ lSzKeyBlob) .reply

/-- Keys, twelve bytes that are not looked at, and values. -/
def recvNamed (sock : Int) (szVals : UInt32) (lSzKeyBlob : Nat) : Body NamedVars Unit := do
  recvInto sock lSzKeyBlob NamedVars.storeKeys
  let keyBlob ← Proc.view fun v => v.keyBlob
  let chkNVals := (keyBlob.take lSzKeyBlob).count 0
  let _ ← recvBuf sock 12
  let nVals := CInt.toUInt32 chkNVals
  let lSzVals := CInt.toUInt32 (nVals * 8 : Nat)
  Proc.exitIf (szVals.toNat ≤ nVals) .reply
  recvInto sock lSzVals NamedVars.storeVals
  Proc.update fun v => { v with nVals := nVals, nKeyBlob := lSzKeyBlob }

/-- The reply half of `get_named_vec_F8`. -/
def getNamedVecReply (sock : Int) (szKeyBlob szVals : UInt32) : Body NamedVars Unit := do
  let buf ← recvBuf sock hdrLen
  let n1 := (Phdr.ofBytes buf).len.toInt
  Proc.exitIf (n1 = 0) .reply
  let hdr ← recvBuf sock hdrLen
  checkNamedHead szKeyBlob n1 hdr
  recvNamed sock szVals (parLen (word hdr 3))

def getNamedVecF8Body (sock : Int) (name : Option CStr) (szKeyBlob szVals : UInt32) :
    Body NamedVars Unit := do
  let param1 ← Proc.ofExcept (mkDtString name)
  Proc.update (NamedVars.cleared szKeyBlob szVals)
  sendRequest sock .eval param1
  getNamedVecReply sock szKeyBlob szVals

def getNamedVecF8 (sock : Int) (name : Option CStr) (szKeyBlob szVals : UInt32)
    (v : NamedVars) : SysProg (Status × NamedVars) :=
  (getNamedVecF8Body sock name szKeyBlob szVals).finish v
    fun exit v => (Status.ofExit exit, v)

/-- The four words after the header that pass: types, lengths, and keys that leave
room in the caller's array. -/
def namedHeadAccepted (szKeyBlob : UInt32) (n1 : Int) (words : Bytes) : Prop :=
  parType (word words 0) = dtSexp ∧ n1 = parLen (word words 0) + 4 ∧
    parType (word words 2) = xtListTag ∧ parType (word words 3) = xtArrayStr ∧
    parLen (word words 3) < szKeyBlob.toNat

instance (szKeyBlob : UInt32) (n1 : Int) (words : Bytes) :
    Decidable (namedHeadAccepted szKeyBlob n1 words) :=
  inferInstanceAs (Decidable (_ ∧ _))

/-- The number of names: the NUL bytes among the next `len` bytes. -/
def namedCount (len : Nat) (rest : Bytes) : Nat := (rest.take len).count 0

theorem namedCount_le (len : Nat) (rest : Bytes) : namedCount len rest ≤ len := by
  have hcount : (rest.take len).count 0 ≤ (rest.take len).length := List.count_le_length
  rw [List.length_take] at hcount
  rw [namedCount]
  omega

/-- The comparison of `int` values is a comparison of the lengths themselves. -/
theorem named_lengths_agree_iff (len : Int32) (words : Bytes) :
    CInt.toInt ((CInt.toSizeT len.toInt : Int) - hdrLen) =
        CInt.toInt ((parLen (word words 0) : Int) - 12) ↔
      len.toInt = parLen (word words 0) + 4 := by
  have hlo := len.le_toInt
  have hhi := len.toInt_lt
  have hlt := parLen_lt (LittleEndian.word_lt words 0)
  simp only [CInt.toInt, CInt.toSizeT, hdrLen]
  omega

/-- The outputs once keys and values have come. -/
def NamedVars.filled (v : NamedVars) (keys vals : Bytes) (nVals : Nat) : NamedVars :=
  { (v.storeKeys keys).storeVals vals with nVals := nVals, nKeyBlob := keys.length }

section Reply

variable {sock : Int} {c : Conn} {v : NamedVars} {szKeyBlob szVals : UInt32}

theorem exec_checkNamedHead (szKeyBlob : UInt32) {σ : Type} {s : σ} (len : Int32) (words : Bytes) :
    execOn (checkNamedHead szKeyBlob len.toInt words) s c =
      if namedHeadAccepted szKeyBlob len.toInt words then ⟨.ok (), s, c⟩
      else ⟨.error .reply, s, c⟩ := by
  have hagree := named_lengths_agree_iff len words
  rw [execOn, checkNamedHead]
  by_cases hdt : parType (word words 0) = dtSexp
  swap
  · rw [if_neg (fun h => hdt h.1)]
    exact Proc.exec_exitIf_pos hdt
  rw [Proc.exec_exitIf_neg (not_not_intro hdt)]
  by_cases hlen : len.toInt = parLen (word words 0) + 4
  swap
  · rw [if_neg (fun h => hlen h.2.1)]
    exact Proc.exec_exitIf_pos (mt hagree.mp hlen)
  rw [Proc.exec_exitIf_neg (not_not_intro (hagree.mpr hlen))]
  by_cases htag : parType (word words 2) = xtListTag
  swap
  · rw [if_neg (fun h => htag h.2.2.1)]
    exact Proc.exec_exitIf_pos htag
  rw [Proc.exec_exitIf_neg (not_not_intro htag)]
  by_cases hstr : parType (word words 3) = xtArrayStr
  swap
  · rw [if_neg (fun h => hstr h.2.2.2.1)]
    exact Proc.exec_exitIf_pos hstr
  rw [Proc.exec_exitIf_neg (not_not_intro hstr), Proc.exec_exitIf]
  by_cases hroom : szKeyBlob.toNat ≤ parLen (word words 3)
  · rw [if_pos hroom, if_neg (fun h => Nat.not_lt.mpr hroom h.2.2.2.2)]
  · rw [if_neg hroom, if_pos ⟨hdt, hlen, htag, hstr, Nat.lt_of_not_le hroom⟩]

/-- Keys and values are taken from right after the four words. -/
theorem exec_recvNamed (hsock : 0 ≤ sock) (hopen : c.isOpen = true)
    (h32 : 32 ≤ (avail c.inc).length) {len m : Nat} (hlen : len < 2 ^ 24)
    (hm : namedCount len ((avail c.inc).drop 32) = m) :
    execOn (recvNamed sock szVals len) v (c.skip 32) =
      if (avail c.inc).length < 32 + len then
        stoppedAt (v.storeKeys ((avail c.inc).drop 32)) (c.skip 32)
      else if (avail c.inc).length < 44 + len then
        stoppedAt (v.storeKeys (((avail c.inc).drop 32).take len)) (c.skip (32 + len))
      else if szVals.toNat ≤ m then
        ⟨.error .reply, v.storeKeys (((avail c.inc).drop 32).take len), c.skip (44 + len)⟩
      else if (avail c.inc).length < 44 + len + 8 * m then
        stoppedAt ((v.storeKeys (((avail c.inc).drop 32).take len)).storeVals
          ((avail c.inc).drop (44 + len))) (c.skip (44 + len))
      else
        ⟨.ok (), v.filled (((avail c.inc).drop 32).take len)
          (((avail c.inc).drop (44 + len)).take (8 * m)) m, c.skip (44 + len + 8 * m)⟩ := by
  have hmle : m ≤ len := hm ▸ namedCount_le len _
  have hm32 : CInt.toUInt32 (m : Int) = m := by
    rw [CInt.toUInt32_natCast, Nat.mod_eq_of_lt (by omega)]
  have hm8 : CInt.toUInt32 ((m * 8 : Nat) : Int) = 8 * m := by
    rw [CInt.toUInt32_natCast, Nat.mod_eq_of_lt (by omega), Nat.mul_comm]
  rw [execOn, recvNamed]
  by_cases hkeys : (avail c.inc).length < 32 + len
  · rw [if_pos hkeys]
    exact Proc.exec_bind_error (exec_recvInto_short hsock hopen rfl h32 hkeys _ v)
  have hklen : (((avail c.inc).drop 32).take len).length = len := by
    rw [List.length_take, List.length_drop]
    omega
  have hblob : ((v.storeKeys (((avail c.inc).drop 32).take len)).keyBlob.take len).count 0 =
      m := by
    have htake := take_overwrite v.keyBlob (((avail c.inc).drop 32).take len)
    rw [hklen] at htake
    rw [NamedVars.storeKeys, htake, ← hm, namedCount]
  rw [if_neg hkeys, Proc.exec_bind_ok (exec_recvInto hsock hopen rfl (by omega) _ v),
    Proc.exec_view_bind, hblob]
  dsimp only
  rw [hm32, hm8]
  have h12 : (12 : Int) = ((12 : Nat) : Int) := rfl
  have h44 : 32 + len + 12 = 44 + len := by omega
  by_cases hgap : (avail c.inc).length < 44 + len
  · rw [if_pos hgap]
    exact Proc.exec_bind_error (exec_recvBuf_short hsock hopen h12 (by omega) (by omega) _)
  rw [if_neg hgap, Proc.exec_bind_ok (exec_recvBuf hsock hopen h12 (by omega) _), h44]
  by_cases hroom : szVals.toNat ≤ m
  · rw [if_pos hroom]
    exact Proc.exec_exitIf_pos hroom
  rw [if_neg hroom, Proc.exec_exitIf_neg hroom]
  by_cases hvals : (avail c.inc).length < 44 + len + 8 * m
  · rw [if_pos hvals]
    exact Proc.exec_bind_error (exec_recvInto_short hsock hopen rfl (by omega) hvals _ _)
  · rw [if_neg hvals, Proc.exec_bind_ok (exec_recvInto hsock hopen rfl (by omega) _ _),
      Proc.exec_update, NamedVars.filled, hklen]

/-- Everything the reply half can do, in the order of its checks. -/
theorem exec_getNamedVecReply (hsock : 0 ≤ sock) (hopen : c.isOpen = true) {words : Bytes}
    (hwords : (avail c.inc).drop 16 = words) {len m : Nat} (hlen : parLen (word words 3) = len)
    (hm : namedCount len ((avail c.inc).drop 32) = m) :
    execOn (getNamedVecReply sock szKeyBlob szVals) v c =
      if (avail c.inc).length < 16 then stoppedAt v c
      else if (replyHdr c.inc).len.toInt = 0 then ⟨.error .reply, v, c.skip 16⟩
      else if (avail c.inc).length < 32 then stoppedAt v (c.skip 16)
      else if ¬ namedHeadAccepted szKeyBlob (replyHdr c.inc).len.toInt words then
        ⟨.error .reply, v, c.skip 32⟩
      else if (avail c.inc).length < 32 + len then
        stoppedAt (v.storeKeys ((avail c.inc).drop 32)) (c.skip 32)
      else if (avail c.inc).length < 44 + len then
        stoppedAt (v.storeKeys (((avail c.inc).drop 32).take len)) (c.skip (32 + len))
      else if szVals.toNat ≤ m then
        ⟨.error .reply, v.storeKeys (((avail c.inc).drop 32).take len), c.skip (44 + len)⟩
      else if (avail c.inc).length < 44 + len + 8 * m then
        stoppedAt ((v.storeKeys (((avail c.inc).drop 32).take len)).storeVals
          ((avail c.inc).drop (44 + len))) (c.skip (44 + len))
      else
        ⟨.ok (), v.filled (((avail c.inc).drop 32).take len)
          (((avail c.inc).drop (44 + len)).take (8 * m)) m, c.skip (44 + len + 8 * m)⟩ := by
  have hlen24 : len < 2 ^ 24 := hlen ▸ parLen_lt (LittleEndian.word_lt words 3)
  have h16int : (hdrLen : Int) = ((16 : Nat) : Int) := rfl
  have hstart := c.skip_zero
  have hhdr : Phdr.ofBytes (avail c.inc) = replyHdr c.inc := rfl
  by_cases h16 : (avail c.inc).length < 16
  · have hread := exec_recvBuf_short hsock hopen h16int (n := 0) (Nat.zero_le _) (by omega) v
    rw [hstart] at hread
    rw [if_pos h16]
    exact Proc.exec_bind_error hread
  have hread := exec_recvBuf hsock hopen h16int (n := 0) (k := 16) (by omega) v
  rw [hstart, List.drop_zero, Nat.zero_add] at hread
  rw [if_neg h16, execOn, getNamedVecReply, Proc.exec_bind_ok hread, Phdr.ofBytes_take,
    hhdr]
  by_cases hn1 : (replyHdr c.inc).len.toInt = 0
  · rw [if_pos hn1]
    exact Proc.exec_exitIf_pos hn1
  rw [if_neg hn1, Proc.exec_exitIf_neg hn1]
  by_cases h32 : (avail c.inc).length < 32
  · rw [if_pos h32]
    exact Proc.exec_bind_error (exec_recvBuf_short hsock hopen h16int (by omega) (by omega) v)
  have hword : ∀ i, i < 4 → word (((avail c.inc).drop 16).take 16) i = word words i := by
    intro i hi
    rw [LittleEndian.word_take _ 16 i (by omega), hwords]
  have hhead := exec_checkNamedHead szKeyBlob (s := v) (c := c.skip 32)
    (replyHdr c.inc).len (((avail c.inc).drop 16).take 16)
  have hcond : namedHeadAccepted szKeyBlob (replyHdr c.inc).len.toInt
      (((avail c.inc).drop 16).take 16) ↔
      namedHeadAccepted szKeyBlob (replyHdr c.inc).len.toInt words := by
    simp only [namedHeadAccepted, hword 0 (by decide), hword 2 (by decide),
      hword 3 (by decide)]
  rw [if_neg h32, Proc.exec_bind_ok (exec_recvBuf hsock hopen h16int (n := 16) (by omega) v),
    hword 3 (by decide), hlen]
  by_cases hgood : namedHeadAccepted szKeyBlob (replyHdr c.inc).len.toInt words
  · rw [if_pos (hcond.mpr hgood)] at hhead
    rw [if_neg (not_not_intro hgood), Proc.exec_bind_ok hhead]
    exact exec_recvNamed hsock hopen (Nat.le_of_not_lt h32) hlen24 hm
  · rw [if_neg (mt hcond.mp hgood)] at hhead
    rw [if_pos hgood]
    exact Proc.exec_bind_error hhead

/-- The length of the key block a reply tells. -/
def keysLen (inc : List (Arrival UInt8)) : Nat := parLen (word ((avail inc).drop 16) 3)

/-- The number of names in it. -/
def keysCount (inc : List (Arrival UInt8)) : Nat :=
  namedCount (keysLen inc) ((avail inc).drop 32)

theorem keysLen_eq (inc : List (Arrival UInt8)) :
    parLen (word ((avail inc).drop 16) 3) = keysLen inc := rfl

theorem keysCount_eq (inc : List (Arrival UInt8)) :
    namedCount (keysLen inc) ((avail inc).drop 32) = keysCount inc := rfl

/-- The bytes an accepted reply takes from the stream. -/
def namedTaken (inc : List (Arrival UInt8)) : Nat := 44 + keysLen inc + 8 * keysCount inc

/-- The replies that pass: four accepted words, fewer names than `sz_vals`, and all
bytes the names ask for. -/
def namedAccepted (szKeyBlob szVals : UInt32) (inc : List (Arrival UInt8)) : Prop :=
  32 ≤ (avail inc).length ∧
    namedHeadAccepted szKeyBlob (replyHdr inc).len.toInt ((avail inc).drop 16) ∧
    keysCount inc < szVals.toNat ∧ namedTaken inc ≤ (avail inc).length

instance (szKeyBlob szVals : UInt32) (inc : List (Arrival UInt8)) :
    Decidable (namedAccepted szKeyBlob szVals inc) :=
  inferInstanceAs (Decidable (_ ∧ _ ∧ _ ∧ _))

/-- The outputs after an accepted reply. -/
def namedOut (inc : List (Arrival UInt8)) (v : NamedVars) : NamedVars :=
  v.filled (((avail inc).drop 32).take (keysLen inc))
    (((avail inc).drop (44 + keysLen inc)).take (8 * keysCount inc)) (keysCount inc)

theorem exec_getNamedVecReply_ok (hsock : 0 ≤ sock) (hopen : c.isOpen = true)
    (h : namedAccepted szKeyBlob szVals c.inc) :
    execOn (getNamedVecReply sock szKeyBlob szVals) v c =
      ⟨.ok (), namedOut c.inc v, c.skip (namedTaken c.inc)⟩ := by
  obtain ⟨h32, hgood, hroom, hall⟩ := h
  have hall' : 44 + keysLen c.inc + 8 * keysCount c.inc ≤ (avail c.inc).length := hall
  have hn1 := hgood.2.1
  rw [exec_getNamedVecReply hsock hopen rfl (keysLen_eq c.inc) (keysCount_eq c.inc),
    if_neg (by omega), if_neg (by omega), if_neg (by omega), if_neg (not_not_intro hgood),
    if_neg (by omega), if_neg (by omega), if_neg (Nat.not_le.mpr hroom),
    if_neg (Nat.not_lt.mpr hall')]
  rfl

theorem exec_getNamedVecReply_bad (hsock : 0 ≤ sock) (hopen : c.isOpen = true)
    (h : ¬ namedAccepted szKeyBlob szVals c.inc) :
    ∃ why v' inc', execOn (getNamedVecReply sock szKeyBlob szVals) v c =
      ⟨.error why, v', c.withInc inc'⟩ := by
  rw [exec_getNamedVecReply hsock hopen rfl (keysLen_eq c.inc) (keysCount_eq c.inc)]
  by_cases h16 : (avail c.inc).length < 16
  · rw [if_pos h16]
    exact ⟨_, _, _, rfl⟩
  by_cases h0 : (replyHdr c.inc).len.toInt = 0
  · rw [if_neg h16, if_pos h0]
    exact ⟨_, _, _, rfl⟩
  by_cases h32 : (avail c.inc).length < 32
  · rw [if_neg h16, if_neg h0, if_pos h32]
    exact ⟨_, _, _, rfl⟩
  rw [if_neg h16, if_neg h0, if_neg h32]
  by_cases hgood : namedHeadAccepted szKeyBlob (replyHdr c.inc).len.toInt ((avail c.inc).drop 16)
  swap
  · rw [if_pos hgood]
    exact ⟨_, _, _, rfl⟩
  by_cases hkeys : (avail c.inc).length < 32 + keysLen c.inc
  · rw [if_neg (not_not_intro hgood), if_pos hkeys]
    exact ⟨_, _, _, rfl⟩
  by_cases hgap : (avail c.inc).length < 44 + keysLen c.inc
  · rw [if_neg (not_not_intro hgood), if_neg hkeys, if_pos hgap]
    exact ⟨_, _, _, rfl⟩
  rw [if_neg (not_not_intro hgood), if_neg hkeys, if_neg hgap]
  by_cases hroom : szVals.toNat ≤ keysCount c.inc
  · rw [if_pos hroom]
    exact ⟨_, _, _, rfl⟩
  by_cases hvals : (avail c.inc).length < 44 + keysLen c.inc + 8 * keysCount c.inc
  · rw [if_neg hroom, if_pos hvals]
    exact ⟨_, _, _, rfl⟩
  exact absurd ⟨Nat.le_of_not_lt h32, hgood, Nat.lt_of_not_le hroom, Nat.le_of_not_lt hvals⟩ h

end Reply

section Whole

variable {c : Conn} {name : Option CStr} {bs : Bytes} (sock : Int) (szKeyBlob szVals : UInt32)

/-- An accepted name is sent whole before the reply is read. -/
theorem exec_getNamedVecF8Body (hc : c.Ready) (hreq : nameRequest .eval name = some bs)
    (v : NamedVars) :
    execOn (getNamedVecF8Body sock name szKeyBlob szVals) v c =
      execOn (getNamedVecReply sock szKeyBlob szVals) (v.cleared szKeyBlob szVals)
        (c.push bs) := by
  obtain ⟨s, rfl, hfits, rfl⟩ := nameRequest_eq_some hreq
  have hsend := exec_sendName hc sock .eval hfits.1 (v.cleared szKeyBlob szVals)
  rw [if_pos hfits] at hsend
  rw [execOn, getNamedVecF8Body, mkDtString_some, if_neg (Nat.not_lt.mpr hfits.1),
    Proc.exec_bind_ok (Proc.exec_ofExcept_ok _ _ _ _), Proc.exec_update_bind,
    Proc.exec_bind_ok hsend]

/-- A refused name leaves the connection alone. -/
theorem exec_getNamedVecF8Body_refused (hreq : nameRequest .eval name = none)
    (v : NamedVars) :
    ∃ why v', execOn (getNamedVecF8Body sock name szKeyBlob szVals) v c =
      ⟨.error why, v', c⟩ := by
  rw [execOn, getNamedVecF8Body]
  cases name with
  | none => exact ⟨.argument, v, Proc.exec_bind_error (Proc.exec_ofExcept_error _ _ _ _)⟩
  | some s =>
      rw [mkDtString_some]
      by_cases hmem : ptrdiffMax < 4 + lenName s
      · rw [if_pos hmem]
        exact ⟨.memory, v, Proc.exec_bind_error (Proc.exec_ofExcept_error _ _ _ _)⟩
      · have hfits : ¬ requestFits s := by
          intro hfits
          simp [nameRequest, hfits] at hreq
        have hsend := exec_sendName_refused sock .eval (Nat.le_of_not_lt hmem) hfits
          (v.cleared szKeyBlob szVals) c
        rw [if_neg hmem, Proc.exec_bind_ok (Proc.exec_ofExcept_ok _ _ _ _),
          Proc.exec_update_bind]
        exact ⟨.argument, _, Proc.exec_bind_error hsend⟩

end Whole

end RserveClient
