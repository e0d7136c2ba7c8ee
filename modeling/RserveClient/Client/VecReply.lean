import RserveClient.Client.Param

/-!
# The head of a vector reply

`get_vec`, `get_F8` and `get_I4` check a reply in the same way up to its data:
header, type words, and the two lengths against each other. The steps are kept
once, with the type code as a parameter.
-/

namespace RserveClient

open Interaction Arrivals
open LittleEndian (word)

/-- The element types named by a `qtype` string. -/
inductive QType where
  | F8
  | I4
  | I1
  | SC
  deriving DecidableEq, Repr

namespace QType

/-- The characters of the name. -/
def name : QType → Bytes
  | F8 => [70, 56]
  | I4 => [73, 52]
  | I1 => [73, 49]
  | SC => [83, 67]

/-- The chain of `strcmp` against the four names. -/
def ofStr (s : CStr) : Option QType :=
  if s.bytes = F8.name then some F8
  else if s.bytes = I4.name then some I4
  else if s.bytes = I1.name then some I1
  else if s.bytes = SC.name then some SC
  else none

/-- The name as a C string. -/
def str : QType → CStr
  | F8 => ⟨F8.name, by decide⟩
  | I4 => ⟨I4.name, by decide⟩
  | I1 => ⟨I1.name, by decide⟩
  | SC => ⟨SC.name, by decide⟩

def xt : QType → Nat
  | F8 => xtArrayDouble
  | I4 => xtArrayInt
  | I1 => xtArrayBool
  | SC => xtArrayStr

/-- Bytes of an element; the caller tells the width of an `SC` slot. -/
def width : QType → Nat
  | F8 => 8
  | I4 => 4
  | I1 => 1
  | SC => 0

/-- Logicals are preceded by a count word. -/
def countLen : QType → Nat
  | I1 => 4
  | _ => 0

@[simp] theorem ofStr_str (q : QType) : ofStr q.str = some q := by
  cases q <;> decide

theorem width_pos {q : QType} (hq : q ≠ .SC) : 0 < q.width := by
  cases q <;> first | decide | exact absurd rfl hq

theorem xt_lt (q : QType) : q.xt < 256 := by
  cases q <;> decide

end QType

/-- From `read_hdr` to the comparison of the two lengths. The value is the number
of bytes left in the reply. -/
def recvVecHead {σ : Type} (sock : Int) (xt : Nat) : Body σ Int := do
  let ph ← readHdr sock
  let numLeftToRead := ph.len.toInt
  let hdr ← readOnce sock 8
  Proc.exitIf (parType (word hdr 0) ≠ dtSexp) .reply
  Proc.exitIf (parType (word hdr 1) ≠ xt) .reply
  let len := parLen (word hdr 1)
  let numLeftToRead := CInt.toInt (numLeftToRead - 8)
  Proc.exitIf (numLeftToRead ≠ CInt.toInt len) .reply
  return numLeftToRead

/-- The type words and lengths that pass: a `DT_SEXP` of the type asked for,
whose own length leaves just the two words of the packet. -/
def headAccepted (xt : Nat) (len : Int) (words : Bytes) : Prop :=
  parType (word words 0) = dtSexp ∧ parType (word words 1) = xt ∧
    len = 8 + (parLen (word words 1) : Int)

instance (xt : Nat) (len : Int) (words : Bytes) : Decidable (headAccepted xt len words) :=
  inferInstanceAs (Decidable (_ ∧ _))

/-- Header and type words arrive as the code reads them: 16 bytes in any pieces,
then 8 bytes in one. -/
def headArrives (inc : List (Arrival UInt8)) : Prop :=
  hdrLen ≤ (avail inc).length ∧ 8 ≤ (front (skip hdrLen inc)).length

instance (inc : List (Arrival UInt8)) : Decidable (headArrives inc) :=
  inferInstanceAs (Decidable (_ ∧ _))

/-- The length in the XT word of a reply. -/
def xtLen (inc : List (Arrival UInt8)) : Nat := parLen (word ((avail inc).drop 16) 1)

theorem xtLen_lt (inc : List (Arrival UInt8)) : xtLen inc < 2 ^ 24 :=
  parLen_lt (LittleEndian.word_lt _ 1)

/-- The type words of a reply that has arrived pass for type `xt`. -/
def replyHeadAccepted (xt : Nat) (inc : List (Arrival UInt8)) : Prop :=
  headAccepted xt (replyHdr inc).len.toInt ((avail inc).drop 16)

instance (xt : Nat) (inc : List (Arrival UInt8)) : Decidable (replyHeadAccepted xt inc) :=
  inferInstanceAs (Decidable (headAccepted _ _ _))

theorem headArrives.le_length {inc : List (Arrival UInt8)} (h : headArrives inc) :
    24 ≤ (avail inc).length := by
  have hle := length_front_le (skip hdrLen inc)
  have hdr : hdrLen = 16 := rfl
  rw [avail_skip h.1, List.length_drop] at hle
  have h8 := h.2
  omega

section Head

variable {σ : Type} {sock : Int} {c : Conn} {s : σ}

/-- The comparison of `int` values is a comparison of the lengths themselves. -/
theorem lengths_agree_iff (len : Int32) (words : Bytes) :
    CInt.toInt (len.toInt - 8) = CInt.toInt (parLen (word words 1)) ↔
      len.toInt = 8 + (parLen (word words 1) : Int) := by
  have hlo := len.le_toInt
  have hhi := len.toInt_lt
  have hlt := parLen_lt (LittleEndian.word_lt words 1)
  simp only [CInt.toInt]
  omega

/-- When it has arrived the head is checked after exactly 24 bytes. -/
theorem exec_recvVecHead (hsock : 0 ≤ sock) (hopen : c.isOpen = true)
    (hhead : headArrives c.inc) (xt : Nat) :
    execOn (recvVecHead sock xt) s c =
      if replyHeadAccepted xt c.inc then ⟨.ok (xtLen c.inc), s, c.skip 24⟩
      else ⟨.error .reply, s, c.skip 24⟩ := by
  obtain ⟨h16, h8⟩ := hhead
  have hw0 := LittleEndian.word_take ((avail c.inc).drop 16) 8 0 (by decide)
  have hw1 := LittleEndian.word_take ((avail c.inc).drop 16) 8 1 (by decide)
  have hagree := lengths_agree_iff (replyHdr c.inc).len ((avail c.inc).drop 16)
  have hlt := parLen_lt (LittleEndian.word_lt ((avail c.inc).drop 16) 1)
  rw [execOn, recvVecHead, Proc.exec_bind_ok (exec_readHdr hsock hopen h16 s),
    Proc.exec_bind_ok (exec_readOnce hopen (by decide) h16 h8 sock s), hw0, hw1]
  by_cases hdt : parType (word ((avail c.inc).drop 16) 0) = dtSexp
  swap
  · rw [if_neg (fun h => hdt h.1)]
    exact Proc.exec_exitIf_pos hdt
  rw [Proc.exec_exitIf_neg (not_not_intro hdt)]
  by_cases hxt : parType (word ((avail c.inc).drop 16) 1) = xt
  swap
  · rw [if_neg (fun h => hxt h.2.1)]
    exact Proc.exec_exitIf_pos hxt
  rw [Proc.exec_exitIf_neg (not_not_intro hxt)]
  by_cases heq : (replyHdr c.inc).len.toInt =
      8 + (parLen (word ((avail c.inc).drop 16) 1) : Int)
  swap
  · rw [if_neg (fun h => heq h.2.2)]
    exact Proc.exec_exitIf_pos (mt hagree.mp heq)
  have hint : CInt.toInt ((replyHdr c.inc).len.toInt - 8) = (xtLen c.inc : Int) := by
    rw [hagree.mpr heq]
    exact CInt.toInt_eq (by omega) (by omega)
  rw [Proc.exec_exitIf_neg (not_not_intro (hagree.mpr heq)), if_pos ⟨hdt, hxt, heq⟩,
    Proc.exec_pure, hint]

theorem exec_recvVecHead_negative (hsock : sock < 0) (xt : Nat) (s : σ) :
    execOn (recvVecHead sock xt) s c = ⟨.error .argument, s, c⟩ := by
  exact Proc.exec_bind_error (Proc.exec_bind_error (exec_recvBuf_negative hsock hdrLen s c))

/-- Otherwise it fails in the transport. -/
theorem exec_recvVecHead_transport (hsock : 0 ≤ sock) (hopen : c.isOpen = true)
    (h : ¬ headArrives c.inc) (xt : Nat) :
    ∃ why inc', execOn (recvVecHead sock xt) s c = ⟨.error why, s, c.withInc inc'⟩ ∧
      why.isTransport := by
  by_cases h16 : (avail c.inc).length < hdrLen
  · exact ⟨_, _, Proc.exec_bind_error (exec_readHdr_short hsock hopen h16 s),
      isTransport_whyStopped _⟩
  · have h8 : (front (c.skip hdrLen).inc).length < 8 :=
      Nat.lt_of_not_le fun hle => h ⟨Nat.le_of_not_lt h16, hle⟩
    obtain ⟨why, inc', hread, htransport⟩ :=
      exec_readOnce_short (c := c.skip hdrLen) hopen h8 sock s
    refine ⟨why, inc', ?_, htransport⟩
    rw [execOn, recvVecHead, Proc.exec_bind_ok (exec_readHdr hsock hopen (Nat.le_of_not_lt h16) s)]
    exact Proc.exec_bind_error hread

/-- A head that passes tells the length of what is left. -/
theorem of_exec_recvVecHead_ok {c' : Conn} {s' : σ} {xt : Nat} {n : Int}
    (hexec : execOn (recvVecHead sock xt) s c = ⟨.ok n, s', c'⟩) :
    n = xtLen c.inc ∧ (replyHdr c.inc).len.toInt = 8 + (xtLen c.inc : Int) := by
  obtain ⟨ph, s1, c1, hhdr, _⟩ := Proc.of_exec_bind_ok (congrArg Final.exit hexec)
  obtain ⟨hsock, hopen, _⟩ := of_exec_readHdr_ok hhdr
  by_cases hhead : headArrives c.inc
  · rw [exec_recvVecHead hsock hopen hhead] at hexec
    by_cases hgood : replyHeadAccepted xt c.inc
    · rw [if_pos hgood] at hexec
      cases hexec
      exact ⟨rfl, hgood.2.2⟩
    · rw [if_neg hgood] at hexec
      cases hexec
  · obtain ⟨why, inc', hstop, _⟩ := exec_recvVecHead_transport (s := s) hsock hopen hhead xt
    rw [hstop] at hexec
    cases hexec

end Head

end RserveClient
