import RserveClient.Client.Socket
import RserveClient.Foundation.Loop
import RserveClient.Foundation.Padding

/-!
# The string parameter and the request that carries it

`mk_dt_string` encodes a name or an R expression as a `DT_STRING` parameter.
Every evaluating operation sends a header and this one parameter.
-/

namespace RserveClient

open Interaction Padding

/-- The extension loop. Its comment wants `4 + len` divisible by 8; the test it
makes is met by the next multiple of 8 itself, after at most seven rounds. -/
def extendLen : Nat → Nat → Nat
  | 0, len => len
  | fuel + 1, len => if (len + 4) / 8 * 8 ≠ len then extendLen fuel (len + 1) else len

theorem extendLen_eq (fuel len : Nat) (h : roundUp 8 len ≤ len + fuel) :
    extendLen fuel len = roundUp 8 len := by
  induction fuel generalizing len with
  | zero => exact Nat.le_antisymm (le_roundUp (by decide) len) h
  | succ fuel ih =>
      unfold roundUp at h ih ⊢
      rw [extendLen]
      split
      · rw [ih (len + 1) (by omega)]
        omega
      · omega

/-- One round of that loop, whose source has no bound on their number. -/
def extendRound (len : Nat) : Loop.Round Nat Nat :=
  if (len + 4) / 8 * 8 ≠ len then .again (len + 1) else .leave len

def extendLoop : Nat → Nat → Option Nat := Loop.iterate extendRound

/-- From every start value the loop is left within eight rounds. The variant is the
distance to the multiple it stops at, which no round steps over. -/
theorem extendLoop_eq {fuel len : Nat} (hfuel : 8 ≤ fuel) :
    extendLoop fuel len = some (roundUp 8 len) := by
  have hround : ∀ a, len ≤ a ∧ a ≤ roundUp 8 len →
      (extendRound a).Keeps (· = roundUp 8 len) (fun b => len ≤ b ∧ b ≤ roundUp 8 len)
        (fun b => roundUp 8 len - b) (roundUp 8 len - a) := by
    intro a ha
    unfold roundUp at ha ⊢
    rw [extendRound]
    split <;> simp only [Loop.Round.Keeps] <;> omega
  have hle := le_roundUp (k := 8) (by decide) len
  have hlt := roundUp_lt (k := 8) (by decide) len
  have hvariant : roundUp 8 len - len < fuel := by omega
  obtain ⟨r, hr, rfl⟩ := Loop.iterate_of_variant (fun b => roundUp 8 len - b) hround
    ⟨Nat.le_refl len, hle⟩ hvariant
  exact hr

/-- The number of bytes the string takes after the loop. -/
def lenName (name : CStr) : Nat := extendLen 8 (name.bytes.length + 1)

theorem lenName_eq (name : CStr) : lenName name = roundUp 8 (name.bytes.length + 1) := by
  apply extendLen_eq
  have h := roundUp_lt (k := 8) (by decide) (name.bytes.length + 1)
  omega

/-- The string and the zeros after it, at least one. -/
def paddedName (name : CStr) : Bytes :=
  name.bytes ++ List.replicate (lenName name - name.bytes.length) 0

def mkDtString : Option CStr → Except Why Bytes
  | none => .error .argument
  | some name =>
      let lenParam := 4 + lenName name
      if ptrdiffMax < lenParam then .error .memory
      else
        let param := LittleEndian.encode 4 (parWord (lenName name) dtString) ++ paddedName name
        if lenParam % 4 ≠ 0 then .error .argument else .ok param

theorem length_lt_lenName (name : CStr) : name.bytes.length < lenName name := by
  rw [lenName_eq]
  exact le_roundUp (by decide) (name.bytes.length + 1)

theorem length_paddedName (name : CStr) : (paddedName name).length = lenName name := by
  have h := length_lt_lenName name
  rw [paddedName, List.length_append, List.length_replicate]
  omega

theorem eight_dvd_lenName (name : CStr) : 8 ∣ lenName name := by
  rw [lenName_eq]
  exact dvd_roundUp 8 _

/-- The parameter `mk_dt_string` builds. -/
def nameParam (name : CStr) : Bytes :=
  LittleEndian.encode 4 (parWord (lenName name) dtString) ++ paddedName name

theorem length_nameParam (name : CStr) : (nameParam name).length = 4 + lenName name := by
  rw [nameParam, List.length_append, LittleEndian.length_encode, length_paddedName]

theorem nameParam_eq (name : CStr) : nameParam name = (param dtString (paddedName name)).bytes := by
  rw [nameParam, param, length_paddedName]
  rfl

/-- A string is refused only when its parameter cannot be allocated. -/
theorem mkDtString_some (name : CStr) :
    mkDtString (some name) =
      if ptrdiffMax < 4 + lenName name then .error .memory else .ok (nameParam name) := by
  have hdvd := eight_dvd_lenName name
  have hquad : ¬ (4 + lenName name) % 4 ≠ 0 := by omega
  simp only [mkDtString, if_neg hquad, nameParam]

theorem mkDtString_eq_ok {name : CStr} {param1 : Bytes}
    (h : mkDtString (some name) = .ok param1) :
    4 + lenName name ≤ ptrdiffMax ∧ param1 = nameParam name := by
  rw [mkDtString_some] at h
  by_cases hmem : ptrdiffMax < 4 + lenName name
  · rw [if_pos hmem] at h
    cases h
  · rw [if_neg hmem] at h
    exact ⟨Nat.le_of_not_lt hmem, (Except.ok.inj h).symm⟩

/-- The terminator is there. -/
theorem zero_mem_paddedName (name : CStr) : 0 ∈ paddedName name := by
  have hlt := length_lt_lenName name
  apply List.mem_append_right
  exact List.mem_replicate.mpr ⟨by omega, rfl⟩

/-- The NUL-terminated content of a padded name is the name. -/
theorem takeWhile_paddedName (name : CStr) :
    (paddedName name).takeWhile (· ≠ 0) = name.bytes := by
  have hlt := length_lt_lenName name
  obtain ⟨k, hk⟩ : ∃ k, lenName name - name.bytes.length = k + 1 :=
    ⟨lenName name - name.bytes.length - 1, by omega⟩
  rw [paddedName, hk, List.replicate_succ, CStr.takeWhile_append_nul name.nulFree]

/-- Header and parameter, as `exec_str` and the getters send them. -/
def sendRequest {σ : Type} (sock : Int) (command : Command) (param1 : Bytes) : Body σ Unit := do
  let ph ← Proc.ofExcept (mkHdr command (Int32.ofInt param1.length))
  sendBuf sock ph.bytes hdrLen
  sendBuf sock param1 param1.length

/-- The header that announces a payload of the given length. -/
def requestHdr (command : Command) (payloadLen : Nat) : Phdr :=
  { cmd := command.code, len := Int32.ofInt payloadLen, msgId := 0, res := 0 }

/-- `mk_hdr` accepts the length: its value as an `int` is not negative. -/
def lenAccepted (payloadLen : Nat) : Prop := 0 ≤ CInt.toInt payloadLen

instance (payloadLen : Nat) : Decidable (lenAccepted payloadLen) :=
  inferInstanceAs (Decidable (0 ≤ CInt.toInt payloadLen))

theorem mkHdr_eq (command : Command) (payloadLen : Nat) :
    mkHdr command (Int32.ofInt payloadLen) =
      if lenAccepted payloadLen then .ok (requestHdr command payloadLen)
      else .error .argument := by
  by_cases h : lenAccepted payloadLen
  · have hneg : ¬ (Int32.ofInt payloadLen).toInt < 0 := by
      rw [CInt.toInt_ofInt]
      exact Int.not_lt.mpr h
    rw [mkHdr, if_neg hneg, if_pos h, requestHdr]
  · have hneg : (Int32.ofInt payloadLen).toInt < 0 := by
      rw [CInt.toInt_ofInt]
      exact Int.not_le.mp h
    rw [mkHdr, if_pos hneg, if_neg h]

theorem exec_sendRequest {σ : Type} {c : Conn} (hc : c.Ready) (sock : Int) (command : Command)
    (param1 : Bytes) (s : σ) (hlen : param1.length ≤ ptrdiffMax) :
    execOn (sendRequest sock command param1) s c =
      if lenAccepted param1.length then
        ⟨.ok (), s, c.push ((requestHdr command param1.length).bytes ++ param1)⟩
      else ⟨.error .argument, s, c⟩ := by
  have hhdr := exec_sendBuf hc sock (requestHdr command param1.length).bytes s
    (by rw [Phdr.length_bytes]; decide)
  have hpar := exec_sendBuf (hc.push (requestHdr command param1.length).bytes) sock param1 s
    (by unfold ptrdiffMax at hlen; omega)
  rw [Phdr.length_bytes] at hhdr
  simp only [execOn] at hhdr hpar
  simp only [execOn, sendRequest, Proc.exec_bind, mkHdr_eq]
  split
  · simp only [Proc.exec_ofExcept_ok, Final.andThen_ok, Proc.exec_bind, hhdr, hpar,
      Conn.push_push]
  · simp only [Proc.exec_ofExcept_error, Final.andThen_error]

/-- The parameter can be allocated, and its length passes `mk_hdr`. -/
def requestFits (name : CStr) : Prop :=
  4 + lenName name ≤ ptrdiffMax ∧ lenAccepted (4 + lenName name)

instance (name : CStr) : Decidable (requestFits name) := inferInstanceAs (Decidable (_ ∧ _))

/-- Up to the limit of the length field nothing is refused. -/
theorem requestFits_of_lt {name : CStr} (h : 4 + lenName name < 2 ^ 24) : requestFits name := by
  constructor
  · rw [ptrdiffMax]
    omega
  · rw [lenAccepted, CInt.toInt_eq (by omega) (by omega)]
    omega

/-- The packet of a request with one string parameter. -/
def requestBytes (command : Command) (name : CStr) : Bytes :=
  (requestHdr command (4 + lenName name)).bytes ++ nameParam name

/-- Build the parameter and send the request: all of it, or nothing. -/
theorem exec_sendName {σ : Type} {c : Conn} (hc : c.Ready) (sock : Int) (command : Command)
    {name : CStr} (hmem : 4 + lenName name ≤ ptrdiffMax) (s : σ) :
    execOn (sendRequest sock command (nameParam name)) s c =
      if requestFits name then ⟨.ok (), s, c.push (requestBytes command name)⟩
      else ⟨.error .argument, s, c⟩ := by
  have hsend := exec_sendRequest hc sock command (nameParam name) s
    (by rw [length_nameParam]; exact hmem)
  rw [length_nameParam] at hsend
  rw [hsend]
  by_cases hlen : lenAccepted (4 + lenName name)
  · rw [if_pos hlen, if_pos ⟨hmem, hlen⟩, requestBytes]
  · rw [if_neg hlen, if_neg (fun h => hlen h.2)]

/-- A length that `mk_hdr` refuses is refused before anything is sent. -/
theorem exec_sendName_refused {σ : Type} (sock : Int) (command : Command) {name : CStr}
    (hmem : 4 + lenName name ≤ ptrdiffMax) (hfits : ¬ requestFits name) (s : σ) (c : Conn) :
    execOn (sendRequest sock command (nameParam name)) s c = ⟨.error .argument, s, c⟩ := by
  have hlen : ¬ lenAccepted (4 + lenName name) := fun h => hfits ⟨hmem, h⟩
  rw [execOn, sendRequest, length_nameParam, mkHdr_eq, if_neg hlen]
  exact Proc.exec_bind_error (Proc.exec_ofExcept_error _ _ _ _)

/-- What an operation with one string parameter sends when it accepts the string. -/
def nameRequest (command : Command) : Option CStr → Option Bytes
  | none => none
  | some name => if requestFits name then some (requestBytes command name) else none

section NameRequest

variable {σ : Type} {c : Conn} {command : Command} {name : Option CStr} {bs : Bytes}

theorem nameRequest_eq_some (h : nameRequest command name = some bs) :
    ∃ s, name = some s ∧ requestFits s ∧ bs = requestBytes command s := by
  cases name with
  | none => cases h
  | some s =>
      by_cases hfits : requestFits s
      · rw [nameRequest, if_pos hfits] at h
        exact ⟨s, rfl, hfits, (Option.some.inj h).symm⟩
      · rw [nameRequest, if_neg hfits] at h
        cases h

/-- An accepted string is sent whole before the reply is read. -/
theorem exec_nameRequest (sock : Int) (hc : c.Ready)
    (hreq : nameRequest command name = some bs) (v : σ) (reply : Body σ Unit) :
    execOn (do
        let param1 ← Proc.ofExcept (mkDtString name)
        sendRequest sock command param1
        reply) v c = execOn reply v (c.push bs) := by
  obtain ⟨s, rfl, hfits, rfl⟩ := nameRequest_eq_some hreq
  have hsend := exec_sendName hc sock command hfits.1 v
  rw [if_pos hfits] at hsend
  rw [execOn, mkDtString_some, if_neg (Nat.not_lt.mpr hfits.1),
    Proc.exec_bind_ok (Proc.exec_ofExcept_ok _ _ _ _), Proc.exec_bind_ok hsend]

/-- A refused string leaves the connection alone. -/
theorem exec_nameRequest_refused (sock : Int) (hreq : nameRequest command name = none) (v : σ)
    (reply : Body σ Unit) :
    ∃ why, execOn (do
        let param1 ← Proc.ofExcept (mkDtString name)
        sendRequest sock command param1
        reply) v c = ⟨.error why, v, c⟩ := by
  cases name with
  | none => exact ⟨.argument, Proc.exec_bind_error (Proc.exec_ofExcept_error _ _ _ _)⟩
  | some s =>
      rw [execOn, mkDtString_some]
      by_cases hmem : ptrdiffMax < 4 + lenName s
      · rw [if_pos hmem]
        exact ⟨.memory, Proc.exec_bind_error (Proc.exec_ofExcept_error _ _ _ _)⟩
      · have hfits : ¬ requestFits s := by
          intro hfits
          simp [nameRequest, hfits] at hreq
        have hsend := exec_sendName_refused sock command (Nat.le_of_not_lt hmem) hfits v c
        rw [if_neg hmem, Proc.exec_bind_ok (Proc.exec_ofExcept_ok _ _ _ _)]
        exact ⟨.argument, Proc.exec_bind_error hsend⟩

end NameRequest

end RserveClient
