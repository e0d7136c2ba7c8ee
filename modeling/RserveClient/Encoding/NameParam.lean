import RserveClient.Encoding.Payload
import Mathlib.Order.Bounds.Basic

/-!
# The string parameter as an encoding

`mk_dt_string` pads a string with zeros to the next multiple of eight and puts the
length of the whole in the type word. Up to the first zero the content is the string.
-/

namespace RserveClient

open Padding

/-- A string parameter with `len` bytes of content that carries the string. -/
structure EncodesName (name : CStr) (len : Nat) (param1 : Bytes) : Prop where
  length_eq : param1.length = 4 + len
  quad : 4 ∣ param1.length
  parType_eq : parType (LittleEndian.word param1 0) = dtString
  parLen_eq : parLen (LittleEndian.word param1 0) = (param1.drop 4).length
  padded : ∃ k, 0 < k ∧ param1.drop 4 = name.bytes ++ List.replicate k 0
  decodes : decodeName param1 = some name.bytes

theorem drop_nameParam (name : CStr) : (nameParam name).drop 4 = paddedName name := by
  rw [nameParam, List.drop_left' (LittleEndian.length_encode 4 _)]

/-- Also where the length does not fit its field the content tells the string. -/
theorem nameParam_injective {s t : CStr} (h : nameParam s = nameParam t) : s = t := by
  have hpad : paddedName s = paddedName t := by
    rw [← drop_nameParam, h, drop_nameParam]
  have hbytes : s.bytes = t.bytes := by
    rw [← takeWhile_paddedName s, hpad, takeWhile_paddedName]
  cases s
  cases t
  cases hbytes
  rfl

/-- Among the multiples of eight that hold the string and its terminator it is the least. -/
theorem isLeast_lenName (name : CStr) :
    IsLeast {len | 8 ∣ len ∧ name.bytes.length + 1 ≤ len} (lenName name) := by
  rw [lenName_eq]
  constructor
  · exact ⟨dvd_roundUp 8 _, le_roundUp (by decide) _⟩
  · intro len hlen
    exact roundUp_le (by decide) hlen.1 hlen.2

theorem encodesName_nameParam {name : CStr} (h : lenName name < 2 ^ 24) :
    EncodesName name (lenName name) (nameParam name) where
  length_eq := length_nameParam name
  quad := by
    have hdvd := eight_dvd_lenName name
    rw [length_nameParam]
    omega
  parType_eq := by rw [word_nameParam, parType_parWord _ (by decide)]
  parLen_eq := by
    rw [word_nameParam, parLen_parWord _ (by decide), Nat.mod_eq_of_lt h, drop_nameParam,
      length_paddedName]
  padded := by
    have hlt := length_lt_lenName name
    exact ⟨lenName name - name.bytes.length, by omega, drop_nameParam name⟩
  decodes := by
    have hdecode := decodeName_nameParam h []
    rwa [List.append_nil] at hdecode

/-- The loop is left at the least multiple of eight with room for the string, the
parameter built carries the string, and no other string is built into it. -/
theorem mkDtString_encodes (name : CStr) (h : roundUp 8 (name.bytes.length + 1) < 2 ^ 24) :
    ∃ len param1,
      (∀ fuel, 8 ≤ fuel → extendLoop fuel (name.bytes.length + 1) = some len) ∧
      IsLeast {len | 8 ∣ len ∧ name.bytes.length + 1 ≤ len} len ∧
      mkDtString (some name) = .ok param1 ∧ EncodesName name len param1 ∧
      ∀ other, mkDtString (some other) = .ok param1 → other = name := by
  have hlen : lenName name < 2 ^ 24 := by
    rw [lenName_eq]
    exact h
  refine ⟨lenName name, nameParam name, ?_, isLeast_lenName name, ?_,
    encodesName_nameParam hlen, ?_⟩
  · intro fuel hfuel
    rw [extendLoop_eq hfuel, lenName_eq]
  · rw [mkDtString_some, if_neg (by unfold ptrdiffMax; omega)]
  · intro other hother
    exact nameParam_injective (mkDtString_eq_ok hother).2.symm

/-- A string that fills its multiple of eight with the terminator. -/
theorem mkDtString_encodes_seven :
    ∃ len param1,
      (∀ fuel, 8 ≤ fuel → extendLoop fuel 8 = some len) ∧
      IsLeast {len | 8 ∣ len ∧ 8 ≤ len} len ∧
      mkDtString (some ⟨[97, 98, 99, 100, 101, 102, 103], by decide⟩) = .ok param1 ∧
      EncodesName ⟨[97, 98, 99, 100, 101, 102, 103], by decide⟩ len param1 ∧
      ∀ other, mkDtString (some other) = .ok param1 →
        other = ⟨[97, 98, 99, 100, 101, 102, 103], by decide⟩ :=
  mkDtString_encodes ⟨[97, 98, 99, 100, 101, 102, 103], by decide⟩ (by decide)

end RserveClient
