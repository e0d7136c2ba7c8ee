import RserveClient.Encoding.Sizes

/-!
# The parameter list in a `set_vec` packet

A parameter is a word with its type and the length of the content that follows.
The string parameter is written that way; the length in front of the vector
counts the word itself as well.
-/

namespace RserveClient

open Interaction Arrivals
open LittleEndian (encode word)

/-- The content of the first parameter. -/
def firstContent (payload : Bytes) : Bytes := (payload.drop 4).take (parLen (word payload 0))

/-- The string in the first parameter, up to its terminator. -/
def decodeName (payload : Bytes) : Option Bytes :=
  if parType (word payload 0) = dtString ∧ 0 ∈ firstContent payload then
    some ((firstContent payload).takeWhile (· ≠ 0))
  else none

/-- The payload is read as a string and a vector, with nothing missing and nothing
left over, and the XT word of the vector covers the rest of its content. -/
def TilesPacket (bs : Bytes) : Prop :=
  (Phdr.ofBytes bs).len.toInt = (bs.drop hdrLen).length ∧
    ∃ f g, paramFormat.parse (bs.drop hdrLen) = some [f, g] ∧
      parType (word f.head 0) = dtString ∧ parType (word g.head 0) = dtSexp ∧
      parLen (word g.body 0) + 4 = g.body.length

theorem SetVecParams.drop_bytes (p : SetVecParams) : p.bytes.drop hdrLen = p.payload := by
  rw [p.bytes_eq, ← p.ph.length_bytes, List.drop_left]

theorem SetVecParams.length_bytes (p : SetVecParams) :
    p.bytes.length = hdrLen + p.payload.length := by
  rw [p.bytes_eq, List.length_append, p.ph.length_bytes]

/-- The name in front of any further parameters. -/
theorem decodeName_nameParam {s : CStr} (h : lenName s < 2 ^ 24) (rest : Bytes) :
    decodeName (nameParam s ++ rest) = some s.bytes := by
  have hword : word (nameParam s ++ rest) 0 = parWord (lenName s) dtString := by
    rw [LittleEndian.word_append _ _ 0 (by rw [length_nameParam]; omega), word_nameParam]
  have hcontent : firstContent (nameParam s ++ rest) = paddedName s := by
    rw [firstContent, hword, parLen_parWord _ (by decide), Nat.mod_eq_of_lt h, nameParam,
      List.append_assoc, List.drop_left' (LittleEndian.length_encode 4 _)]
    exact List.take_left' (length_paddedName s)
  rw [decodeName, hword, hcontent,
    if_pos ⟨parType_parWord _ (by decide), zero_mem_paddedName s⟩, takeWhile_paddedName]

section Params

variable {sock : Int} {name qtype : Option CStr} {data : Option Bytes} {n inWidth : UInt32}
variable {s : CStr} {d : Bytes} {q : QType} {width : Nat} {p : SetVecParams} {bs : Bytes}

/-- The first parameter is read back whole. -/
theorem nameParam_valid (h : lenName s < 2 ^ 24) :
    paramFormat.Valid (param dtString (paddedName s)) := by
  apply param_valid (by decide)
  rw [length_paddedName]
  exact h

/-- The length of the second parameter counts its own word: it is the number of bytes
from that word on, not of those after it. -/
theorem Encodes.parLen_second (h : Encodes sock name qtype data n inWidth s d q width p)
    (hdata : d.length = n.toNat * width) (hsize : p.payload.length < 2 ^ 24) :
    parLen (word (p.hdrParam2 ++ p.elems.take p.cumLen) 0) =
      (p.hdrParam2 ++ p.elems.take p.cumLen).length := by
  obtain ⟨_, hdt, _⟩ := h.fields
  have hpay := h.length_payload hdata
  have hlen := (h.length_elems hdata).2
  have hhdr : p.hdrParam2.length = 8 + q.countLen := by
    rw [h.hdrParam2_eq, length_mkHdrParam2]
  rw [LittleEndian.word_append _ _ 0 (by omega), hdt, List.length_append, hlen, hhdr, lenParam2,
    CInt.toUInt32_natCast]
  omega

/-- No payload is read as two parameters: the second one is four bytes short. -/
theorem Encodes.not_tilesPacket (h : Encodes sock name qtype data n inWidth s d q width p)
    (hdata : d.length = n.toNat * width) (hsize : p.payload.length < 2 ^ 24) :
    ¬ TilesPacket p.bytes := by
  rintro ⟨_, f, g, hparse, _, _, _⟩
  rw [p.drop_bytes] at hparse
  obtain ⟨hvalid, hbytes⟩ := Framing.Format.parse_eq_some_iff.mp hparse
  have hf := hvalid f (by simp)
  have hg := hvalid g (by simp)
  have hpay := h.length_payload hdata
  have hname : paramFormat.Valid (param dtString (paddedName s)) := nameParam_valid (by omega)
  have hsplit : f.bytes ++ g.bytes =
      (param dtString (paddedName s)).bytes ++ (p.hdrParam2 ++ p.elems.take p.cumLen) := by
    rw [← nameParam_eq, ← h.param1_eq]
    simpa [SetVecParams.payload] using hbytes
  obtain ⟨_, hsecond⟩ := hf.append_inj hname hsplit
  have hannounced := h.parLen_second hdata hsize
  have hword : word g.bytes 0 = word g.head 0 :=
    LittleEndian.word_append _ _ 0 (Nat.le_of_eq hg.1.symm)
  have hbody : parLen (word g.head 0) = g.body.length := hg.2
  have hbytesLen : g.bytes.length = 4 + g.body.length := hg.length_bytes
  rw [← hsecond, hword, hbody, hbytesLen] at hannounced
  omega

end Params

/-- Every packet that `set_vec` sends announces a second parameter longer than what
follows. -/
theorem setVec_never_tiles {sock : Int} {name qtype : Option CStr} {data : Option Bytes}
    {n inWidth : UInt32} {c : Conn} {bs : Bytes} (hc : c.Ready)
    (hdata : (Call.setVec name qtype data n inWidth).HoldsVector)
    (hreq : setVecRequest sock name qtype data n inWidth = some bs)
    (hsize : bs.length < hdrLen + 2 ^ 24) :
    (Prog.run Conn.handle ((Call.setVec name qtype data n inWidth).prog sock) c).2.sent =
        c.sent ++ bs ∧ ¬ TilesPacket bs := by
  obtain ⟨p, hp, rfl⟩ := setVecRequest_eq_some hreq
  obtain ⟨s, d, q, width, henc⟩ := setVecParams_ok hp
  rw [p.length_bytes] at hsize
  refine ⟨sent_run_prog henc.sock_nonneg hc hdata hreq, ?_⟩
  exact henc.not_tilesPacket (henc.holdsVector hdata) (Nat.lt_of_add_lt_add_left hsize)

/-- The packet for one integer under the name `x`. -/
def oneIntPacket : Bytes :=
  (requestHdr .setSexp 24).bytes ++
    (nameParam nameX ++
      (encode 4 (parWord 12 dtSexp) ++ (encode 4 (parWord 4 xtArrayInt) ++ [1, 2, 3, 4])))

theorem setVec_never_tiles_oneInt :
    (Prog.run Conn.handle ((Call.setVec (some nameX) (some QType.I4.str)
        (some [1, 2, 3, 4]) 1 0).prog 3) (Conn.fresh [])).2.sent = [] ++ oneIntPacket ∧
      ¬ TilesPacket oneIntPacket := by
  exact setVec_never_tiles (c := Conn.fresh []) ⟨rfl, rfl⟩ oneInt_holdsVector (by decide)
    (by decide)

/-- Its payload is not a parameter list. -/
theorem oneIntPacket_not_parsed :
    setVecRequest 3 (some nameX) (some QType.I4.str) (some [1, 2, 3, 4]) 1 0 =
        some oneIntPacket ∧
      paramFormat.parse (oneIntPacket.drop hdrLen) = none ∧ ¬ TilesPacket oneIntPacket := by
  have hnone : paramFormat.parse (oneIntPacket.drop hdrLen) = none := by decide
  refine ⟨by decide, hnone, ?_⟩
  rintro ⟨_, f, g, hparse, _⟩
  rw [hnone] at hparse
  cases hparse

end RserveClient
