import RserveClient.Foundation.CInt
import RserveClient.Foundation.CString
import RserveClient.Foundation.Framing
import RserveClient.Foundation.LittleEndian

/-!
# The QAP1 wire format

The commands, type codes and macros of the protocol header that the client
uses, the packet header, and the two framings: packets in a stream and
parameters in the payload of a packet.
-/

namespace RserveClient

open Framing

abbrev Bytes := List UInt8

def cmdVoidEval : Int32 := 0x002
def cmdEval : Int32 := 0x003
def cmdShutdown : Int32 := 0x004
def cmdSetSexp : Int32 := 0x020

/-- All responses have this flag set. -/
def cmdResp : Int32 := 0x10000

/-- Command succeeded. -/
def respOk : Int32 := cmdResp ||| 0x0001

/-- Command failed, the stat code tells why. -/
def respErr : Int32 := cmdResp ||| 0x0002

/-- Set the stat code, bits 24 to 30, of a response. -/
def setStat (x s : Int32) : Int32 := x ||| ((s &&& 127) <<< 24)

def dtString : Nat := 4
def dtSexp : Nat := 10

def xtSymname : Nat := 19
def xtListTag : Nat := 21
def xtArrayInt : Nat := 32
def xtArrayDouble : Nat := 33
def xtArrayStr : Nat := 34
def xtArrayBool : Nat := 36

/-- The flag of a type code: attributes come first. -/
def xtHasAttr : Nat := 128

/-- The type code in the low byte of a word. -/
def parType (x : Nat) : Nat := x &&& 255

/-- The length in the high 24 bits of a word. -/
def parLen (x : Nat) : Nat := x >>> 8

/-- A length shifted over a type code and stored in 32 bits. -/
def parWord (len ty : Nat) : Nat := ((len <<< 8) ||| ty) % 2 ^ 32

theorem parType_eq (x : Nat) : parType x = x % 256 :=
  Nat.and_two_pow_sub_one_eq_mod x 8

theorem parLen_eq (x : Nat) : parLen x = x / 256 := Nat.shiftRight_eq_div_pow x 8

theorem parLen_lt {x : Nat} (h : x < 2 ^ 32) : parLen x < 2 ^ 24 := by
  rw [parLen_eq]
  omega

/-- Lengths from `2 ^ 24` on lose their high bits. -/
theorem parWord_eq (len : Nat) {ty : Nat} (h : ty < 256) :
    parWord len ty = len % 2 ^ 24 * 256 + ty := by
  rw [parWord, ← Nat.shiftLeft_add_eq_or_of_lt (by simpa using h), Nat.shiftLeft_eq]
  omega

theorem parWord_lt (len ty : Nat) : parWord len ty < 2 ^ 32 := by
  unfold parWord
  omega

theorem parType_parWord (len : Nat) {ty : Nat} (h : ty < 256) :
    parType (parWord len ty) = ty := by
  rw [parType_eq, parWord_eq len h]
  omega

theorem parLen_parWord (len : Nat) {ty : Nat} (h : ty < 256) :
    parLen (parWord len ty) = len % 2 ^ 24 := by
  rw [parLen_eq, parWord_eq len h]
  omega

/-- The packet header, always 16 bytes. -/
structure Phdr where
  cmd : Int32
  len : Int32
  msgId : Int32
  res : Int32
  deriving DecidableEq

abbrev hdrLen : Nat := 16

namespace Phdr

/-- The header as it stands in memory and on the wire. -/
def bytes (h : Phdr) : Bytes :=
  LittleEndian.encode 4 h.cmd.toUInt32.toNat ++
    (LittleEndian.encode 4 h.len.toUInt32.toNat ++
      (LittleEndian.encode 4 h.msgId.toUInt32.toNat ++
        LittleEndian.encode 4 h.res.toUInt32.toNat))

/-- The header in the first 16 bytes of a buffer. -/
def ofBytes (bs : Bytes) : Phdr where
  cmd := (UInt32.ofNat (LittleEndian.word bs 0)).toInt32
  len := (UInt32.ofNat (LittleEndian.word bs 1)).toInt32
  msgId := (UInt32.ofNat (LittleEndian.word bs 2)).toInt32
  res := (UInt32.ofNat (LittleEndian.word bs 3)).toInt32

@[simp] theorem length_bytes (h : Phdr) : h.bytes.length = hdrLen := by
  simp [bytes, hdrLen]

theorem word_bytes_append (h : Phdr) (rest : Bytes) :
    LittleEndian.word (h.bytes ++ rest) 0 = h.cmd.toUInt32.toNat ∧
    LittleEndian.word (h.bytes ++ rest) 1 = h.len.toUInt32.toNat ∧
    LittleEndian.word (h.bytes ++ rest) 2 = h.msgId.toUInt32.toNat ∧
    LittleEndian.word (h.bytes ++ rest) 3 = h.res.toUInt32.toNat := by
  have hmod : ∀ x : Int32, x.toUInt32.toNat % 2 ^ 32 = x.toUInt32.toNat :=
    fun x => Nat.mod_eq_of_lt x.toUInt32.toNat_lt
  refine ⟨?_, ?_, ?_, ?_⟩ <;>
    simp only [bytes, List.append_assoc, LittleEndian.word_encode_zero,
      LittleEndian.word_encode_succ, hmod]

/-- A header is read back from its bytes. -/
@[simp] theorem ofBytes_bytes_append (h : Phdr) (rest : Bytes) :
    ofBytes (h.bytes ++ rest) = h := by
  obtain ⟨h0, h1, h2, h3⟩ := word_bytes_append h rest
  have hword : ∀ x : Int32, (UInt32.ofNat x.toUInt32.toNat).toInt32 = x := by
    intro x
    rw [UInt32.ofNat_toNat, Int32.toInt32_toUInt32]
  simp only [ofBytes, h0, h1, h2, h3, hword]

@[simp] theorem ofBytes_bytes (h : Phdr) : ofBytes h.bytes = h := by
  simpa using ofBytes_bytes_append h []

/-- Only the first 16 bytes matter. -/
theorem ofBytes_take (bs : Bytes) : ofBytes (bs.take hdrLen) = ofBytes bs := by
  have hw : ∀ i, i < 4 →
      LittleEndian.word (bs.take hdrLen) i = LittleEndian.word bs i := by
    intro i hi
    exact LittleEndian.word_take bs hdrLen i (by unfold hdrLen; omega)
  simp only [ofBytes, hw 0 (by decide), hw 1 (by decide), hw 2 (by decide),
    hw 3 (by decide)]

/-- The packet length the header declares: `len` and, above it, `res`. -/
def declared (h : Phdr) : Nat := h.len.toUInt32.toNat + 2 ^ 32 * h.res.toUInt32.toNat

end Phdr

/-- A stream of packets: 16 header bytes, then as many as `len` tells. -/
def packetFormat : Format UInt8 where
  size := hdrLen
  size_pos := by decide
  bodyLen head := LittleEndian.word head 1

/-- A parameter list: one word of type and length, then the content. -/
def paramFormat : Format UInt8 where
  size := 4
  size_pos := by decide
  bodyLen head := parLen (LittleEndian.word head 0)

/-- The packet with a given header and payload. -/
def packet (h : Phdr) (payload : Bytes) : Frame UInt8 := ⟨h.bytes, payload⟩

theorem packet_valid {h : Phdr} {payload : Bytes} (hlen : h.len.toInt = payload.length) :
    packetFormat.Valid (packet h payload) := by
  constructor
  · exact h.length_bytes
  · have hw := (Phdr.word_bytes_append h []).2.1
    have hn := CInt.toNat_toUInt32 (x := h.len) (by omega)
    rw [List.append_nil] at hw
    change LittleEndian.word h.bytes 1 = payload.length
    omega

/-- The parameter with a given type code and content. -/
def param (ty : Nat) (content : Bytes) : Frame UInt8 :=
  ⟨LittleEndian.encode 4 (parWord content.length ty), content⟩

theorem param_valid {ty : Nat} {content : Bytes} (hty : ty < 256)
    (hlen : content.length < 2 ^ 24) : paramFormat.Valid (param ty content) := by
  constructor
  · exact LittleEndian.length_encode 4 _
  · have hw := LittleEndian.word_encode_zero (parWord content.length ty) []
    rw [List.append_nil, Nat.mod_eq_of_lt (parWord_lt _ _)] at hw
    change parLen (LittleEndian.word (LittleEndian.encode 4 _) 0) = content.length
    rw [hw, parLen_parWord _ hty, Nat.mod_eq_of_lt hlen]

end RserveClient
