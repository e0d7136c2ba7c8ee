import RserveClient.Foundation.CString
import RserveClient.Foundation.Padding
import RserveClient.Wire.Rsrv

/-!
# Encoded R objects

A type byte with two flags, a length of 24 or 56 bits, and the content. With
the attribute flag the content begins with a tagged list, each value in front
of its tag.

## Implementation notes

Of an attribute's value and of the content behind the attributes only the
bytes are kept, so that every nesting of objects is covered.
-/

namespace RserveClient

open Framing Padding
open LittleEndian (encode word)

/-- The flag of a type code: the length takes 56 bits. -/
def xtLarge : Nat := 64

/-- The lengths that a head can tell. -/
def lenLimit (large : Bool) : Nat := if large then 2 ^ 56 else 2 ^ 24

/-- An object with its type code, less the flag for a large length. -/
structure Item where
  ty : Nat
  large : Bool
  content : Bytes
  ty_ok : ty < 256 ∧ ty % 128 < 64
  fits : content.length < lenLimit large

namespace Item

/-- The type code as it is sent. -/
def code (i : Item) : Nat := if i.large then i.ty + xtLarge else i.ty

def head (i : Item) : Bytes :=
  encode 4 (parWord i.content.length i.code) ++
    if i.large then encode 4 (i.content.length / 2 ^ 24) else []

def bytes (i : Item) : Bytes := i.head ++ i.content

theorem code_lt (i : Item) : i.code < 256 := by
  have hok := i.ty_ok
  rw [code, xtLarge]
  split <;> omega

theorem length_bytes (i : Item) :
    i.bytes.length = (if i.large then 8 else 4) + i.content.length := by
  rw [bytes, head]
  split <;> simp only [List.length_append, LittleEndian.length_encode, List.length_nil]

/-- The first word of an object. -/
theorem word_bytes_append (i : Item) (rest : Bytes) :
    word (i.bytes ++ rest) 0 = parWord i.content.length i.code := by
  rw [bytes, head, List.append_assoc, List.append_assoc, LittleEndian.word_encode_zero,
    Nat.mod_eq_of_lt (parWord_lt _ _)]

/-- A type byte without the flag belongs to a short head. -/
theorem short_of_parType {i : Item} {rest : Bytes} {ty : Nat}
    (h : parType (word (i.bytes ++ rest) 0) = ty) (hty : ty % 128 < 64) :
    i.large = false ∧ i.ty = ty := by
  rw [i.word_bytes_append, parType_parWord _ i.code_lt, code] at h
  have hok := i.ty_ok
  cases hlarge : i.large with
  | false => exact ⟨rfl, by simpa [hlarge] using h⟩
  | true =>
      rw [hlarge, if_pos rfl, xtLarge] at h
      omega

theorem bytes_of_short {i : Item} (h : i.large = false) :
    i.bytes = encode 4 (parWord i.content.length i.ty) ++ i.content := by
  rw [bytes, head, code, h, if_neg Bool.false_ne_true, if_neg Bool.false_ne_true, List.append_nil]

theorem length_bytes_of_short {i : Item} (h : i.large = false) :
    i.bytes.length = 4 + i.content.length := by
  rw [i.length_bytes, h, if_neg Bool.false_ne_true]

/-- The second word of an object with a large head is the high part of its length. -/
theorem word_one_of_large {i : Item} (h : i.large = true) (rest : Bytes) :
    word (i.bytes ++ rest) 1 = i.content.length / 2 ^ 24 % 2 ^ 32 := by
  rw [bytes, head, h, if_pos rfl, List.append_assoc, List.append_assoc,
    LittleEndian.word_encode_succ, LittleEndian.word_encode_zero]

end Item

/-- A symbol as it is stored: the name, its terminator, and zeros up to a multiple of 4. -/
def symContent (name : CStr) : Bytes :=
  name.bytes ++ List.replicate (roundUp 4 (name.bytes.length + 1) - name.bytes.length) 0

structure Attribute where
  value : Item
  tag : CStr
  tagLarge : Bool
  tagFits : (symContent tag).length < lenLimit tagLarge

namespace Attribute

def tagItem (a : Attribute) : Item :=
  ⟨xtSymname, a.tagLarge, symContent a.tag, by decide, a.tagFits⟩

def bytes (a : Attribute) : Bytes := a.value.bytes ++ a.tagItem.bytes

theorem length_symContent (name : CStr) :
    (symContent name).length = roundUp 4 (name.bytes.length + 1) := by
  have hle := le_roundUp (by decide : 0 < 4) (name.bytes.length + 1)
  rw [symContent, List.length_append, List.length_replicate]
  omega

/-- A tag takes a head and at least one byte. -/
theorem le_length_tagItem (a : Attribute) : 5 ≤ a.tagItem.bytes.length := by
  have hle := le_roundUp (by decide : 0 < 4) (a.tag.bytes.length + 1)
  have hlen : a.tagItem.content.length = roundUp 4 (a.tag.bytes.length + 1) :=
    length_symContent a.tag
  rw [a.tagItem.length_bytes, hlen]
  split <;> omega

theorem le_length_bytes (a : Attribute) : 9 ≤ a.bytes.length := by
  have htag := a.le_length_tagItem
  have hvalue := a.value.length_bytes
  rw [bytes, List.length_append]
  split at hvalue <;> omega

end Attribute

/-- An object with an attribute list: the type code of the base, the attributes in order, and
the content behind them. -/
structure AttrSexp where
  ty : Nat
  large : Bool
  attrs : List Attribute
  attrsLarge : Bool
  content : Bytes
  ty_lt : ty < 64
  attrsFit : (attrs.flatMap Attribute.bytes).length < lenLimit attrsLarge
  fits : (if attrsLarge then 8 else 4) + (attrs.flatMap Attribute.bytes).length + content.length <
    lenLimit large

namespace AttrSexp

def attrsItem (s : AttrSexp) : Item :=
  ⟨xtListTag, s.attrsLarge, s.attrs.flatMap Attribute.bytes, by decide, s.attrsFit⟩

def item (s : AttrSexp) : Item where
  ty := s.ty + xtHasAttr
  large := s.large
  content := s.attrsItem.bytes ++ s.content
  ty_ok := by
    have hlt := s.ty_lt
    rw [xtHasAttr]
    omega
  fits := by
    have hfits := s.fits
    rw [List.length_append, s.attrsItem.length_bytes]
    exact hfits

end AttrSexp

/-- A reply packet with one object. The high word of its length is in `res`. -/
structure SexpReply where
  cmd : Int32
  msgId : Int32
  sexp : AttrSexp
  large : Bool
  fits : sexp.item.bytes.length < lenLimit large

namespace SexpReply

def dt (r : SexpReply) : Item := ⟨dtSexp, r.large, r.sexp.item.bytes, by decide, r.fits⟩

def payload (r : SexpReply) : Bytes := r.dt.bytes

def hdr (r : SexpReply) : Phdr :=
  ⟨r.cmd, Int32.ofInt r.payload.length, r.msgId, Int32.ofInt (r.payload.length / 2 ^ 32 : Nat)⟩

def bytes (r : SexpReply) : Bytes := (packet r.hdr r.payload).bytes

end SexpReply

end RserveClient
