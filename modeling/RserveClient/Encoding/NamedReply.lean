import RserveClient.Client.Replies
import RserveClient.Foundation.Padding

/-!
# Named vectors of doubles

The packet in which a server returns a named vector of doubles, and what
`get_named_vec_F8` makes of it. The names are an attribute in front of the
values.
-/

namespace RserveClient

open Interaction Arrivals Framing Padding CStr
open LittleEndian (encode word)

/-- The names with their terminators, padded with 1 to a multiple of 4. -/
def keyBlob (names : List CStr) : Bytes :=
  let keys := joined (names.map CStr.bytes)
  keys ++ List.replicate (roundUp 4 keys.length - keys.length) 1

/-- The doubles, bit for bit. -/
def valueBytes (vals : List UInt64) : Bytes := vals.flatMap fun val => encode 8 val.toNat

/-- `names`, with its terminator and two bytes of padding. -/
def namesContent : Bytes := [110, 97, 109, 101, 115, 0, 0, 0]

/-- The tagged list with the names as its only entry. -/
def namesList (names : List CStr) : Frame UInt8 :=
  param xtListTag
    ((param xtArrayStr (keyBlob names)).bytes ++ (param xtSymname namesContent).bytes)

/-- The payload: a `DT_SEXP` with an array of doubles behind its attribute list. -/
def namedPayload (names : List CStr) (vals : List UInt64) : Bytes :=
  (param dtSexp
    (param (xtHasAttr + xtArrayDouble) ((namesList names).bytes ++ valueBytes vals)).bytes).bytes

def namedReply (msgId : Int32) (names : List CStr) (vals : List UInt64) : Frame UInt8 :=
  packet ⟨respOk, Int32.ofInt (namedPayload names vals).length, msgId, 0⟩
    (namedPayload names vals)

/-- The next packet to arrive is such a reply. -/
def BringsNamed (names : List CStr) (vals : List UInt64) (inc : List (Arrival UInt8)) : Prop :=
  ∃ msgId rest, avail inc = (namedReply msgId names vals).bytes ++ rest

theorem bytes_param (ty : Nat) (content : Bytes) :
    (param ty content).bytes = encode 4 (parWord content.length ty) ++ content := rfl

theorem length_param (ty : Nat) (content : Bytes) :
    (param ty content).bytes.length = 4 + content.length := by
  rw [bytes_param, List.length_append, LittleEndian.length_encode]

theorem length_valueBytes (vals : List UInt64) : (valueBytes vals).length = 8 * vals.length := by
  induction vals with
  | nil => rfl
  | cons val vals ih =>
      rw [valueBytes, List.flatMap_cons, List.length_append, LittleEndian.length_encode,
        ← valueBytes, ih, List.length_cons]
      omega

/-- The payload written out: four words, the keys, and the values behind the tag. -/
theorem namedPayload_eq (names : List CStr) (vals : List UInt64) :
    namedPayload names vals =
      encode 4 (parWord (24 + (keyBlob names).length + 8 * vals.length) dtSexp) ++
        (encode 4 (parWord (20 + (keyBlob names).length + 8 * vals.length)
            (xtHasAttr + xtArrayDouble)) ++
          (encode 4 (parWord (16 + (keyBlob names).length) xtListTag) ++
            (encode 4 (parWord (keyBlob names).length xtArrayStr) ++
              (keyBlob names ++ ((param xtSymname namesContent).bytes ++ valueBytes vals))))) := by
  have hlist : ((param xtArrayStr (keyBlob names)).bytes ++
      (param xtSymname namesContent).bytes).length = 16 + (keyBlob names).length := by
    rw [List.length_append, length_param, length_param, namesContent]
    simp only [List.length_cons, List.length_nil]
    omega
  have hxt : ((namesList names).bytes ++ valueBytes vals).length =
      20 + (keyBlob names).length + 8 * vals.length := by
    rw [List.length_append, length_valueBytes, namesList, length_param, hlist]
    omega
  have hdt : (param (xtHasAttr + xtArrayDouble)
      ((namesList names).bytes ++ valueBytes vals)).bytes.length =
      24 + (keyBlob names).length + 8 * vals.length := by
    rw [length_param, hxt]
    omega
  rw [namedPayload, bytes_param dtSexp, hdt, bytes_param (xtHasAttr + xtArrayDouble), hxt,
    namesList, bytes_param xtListTag, hlist, bytes_param xtArrayStr]
  simp only [List.append_assoc]

theorem length_namedPayload (names : List CStr) (vals : List UInt64) :
    (namedPayload names vals).length = 28 + (keyBlob names).length + 8 * vals.length := by
  simp only [namedPayload, namesList, length_param, List.length_append, length_valueBytes,
    namesContent, List.length_cons, List.length_nil]
  omega

theorem names_nulFree (names : List CStr) : ∀ s ∈ names.map CStr.bytes, 0 ∉ s := by
  intro s hs
  obtain ⟨name, _, rfl⟩ := List.mem_map.mp hs
  exact name.nulFree

theorem zero_not_mem_padding (k : Nat) : 0 ∉ List.replicate k (1 : UInt8) := fun h0 =>
  absurd (List.eq_of_mem_replicate h0) (by decide)

/-- The names are read back from their block. -/
theorem strings_keyBlob (names : List CStr) : strings (keyBlob names) = names.map CStr.bytes :=
  strings_joined (names_nulFree names) (zero_not_mem_padding _)

/-- There are as many NULs as names. -/
theorem count_keyBlob (names : List CStr) : (keyBlob names).count 0 = names.length := by
  rw [keyBlob, count_joined (names_nulFree names) (zero_not_mem_padding _), List.length_map]

/-- A header, the four words after it, and the rest of what arrives. -/
structure FourWords (inc : List (Arrival UInt8)) (hdr : Phdr) (w0 w1 w2 w3 : Nat)
    (body : Bytes) : Prop where
  avail_eq : avail inc =
    hdr.bytes ++ (encode 4 w0 ++ (encode 4 w1 ++ (encode 4 w2 ++ (encode 4 w3 ++ body))))

namespace FourWords

variable {inc : List (Arrival UInt8)} {hdr : Phdr} {w0 w1 w2 w3 : Nat} {body : Bytes}

theorem replyHdr_eq (h : FourWords inc hdr w0 w1 w2 w3 body) : replyHdr inc = hdr := by
  rw [replyHdr, h.avail_eq, Phdr.ofBytes_bytes_append]

theorem drop_hdr (h : FourWords inc hdr w0 w1 w2 w3 body) : (avail inc).drop 16 =
    encode 4 w0 ++ (encode 4 w1 ++ (encode 4 w2 ++ (encode 4 w3 ++ body))) := by
  rw [h.avail_eq]
  exact List.drop_left' hdr.length_bytes

theorem words (h : FourWords inc hdr w0 w1 w2 w3 body) :
    word ((avail inc).drop 16) 0 = w0 % 2 ^ 32 ∧ word ((avail inc).drop 16) 2 = w2 % 2 ^ 32 ∧
      word ((avail inc).drop 16) 3 = w3 % 2 ^ 32 := by
  rw [h.drop_hdr]
  refine ⟨?_, ?_, ?_⟩ <;>
    simp only [LittleEndian.word_encode_zero, LittleEndian.word_encode_succ]

theorem drop_words (h : FourWords inc hdr w0 w1 w2 w3 body) : (avail inc).drop 32 = body := by
  have h32 : (avail inc).drop 32 = (((((avail inc).drop 16).drop 4).drop 4).drop 4).drop 4 := by
    simp only [List.drop_drop]
  simp only [h32, h.drop_hdr, List.drop_left' (LittleEndian.length_encode 4 _)]

theorem length_avail (h : FourWords inc hdr w0 w1 w2 w3 body) :
    (avail inc).length = 32 + body.length := by
  simp only [h.avail_eq, List.length_append, Phdr.length_bytes, LittleEndian.length_encode, hdrLen]
  omega

section Keys

variable {keys more : Bytes}

/-- The fourth word tells the length of the key block, and its NULs are counted. -/
theorem keysLen_keysCount
    (h : FourWords inc hdr w0 w1 w2 (parWord keys.length xtArrayStr) (keys ++ more))
    (hsize : keys.length < 2 ^ 24) :
    keysLen inc = keys.length ∧ keysCount inc = keys.count 0 := by
  have hlen : keysLen inc = keys.length := by
    rw [keysLen, h.words.2.2, Nat.mod_eq_of_lt (parWord_lt _ _), parLen_parWord _ (by decide),
      Nat.mod_eq_of_lt hsize]
  refine ⟨hlen, ?_⟩
  rw [keysCount, hlen, namedCount, h.drop_words, List.take_left]

/-- The outputs: the key block, and as many values as it has NULs from 12 bytes behind it. -/
theorem out (h : FourWords inc hdr w0 w1 w2 (parWord keys.length xtArrayStr) (keys ++ more))
    (hsize : keys.length < 2 ^ 24) (hall : namedTaken inc ≤ (avail inc).length)
    (v : NamedVars) :
    (namedOut inc v).nVals = keys.count 0 ∧
      (namedOut inc v).vals.take (8 * keys.count 0) = (more.drop 12).take (8 * keys.count 0) ∧
      (namedOut inc v).nKeyBlob = keys.length ∧
      (namedOut inc v).keyBlob.take (namedOut inc v).nKeyBlob = keys := by
  obtain ⟨hlen, hcount⟩ := h.keysLen_keysCount hsize
  have hkeys : ((avail inc).drop 32).take (keysLen inc) = keys := by
    rw [hlen, h.drop_words, List.take_left]
  have hdrop : (avail inc).drop (44 + keysLen inc) = more.drop 12 := by
    have hsplit : 44 + keysLen inc = 32 + (keys.length + 12) := by omega
    rw [hsplit, ← List.drop_drop, h.drop_words, ← List.drop_drop, List.drop_left]
  have hvals : ((more.drop 12).take (8 * keys.count 0)).length = 8 * keys.count 0 := by
    rw [namedTaken, hcount] at hall
    rw [← hdrop, List.length_take, List.length_drop]
    omega
  rw [namedOut, hkeys, hdrop, hcount]
  refine ⟨rfl, ?_, rfl, take_overwrite _ _⟩
  have htake := take_overwrite (v.storeKeys keys).vals ((more.drop 12).take (8 * keys.count 0))
  rw [hvals] at htake
  exact htake

end Keys

end FourWords

section Decode

variable {names : List CStr} {vals : List UInt64} {inc : List (Arrival UInt8)}
variable {szKeyBlob szVals : UInt32}

/-- Where the parts of the reply lie. -/
theorem BringsNamed.fourWords (h : BringsNamed names vals inc) :
    ∃ msgId rest, FourWords inc
      ⟨respOk, Int32.ofInt (namedPayload names vals).length, msgId, 0⟩
      (parWord (24 + (keyBlob names).length + 8 * vals.length) dtSexp)
      (parWord (20 + (keyBlob names).length + 8 * vals.length) (xtHasAttr + xtArrayDouble))
      (parWord (16 + (keyBlob names).length) xtListTag)
      (parWord (keyBlob names).length xtArrayStr)
      (keyBlob names ++ ((param xtSymname namesContent).bytes ++ (valueBytes vals ++ rest))) := by
  obtain ⟨msgId, rest, hav⟩ := h
  refine ⟨msgId, rest, ⟨?_⟩⟩
  have hbytes : (namedReply msgId names vals).bytes =
      Phdr.bytes ⟨respOk, Int32.ofInt (namedPayload names vals).length, msgId, 0⟩ ++
        namedPayload names vals := rfl
  rw [hav, hbytes, List.append_assoc, namedPayload_eq]
  simp only [List.append_assoc]

theorem BringsNamed.keys (h : BringsNamed names vals inc)
    (hsize : (keyBlob names).length < 2 ^ 24) :
    keysLen inc = (keyBlob names).length ∧ keysCount inc = names.length := by
  obtain ⟨msgId, rest, hfour⟩ := h.fourWords
  obtain ⟨hlen, hcount⟩ := hfour.keysLen_keysCount hsize
  exact ⟨hlen, hcount.trans (count_keyBlob names)⟩

/-- Apart from the room for keys the head of the reply passes every check. -/
theorem BringsNamed.headAccepted_iff (h : BringsNamed names vals inc)
    (hsize : (namedPayload names vals).length < 4 + 2 ^ 24) :
    namedHeadAccepted szKeyBlob (replyHdr inc).len.toInt ((avail inc).drop 16) ↔
      (keyBlob names).length < szKeyBlob.toNat := by
  obtain ⟨msgId, rest, hfour⟩ := h.fourWords
  obtain ⟨hw0, hw2, hw3⟩ := hfour.words
  have hpay := length_namedPayload names vals
  rw [Nat.mod_eq_of_lt (parWord_lt _ _)] at hw0 hw2 hw3
  rw [namedHeadAccepted, hw0, hw2, hw3, hfour.replyHdr_eq, parType_parWord _ (by decide),
    parType_parWord _ (by decide), parType_parWord _ (by decide), parLen_parWord _ (by decide),
    parLen_parWord _ (by decide), Nat.mod_eq_of_lt (by omega : (keyBlob names).length < 2 ^ 24)]
  have hlen : (Int32.ofInt (namedPayload names vals).length).toInt =
      ((24 + (keyBlob names).length + 8 * vals.length) % 2 ^ 24 : Nat) + 4 := by
    rw [CInt.toInt_ofInt, CInt.toInt_eq (by omega) (by omega)]
    omega
  exact ⟨fun hhead => hhead.2.2.2.2, fun hroom => ⟨rfl, hlen, rfl, rfl, hroom⟩⟩

theorem BringsNamed.taken (h : BringsNamed names vals inc) (hm : vals.length = names.length)
    (hsize : (namedPayload names vals).length < 4 + 2 ^ 24) :
    namedTaken inc = hdrLen + (namedPayload names vals).length ∧
      namedTaken inc ≤ (avail inc).length := by
  obtain ⟨msgId, rest, hfour⟩ := h.fourWords
  have hpay := length_namedPayload names vals
  obtain ⟨hlen, hcount⟩ := h.keys (by omega)
  have hav := hfour.length_avail
  simp only [List.length_append, length_param, length_valueBytes, namesContent, List.length_cons,
    List.length_nil] at hav
  rw [namedTaken, hlen, hcount, hdrLen]
  omega

/-- The reply is accepted when both arrays have more room than it needs. -/
theorem BringsNamed.accepted_iff (h : BringsNamed names vals inc) (hm : vals.length = names.length)
    (hsize : (namedPayload names vals).length < 4 + 2 ^ 24) :
    namedAccepted szKeyBlob szVals inc ↔
      (keyBlob names).length < szKeyBlob.toNat ∧ vals.length < szVals.toNat := by
  obtain ⟨htaken, hall⟩ := h.taken hm hsize
  have hpay := length_namedPayload names vals
  obtain ⟨_, hcount⟩ := h.keys (by omega)
  have h32 : 32 ≤ (avail inc).length := by
    rw [hdrLen] at htaken
    rw [namedTaken] at hall
    omega
  rw [namedAccepted, h.headAccepted_iff hsize, hcount, hm]
  exact ⟨fun hacc => ⟨hacc.2.1, hacc.2.2.1⟩, fun hroom => ⟨h32, hroom.1, hroom.2, hall⟩⟩

/-- The outputs hold the names and the values. -/
theorem BringsNamed.out (h : BringsNamed names vals inc) (hm : vals.length = names.length)
    (hsize : (namedPayload names vals).length < 4 + 2 ^ 24) (v : NamedVars) :
    (namedOut inc v).nVals = vals.length ∧
      (namedOut inc v).vals.take (8 * vals.length) = valueBytes vals ∧
      (namedOut inc v).nKeyBlob = (keyBlob names).length ∧
      (namedOut inc v).keyBlob.take (namedOut inc v).nKeyBlob = keyBlob names := by
  have hpay := length_namedPayload names vals
  obtain ⟨msgId, rest, hfour⟩ := h.fourWords
  have hout := hfour.out (by omega) (h.taken hm hsize).2 v
  have hsym : (param xtSymname namesContent).bytes.length = 12 := length_param _ _
  rw [count_keyBlob, ← hm, List.drop_left' hsym, List.take_left' (length_valueBytes vals)] at hout
  exact hout

end Decode

/-- A named vector comes back as it is, and its packet is used up. -/
theorem named_vector_decoded {sock : Int} {name : Option CStr} {szKeyBlob szVals : UInt32}
    {v : NamedVars} {c : Conn} {bs : Bytes} {names : List CStr} {vals : List UInt64}
    (hsock : 0 ≤ sock) (hc : c.Ready) (hreq : nameRequest .eval name = some bs)
    (hinc : BringsNamed names vals c.inc) (hm : vals.length = names.length)
    (hsize : (namedPayload names vals).length < 4 + 2 ^ 24)
    (hkeys : (keyBlob names).length < szKeyBlob.toNat) (hvals : vals.length < szVals.toNat) :
    ∃ out c', Prog.run Conn.handle (getNamedVecF8 sock name szKeyBlob szVals v) c =
        ((.ok, out), c') ∧
      out.nVals = vals.length ∧ out.vals.take (8 * vals.length) = valueBytes vals ∧
      out.nKeyBlob = (keyBlob names).length ∧ out.keyBlob.take out.nKeyBlob = keyBlob names ∧
      strings (out.keyBlob.take out.nKeyBlob) = names.map CStr.bytes ∧
      consumed c.inc c'.inc = hdrLen + (namedPayload names vals).length := by
  have hacc : namedAccepted szKeyBlob szVals (c.push bs).inc :=
    (hinc.accepted_iff hm hsize).mpr ⟨hkeys, hvals⟩
  have hrun := exec_getNamedVecReply_ok (c := c.push bs) (v := v.cleared szKeyBlob szVals) hsock
    hc.isOpen hacc
  have hbody := (exec_getNamedVecF8Body sock szKeyBlob szVals hc hreq v).trans hrun
  obtain ⟨htaken, hall⟩ := hinc.taken hm hsize
  obtain ⟨hnVals, hstored, hnKeys, hblob⟩ := hinc.out hm hsize (v.cleared szKeyBlob szVals)
  refine ⟨_, _, Proc.run_finish_of_exec hbody _, hnVals, hstored, hnKeys, hblob, ?_, ?_⟩
  · exact (congrArg strings hblob).trans (strings_keyBlob names)
  · rw [← htaken]
    exact consumed_skip hall

/-- Two names, one of them empty. -/
def twoNames : List CStr := [⟨[97, 98], by decide⟩, ⟨[], by decide⟩]

def twoVals : List UInt64 := [0x3FF8000000000000, 7]

/-- The reply arrives byte by byte, and more behind it. -/
def namedBytewise : List (Arrival UInt8) :=
  ((namedReply 0 twoNames twoVals).bytes ++ [1, 2]).map fun b => .piece b []

theorem named_vector_decoded_twoNames :
    ∃ out c', Prog.run Conn.handle (getNamedVecF8 3 (some nameX) 8 3 ⟨[], 0, [], 0⟩)
        (Conn.fresh namedBytewise) = ((.ok, out), c') ∧
      out.nVals = 2 ∧ out.vals.take 16 = valueBytes twoVals ∧
      out.nKeyBlob = 4 ∧ out.keyBlob.take out.nKeyBlob = keyBlob twoNames ∧
      strings (out.keyBlob.take out.nKeyBlob) = twoNames.map CStr.bytes ∧
      consumed namedBytewise c'.inc = 64 := by
  have hinc : BringsNamed twoNames twoVals namedBytewise := ⟨0, [1, 2], by decide⟩
  exact named_vector_decoded (c := Conn.fresh namedBytewise) (by decide) ⟨rfl, rfl⟩
    (show nameRequest .eval (some nameX) = some (requestBytes .eval nameX) by decide) hinc
    (by decide) (by decide) (by decide) (by decide)

end RserveClient
