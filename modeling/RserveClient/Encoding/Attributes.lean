import RserveClient.Encoding.NamedReply
import RserveClient.Wire.Sexp

/-!
# Replies with attributes

`get_named_vec_F8` on any object that has an attribute list. It looks at three
type bytes; the base type, the tags and the number of attributes pass unseen.
-/

namespace RserveClient

open Interaction Arrivals Framing
open LittleEndian (encode word)

/-- The tag of the names. -/
def namesTag : CStr := ⟨[110, 97, 109, 101, 115], by decide⟩

/-- Status 0 tells of an array of doubles whose names, elements and packet are just what was
returned and read. -/
def ReturnsNamedDoubles (r : SexpReply) (c : Conn) (run : (Status × NamedVars) × Conn) : Prop :=
  run.1.1.code = 0 →
    r.sexp.ty = xtArrayDouble ∧
    (∃ a ∈ r.sexp.attrs, a.tag = namesTag ∧ a.value.ty = xtArrayStr ∧
      run.1.2.keyBlob.take run.1.2.nKeyBlob = a.value.content) ∧
    run.1.2.vals.take (8 * run.1.2.nVals) = r.sexp.content ∧
    consumed c.inc run.2.inc = hdrLen + r.payload.length

/-- An array of doubles with names as its only attribute, one double for each NUL in the
names. -/
structure AttrSexp.PlainNamed (s : AttrSexp) : Prop where
  ty : s.ty = xtArrayDouble
  names : ∃ a, s.attrs = [a] ∧ a.tag = namesTag ∧ a.tagLarge = false ∧
    s.content.length = 8 * a.value.content.count 0

/-- The tag of names takes 12 bytes, with a short head. -/
theorem Attribute.length_namesTag {a : Attribute} (h : a.tag = namesTag) :
    a.tagItem.bytes.length = if a.tagLarge then 16 else 12 := by
  have hsym : a.tagItem.content.length = 8 := by
    change (symContent a.tag).length = 8
    rw [h]
    rfl
  have hlarge : a.tagItem.large = a.tagLarge := rfl
  rw [a.tagItem.length_bytes, hsym, hlarge]
  split <;> rfl

/-- In 12 bytes behind a value there is no room for a second attribute. -/
theorem Attribute.eq_nil_of_length_le {a : Attribute} {as : List Attribute}
    (h : a.tagItem.bytes.length + (as.flatMap Attribute.bytes).length ≤ 12) : as = [] := by
  cases as with
  | nil => rfl
  | cons b bs =>
      have htag := a.le_length_tagItem
      have hb := b.le_length_bytes
      rw [List.flatMap_cons, List.length_append] at h
      omega

section Layout

variable {r : SexpReply} {inc : List (Arrival UInt8)} {rest : Bytes} {szKeyBlob : UInt32}

/-- What the checks on the four words tell about the heads of the reply. -/
theorem SexpReply.short_heads (hinc : avail inc = r.bytes ++ rest)
    (h : namedHeadAccepted szKeyBlob (replyHdr inc).len.toInt ((avail inc).drop 16)) :
    r.large = false ∧ r.sexp.large = false ∧ r.sexp.attrsLarge = false := by
  obtain ⟨hdt, _, htag, _⟩ := h
  have hdrop : (avail inc).drop 16 = r.dt.bytes ++ rest := by
    rw [hinc, SexpReply.bytes, packet, Frame.bytes, List.append_assoc]
    exact List.drop_left' r.hdr.length_bytes
  rw [hdrop] at hdt htag
  have hlarge : r.dt.large = false := (Item.short_of_parType hdt (by decide)).1
  have hfits := r.fits
  rw [show r.large = false from hlarge, lenLimit, if_neg Bool.false_ne_true,
    r.sexp.item.length_bytes] at hfits
  rw [Item.bytes_of_short hlarge, List.append_assoc, LittleEndian.word_encode_succ] at htag
  change parType (word (r.sexp.item.bytes ++ rest) 1) = xtListTag at htag
  have hshort : r.sexp.item.large = false := by
    cases hxt : r.sexp.item.large with
    | false => rfl
    | true =>
        -- the length is below 2 ^ 24 all the same, so the word with its high part is zero
        rw [Item.word_one_of_large hxt, Nat.div_eq_of_lt (by omega)] at htag
        exact absurd htag (by decide)
  rw [Item.bytes_of_short hshort, List.append_assoc, LittleEndian.word_encode_succ] at htag
  change parType (word ((r.sexp.attrsItem.bytes ++ r.sexp.content) ++ rest) 0) = xtListTag at htag
  rw [List.append_assoc] at htag
  exact ⟨hlarge, hshort, (Item.short_of_parType htag (by decide)).1⟩

/-- With the first of some attributes accepted as names, where everything lies. -/
theorem SexpReply.fourWords (hinc : avail inc = r.bytes ++ rest)
    (h : namedHeadAccepted szKeyBlob (replyHdr inc).len.toInt ((avail inc).drop 16))
    {a : Attribute} {as : List Attribute} (hattrs : r.sexp.attrs = a :: as) :
    a.value.ty = xtArrayStr ∧ a.value.content.length < 2 ^ 24 ∧
      r.payload.length = 16 + a.value.content.length + a.tagItem.bytes.length +
        (as.flatMap Attribute.bytes).length + r.sexp.content.length ∧
      ∃ w0 w1 w2, FourWords inc r.hdr w0 w1 w2 (parWord a.value.content.length xtArrayStr)
        (a.value.content ++
          (a.tagItem.bytes ++ (as.flatMap Attribute.bytes ++ (r.sexp.content ++ rest)))) := by
  obtain ⟨hlarge, hshort, hlist⟩ := r.short_heads hinc h
  have hitems : r.dt.bytes = encode 4 (parWord r.dt.content.length r.dt.ty) ++
      (encode 4 (parWord r.sexp.item.content.length r.sexp.item.ty) ++
        (encode 4 (parWord r.sexp.attrsItem.content.length r.sexp.attrsItem.ty) ++
          (a.bytes ++ (as.flatMap Attribute.bytes ++ r.sexp.content)))) := by
    rw [Item.bytes_of_short (i := r.dt) hlarge]
    change _ ++ r.sexp.item.bytes = _
    rw [Item.bytes_of_short (i := r.sexp.item) hshort]
    change _ ++ (_ ++ (r.sexp.attrsItem.bytes ++ r.sexp.content)) = _
    rw [Item.bytes_of_short (i := r.sexp.attrsItem) hlist]
    change _ ++ (_ ++ (_ ++ r.sexp.attrs.flatMap Attribute.bytes ++ _)) = _
    rw [hattrs, List.flatMap_cons]
    simp only [List.append_assoc]
  have hav : avail inc = r.hdr.bytes ++ (r.dt.bytes ++ rest) := by
    rw [hinc, SexpReply.bytes, packet, Frame.bytes, List.append_assoc]
    rfl
  have hstr := h.2.2.2.1
  rw [hav, List.drop_left' r.hdr.length_bytes, hitems] at hstr
  simp only [List.append_assoc, LittleEndian.word_encode_succ, Attribute.bytes] at hstr
  obtain ⟨hvalueShort, hty⟩ := Item.short_of_parType hstr (by decide)
  have hfits := a.value.fits
  rw [hvalueShort, lenLimit, if_neg Bool.false_ne_true] at hfits
  refine ⟨hty, hfits, ?_, parWord r.dt.content.length r.dt.ty,
    parWord r.sexp.item.content.length r.sexp.item.ty,
    parWord r.sexp.attrsItem.content.length r.sexp.attrsItem.ty, ⟨?_⟩⟩
  · change r.dt.bytes.length = _
    rw [hitems]
    simp only [List.length_append, LittleEndian.length_encode, Attribute.bytes,
      Item.length_bytes_of_short hvalueShort]
    omega
  · rw [hav, hitems, Attribute.bytes, Item.bytes_of_short hvalueShort, hty]
    simp only [List.append_assoc]

end Layout

section Named

variable {sock : Int} {name : Option CStr} {szKeyBlob szVals : UInt32} {v : NamedVars} {c : Conn}
variable {bs rest : Bytes} {r : SexpReply}

/-- With 12 bytes between the value of the first attribute and the elements, and as many elements
as that value has NULs, there is no other attribute. -/
theorem plainNamed_of_length {a : Attribute} {as : List Attribute} (hattrs : r.sexp.attrs = a :: as)
    (hty : r.sexp.ty = xtArrayDouble) (hnames : ∃ a' ∈ a :: as, a'.tag = namesTag)
    (hcontent : r.sexp.content.length = 8 * a.value.content.count 0)
    (hlen : a.tagItem.bytes.length + (as.flatMap Attribute.bytes).length = 12) :
    r.sexp.PlainNamed := by
  obtain rfl := Attribute.eq_nil_of_length_le (Nat.le_of_eq hlen)
  obtain ⟨a', ha', htag⟩ := hnames
  obtain rfl : a' = a := List.mem_singleton.mp ha'
  refine ⟨hty, a', hattrs, htag, ?_, hcontent⟩
  rw [Attribute.length_namesTag htag, List.flatMap_nil, List.length_nil] at hlen
  cases hlarge : a'.tagLarge with
  | false => rfl
  | true =>
      rw [hlarge] at hlen
      cases hlen

/-- What an accepted reply returns is its named vector exactly if that is all it is. -/
theorem returned_iff_plainNamed {inc : List (Arrival UInt8)} (hinc : avail inc = r.bytes ++ rest)
    (h : namedAccepted szKeyBlob szVals inc) :
    (r.sexp.ty = xtArrayDouble ∧
      (∃ a ∈ r.sexp.attrs, a.tag = namesTag ∧ a.value.ty = xtArrayStr ∧
        (namedOut inc v).keyBlob.take (namedOut inc v).nKeyBlob = a.value.content) ∧
      (namedOut inc v).vals.take (8 * (namedOut inc v).nVals) = r.sexp.content ∧
      namedTaken inc = hdrLen + r.payload.length) ↔ r.sexp.PlainNamed := by
  obtain ⟨_, hhead, _, hall⟩ := h
  cases hattrs : r.sexp.attrs with
  | nil =>
      constructor
      · rintro ⟨_, ⟨a, ha, _⟩, _⟩
        cases ha
      · rintro ⟨_, a, ha, _⟩
        rw [hattrs] at ha
        cases ha
  | cons a as =>
      obtain ⟨hstr, hsize, hpay, w0, w1, w2, hfour⟩ := r.fourWords hinc hhead hattrs
      obtain ⟨hlen, hcount⟩ := hfour.keysLen_keysCount hsize
      obtain ⟨hnVals, hvals, _, hkeys⟩ := hfour.out hsize hall v
      have hav := hfour.length_avail
      have htag := a.le_length_tagItem
      simp only [List.length_append] at hav
      rw [namedTaken, hlen, hcount] at hall ⊢
      rw [hnVals, hvals, hkeys, hpay, hdrLen]
      constructor
      · rintro ⟨hty, ⟨a', ha', hnames, _, _⟩, hcontent, htaken⟩
        have hcontentLen : r.sexp.content.length = 8 * a.value.content.count 0 := by
          rw [← hcontent, List.length_take, List.length_drop]
          simp only [List.length_append]
          omega
        -- what was read beyond the keys and the values is the 12 bytes of one tag
        refine plainNamed_of_length hattrs hty ⟨a', ha', hnames⟩ hcontentLen ?_
        omega
      · rintro ⟨hty, a', ha', hnames, hshort, hcontent⟩
        rw [hattrs] at ha'
        obtain ⟨rfl, rfl⟩ := List.cons.inj ha'
        have htagLen : a.tagItem.bytes.length = 12 := by
          rw [Attribute.length_namesTag hnames, hshort]
          rfl
        refine ⟨hty, ⟨a, List.mem_singleton.mpr rfl, hnames, hstr, rfl⟩, ?_, ?_⟩
        · rw [List.drop_left' htagLen, List.flatMap_nil, List.nil_append, ← hcontent,
            List.take_left]
        · rw [htagLen, List.flatMap_nil, List.length_nil, hcontent]
          omega

/-- Apart from what its checks refuse the call takes an object for a named vector of doubles
exactly when it is one and has no other attributes. -/
theorem named_doubles_only_iff (hsock : 0 ≤ sock) (hc : c.Ready)
    (hreq : nameRequest .eval name = some bs) (hinc : avail c.inc = r.bytes ++ rest) :
    ReturnsNamedDoubles r c
        (Prog.run Conn.handle (getNamedVecF8 sock name szKeyBlob szVals v) c) ↔
      (¬ namedAccepted szKeyBlob szVals c.inc ∨ r.sexp.PlainNamed) := by
  have hbody := exec_getNamedVecF8Body sock szKeyBlob szVals hc hreq v
  by_cases hacc : namedAccepted szKeyBlob szVals c.inc
  · have hrun := hbody.trans (exec_getNamedVecReply_ok (c := c.push bs) hsock hc.isOpen hacc)
    have hiff := returned_iff_plainNamed (v := v.cleared szKeyBlob szVals) hinc hacc
    have hconsumed : consumed c.inc (skip (namedTaken c.inc) c.inc) = namedTaken c.inc :=
      consumed_skip hacc.2.2.2
    rw [getNamedVecF8, Proc.run_finish_of_exec hrun, ← hiff, ← hconsumed]
    simp only [hacc, not_true_eq_false, false_or]
    exact ⟨fun hreturns => hreturns rfl, fun hgood _ => hgood⟩
  · obtain ⟨why, v', inc', hbad⟩ := exec_getNamedVecReply_bad (c := c.push bs)
      (v := v.cleared szKeyBlob szVals) hsock hc.isOpen hacc
    rw [getNamedVecF8, Proc.run_finish_of_exec (hbody.trans hbad)]
    refine iff_of_true (fun hzero => ?_) (Or.inl hacc)
    have hneg := why.code_neg
    have hcode : why.code = 0 := hzero
    omega

end Named

/-- The name `a` for one element. -/
def oneName : Attribute where
  value := ⟨xtArrayStr, false, [97, 0, 1, 1], by decide, by decide⟩
  tag := namesTag
  tagLarge := false
  tagFits := by decide

/-- A named vector of one element of 16 bytes, of type complex. -/
def namedComplex : SexpReply where
  cmd := respOk
  msgId := 0
  sexp := ⟨38, false, [oneName], false, [0, 0, 0, 0, 0, 0, 240, 63, 0, 0, 0, 0, 0, 0, 0, 64],
    by decide, by decide, by decide⟩
  large := false
  fits := by decide

theorem named_doubles_only_iff_complex :
    ReturnsNamedDoubles namedComplex (Conn.fresh (pushBack namedComplex.bytes []))
        (Prog.run Conn.handle (getNamedVecF8 3 (some nameX) 8 8 ⟨[], 0, [], 0⟩)
          (Conn.fresh (pushBack namedComplex.bytes []))) ↔
      (¬ namedAccepted 8 8 (pushBack namedComplex.bytes []) ∨ namedComplex.sexp.PlainNamed) :=
  named_doubles_only_iff (c := Conn.fresh (pushBack namedComplex.bytes [])) (by decide) ⟨rfl, rfl⟩
    (show nameRequest .eval (some nameX) = some (requestBytes .eval nameX) by decide)
    (show avail (pushBack namedComplex.bytes []) = namedComplex.bytes ++ [] by decide)

/-- The real part of the complex number is returned as a double, and the imaginary part is
left in the stream. -/
theorem complex_returned_as_double :
    (Prog.run Conn.handle (getNamedVecF8 3 (some nameX) 8 8 ⟨[], 0, [], 0⟩)
        (Conn.fresh (pushBack namedComplex.bytes []))).1 =
      (.ok, ⟨[97, 0, 1, 1, 0, 0, 0, 0], 4, [0, 0, 0, 0, 0, 0, 240, 63], 1⟩) ∧
    ¬ ReturnsNamedDoubles namedComplex (Conn.fresh (pushBack namedComplex.bytes []))
        (Prog.run Conn.handle (getNamedVecF8 3 (some nameX) 8 8 ⟨[], 0, [], 0⟩)
          (Conn.fresh (pushBack namedComplex.bytes []))) := by
  refine ⟨by decide, ?_⟩
  intro hreturns
  exact absurd (hreturns (by decide)).1 (by decide)

end RserveClient
