import RserveClient.Encoding.Payload
import RserveClient.Encoding.Slots

/-!
# String vectors in a `set_vec` packet

What is read from the packet by the rule for string arrays, against the strings
in the slots of the buffer.
-/

namespace RserveClient

open Interaction Arrivals Padding CStr
open LittleEndian (word)

/-- The second parameter of a packet, from its type word on. -/
def secondParam (bs : Bytes) : Bytes :=
  (bs.drop hdrLen).drop (4 + parLen (word (bs.drop hdrLen) 0))

/-- The packet has an `XT_ARRAY_STR` whose length covers its content, a multiple of 8, and
whose content is read as just these strings. -/
structure CarriesStrings (bs : Bytes) (ss : List Bytes) : Prop where
  xt : parType (word (secondParam bs) 1) = xtArrayStr
  len : parLen (word (secondParam bs) 1) = ((secondParam bs).drop 8).length
  aligned : 8 ∣ ((secondParam bs).drop 8).length
  strings : CStr.strings ((secondParam bs).drop 8) = ss

/-- A buffer is refused, or sent as the strings that are in its slots. -/
def StringsSurvive (sock : Int) (name : CStr) (d : Bytes) (n width : UInt32) (c : Conn) : Prop :=
  let r := Prog.run Conn.handle
    ((Call.setVec (some name) (some QType.SC.str) (some d) n width).prog sock) c
  (Terminated d n.toNat width.toNat →
      ∃ bs, r.2.sent = c.sent ++ bs ∧ CarriesStrings bs (slotStrings d n.toNat width.toNat)) ∧
    (¬ Terminated d n.toNat width.toNat → r.1.status.code < 0 ∧ r.2 = c)

/-- The checks that depend on the slots, as the code makes them. -/
def SlotsPass (name : CStr) (d : Bytes) (n width : Nat) : Prop :=
  (∀ i, i < n → slotLen d width i < width) ∧
    lenAccepted (4 + lenName name + lenParam2 .SC (elemLen .SC d n width))

/-- The slots as the code finds them have the strings of the slots, and the checks pass for
these alone. -/
def OffsetsHarmless (name : CStr) (d : Bytes) (n width : Nat) : Prop :=
  (Terminated d n width → ∀ i, i < n → foundString d width i = slotString d width i) ∧
    (SlotsPass name d n width → Terminated d n width)

section Sent

variable {sock : Int} {name qtype : Option CStr} {data : Option Bytes} {n inWidth : UInt32}
variable {s : CStr} {d : Bytes} {width : Nat} {p : SetVecParams}

theorem setVecElems_strings {n cumLen : Nat} {elems : Bytes}
    (h : setVecElems .SC d n width = .ok (cumLen, elems)) :
    cumLen = roundUp 8 ((joined (foundStrings d width n 0)).length % 2 ^ 32) % 2 ^ 32 ∧
      elems = packSlots d n width cumLen := by
  rw [setVecElems, if_pos rfl] at h
  obtain ⟨total, hsum, hrest⟩ := of_bind_eq_ok h
  obtain ⟨rfl, rfl⟩ := Prod.mk.inj (Except.ok.inj hrest)
  have htotal := sumSlots_joined (by decide) hsum
  rw [Nat.zero_add] at htotal
  exact ⟨by rw [padTo8_eq _ (sumSlots_lt (by decide) hsum), htotal], rfl⟩

/-- The second parameter is found behind the name. -/
theorem Encodes.secondParam_eq (h : Encodes sock name qtype data n inWidth s d .SC width p)
    (hname : lenName s < 2 ^ 24) :
    secondParam p.bytes = p.hdrParam2 ++ p.elems.take p.cumLen := by
  have hword : word (p.param1 ++ (p.hdrParam2 ++ p.elems.take p.cumLen)) 0 =
      parWord (lenName s) dtString := by
    rw [h.param1_eq, LittleEndian.word_append _ _ 0 (by rw [length_nameParam]; omega),
      word_nameParam]
  rw [secondParam, p.drop_bytes, SetVecParams.payload, hword, parLen_parWord _ (by decide),
    Nat.mod_eq_of_lt hname]
  exact List.drop_left' (by rw [h.param1_eq, length_nameParam])

theorem Encodes.content_eq (h : Encodes sock name qtype data n inWidth s d .SC width p)
    (hname : lenName s < 2 ^ 24) : (secondParam p.bytes).drop 8 = p.elems.take p.cumLen := by
  rw [h.secondParam_eq hname]
  exact List.drop_left' (by rw [h.hdrParam2_eq, length_mkHdrParam2]; rfl)

/-- Found strings that are those of the slots are sent as they are. -/
theorem Encodes.carriesStrings (h : Encodes sock name qtype data n inWidth s d .SC width p)
    (hname : lenName s < 2 ^ 24)
    (hsize : roundUp 8 (joined (slotStrings d n.toNat width)).length < 2 ^ 24)
    (hfound : foundStrings d width n.toNat 0 = slotStrings d n.toNat width) :
    CarriesStrings p.bytes (slotStrings d n.toNat width) := by
  obtain ⟨hcum, helems⟩ := setVecElems_strings h.elems_eq
  have hround := le_roundUp (by decide : 0 < 8) (joined (slotStrings d n.toNat width)).length
  have hexact : (joined (slotStrings d n.toNat width)).length % 2 ^ 32 =
      (joined (slotStrings d n.toNat width)).length := Nat.mod_eq_of_lt (by omega)
  rw [hfound, hexact, Nat.mod_eq_of_lt (by omega)] at hcum
  have hstrings := strings_packSlots d width n.toNat (show p.cumLen < 2 ^ 32 by omega)
  rw [hfound, if_pos (by omega), ← helems] at hstrings
  have hlen : (p.elems.take p.cumLen).length = p.cumLen := by
    rw [List.length_take, Nat.min_eq_left]
    rw [helems]
    exact le_length_packSlots _ _ _ _
  have hword : word (secondParam p.bytes) 1 = parWord p.cumLen xtArrayStr := by
    have hhdr := length_mkHdrParam2 .SC n.toNat width p.cumLen (lenParam2 .SC p.cumLen)
    rw [h.secondParam_eq hname, h.hdrParam2_eq, LittleEndian.word_append _ _ 1 (by omega),
      (word_mkHdrParam2 .SC n.toNat width p.cumLen (lenParam2 .SC p.cumLen)).2]
    rfl
  refine ⟨?_, ?_, ?_, ?_⟩
  · rw [hword, parType_parWord _ (by decide)]
  · rw [hword, parLen_parWord _ (by decide), h.content_eq hname, hlen, Nat.mod_eq_of_lt (by omega)]
  · rw [h.content_eq hname, hlen, hcum]
    exact dvd_roundUp 8 _
  · rw [h.content_eq hname, hstrings]

/-- Strings that are read back from the packet are those that were found. -/
theorem Encodes.found_of_carries (h : Encodes sock name qtype data n inWidth s d .SC width p)
    (hname : lenName s < 2 ^ 24) (hcarries : CarriesStrings p.bytes (slotStrings d n.toNat width)) :
    foundStrings d width n.toNat 0 = slotStrings d n.toNat width := by
  obtain ⟨hcum, helems⟩ := setVecElems_strings h.elems_eq
  have hstrings := strings_packSlots d width n.toNat (show p.cumLen < 2 ^ 32 by omega)
  have hread := hcarries.strings
  rw [h.content_eq hname] at hread
  rw [← helems, hread] at hstrings
  split at hstrings
  · exact hstrings.symm
  · rw [slotStrings, List.length_map, List.length_range'] at hstrings
    exact absurd hstrings (Nat.lt_irrefl _)

theorem foundStrings_eq_iff {n : Nat} : foundStrings d width n 0 = slotStrings d n width ↔
    ∀ i, i < n → foundString d width i = slotString d width i := by
  rw [foundStrings, slotStrings, List.map_inj_left]
  simp only [List.mem_range'_1, Nat.zero_le, Nat.zero_add, true_and]

end Sent

section Survive

variable {sock : Int} {name : CStr} {d : Bytes} {n width : UInt32} {c : Conn}

/-- A buffer is encoded when the checks on its slots pass. -/
theorem setVecRequest_strings_iff (hsock : 0 ≤ sock) (hne : name.bytes ≠ [])
    (hname : lenName name < 2 ^ 24) (hn : n ≠ 0) (hwidth : width ≠ 0) :
    setVecRequest sock (some name) (some QType.SC.str) (some d) n width ≠ none ↔
      SlotsPass name d n.toNat width.toNat := by
  have htype : setVecType QType.SC.str width = .ok (.SC, width.toNat) := by
    rw [setVecType, QType.ofStr_str]
    exact if_neg hwidth
  rw [setVecRequest_ne_none_iff]
  constructor
  · rintro ⟨_, _, s, t, d', q, width', ⟨hs, _⟩, ⟨ht, _⟩, hd, htype', hslots, _, hacc⟩
    cases hs
    cases ht
    cases hd
    obtain ⟨rfl, rfl⟩ := Prod.mk.inj (Except.ok.inj (htype.symm.trans htype'))
    exact ⟨hslots rfl, hacc⟩
  · rintro ⟨hslots, hacc⟩
    refine ⟨hsock, hn, name, QType.SC.str, d, .SC, width.toNat, ⟨rfl, hne⟩, ⟨rfl, by decide⟩, rfl,
      htype, fun _ => hslots, ?_, hacc⟩
    rw [ptrdiffMax]
    omega

/-- Strings found where they are fit in their slots, and the packet is short enough. -/
theorem slotsPass_of_found {n width : Nat} (hname : lenName name < 2 ^ 24)
    (hsize : roundUp 8 (joined (slotStrings d n width)).length < 2 ^ 24)
    (hend : Terminated d n width)
    (hfound : ∀ i, i < n → foundString d width i = slotString d width i) :
    SlotsPass name d n width := by
  have hslots : ∀ i, i < n → slotLen d width i < width := by
    intro i hi
    have hlt := strlen_lt (hend i hi)
    have hle : (slot d width i).length ≤ width := List.length_take_le _ _
    rw [← length_foundString, hfound i hi]
    exact Nat.lt_of_lt_of_le hlt hle
  refine ⟨hslots, ?_⟩
  obtain ⟨⟨cumLen, elems⟩, helems⟩ := setVecElems_ok_iff.mpr fun _ : QType.SC = .SC => hslots
  have hround := le_roundUp (by decide : 0 < 8) (joined (slotStrings d n width)).length
  have hexact : (joined (slotStrings d n width)).length % 2 ^ 32 =
      (joined (slotStrings d n width)).length := Nat.mod_eq_of_lt (by omega)
  have hcum := (setVecElems_strings helems).1
  rw [foundStrings_eq_iff.mpr hfound, hexact, Nat.mod_eq_of_lt (by omega)] at hcum
  have hcount : QType.SC.countLen = 0 := rfl
  rw [← setVecElems_cumLen helems, hcum, lenParam2, CInt.toUInt32_natCast,
    Nat.mod_eq_of_lt (by omega), lenAccepted, CInt.toInt_eq (by omega) (by omega)]
  omega

theorem setVecType_strings (hwidth : width ≠ 0) :
    setVecType QType.SC.str width = .ok (.SC, width.toNat) := by
  rw [setVecType, QType.ofStr_str]
  exact if_neg hwidth

theorem strings_holdsVector (hwidth : width ≠ 0) (hd : d.length = n.toNat * width.toNat) :
    (Call.setVec (some name) (some QType.SC.str) (some d) n width).HoldsVector := by
  intro d' t q w hd' ht htype
  cases hd'
  cases ht
  obtain ⟨rfl, rfl⟩ := Prod.mk.inj (Except.ok.inj ((setVecType_strings hwidth).symm.trans htype))
  exact hd

/-- What is sent for a buffer of strings is an encoding of it. -/
theorem setVecRequest_strings {bs : Bytes} (hwidth : width ≠ 0)
    (hreq : setVecRequest sock (some name) (some QType.SC.str) (some d) n width = some bs) :
    ∃ p, Encodes sock (some name) (some QType.SC.str) (some d) n width name d .SC width.toNat p ∧
      bs = p.bytes := by
  obtain ⟨p, hp, rfl⟩ := setVecRequest_eq_some hreq
  obtain ⟨s, d', q, width', henc⟩ := setVecParams_ok hp
  obtain ⟨t, ht, _, htype⟩ := henc.type_eq
  obtain rfl := Option.some.inj henc.name_eq
  obtain rfl := Option.some.inj henc.data_eq
  obtain rfl := Option.some.inj ht
  obtain ⟨rfl, rfl⟩ := Prod.mk.inj (Except.ok.inj ((setVecType_strings hwidth).symm.trans htype))
  exact ⟨p, henc, rfl⟩

/-- Strings that go out as those of the slots are what the code has found in them. -/
theorem found_of_sent (hsock : 0 ≤ sock) (hc : c.Ready) (hname : lenName name < 2 ^ 24)
    (hwidth : width ≠ 0) (hd : d.length = n.toNat * width.toNat) {bs : Bytes}
    (hsent : (Prog.run Conn.handle
      ((Call.setVec (some name) (some QType.SC.str) (some d) n width).prog sock) c).2.sent =
        c.sent ++ bs) (hcarries : CarriesStrings bs (slotStrings d n.toNat width.toNat)) :
    ∀ i, i < n.toNat → foundString d width.toNat i = slotString d width.toNat i := by
  cases hreq : (Call.setVec (some name) (some QType.SC.str) (some d) n width).request sock with
  | none =>
      obtain ⟨why, out, hrun⟩ := run_prog_refused hsock c hreq
      rw [hrun] at hsent
      obtain rfl : bs = [] := by simpa using hsent
      exact absurd hcarries.xt (by decide)
  | some bytes =>
      obtain ⟨p, henc, rfl⟩ := setVecRequest_strings hwidth hreq
      rw [sent_run_prog hsock hc (strings_holdsVector hwidth hd) hreq] at hsent
      obtain rfl := List.append_cancel_left hsent
      exact foundStrings_eq_iff.mp (henc.found_of_carries hname hcarries)

/-- String vectors survive exactly where the offsets do no harm. -/
theorem strings_survive_iff (hsock : 0 ≤ sock) (hc : c.Ready) (hne : name.bytes ≠ [])
    (hname : lenName name < 2 ^ 24) (hn : n ≠ 0) (hwidth : width ≠ 0)
    (hd : d.length = n.toNat * width.toNat)
    (hsize : Terminated d n.toNat width.toNat →
      roundUp 8 (joined (slotStrings d n.toNat width.toNat)).length < 2 ^ 24) :
    StringsSurvive sock name d n width c ↔ OffsetsHarmless name d n.toNat width.toNat := by
  have hpass := setVecRequest_strings_iff (d := d) hsock hne hname hn hwidth
  have hsends : ∀ bs, (Call.setVec (some name) (some QType.SC.str) (some d) n width).request sock =
      some bs → _ := fun bs => sent_run_prog hsock hc (strings_holdsVector hwidth hd)
  constructor
  · rintro ⟨hcarries, hrefused⟩
    constructor
    · intro hend
      obtain ⟨bs, hsent, hstrings⟩ := hcarries hend
      exact found_of_sent hsock hc hname hwidth hd hsent hstrings
    · intro hslots
      by_contra hend
      obtain ⟨bs, hreq⟩ := Option.ne_none_iff_exists'.mp (hpass.mpr hslots)
      obtain ⟨p, _, rfl⟩ := setVecRequest_strings hwidth hreq
      have hsent := hsends _ hreq
      rw [(hrefused hend).2] at hsent
      have hnil : p.bytes = [] := by simpa using hsent
      have hlen := p.length_bytes
      rw [hnil, List.length_nil, hdrLen] at hlen
      omega
  · rintro ⟨hfound, hend⟩
    constructor
    · intro hterm
      have hslots := slotsPass_of_found hname (hsize hterm) hterm (hfound hterm)
      obtain ⟨bs, hreq⟩ := Option.ne_none_iff_exists'.mp (hpass.mpr hslots)
      obtain ⟨p, henc, rfl⟩ := setVecRequest_strings hwidth hreq
      exact ⟨p.bytes, hsends _ hreq, henc.carriesStrings hname (hsize hterm)
        (foundStrings_eq_iff.mpr (hfound hterm))⟩
    · intro hno
      have hreq : setVecRequest sock (some name) (some QType.SC.str) (some d) n width = none :=
        not_not.mp (mt hpass.mp (mt hend hno))
      obtain ⟨why, out, hrun⟩ := run_prog_refused hsock c
        (show (Call.setVec (some name) (some QType.SC.str) (some d) n width).request sock = none
          from hreq)
      rw [hrun]
      exact ⟨why.code_neg, rfl⟩

end Survive

/-- In a buffer below 4 GiB no offset wraps, so every vector of strings survives there. -/
theorem offsetsHarmless_of_lt (name : CStr) {d : Bytes} {n width : Nat} (hd : d.length = n * width)
    (hsize : n * width < 2 ^ 32) (hwidth : 0 < width) : OffsetsHarmless name d n width := by
  have hfrom : ∀ i, i < n → slotFrom d width i = d.drop (i * width) ∧
      slotLen d width i = strlen (d.drop (i * width)) := by
    intro i hi
    have hoffset : i * width + width ≤ n * width := by
      rw [← Nat.succ_mul]
      exact Nat.mul_le_mul_right width hi
    have hslot : slotFrom d width i = d.drop (i * width) := by
      rw [slotFrom, CInt.toUInt32_natCast, Nat.mod_eq_of_lt (by omega)]
    have hlen : strlen (d.drop (i * width)) ≤ (d.drop (i * width)).length :=
      (List.takeWhile_prefix _).length_le
    rw [List.length_drop] at hlen
    refine ⟨hslot, ?_⟩
    rw [slotLen, hslot, CInt.toUInt32_natCast, Nat.mod_eq_of_lt (by omega)]
  constructor
  · intro hend i hi
    obtain ⟨hslot, hlen⟩ := hfrom i hi
    rw [foundString, hlen, hslot, slotString, slot, takeWhile_take (hend i hi), strlen]
    exact (List.prefix_iff_eq_take.mp (List.takeWhile_prefix _)).symm
  · rintro ⟨hslots, _⟩ i hi
    exact (slotLen_lt_iff hd hsize.le (fun heq => absurd heq hsize.ne) hi).mp (hslots i hi)

/-- Two slots of four bytes: `ab`, and an empty string with other bytes behind it. -/
def twoSlots : Bytes := [97, 98, 0, 0, 0, 120, 121, 122]

theorem strings_survive_iff_twoSlots :
    StringsSurvive 3 nameX twoSlots 2 4 (Conn.fresh []) ↔ OffsetsHarmless nameX twoSlots 2 4 := by
  exact strings_survive_iff (by decide) ⟨rfl, rfl⟩ (by decide) (by decide)
    (by decide) (by decide) (by decide) (fun _ => by decide)

/-- A slot with at most one character. -/
def wideSlot (m : Nat) (b : UInt8) : Bytes := b :: List.replicate m 0

/-- Three slots of 2 GiB: `a`, the empty string, and `b`. -/
def wideSlots (m : Nat) : Bytes := wideSlot m 97 ++ (wideSlot m 0 ++ wideSlot m 98)

section Wide

variable {m : Nat}

theorem length_wideSlot (m : Nat) (b : UInt8) : (wideSlot m b).length = m + 1 := by
  rw [wideSlot, List.length_cons, List.length_replicate]

theorem length_wideSlots (m : Nat) : (wideSlots m).length = 3 * (m + 1) := by
  simp only [wideSlots, List.length_append, length_wideSlot]
  omega

theorem takeWhile_wideSlot {b : UInt8} (hb : b ≠ 0) (hm : 0 < m) (rest : Bytes) :
    (wideSlot m b ++ rest).takeWhile (· ≠ 0) = [b] := by
  obtain ⟨k, rfl⟩ : ∃ k, m = k + 1 := ⟨m - 1, by omega⟩
  have hnul : 0 ∉ [b] := by simpa using hb.symm
  exact takeWhile_append_nul hnul _

/-- The slots of the buffer. -/
theorem slot_wideSlots (m : Nat) :
    slot (wideSlots m) (m + 1) 0 = wideSlot m 97 ∧ slot (wideSlots m) (m + 1) 1 = wideSlot m 0 ∧
      slot (wideSlots m) (m + 1) 2 = wideSlot m 98 := by
  have h1 : (wideSlots m).drop (1 * (m + 1)) = wideSlot m 0 ++ wideSlot m 98 := by
    rw [Nat.one_mul]
    exact List.drop_left' (length_wideSlot m 97)
  have h2 : (wideSlots m).drop (2 * (m + 1)) = wideSlot m 98 := by
    rw [Nat.two_mul, ← List.drop_drop, ← Nat.one_mul (m + 1), h1, Nat.one_mul]
    exact List.drop_left' (length_wideSlot m 0)
  refine ⟨?_, ?_, ?_⟩
  · rw [slot, Nat.zero_mul, List.drop_zero]
    exact List.take_left' (length_wideSlot m 97)
  · rw [slot, h1]
    exact List.take_left' (length_wideSlot m 0)
  · rw [slot, h2]
    exact List.take_of_length_le (Nat.le_of_eq (length_wideSlot m 98))

theorem terminated_wideSlots (hm : 0 < m) : Terminated (wideSlots m) 3 (m + 1) := by
  have h0 : ∀ b, (0 : UInt8) ∈ wideSlot m b := fun b =>
    List.mem_cons_of_mem b (List.mem_replicate.mpr ⟨by omega, rfl⟩)
  obtain ⟨hs0, hs1, hs2⟩ := slot_wideSlots m
  intro i hi
  match i with
  | 0 => exact hs0 ▸ h0 97
  | 1 => exact hs1 ▸ h0 0
  | 2 => exact hs2 ▸ h0 98

/-- The last string. -/
theorem slotString_wideSlots (hm : 0 < m) : slotString (wideSlots m) (m + 1) 2 = [98] := by
  have h98 := takeWhile_wideSlot (b := 98) (by decide) hm []
  rw [List.append_nil] at h98
  rw [slotString, (slot_wideSlots m).2.2, h98]

theorem slotStrings_wideSlots (hm : 0 < m) :
    slotStrings (wideSlots m) 3 (m + 1) = [[97], [], [98]] := by
  obtain ⟨hs0, hs1, _⟩ := slot_wideSlots m
  have h97 := takeWhile_wideSlot (b := 97) (by decide) hm []
  rw [List.append_nil] at h97
  simp only [slotStrings, List.range'_succ, List.range'_zero, List.map_cons, List.map_nil,
    Nat.zero_add, Nat.reduceAdd, slotString_wideSlots hm]
  rw [slotString, slotString, hs0, hs1, h97]
  rfl

end Wide

/-- The third slot starts at an offset of `2 ^ 32`, which wraps to the first: `a` is sent
where the slot holds `b`. -/
theorem third_string_lost :
    Terminated (wideSlots (2 ^ 31 - 1)) 3 (2 ^ 31) ∧
      slotStrings (wideSlots (2 ^ 31 - 1)) 3 (2 ^ 31) = [[97], [], [98]] ∧
      foundString (wideSlots (2 ^ 31 - 1)) (2 ^ 31) 2 = [97] ∧
      ¬ StringsSurvive 3 nameX (wideSlots (2 ^ 31 - 1)) 3 2147483648 (Conn.fresh []) := by
  have hterm := terminated_wideSlots (m := 2 ^ 31 - 1) (by decide)
  have hstrings := slotStrings_wideSlots (m := 2 ^ 31 - 1) (by decide)
  have hslot : slotFrom (wideSlots (2 ^ 31 - 1)) (2 ^ 31) 2 = wideSlots (2 ^ 31 - 1) := rfl
  have htake := takeWhile_wideSlot (b := 97) (by decide) (by decide : 0 < 2 ^ 31 - 1)
    (wideSlot (2 ^ 31 - 1) 0 ++ wideSlot (2 ^ 31 - 1) 98)
  have hfound : foundString (wideSlots (2 ^ 31 - 1)) (2 ^ 31) 2 = [97] := by
    have hlen : slotLen (wideSlots (2 ^ 31 - 1)) (2 ^ 31) 2 = 1 := by
      rw [slotLen, hslot, strlen, wideSlots, htake]
      rfl
    rw [foundString, hlen, hslot]
    rfl
  refine ⟨hterm, hstrings, hfound, ?_⟩
  rintro ⟨hcarries, _⟩
  obtain ⟨bs, hsent, hread⟩ := hcarries hterm
  have hthird : foundString (wideSlots (2 ^ 31 - 1)) (2 ^ 31) 2 =
      slotString (wideSlots (2 ^ 31 - 1)) (2 ^ 31) 2 :=
    found_of_sent (c := Conn.fresh []) (by decide) ⟨rfl, rfl⟩ (by decide) (by decide)
      (length_wideSlots (2 ^ 31 - 1)) hsent hread 2 (by decide)
  have hlast : slotString (wideSlots (2 ^ 31 - 1)) (2 ^ 31) 2 = [98] :=
    slotString_wideSlots (m := 2 ^ 31 - 1) (by decide)
  rw [hfound, hlast] at hthird
  exact absurd hthird (by decide)

end RserveClient
