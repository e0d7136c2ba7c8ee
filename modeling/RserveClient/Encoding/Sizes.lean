import RserveClient.Client.Replies

/-!
# The sizes in a `set_vec` packet

The lengths that `set_vec` computes in 32 and 64 bits, against the sizes of the
vector in unbounded integers, and the 24-bit length fields it fills.
-/

namespace RserveClient

open Interaction Arrivals Padding
open LittleEndian (encode word)

/-- `strlen + 1` over `k` slots from `i` on, found at the given offsets. -/
def slotTotal (data : Bytes) (offset : Nat → Nat) : Nat → Nat → Nat
  | 0, _ => 0
  | k + 1, i => CStr.strlen (data.drop (offset i)) + 1 + slotTotal data offset k (i + 1)

/-- The element bytes of the whole vector. -/
def fullLen (q : QType) (data : Bytes) (n width : Nat) : Nat :=
  if q = .SC then roundUp 8 (slotTotal data (fun i => i * width) n 0) else n * width

/-- The length of the SEXP content that the code shifts into the XT word: the elements,
but for `I1` the whole parameter. -/
def fullXtLen (q : QType) (data : Bytes) (n width : Nat) : Nat :=
  match q with
  | .I1 => 8 + q.countLen + fullLen q data n width
  | q => fullLen q data n width

/-- What goes out after the header. -/
def SetVecParams.payload (p : SetVecParams) : Bytes :=
  p.param1 ++ (p.hdrParam2 ++ p.elems.take p.cumLen)

theorem SetVecParams.bytes_eq (p : SetVecParams) : p.bytes = p.ph.bytes ++ p.payload := rfl

/-- No size is truncated: all element bytes go out, the header tells the length of the
payload, and the three length fields hold what is shifted into them. -/
structure SizesExact (s : CStr) (d : Bytes) (q : QType) (n width : Nat) (p : SetVecParams) :
    Prop where
  elems : (p.elems.take p.cumLen).length = fullLen q d n width
  hdr : p.ph.len.toInt = p.payload.length
  name : parLen (word p.param1 0) = lenName s
  dt : parLen (word p.hdrParam2 0) = 8 + q.countLen + fullLen q d n width
  xt : parLen (word p.hdrParam2 1) = fullXtLen q d n width

theorem le_slotTotal (data : Bytes) (offset : Nat → Nat) (k i : Nat) :
    k ≤ slotTotal data offset k i := by
  induction k generalizing i with
  | zero => exact Nat.le_refl 0
  | succ k ih =>
      have h := ih (i + 1)
      rw [slotTotal]
      omega

theorem slotTotal_congr {data : Bytes} {f g : Nat → Nat} {k i : Nat}
    (h : ∀ j, i ≤ j → j < i + k → f j = g j) : slotTotal data f k i = slotTotal data g k i := by
  induction k generalizing i with
  | zero => rfl
  | succ k ih =>
      rw [slotTotal, slotTotal, h i (Nat.le_refl i) (by omega),
        ih fun j hj hlt => h j (by omega) (by omega)]

/-- The first loop sums up to whole multiples of `2 ^ 32`, at offsets that wrap too. -/
theorem sumSlots_ok {data : Bytes} {width k i cumLen total : Nat} (hlt : cumLen < 2 ^ 32)
    (h : sumSlots data width k i cumLen = .ok total) :
    total = (cumLen + slotTotal data (fun j => j * width % 2 ^ 32) k i) % 2 ^ 32 := by
  induction k generalizing i cumLen with
  | zero =>
      obtain rfl := Except.ok.inj h
      rw [slotTotal, Nat.add_zero, Nat.mod_eq_of_lt hlt]
  | succ k ih =>
      rw [sumSlots] at h
      split at h
      · cases h
      · have hnext := ih (CInt.toUInt32_lt _) h
        rw [hnext, slotTotal, slotLen, slotFrom]
        simp only [CInt.toUInt32_natCast]
        omega

/-- The first loop runs through exactly when every slot, found at its offset in 32 bits, has
a length in 32 bits below the width. Up to 4 GiB that is to say that it holds a NUL. -/
theorem sumSlots_ok_iff {data : Bytes} {width k i cumLen : Nat} :
    (∃ total, sumSlots data width k i cumLen = .ok total) ↔
      ∀ j, i ≤ j → j < i + k → slotLen data width j < width := by
  induction k generalizing i cumLen with
  | zero =>
      refine iff_of_true ⟨cumLen, rfl⟩ ?_
      intro j hle hlt
      omega
  | succ k ih =>
      rw [sumSlots]
      by_cases hslot : width ≤ slotLen data width i
      · rw [if_pos hslot]
        refine iff_of_false ?_ ?_
        · rintro ⟨total, h⟩
          cases h
        · intro h
          exact absurd (h i (Nat.le_refl i) (by omega)) (Nat.not_lt.mpr hslot)
      · rw [if_neg hslot]
        refine ih.trans ?_
        constructor
        · intro h j hle hlt
          rcases Nat.eq_or_lt_of_le hle with rfl | hgt
          · exact Nat.lt_of_not_le hslot
          · exact h j hgt (by omega)
        · intro h j hle hlt
          exact h j (by omega) (by omega)

theorem padTo8_eq (cumLen : Nat) (h : cumLen < 2 ^ 32) :
    padTo8 cumLen = roundUp 8 cumLen % 2 ^ 32 := by
  rw [padTo8, roundUp]
  simp only [CInt.toUInt32_natCast]
  split
  · congr 1
    omega
  · rw [Nat.mod_eq_of_lt (by omega)]
    omega

/-- Name and SEXP parameter fit their 24-bit fields, and the strings found at the
offsets that wrap take as many bytes as the strings of the slots. -/
def FieldsFit (s : CStr) (d : Bytes) (q : QType) (n width : Nat) : Prop :=
  lenName s < 2 ^ 24 ∧ 8 + q.countLen + fullLen q d n width < 2 ^ 24 ∧
    (q = .SC → roundUp 8 (slotTotal d (fun i => i * width % 2 ^ 32) n 0 % 2 ^ 32) =
      roundUp 8 (slotTotal d (fun i => i * width) n 0))

/-- Up to a buffer of 4 GiB no offset wraps. -/
theorem slotTotal_wrapped {d : Bytes} {n width : Nat} (h : n * width ≤ 2 ^ 32)
    (hwidth : 0 < width) :
    slotTotal d (fun i => i * width % 2 ^ 32) n 0 = slotTotal d (fun i => i * width) n 0 := by
  apply slotTotal_congr
  intro j _ hj
  have hlt : j * width < n * width := Nat.mul_lt_mul_of_pos_right (by omega) hwidth
  exact Nat.mod_eq_of_lt (by omega)

/-- So up to there the two field lengths decide. -/
theorem fieldsFit_iff {s : CStr} {d : Bytes} {q : QType} {n width : Nat}
    (h : n * width ≤ 2 ^ 32) (hwidth : 0 < width) :
    FieldsFit s d q n width ↔
      lenName s < 2 ^ 24 ∧ 8 + q.countLen + fullLen q d n width < 2 ^ 24 := by
  constructor
  · rintro ⟨hname, hsexp, _⟩
    exact ⟨hname, hsexp⟩
  · rintro ⟨hname, hsexp⟩
    refine ⟨hname, hsexp, ?_⟩
    intro hq
    have hround := le_roundUp (by decide : 0 < 8) (slotTotal d (fun i => i * width) n 0)
    rw [fullLen, if_pos hq] at hsexp
    rw [slotTotal_wrapped h hwidth, Nat.mod_eq_of_lt (by omega)]

/-- `cum_len` in terms of the arguments. -/
def elemLen (q : QType) (d : Bytes) (n width : Nat) : Nat :=
  if q = .SC then roundUp 8 (slotTotal d (fun i => i * width % 2 ^ 32) n 0 % 2 ^ 32) % 2 ^ 32
  else n * width % 2 ^ 32

section Exact

variable {sock : Int} {name qtype : Option CStr} {data : Option Bytes} {n inWidth : UInt32}
variable {s : CStr} {d : Bytes} {q : QType} {width : Nat} {p : SetVecParams}

theorem setVecElems_cumLen {nElems cumLen : Nat} {elems : Bytes}
    (h : setVecElems q d nElems width = .ok (cumLen, elems)) :
    cumLen = elemLen q d nElems width := by
  rw [setVecElems] at h
  rw [elemLen]
  by_cases hq : q = .SC
  · rw [if_pos hq] at h ⊢
    obtain ⟨total, hsum, hrest⟩ := of_bind_eq_ok h
    have htotal := sumSlots_ok (by decide) hsum
    rw [Nat.zero_add] at htotal
    have hcum : padTo8 total = cumLen := (Prod.mk.inj (Except.ok.inj hrest)).1
    rw [← hcum, padTo8_eq _ (sumSlots_lt (by decide) hsum), htotal]
  · rw [if_neg hq] at h ⊢
    have hcum := (Prod.mk.inj (Except.ok.inj h)).1
    rw [← hcum, CInt.toUInt32_natCast]

/-- The elements are refused only for a slot that is found too long. -/
theorem setVecElems_ok_iff {nElems : Nat} :
    (∃ r, setVecElems q d nElems width = .ok r) ↔
      (q = .SC → ∀ i, i < nElems → slotLen d width i < width) := by
  rw [setVecElems]
  by_cases hq : q = .SC
  · rw [if_pos hq]
    have hslots : (∃ total, sumSlots d width nElems 0 0 = .ok total) ↔ _ := sumSlots_ok_iff
    constructor
    · rintro ⟨r, hr⟩ _ i hi
      obtain ⟨total, hsum, _⟩ := of_bind_eq_ok hr
      exact hslots.mp ⟨total, hsum⟩ i (Nat.zero_le i) (by omega)
    · intro h
      obtain ⟨total, hsum⟩ := hslots.mpr fun j _ hj => h hq j (by omega)
      exact ⟨(padTo8 total, packSlots d nElems width (padTo8 total)), by rw [hsum]; rfl⟩
  · rw [if_neg hq]
    exact iff_of_true ⟨_, rfl⟩ fun h => absurd h hq

/-- The number of element bytes in terms of the arguments. -/
theorem Encodes.cumLen_eq (h : Encodes sock name qtype data n inWidth s d q width p) :
    p.cumLen = elemLen q d n.toNat width :=
  setVecElems_cumLen h.elems_eq

theorem word_nameParam (s : CStr) : word (nameParam s) 0 = parWord (lenName s) dtString := by
  rw [nameParam, LittleEndian.word_encode_zero, Nat.mod_eq_of_lt (parWord_lt _ _)]

theorem word_mkHdrParam2 (q : QType) (n width cumLen len : Nat) :
    word (mkHdrParam2 q n width cumLen len) 0 = parWord len dtSexp ∧
      word (mkHdrParam2 q n width cumLen len) 1 =
        parWord (xtWordLen q n width cumLen len) q.xt := by
  constructor
  · rw [mkHdrParam2, LittleEndian.word_encode_zero, Nat.mod_eq_of_lt (parWord_lt _ _)]
  · rw [mkHdrParam2, LittleEndian.word_encode_succ, LittleEndian.word_encode_zero,
      Nat.mod_eq_of_lt (parWord_lt _ _)]

/-- The three fields hold the code's own values modulo `2 ^ 24`. -/
theorem Encodes.fields (h : Encodes sock name qtype data n inWidth s d q width p) :
    parLen (word p.param1 0) = lenName s % 2 ^ 24 ∧
      parLen (word p.hdrParam2 0) = lenParam2 q p.cumLen % 2 ^ 24 ∧
      parLen (word p.hdrParam2 1) =
        xtWordLen q n.toNat width p.cumLen (lenParam2 q p.cumLen) % 2 ^ 24 := by
  obtain ⟨hdt, hxt⟩ :=
    word_mkHdrParam2 q n.toNat width p.cumLen (lenParam2 q p.cumLen)
  rw [h.param1_eq, h.hdrParam2_eq, word_nameParam, hdt, hxt]
  exact ⟨parLen_parWord _ (by decide), parLen_parWord _ (by decide),
    parLen_parWord _ q.xt_lt⟩

theorem Encodes.length_payload (h : Encodes sock name qtype data n inWidth s d q width p)
    (hdata : d.length = n.toNat * width) :
    p.payload.length = (4 + lenName s) + ((8 + q.countLen) + p.cumLen) := by
  rw [SetVecParams.payload, List.length_append, List.length_append, (h.length_elems hdata).2,
    h.param1_eq, length_nameParam, h.hdrParam2_eq, length_mkHdrParam2]

/-- As long as the payload has a length in `int` the header tells it. -/
theorem Encodes.len_ph (h : Encodes sock name qtype data n inWidth s d q width p)
    (hdata : d.length = n.toNat * width) (hsize : p.payload.length < 2 ^ 31) :
    p.ph.len.toInt = p.payload.length := by
  rw [h.length_payload hdata] at hsize ⊢
  have hlen2 : lenParam2 q p.cumLen = 8 + q.countLen + p.cumLen := by
    rw [lenParam2, CInt.toUInt32_natCast, Nat.mod_eq_of_lt (by omega)]
  rw [h.ph_eq, requestHdr, CInt.toInt_ofInt, hlen2, CInt.toInt_eq (by omega) (by omega)]

/-- With all sizes below the field limit the code's arithmetic is exact. -/
theorem Encodes.cumLen_of_fits (h : Encodes sock name qtype data n inWidth s d q width p)
    (hfit : FieldsFit s d q n.toNat width) : p.cumLen = fullLen q d n.toNat width := by
  obtain ⟨_, hsexp, hslots⟩ := hfit
  rw [h.cumLen_eq, elemLen]
  by_cases hq : q = .SC
  · rw [fullLen, if_pos hq] at hsexp
    rw [if_pos hq, fullLen, if_pos hq, hslots hq, Nat.mod_eq_of_lt (by omega)]
  · rw [fullLen, if_neg hq] at hsexp
    rw [if_neg hq, fullLen, if_neg hq, Nat.mod_eq_of_lt (by omega)]

theorem Encodes.sizesExact (h : Encodes sock name qtype data n inWidth s d q width p)
    (hdata : d.length = n.toNat * width) (hfit : FieldsFit s d q n.toNat width) :
    SizesExact s d q n.toNat width p := by
  have hcum := h.cumLen_of_fits hfit
  obtain ⟨hname, hdt, hxt⟩ := h.fields
  obtain ⟨hname24, hsexp, _⟩ := hfit
  have hlen2 : lenParam2 q p.cumLen = 8 + q.countLen + fullLen q d n.toNat width := by
    rw [lenParam2, CInt.toUInt32_natCast, hcum, Nat.mod_eq_of_lt (by omega)]
  have hxtLen : xtWordLen q n.toNat width p.cumLen (lenParam2 q p.cumLen) =
      fullXtLen q d n.toNat width := by
    have hprod : q ≠ .SC → CInt.toUInt32 (n.toNat * width : Nat) = fullLen q d n.toNat width := by
      intro hq
      rw [fullLen, if_neg hq] at hsexp ⊢
      rw [CInt.toUInt32_natCast, Nat.mod_eq_of_lt (by omega)]
    cases q with
    | F8 => exact hprod (by decide)
    | I4 => exact hprod (by decide)
    | I1 => exact hlen2
    | SC => exact hcum
  have hxt24 : fullXtLen q d n.toNat width < 2 ^ 24 := by
    cases q <;> simp only [fullXtLen] <;> omega
  refine ⟨?_, ?_, ?_, ?_, ?_⟩
  · rw [(h.length_elems hdata).2, hcum]
  · apply h.len_ph hdata
    rw [h.length_payload hdata, hcum]
    omega
  · rw [hname, Nat.mod_eq_of_lt hname24]
  · rw [hdt, hlen2, Nat.mod_eq_of_lt hsexp]
  · rw [hxt, hxtLen, Nat.mod_eq_of_lt hxt24]

/-- Exact sizes need room in the fields. -/
theorem SizesExact.fits (h : Encodes sock name qtype data n inWidth s d q width p)
    (hdata : d.length = n.toNat * width) (hexact : SizesExact s d q n.toNat width p) :
    FieldsFit s d q n.toNat width := by
  have hsexp : 8 + q.countLen + fullLen q d n.toNat width < 2 ^ 24 := by
    rw [← hexact.dt]
    exact parLen_lt (LittleEndian.word_lt _ 0)
  refine ⟨?_, hsexp, fun hq => ?_⟩
  · rw [← hexact.name]
    exact parLen_lt (LittleEndian.word_lt _ 0)
  · have hcum := hexact.elems
    have hn : 0 < n.toNat := Nat.pos_of_ne_zero fun h0 => h.n_ne (UInt32.toNat_inj.mp h0)
    have hpos := le_slotTotal d (fun i => i * width) n.toNat 0
    have hround := le_roundUp (by decide : 0 < 8) (slotTotal d (fun i => i * width) n.toNat 0)
    have hmod := Nat.mod_lt (slotTotal d (fun i => i * width % 2 ^ 32) n.toNat 0)
      (by decide : 0 < 2 ^ 32)
    have hwrap := roundUp_le (m := 2 ^ 32) (by decide : 0 < 8) (by decide) hmod.le
    rw [(h.length_elems hdata).2, h.cumLen_eq, elemLen, if_pos hq, fullLen, if_pos hq] at hcum
    -- a total that rounds up to all of 2 ^ 32 would leave nothing
    rcases Nat.lt_or_ge (roundUp 8
      (slotTotal d (fun i => i * width % 2 ^ 32) n.toNat 0 % 2 ^ 32)) (2 ^ 32) with hlt | hge
    · rwa [Nat.mod_eq_of_lt hlt] at hcum
    · have heq := Nat.le_antisymm hwrap hge
      rw [heq, Nat.mod_self] at hcum
      omega

end Exact

/-- Either the arguments are refused and nothing is sent, or the packet goes out and no
size in it is truncated. -/
def SizesHold (sock : Int) (name qtype : Option CStr) (data : Option Bytes)
    (n inWidth : UInt32) (c : Conn) : Prop :=
  let r := Prog.run Conn.handle ((Call.setVec name qtype data n inWidth).prog sock) c
  match setVecParams sock name qtype data n inWidth with
  | .error _ => r.1.status.code < 0 ∧ r.2 = c
  | .ok p =>
      r.2.sent = c.sent ++ p.bytes ∧
        ∀ s d q width, Encodes sock name qtype data n inWidth s d q width p →
          SizesExact s d q n.toNat width p

/-- The checks that `set_vec` makes before the first send: on its arguments, on the
lengths it finds for the slots, on the size of the name and on the length in the header. -/
def ChecksPass (sock : Int) (name qtype : Option CStr) (data : Option Bytes)
    (n inWidth : UInt32) : Prop :=
  0 ≤ sock ∧ n ≠ 0 ∧ ∃ s t d q width,
    (name = some s ∧ s.bytes ≠ []) ∧ (qtype = some t ∧ t.bytes ≠ []) ∧ data = some d ∧
    setVecType t inWidth = .ok (q, width) ∧
    (q = .SC → ∀ i, i < n.toNat → slotLen d width i < width) ∧
    4 + lenName s ≤ ptrdiffMax ∧
    lenAccepted (4 + lenName s + lenParam2 q (elemLen q d n.toNat width))

/-- Arguments are encoded exactly when these checks pass. -/
theorem setVecRequest_ne_none_iff {sock : Int} {name qtype : Option CStr} {data : Option Bytes}
    {n inWidth : UInt32} :
    setVecRequest sock name qtype data n inWidth ≠ none ↔
      ChecksPass sock name qtype data n inWidth := by
  constructor
  · intro h
    obtain ⟨bs, hbs⟩ := Option.ne_none_iff_exists'.mp h
    obtain ⟨p, hp, _⟩ := setVecRequest_eq_some hbs
    obtain ⟨s, d, q, width, henc⟩ := setVecParams_ok hp
    obtain ⟨t, ht, htne, htype⟩ := henc.type_eq
    have hslots := setVecElems_ok_iff.mp ⟨_, henc.elems_eq⟩
    have hacc := henc.accepted
    rw [henc.cumLen_eq] at hacc
    exact ⟨henc.sock_nonneg, henc.n_ne, s, t, d, q, width, ⟨henc.name_eq, henc.name_ne⟩,
      ⟨ht, htne⟩, henc.data_eq, htype, hslots, henc.mem, hacc⟩
  · rintro ⟨hsock, hn, s, t, d, q, width, ⟨hname, hnameNe⟩, ⟨ht, htne⟩, hd, htype, hslots, hmem,
      hacc⟩
    obtain ⟨⟨cumLen, elems⟩, helems⟩ := setVecElems_ok_iff.mpr hslots
    have hcum := setVecElems_cumLen helems
    rw [← hcum] at hacc
    have henc : Encodes sock name qtype data n inWidth s d q width
        ⟨requestHdr .setSexp (4 + lenName s + lenParam2 q cumLen), nameParam s,
          mkHdrParam2 q n.toNat width cumLen (lenParam2 q cumLen), elems, cumLen⟩ :=
      ⟨hsock, hname, hnameNe, ⟨t, ht, htne, htype⟩, hd, hn, hmem, helems, hacc, rfl, rfl, rfl⟩
    rw [setVecRequest, henc.setVecParams_eq]
    exact Option.some_ne_none _

/-- The fields have room for the vector that the arguments describe. -/
def ArgumentsFit (name qtype : Option CStr) (data : Option Bytes) (n inWidth : UInt32) : Prop :=
  ∀ s t d q width, name = some s → qtype = some t → data = some d →
    setVecType t inWidth = .ok (q, width) → FieldsFit s d q n.toNat width

/-- `set_vec` has no guard against truncation: sizes are exact just where the fields
have room, or where one of its checks refuses the arguments. -/
theorem setVec_sizes_iff {sock : Int} {name qtype : Option CStr} {data : Option Bytes}
    {n inWidth : UInt32} {c : Conn} (hc : c.Ready)
    (hdata : (Call.setVec name qtype data n inWidth).HoldsVector) :
    SizesHold sock name qtype data n inWidth c ↔
      (ChecksPass sock name qtype data n inWidth → ArgumentsFit name qtype data n inWidth) := by
  rw [← setVecRequest_ne_none_iff]
  cases hp : setVecParams sock name qtype data n inWidth with
  | error why =>
      have hnone : setVecRequest sock name qtype data n inWidth = none := by
        rw [setVecRequest, hp]
      obtain ⟨why', hrun⟩ := exec_setVecBody_refused (c := c) hnone ()
      rw [execOn] at hrun
      refine iff_of_true ?_ (fun hne => absurd hnone hne)
      simp only [SizesHold, hp, Call.prog, Prog.run_bind, setVec, Proc.run_finish, Prog.run_pure,
        hrun, Status.ofExit, Status.code]
      exact ⟨why'.code_neg, trivial⟩
  | ok p =>
      obtain ⟨s, d, q, width, henc⟩ := setVecParams_ok hp
      have hlen := henc.holdsVector hdata
      have hsome : setVecRequest sock name qtype data n inWidth = some p.bytes := by
        rw [setVecRequest, hp]
      have hsent := sent_run_prog henc.sock_nonneg hc hdata
        (show (Call.setVec name qtype data n inWidth).request sock = some p.bytes from hsome)
      simp only [SizesHold, hp, hsome, ne_eq, reduceCtorEq, not_false_eq_true, true_implies,
        hsent, true_and]
      constructor
      · intro hexact s' t' d' q' width' hs ht hd htype
        obtain ⟨t, ht', _, htype'⟩ := henc.type_eq
        obtain rfl := Option.some.inj (henc.name_eq.symm.trans hs)
        obtain rfl := Option.some.inj (henc.data_eq.symm.trans hd)
        obtain rfl := Option.some.inj (ht'.symm.trans ht)
        obtain ⟨rfl, rfl⟩ := Prod.mk.inj (Except.ok.inj (htype'.symm.trans htype))
        exact (hexact _ _ _ _ henc).fits henc hlen
      · intro hfit s' d' q' width' henc'
        obtain ⟨t', ht', _, htype'⟩ := henc'.type_eq
        have hfits := hfit s' t' d' q' width' henc'.name_eq ht' henc'.data_eq htype'
        exact henc'.sizesExact (henc'.holdsVector hdata) hfits

/-- The memory of one integer. -/
theorem oneInt_holdsVector :
    (Call.setVec (some nameX) (some QType.I4.str) (some [1, 2, 3, 4]) 1 0).HoldsVector := by
  intro d t q width hd ht htype
  cases hd
  cases ht
  cases htype
  decide

theorem setVec_sizes_iff_one :
    (SizesHold 3 (some nameX) (some QType.I4.str) (some [1, 2, 3, 4]) 1 0
        (Conn.fresh []) ↔
      (ChecksPass 3 (some nameX) (some QType.I4.str) (some [1, 2, 3, 4]) 1 0 →
        ArgumentsFit (some nameX) (some QType.I4.str) (some [1, 2, 3, 4]) 1 0)) := by
  exact setVec_sizes_iff ⟨rfl, rfl⟩ oneInt_holdsVector

/-- The memory of `2 ^ 29` doubles. -/
def manyZeros : Bytes := List.replicate (2 ^ 32) 0

/-- The packet for them: `n * width` is just `2 ^ 32` and wraps to 0. -/
def emptiedParams : SetVecParams where
  ph := requestHdr .setSexp (4 + lenName nameX + lenParam2 .F8 0)
  param1 := nameParam nameX
  hdrParam2 := mkHdrParam2 .F8 536870912 8 0 (lenParam2 .F8 0)
  elems := manyZeros
  cumLen := 0

theorem emptiedParams_encodes :
    Encodes 3 (some nameX) (some QType.F8.str) (some manyZeros) 536870912 0
      nameX manyZeros .F8 8 emptiedParams where
  sock_nonneg := by decide
  name_eq := rfl
  name_ne := by decide
  type_eq := ⟨QType.F8.str, rfl, by decide, rfl⟩
  data_eq := rfl
  n_ne := by decide
  mem := by decide
  elems_eq := by
    rw [setVecElems, if_neg (by decide), CInt.toUInt32_natCast]
    rfl
  accepted := by decide
  ph_eq := rfl
  param1_eq := rfl
  hdrParam2_eq := rfl

/-- `set_vec` sends the packet without a single element. -/
theorem setVec_sends_no_elements :
    setVecParams 3 (some nameX) (some QType.F8.str) (some manyZeros) 536870912 0 =
        .ok emptiedParams ∧
      emptiedParams.elems.take emptiedParams.cumLen = [] ∧
      fullLen .F8 manyZeros 536870912 8 = 2 ^ 32 ∧
      ¬ SizesHold 3 (some nameX) (some QType.F8.str) (some manyZeros) 536870912 0
        (Conn.fresh []) := by
  have hparams := emptiedParams_encodes.setVecParams_eq
  refine ⟨hparams, List.take_zero, by decide, ?_⟩
  intro hold
  simp only [SizesHold, hparams] at hold
  have hexact := (hold.2 _ _ _ _ emptiedParams_encodes).elems
  have hnone : (emptiedParams.elems.take emptiedParams.cumLen).length = 0 := rfl
  have hfull : fullLen .F8 manyZeros (536870912 : UInt32).toNat 8 = 2 ^ 32 := by decide
  omega

end RserveClient
