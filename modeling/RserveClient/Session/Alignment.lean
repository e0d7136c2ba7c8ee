import RserveClient.Session.Outbound

/-!
# The alignment of what is sent

The protocol header wants every length to be divisible by four. Strings are padded for
it, packed strings as well, numbers are as wide already. Only single-byte elements are
sent as many as they are.
-/

namespace RserveClient

open Interaction Arrivals Padding

/-- A packet taken apart: the header, and every parameter as its word and the blocks of
its content. -/
structure Layout where
  ph : Phdr
  params : List (List Bytes)

/-- The packet put together. -/
def Layout.bytes (l : Layout) : Bytes := l.ph.bytes ++ l.params.flatten.flatten

/-- Every block starts at a multiple of `k`, the first at the given offset. -/
def StartsAligned (k : Nat) : Nat → List Bytes → Prop
  | _, [] => True
  | off, b :: bs => k ∣ off ∧ StartsAligned k (off + b.length) bs

/-- What the protocol header wants. -/
structure Layout.QuadAligned (l : Layout) : Prop where
  params : ∀ param1 ∈ l.params, 4 ∣ param1.flatten.length
  len : 4 ∣ l.ph.len.toInt
  starts : StartsAligned 4 hdrLen l.params.flatten

/-- Of the second parameter the first word is its own, and what follows before the elements
is the header of the SEXP. -/
def SetVecParams.layout (p : SetVecParams) : Layout where
  ph := p.ph
  params := [[p.param1], [p.hdrParam2.take 4, p.hdrParam2.drop 4, p.elems.take p.cumLen]]

/-- A request with at most one string. -/
def textLayout (command : Command) : Option CStr → Layout
  | some s => ⟨requestHdr command (4 + lenName s), [[nameParam s]]⟩
  | none => ⟨requestHdr command 0, []⟩

namespace Call

/-- The packet of a call that accepts its arguments. -/
def layout (sock : Int) : Call → Option Layout
  | setVec name qtype data n inWidth =>
      match setVecParams sock name qtype data n inWidth with
      | .ok p => some p.layout
      | .error _ => none
  | call => (call.request sock).map fun _ => textLayout call.command call.text

/-- Single bytes come in fours. -/
def BytesInFours : Call → Prop
  | setVec _ qtype _ n _ => qtype.bind QType.ofStr = some .I1 → 4 ∣ n.toNat
  | _ => True

end Call

theorem dvd_toInt_iff (n : Int) : 4 ∣ CInt.toInt n ↔ 4 ∣ n := by
  unfold CInt.toInt
  omega

theorem four_dvd_lenName (name : CStr) : 4 ∣ lenName name :=
  Nat.dvd_trans (by decide) (eight_dvd_lenName name)

/-- A string is padded by its own parameter. -/
theorem textLayout_aligned (command : Command) (text : Option CStr) :
    (textLayout command text).QuadAligned := by
  cases text with
  | none => exact ⟨by simp [textLayout], Int.dvd_zero 4, trivial⟩
  | some s =>
      have hdvd := four_dvd_lenName s
      refine ⟨?_, ?_, ?_⟩
      · intro param1 hmem
        obtain rfl := List.mem_singleton.mp hmem
        rw [List.flatten_singleton, length_nameParam]
        omega
      · rw [textLayout, requestHdr, CInt.toInt_ofInt, dvd_toInt_iff]
        omega
      · exact ⟨by decide, trivial⟩

section SetVec

variable {sock : Int} {name qtype : Option CStr} {data : Option Bytes} {n inWidth : UInt32}
variable {s : CStr} {d : Bytes} {q : QType} {width : Nat} {p : SetVecParams}

theorem SetVecParams.bytes_layout (p : SetVecParams) : p.layout.bytes = p.bytes := by
  rw [Layout.bytes, layout, SetVecParams.bytes]
  simp only [List.flatten_cons, List.flatten_nil, List.append_nil, List.nil_append,
    List.cons_append]
  rw [← List.append_assoc (p.hdrParam2.take 4), List.take_append_drop]

theorem setVecType_ofStr {t : CStr} (h : setVecType t inWidth = .ok (q, width)) :
    QType.ofStr t = some q ∧ (q = .F8 → width = 8) ∧ (q = .I4 → width = 4) ∧
      (q = .I1 → width = 1) := by
  unfold setVecType at h
  split at h
  · cases h
    simp_all
  · cases h
    simp_all
  · cases h
    simp_all
  · rename_i heq
    split at h
    · cases h
    · cases h
      simp [heq]
  · cases h

/-- Three of the types round their elements to the next block or are as wide as one. -/
theorem Encodes.dvd_cumLen_iff (h : Encodes sock name qtype data n inWidth s d q width p) :
    4 ∣ p.cumLen ↔ (q = .I1 → 4 ∣ n.toNat) := by
  obtain ⟨t, _, _, htype⟩ := h.type_eq
  obtain ⟨_, h8, h4, h1⟩ := setVecType_ofStr htype
  have hn := n.toNat_lt
  rw [h.cumLen_eq, elemLen]
  cases q with
  | F8 =>
      rw [if_neg (by decide), h8 rfl]
      simp only [reduceCtorEq, false_implies, iff_true]
      omega
  | I4 =>
      rw [if_neg (by decide), h4 rfl]
      simp only [reduceCtorEq, false_implies, iff_true]
      omega
  | I1 =>
      rw [if_neg (by decide), h1 rfl]
      simp only [true_implies]
      omega
  | SC =>
      have hdvd := dvd_roundUp 8 (slotTotal d (fun i => i * width % 2 ^ 32) n.toNat 0 % 2 ^ 32)
      rw [if_pos rfl]
      simp only [reduceCtorEq, false_implies, iff_true]
      omega

theorem QType.four_dvd_countLen (q : QType) : 4 ∣ q.countLen := by
  cases q <;> decide

/-- The elements start at a multiple of four, as does everything in front of them. -/
theorem Encodes.starts_aligned (h : Encodes sock name qtype data n inWidth s d q width p) :
    StartsAligned 4 hdrLen p.layout.params.flatten := by
  have hname := four_dvd_lenName s
  have hcount := q.four_dvd_countLen
  have hparam1 : p.param1.length = 4 + lenName s := by rw [h.param1_eq, length_nameParam]
  have hhdr : p.hdrParam2.length = 8 + q.countLen := by rw [h.hdrParam2_eq, length_mkHdrParam2]
  have htake : (p.hdrParam2.take 4).length = 4 := by
    rw [List.length_take]
    omega
  have hdrop : (p.hdrParam2.drop 4).length = 4 + q.countLen := by
    rw [List.length_drop]
    omega
  change 4 ∣ hdrLen ∧ 4 ∣ hdrLen + p.param1.length ∧
    4 ∣ hdrLen + p.param1.length + (p.hdrParam2.take 4).length ∧
    4 ∣ hdrLen + p.param1.length + (p.hdrParam2.take 4).length +
      (p.hdrParam2.drop 4).length ∧ True
  rw [hparam1, htake, hdrop]
  unfold hdrLen
  exact ⟨by omega, by omega, by omega, by omega, trivial⟩

/-- The second parameter is as long as its header and the elements. -/
theorem Encodes.length_second (h : Encodes sock name qtype data n inWidth s d q width p)
    (hdata : d.length = n.toNat * width) :
    [p.hdrParam2.take 4, p.hdrParam2.drop 4, p.elems.take p.cumLen].flatten.length =
      8 + q.countLen + p.cumLen := by
  have hlen := (h.length_elems hdata).2
  have hhdr : p.hdrParam2.length = 8 + q.countLen := by rw [h.hdrParam2_eq, length_mkHdrParam2]
  simp only [List.flatten_cons, List.flatten_nil, List.length_append, List.length_take,
    List.length_drop, List.append_nil, hhdr]
  rw [List.length_take] at hlen
  omega

/-- Everything in front of the elements is aligned, so the elements decide. -/
theorem Encodes.aligned_iff (h : Encodes sock name qtype data n inWidth s d q width p)
    (hdata : d.length = n.toNat * width) :
    p.layout.QuadAligned ↔ (q = .I1 → 4 ∣ n.toNat) := by
  rw [← h.dvd_cumLen_iff]
  have hname := four_dvd_lenName s
  have hcount := q.four_dvd_countLen
  have hsecond := h.length_second hdata
  constructor
  · intro haligned
    have hdvd := haligned.params _ (List.mem_cons_of_mem _ List.mem_cons_self)
    rw [hsecond] at hdvd
    omega
  · intro hdvd
    refine ⟨?_, ?_, h.starts_aligned⟩
    · intro param1 hmem
      rcases List.mem_cons.mp hmem with rfl | hmem
      · rw [List.flatten_singleton, h.param1_eq, length_nameParam]
        omega
      · obtain rfl := List.mem_singleton.mp hmem
        rw [hsecond]
        omega
    · rw [SetVecParams.layout]
      dsimp only
      rw [h.ph_eq, requestHdr, CInt.toInt_ofInt, dvd_toInt_iff, lenParam2, CInt.toUInt32_natCast]
      omega

end SetVec

section Calls

variable {sock : Int} {call : Call} {c : Conn} {l : Layout} {bs : Bytes}

theorem bytes_textLayout {command : Command} {name : Option CStr}
    (h : nameRequest command name = some bs) : bs = (textLayout command name).bytes := by
  obtain ⟨s, rfl, _, rfl⟩ := nameRequest_eq_some h
  rw [requestBytes, Layout.bytes, textLayout, List.flatten_singleton, List.flatten_singleton]

/-- The blocks together are the request. -/
theorem layout_of_request (h : call.request sock = some bs) :
    ∃ l, call.layout sock = some l ∧ l.bytes = bs := by
  cases call with
  | setVec name qtype data n inWidth =>
      obtain ⟨p, hp, rfl⟩ := setVecRequest_eq_some h
      refine ⟨p.layout, ?_, p.bytes_layout⟩
      rw [Call.layout, hp]
  | getVec name qtype out =>
      obtain ⟨s, q, rfl, _, hfits, rfl⟩ := getVecRequest_eq_some h
      have hname : nameRequest .eval (some s) = some (requestBytes .eval s) := if_pos hfits
      exact ⟨_, Option.map_eq_some_iff.mpr ⟨_, h, rfl⟩, (bytes_textLayout hname).symm⟩
  | rshutdown =>
      obtain rfl := Option.some.inj h
      exact ⟨_, rfl, rfl⟩
  | _ => exact ⟨_, Option.map_eq_some_iff.mpr ⟨_, h, rfl⟩, (bytes_textLayout h).symm⟩

theorem layout_aligned_iff (hdata : call.HoldsVector) (h : call.layout sock = some l) :
    l.QuadAligned ↔ call.BytesInFours := by
  cases call with
  | setVec name qtype data n inWidth =>
      rw [Call.layout] at h
      cases hp : setVecParams sock name qtype data n inWidth with
      | error why =>
          rw [hp] at h
          cases h
      | ok p =>
          rw [hp] at h
          obtain rfl := Option.some.inj h
          obtain ⟨s, d, q, width, henc⟩ := setVecParams_ok hp
          obtain ⟨t, ht, _, htype⟩ := henc.type_eq
          have hq := (setVecType_ofStr htype).1
          rw [henc.aligned_iff (henc.holdsVector hdata), Call.BytesInFours, ht, Option.bind_some,
            hq, Option.some_inj]
  | rshutdown =>
      obtain rfl := Option.some.inj h
      exact iff_of_true (textLayout_aligned _ _) trivial
  | _ =>
      obtain ⟨bs, _, rfl⟩ := Option.map_eq_some_iff.mp h
      exact iff_of_true (textLayout_aligned _ _) trivial

/-- What a call sends is its blocks one after another, and they are aligned unless there are
single bytes among them that do not come in fours. -/
theorem sent_aligned_iff (hsock : 0 ≤ sock) (hc : c.Ready) (hdata : call.HoldsVector)
    (hreq : call.request sock = some bs) :
    ∃ l, call.layout sock = some l ∧
      (Prog.run Conn.handle (call.prog sock) c).2.sent = c.sent ++ l.bytes ∧
      (l.QuadAligned ↔ call.BytesInFours) := by
  obtain ⟨l, hl, rfl⟩ := layout_of_request hreq
  exact ⟨l, hl, sent_run_prog hsock hc hdata hreq, layout_aligned_iff hdata hl⟩

theorem sent_aligned_iff_oneInt :
    ∃ l, (Call.setVec (some nameX) (some QType.I4.str) (some [1, 2, 3, 4]) 1 0).layout 3 =
        some l ∧
      (Prog.run Conn.handle ((Call.setVec (some nameX) (some QType.I4.str)
        (some [1, 2, 3, 4]) 1 0).prog 3) (Conn.fresh [])).2.sent = [] ++ l.bytes ∧
      (l.QuadAligned ↔
        (Call.setVec (some nameX) (some QType.I4.str) (some [1, 2, 3, 4]) 1 0).BytesInFours) :=
  sent_aligned_iff (c := Conn.fresh []) (by decide) ⟨rfl, rfl⟩ oneInt_holdsVector
    (show _ = some oneIntPacket by decide)

/-- A single byte makes a parameter of thirteen. -/
theorem oneByte_not_aligned :
    ∃ l, (Call.setVec (some nameX) (some QType.I1.str) (some [1]) 1 0).layout 3 = some l ∧
      ¬ l.QuadAligned := by
  refine ⟨_, rfl, ?_⟩
  intro haligned
  have hdvd := haligned.params _ (List.mem_cons_of_mem _ List.mem_cons_self)
  revert hdvd
  decide

end Calls

end RserveClient
