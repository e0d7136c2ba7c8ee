import RserveClient.Encoding.Strings

/-!
# The outgoing stream

The bytes that a list of calls sends, read as packets: one for each call whose
arguments pass their checks, in order, and nothing for the others.

## Implementation notes

The checks come in two readings that differ in the slots of a string vector: as the
code finds them, and as they are in the buffer.
-/

namespace RserveClient

open Interaction Arrivals Framing
open LittleEndian (word)

/-- The test of the code: the length of every slot, as it finds it, is below the width. Both
the offset of a slot and its length are taken modulo `2 ^ 32`. -/
def slotsEnd (data : Bytes) (n width : Nat) : Bool :=
  (List.range n).all fun i => decide (slotLen data width i < width)

/-- What it is meant to find out: every slot holds a NUL. -/
def slotsTerminated (data : Bytes) (n width : Nat) : Bool :=
  (List.range n).all fun i => decide (0 ∈ slot data width i)

namespace Call

/-- The checks of a call's arguments, with a test for the slots of a string vector. -/
def checksBy (slotTest : Bytes → Nat → Nat → Bool) (sock : Int) : Call → Bool
  | execStr str _ _ _ => str.isSome
  | getVec name qtype _ => name.isSome && (getVecType qtype).toBool
  | getF8 name _ => name.isSome
  | getI4 name _ => name.isSome
  | getNamedVecF8 name _ _ _ => name.isSome
  | setVec (some name) (some qtype) (some data) n inWidth =>
      decide (0 ≤ sock) && name.bytes != [] && qtype.bytes != [] && n != 0 &&
        match setVecType qtype inWidth with
        | .ok (q, width) => q != .SC || slotTest data n.toNat width
        | .error _ => false
  | setVec _ _ _ _ _ => false
  | rshutdown => true

/-- The checks that a call makes of its arguments. -/
def checks (sock : Int) (call : Call) : Bool := call.checksBy slotsEnd sock

/-- The checks as they are meant. -/
def meantChecks (sock : Int) (call : Call) : Bool := call.checksBy slotsTerminated sock

/-- For a string vector with a name the test of the slots finds out what it is meant to. -/
def SlotTestExact : Call → Prop
  | setVec (some name) (some qtype) (some data) n inWidth =>
      name.bytes ≠ [] → qtype.bytes ≠ [] → ∀ width, setVecType qtype inWidth = .ok (.SC, width) →
        slotsEnd data n.toNat width = slotsTerminated data n.toNat width
  | _ => True

/-- The command of the request. -/
def command : Call → Command
  | execStr _ ptrOutput _ _ => evalCommand ptrOutput
  | setVec _ _ _ _ _ => .setSexp
  | rshutdown => .shutdown
  | _ => .eval

/-- The string in its first parameter. -/
def text : Call → Option CStr
  | execStr str _ _ _ => str
  | getVec name _ _ => name
  | getF8 name _ => name
  | getI4 name _ => name
  | getNamedVecF8 name _ _ _ => name
  | setVec name _ _ _ _ => name
  | rshutdown => none

/-- The bytes a vector takes in its parameter, words and elements, are below the limit. -/
def vectorFits : Call → Prop
  | setVec _ qtype data n inWidth => ∀ t d q width, qtype = some t → data = some d →
      setVecType t inWidth = .ok (q, width) →
      8 + q.countLen + elemLen q d n.toNat width < 2 ^ 24
  | _ => True

/-- Every parameter the call encodes takes less than `2 ^ 24` bytes. -/
def ParamsFit (call : Call) : Prop :=
  (∀ s, call.text = some s → 4 + lenName s < 2 ^ 24) ∧ call.vectorFits

/-- The packet is the one the call demands. -/
structure SentAs (call : Call) (f : Frame UInt8) : Prop where
  cmd : (Phdr.ofBytes f.head).cmd = call.command.code
  msgId : (Phdr.ofBytes f.head).msgId = 0
  res : (Phdr.ofBytes f.head).res = 0
  text : ∀ s, call.text = some s → decodeName f.body = some s.bytes
  bare : call.text = none → f.body = []

/-- A packet with the header that `mk_hdr` makes for the call. -/
theorem SentAs.of_hdr {call : Call} {f : Frame UInt8} {len : Nat}
    (hhdr : Phdr.ofBytes f.head = requestHdr call.command len)
    (htext : ∀ s, call.text = some s → decodeName f.body = some s.bytes)
    (hbare : call.text = none → f.body = []) : call.SentAs f where
  cmd := by
    rw [hhdr]
    rfl
  msgId := by
    rw [hhdr]
    rfl
  res := by
    rw [hhdr]
    rfl
  text := htext
  bare := hbare

end Call

section Packet

variable {sock : Int} {call : Call} {bs : Bytes}

/-- A request with one string is a packet with that string. -/
theorem nameRequest_packet {command : Command} {name : Option CStr}
    (h : nameRequest command name = some bs) (hfit : ∀ s, name = some s → 4 + lenName s < 2 ^ 24) :
    ∃ s, name = some s ∧
      bs = (packet (requestHdr command (4 + lenName s)) (nameParam s)).bytes ∧
      packetFormat.Valid (packet (requestHdr command (4 + lenName s)) (nameParam s)) ∧
      decodeName (nameParam s) = some s.bytes := by
  obtain ⟨s, hs, _, rfl⟩ := nameRequest_eq_some h
  have hlt := hfit s hs
  refine ⟨s, hs, rfl, ?_, ?_⟩
  · apply packet_valid
    rw [requestHdr, CInt.toInt_ofInt, CInt.toInt_eq (by omega) (by omega), length_nameParam]
  · rw [← List.append_nil (nameParam s)]
    exact decodeName_nameParam (by omega) []

/-- A call that sends one string sends it as such a packet. -/
theorem sentAs_of_nameRequest {name : Option CStr}
    (h : nameRequest call.command name = some bs) (htext : call.text = name)
    (hfit : call.ParamsFit) :
    ∃ f, packetFormat.Valid f ∧ f.bytes = bs ∧ call.SentAs f := by
  obtain ⟨s, hs, hbs, hvalid, hname⟩ := nameRequest_packet h (htext ▸ hfit.1)
  refine ⟨_, hvalid, hbs.symm, ?_⟩
  have hhdr : Phdr.ofBytes (packet (requestHdr call.command (4 + lenName s)) (nameParam s)).head =
      requestHdr call.command (4 + lenName s) := Phdr.ofBytes_bytes _
  apply Call.SentAs.of_hdr hhdr
  · intro s' hs'
    rw [htext, hs] at hs'
    rw [← Option.some.inj hs']
    exact hname
  · intro hnone
    rw [htext, hs] at hnone
    cases hnone

/-- Whatever a call sends is one packet, and the one it demands. -/
theorem request_packet (hfit : call.ParamsFit) (hdata : call.HoldsVector)
    (hreq : call.request sock = some bs) :
    ∃ f, packetFormat.Valid f ∧ f.bytes = bs ∧ call.SentAs f := by
  cases call with
  | execStr str ptrOutput xt out => exact sentAs_of_nameRequest hreq rfl hfit
  | getVec name qtype out =>
      have hname : nameRequest .eval name = some bs := by
        obtain ⟨s, q, rfl, _, hfits, rfl⟩ := getVecRequest_eq_some hreq
        exact if_pos hfits
      exact sentAs_of_nameRequest hname rfl hfit
  | getF8 name dval => exact sentAs_of_nameRequest hreq rfl hfit
  | getI4 name dval => exact sentAs_of_nameRequest hreq rfl hfit
  | getNamedVecF8 name szKeyBlob szVals vars => exact sentAs_of_nameRequest hreq rfl hfit
  | setVec name qtype data n inWidth =>
      obtain ⟨p, hp, rfl⟩ := setVecRequest_eq_some hreq
      obtain ⟨s, d, q, width, henc⟩ := setVecParams_ok hp
      obtain ⟨t, ht, _, htype⟩ := henc.type_eq
      have hname := hfit.1 s henc.name_eq
      have hsexp := hfit.2 t d q width ht henc.data_eq htype
      rw [← henc.cumLen_eq] at hsexp
      have hlen := henc.len_ph (henc.holdsVector hdata) (by
        rw [henc.length_payload (henc.holdsVector hdata)]
        omega)
      have hhdr : Phdr.ofBytes (packet p.ph p.payload).head =
          requestHdr .setSexp (4 + lenName s + lenParam2 q p.cumLen) := by
        rw [← henc.ph_eq]
        exact Phdr.ofBytes_bytes _
      refine ⟨packet p.ph p.payload, packet_valid hlen, rfl, ?_⟩
      apply Call.SentAs.of_hdr hhdr
      · intro s' hs'
        obtain rfl := Option.some.inj (henc.name_eq.symm.trans hs')
        change decodeName (p.param1 ++ _) = _
        rw [henc.param1_eq]
        exact decodeName_nameParam (by omega) _
      · intro hnone
        cases henc.name_eq.symm.trans hnone
  | rshutdown =>
      obtain rfl := Option.some.inj hreq
      refine ⟨packet ⟨cmdShutdown, 0, 0, 0⟩ [], packet_valid rfl, ?_, ?_⟩
      · exact List.append_nil _
      · have hhdr : Phdr.ofBytes (packet ⟨cmdShutdown, 0, 0, 0⟩ []).head =
            requestHdr .shutdown 0 := Phdr.ofBytes_bytes _
        apply Call.SentAs.of_hdr hhdr
        · intro s hs
          cases hs
        · intro _
          rfl

end Packet

theorem slotsEnd_iff {data : Bytes} {n width : Nat} :
    slotsEnd data n width = true ↔ ∀ i, i < n → slotLen data width i < width := by
  simp [slotsEnd]

theorem slotsTerminated_iff {data : Bytes} {n width : Nat} :
    slotsTerminated data n width = true ↔ Terminated data n width := by
  simp [slotsTerminated, Terminated]

/-- Up to a buffer of 4 GiB with a NUL in it the test of the slots is exact. -/
theorem slotsEnd_eq_slotsTerminated {data : Bytes} {n width : Nat}
    (hdata : data.length = n * width) (hsize : n * width ≤ 2 ^ 32)
    (hnul : n * width = 2 ^ 32 → 0 ∈ data) :
    slotsEnd data n width = slotsTerminated data n width := by
  rw [Bool.eq_iff_iff, slotsEnd_iff, slotsTerminated_iff, Terminated]
  exact forall₂_congr fun i hi => slotLen_lt_iff hdata hsize hnul hi

section Checks

variable {sock : Int} {call : Call}

theorem nameRequest_isSome {command : Command} {name : Option CStr}
    (hfit : ∀ s, name = some s → 4 + lenName s < 2 ^ 24) :
    (nameRequest command name).isSome = name.isSome := by
  cases name with
  | none => rfl
  | some s =>
      rw [nameRequest, if_pos (requestFits_of_lt (hfit s rfl))]
      rfl

theorem getVecRequest_isSome {name qtype : Option CStr}
    (hfit : ∀ s, name = some s → 4 + lenName s < 2 ^ 24) :
    (getVecRequest name qtype).isSome = (name.isSome && (getVecType qtype).toBool) := by
  cases hq : getVecType qtype with
  | error why =>
      rw [getVecRequest, hq]
      exact (Bool.and_false _).symm
  | ok q =>
      rw [getVecRequest, hq]
      exact (nameRequest_isSome hfit).trans (Bool.and_true _).symm

/-- For parameters below the limit the other checks of `set_vec` never refuse. -/
theorem checksPass_iff {name qtype : Option CStr} {data : Option Bytes} {n inWidth : UInt32}
    (hfit : (Call.setVec name qtype data n inWidth).ParamsFit) :
    ChecksPass sock name qtype data n inWidth ↔
      (Call.setVec name qtype data n inWidth).checks sock = true := by
  constructor
  · rintro ⟨hsock, hn, s, t, d, q, width, ⟨rfl, hs⟩, ⟨rfl, ht⟩, rfl, htype, hslots, _⟩
    have hend : q ≠ .SC ∨ slotsEnd d n.toNat width = true :=
      or_iff_not_imp_left.mpr fun hq => slotsEnd_iff.mpr (hslots (not_not.mp hq))
    simp [Call.checks, Call.checksBy, hsock, hs, ht, hn, htype, hend]
  · intro h
    cases name with
    | none => simp [Call.checks, Call.checksBy] at h
    | some s =>
    cases qtype with
    | none => simp [Call.checks, Call.checksBy] at h
    | some t =>
    cases data with
    | none => simp [Call.checks, Call.checksBy] at h
    | some d =>
    cases htype : setVecType t inWidth with
    | error why => simp [Call.checks, Call.checksBy, htype] at h
    | ok r =>
        obtain ⟨q, width⟩ := r
        have hname := hfit.1 s rfl
        have hsexp := hfit.2 t d q width rfl rfl htype
        have hlen2 : lenParam2 q (elemLen q d n.toNat width) =
            8 + q.countLen + elemLen q d n.toNat width := by
          rw [lenParam2, CInt.toUInt32_natCast, Nat.mod_eq_of_lt (by omega)]
        simp only [Call.checks, Call.checksBy, htype, Bool.and_eq_true, Bool.or_eq_true,
          decide_eq_true_eq, bne_iff_ne, ne_eq] at h
        obtain ⟨⟨⟨⟨hsock, hs⟩, ht⟩, hn⟩, hend⟩ := h
        refine ⟨hsock, hn, s, t, d, q, width, ⟨rfl, hs⟩, ⟨rfl, ht⟩, rfl, htype,
          fun hq => slotsEnd_iff.mp (hend.resolve_left (not_not.mpr hq)), ?_, ?_⟩
        · rw [ptrdiffMax]
          omega
        · rw [hlen2, lenAccepted, CInt.toInt_eq (by omega) (by omega)]
          omega

/-- A call sends exactly when its arguments pass. -/
theorem request_isSome (hfit : call.ParamsFit) :
    (call.request sock).isSome = call.checks sock := by
  cases call with
  | execStr str ptrOutput xt out => exact nameRequest_isSome hfit.1
  | getVec name qtype out => exact getVecRequest_isSome hfit.1
  | getF8 name dval => exact nameRequest_isSome hfit.1
  | getI4 name dval => exact nameRequest_isSome hfit.1
  | getNamedVecF8 name szKeyBlob szVals vars => exact nameRequest_isSome hfit.1
  | setVec name qtype data n inWidth =>
      rw [Bool.eq_iff_iff, Option.isSome_iff_ne_none]
      exact setVecRequest_ne_none_iff.trans (checksPass_iff hfit)
  | rshutdown => rfl

end Checks

/-- Whenever a call comes to send, the socket is open and its sends are whole. -/
def SendsWhole (sock : Int) : List Call → Conn → Prop
  | [], _ => True
  | call :: calls, c =>
      (call.checks sock = true → c.Ready) ∧
        SendsWhole sock calls (Prog.run Conn.handle (call.prog sock) c).2

section Stream

variable {sock : Int} {call : Call} {c : Conn}

/-- One call adds its packet, or nothing. -/
theorem sent_call (hsock : 0 ≤ sock) (hfit : call.ParamsFit) (hdata : call.HoldsVector)
    (hready : call.checks sock = true → c.Ready) :
    (call.checks sock = false ∧ (Prog.run Conn.handle (call.prog sock) c).2 = c) ∨
      (call.checks sock = true ∧ ∃ f, packetFormat.Valid f ∧ call.SentAs f ∧
        (Prog.run Conn.handle (call.prog sock) c).2.sent = c.sent ++ f.bytes) := by
  have hsome : (call.request sock).isSome = call.checks sock := request_isSome hfit
  cases hreq : call.request sock with
  | none =>
      rw [hreq] at hsome
      obtain ⟨why, out, hrun⟩ := run_prog_refused hsock c hreq
      exact Or.inl ⟨hsome.symm, by rw [hrun]⟩
  | some bs =>
      rw [hreq] at hsome
      obtain ⟨f, hvalid, rfl, hsent⟩ := request_packet hfit hdata hreq
      exact Or.inr ⟨hsome.symm, f, hvalid, hsent,
        sent_run_prog hsock (hready hsome.symm) hdata hreq⟩

/-- Reading what the calls have sent finds one packet for each call that passed the checks
as it makes them, in order. -/
theorem outbound_packets {calls : List Call} (hsock : 0 ≤ sock)
    (hfit : ∀ call ∈ calls, call.ParamsFit) (hdata : ∀ call ∈ calls, call.HoldsVector)
    (hwhole : SendsWhole sock calls c) :
    ∃ bytes frames, (runCalls sock calls c).2.sent = c.sent ++ bytes ∧
      packetFormat.parse bytes = some frames ∧
      List.Forall₂ Call.SentAs (calls.filter (Call.checks sock)) frames := by
  suffices hframes : ∃ frames, (∀ f ∈ frames, packetFormat.Valid f) ∧
      (runCalls sock calls c).2.sent = c.sent ++ frames.flatMap Frame.bytes ∧
      List.Forall₂ Call.SentAs (calls.filter (Call.checks sock)) frames by
    obtain ⟨frames, hvalid, hsent, hall⟩ := hframes
    exact ⟨_, frames, hsent, Format.parse_flatMap hvalid, hall⟩
  induction calls generalizing c with
  | nil =>
      refine ⟨[], ?_, ?_, List.Forall₂.nil⟩
      · intro f hf
        cases hf
      · exact (List.append_nil _).symm
  | cons call calls ih =>
      obtain ⟨hready, hrest⟩ := hwhole
      obtain ⟨frames, hvalid, hsent, hall⟩ := ih
        (fun call' hmem => hfit call' (List.mem_cons_of_mem call hmem))
        (fun call' hmem => hdata call' (List.mem_cons_of_mem call hmem)) hrest
      have hstep := sent_call hsock (hfit call List.mem_cons_self) (hdata call List.mem_cons_self)
        hready
      rcases hstep with ⟨hno, hsame⟩ | ⟨hyes, f, hf, hdesc, hadd⟩
      · refine ⟨frames, hvalid, ?_, ?_⟩
        · rw [runCalls, hsent, hsame]
        · rw [List.filter_cons_of_neg (by rw [hno]; decide)]
          exact hall
      · refine ⟨f :: frames, ?_, ?_, ?_⟩
        · intro g hg
          rcases List.mem_cons.mp hg with rfl | hg
          · exact hf
          · exact hvalid g hg
        · rw [runCalls, hsent, hadd, List.flatMap_cons, List.append_assoc]
        · rw [List.filter_cons_of_pos hyes]
          exact List.Forall₂.cons hdesc hall

/-- Equal numbers are left where one test implies the other only if the tests agree. -/
theorem eq_of_length_filter {α : Type} {p q : α → Bool} {l : List α}
    (hsub : ∀ a ∈ l, p a = true → q a = true)
    (hlen : (l.filter p).length = (l.filter q).length) : ∀ a ∈ l, p a = q a := by
  have hboth : l.filter p = (l.filter q).filter p := by
    rw [List.filter_filter]
    refine List.filter_congr fun a ha => ?_
    cases hp : p a with
    | false => rfl
    | true => rw [hsub a ha hp, Bool.and_true]
  rw [hboth, List.length_filter_eq_length_iff] at hlen
  intro a ha
  rw [Bool.eq_iff_iff]
  exact ⟨hsub a ha, fun hq => hlen a (List.mem_filter.mpr ⟨ha, hq⟩)⟩

/-- A call whose arguments are to be refused sends nothing, wherever it comes. -/
def RefusedSilent (sock : Int) : List Call → Conn → Prop
  | [], _ => True
  | call :: calls, c =>
      let c' := (Prog.run Conn.handle (call.prog sock) c).2
      (call.meantChecks sock = false → c'.sent = c.sent) ∧ RefusedSilent sock calls c'

/-- What the calls send is one packet for each whose arguments are to pass, in order, and
nothing for the others. -/
structure FramesCalls (sock : Int) (calls : List Call) (c : Conn) : Prop where
  packets : ∃ bytes frames, (runCalls sock calls c).2.sent = c.sent ++ bytes ∧
    packetFormat.parse bytes = some frames ∧
    List.Forall₂ Call.SentAs (calls.filter (Call.meantChecks sock)) frames
  silent : RefusedSilent sock calls c

/-- The checks of a vector, with its type known. -/
theorem checksBy_setVec {name qtype : CStr} {data : Bytes} {n inWidth : UInt32} {q : QType}
    {width : Nat} (hsock : 0 ≤ sock) (htype : setVecType qtype inWidth = .ok (q, width))
    (slotTest : Bytes → Nat → Nat → Bool) :
    (Call.setVec (some name) (some qtype) (some data) n inWidth).checksBy slotTest sock =
      (name.bytes != [] && qtype.bytes != [] && n != 0 &&
        (q != .SC || slotTest data n.toNat width)) := by
  rw [Call.checksBy, htype, decide_eq_true hsock, Bool.true_and]

theorem checks_setVec_iff {name qtype : CStr} {data : Bytes} {n inWidth : UInt32}
    (hsock : 0 ≤ sock) :
    (Call.setVec (some name) (some qtype) (some data) n inWidth).checks sock =
        (Call.setVec (some name) (some qtype) (some data) n inWidth).meantChecks sock ↔
      (Call.setVec (some name) (some qtype) (some data) n inWidth).SlotTestExact := by
  rw [Call.SlotTestExact]
  cases htype : setVecType qtype inWidth with
  | error why =>
      refine iff_of_true ?_ fun _ _ width hok => by cases hok
      simp [Call.checks, Call.meantChecks, Call.checksBy, htype]
  | ok r =>
      obtain ⟨q, width⟩ := r
      rw [Call.checks, Call.meantChecks, checksBy_setVec hsock htype,
        checksBy_setVec hsock htype]
      constructor
      · intro heq hs ht width' hok
        obtain ⟨rfl, rfl⟩ := Prod.mk.inj (Except.ok.inj hok)
        by_cases hn : n = 0
        · rw [hn]
          rfl
        · rw [bne_iff_ne.mpr hs, bne_iff_ne.mpr ht, bne_iff_ne.mpr hn] at heq
          exact heq
      · intro hexact
        by_cases hs : name.bytes = []
        · rw [hs]
          rfl
        by_cases ht : qtype.bytes = []
        · rw [ht, bne_self_eq_false, Bool.and_false]
          rfl
        by_cases hq : q = .SC
        · rw [hexact hs ht width (by rw [hq])]
        · rw [bne_iff_ne.mpr hq]
          rfl

/-- The checks are as they are meant where the test of the slots is exact. -/
theorem checks_eq_meantChecks_iff (hsock : 0 ≤ sock) :
    call.checks sock = call.meantChecks sock ↔ call.SlotTestExact := by
  cases call with
  | setVec name qtype data n inWidth =>
      cases name with
      | none => exact iff_of_true rfl trivial
      | some s =>
      cases qtype with
      | none => exact iff_of_true rfl trivial
      | some t =>
      cases data with
      | none => exact iff_of_true rfl trivial
      | some d => exact checks_setVec_iff hsock
  | execStr str ptrOutput xt out => exact iff_of_true rfl trivial
  | getVec name qtype out => exact iff_of_true rfl trivial
  | getF8 name dval => exact iff_of_true rfl trivial
  | getI4 name dval => exact iff_of_true rfl trivial
  | getNamedVecF8 name szKeyBlob szVals vars => exact iff_of_true rfl trivial
  | rshutdown => exact iff_of_true rfl trivial

/-- Whatever passes the checks of the code sends a byte at least. -/
theorem sent_ne_of_checks (hsock : 0 ≤ sock) (hfit : call.ParamsFit) (hdata : call.HoldsVector)
    (hready : call.checks sock = true → c.Ready) (hyes : call.checks sock = true) :
    (Prog.run Conn.handle (call.prog sock) c).2.sent ≠ c.sent := by
  rcases sent_call hsock hfit hdata hready with ⟨hno, _⟩ | ⟨_, f, hvalid, _, hadd⟩
  · rw [hno] at hyes
    cases hyes
  · intro hsame
    rw [hsame] at hadd
    have hnone : f.bytes = [] := by simpa using hadd
    have hlen : f.bytes.length = packetFormat.size + f.body.length := hvalid.length_bytes
    have hpos := packetFormat.size_pos
    rw [hnone, List.length_nil] at hlen
    omega

/-- Where a call to be refused is silent the code refuses it. -/
theorem checks_of_silent {calls : List Call} (hsock : 0 ≤ sock)
    (hfit : ∀ call ∈ calls, call.ParamsFit) (hdata : ∀ call ∈ calls, call.HoldsVector)
    (hwhole : SendsWhole sock calls c) (hsilent : RefusedSilent sock calls c) :
    ∀ call ∈ calls, call.checks sock = true → call.meantChecks sock = true := by
  induction calls generalizing c with
  | nil =>
      intro call hmem
      cases hmem
  | cons call calls ih =>
      obtain ⟨hready, hrest⟩ := hwhole
      obtain ⟨hquiet, hquiets⟩ := hsilent
      intro call' hmem hyes
      rcases List.mem_cons.mp hmem with rfl | hmem
      · by_contra hno
        exact sent_ne_of_checks hsock (hfit call' List.mem_cons_self)
          (hdata call' List.mem_cons_self) hready hyes (hquiet (Bool.eq_false_iff.mpr hno))
      · exact ih (fun call hmem => hfit call (List.mem_cons_of_mem _ hmem))
          (fun call hmem => hdata call (List.mem_cons_of_mem _ hmem)) hrest hquiets call' hmem hyes

theorem refusedSilent_of_exact {calls : List Call} (hsock : 0 ≤ sock)
    (hfit : ∀ call ∈ calls, call.ParamsFit) (hdata : ∀ call ∈ calls, call.HoldsVector)
    (hwhole : SendsWhole sock calls c)
    (hexact : ∀ call ∈ calls, call.checks sock = call.meantChecks sock) :
    RefusedSilent sock calls c := by
  induction calls generalizing c with
  | nil => trivial
  | cons call calls ih =>
      obtain ⟨hready, hrest⟩ := hwhole
      refine ⟨fun hno => ?_, ih (fun call' hmem => hfit call' (List.mem_cons_of_mem call hmem))
        (fun call' hmem => hdata call' (List.mem_cons_of_mem call hmem)) hrest
        fun call' hmem => hexact call' (List.mem_cons_of_mem call hmem)⟩
      rw [← hexact call List.mem_cons_self] at hno
      rcases sent_call hsock (hfit call List.mem_cons_self) (hdata call List.mem_cons_self)
        hready with ⟨_, hsame⟩ | ⟨hyes, _⟩
      · rw [hsame]
      · rw [hno] at hyes
        cases hyes

end Stream

/-- Slots with and without a NUL: the second vector is refused. -/
def slotCalls : List Call :=
  [.setVec (some nameX) (some QType.SC.str) (some twoSlots) 2 4,
    .setVec (some nameX) (some QType.SC.str) (some [97, 98, 99, 100]) 1 4]

/-- An evaluation, a call that is refused, vectors, and the end. -/
def mixedCalls : List Call :=
  evalX :: .getVec (some nameX) none ⟨none, 0⟩ ::
    .setVec (some nameX) (some QType.I4.str) (some [1, 2, 3, 4]) 1 0 :: (slotCalls ++ [.rshutdown])

theorem nameX_fits : ∀ s, some nameX = some s → 4 + lenName s < 2 ^ 24 := by
  intro s hs
  cases hs
  decide

/-- A vector of strings below both limits is one that the stream carries as it should. -/
theorem smallStrings_fit {d : Bytes} {n width : UInt32} (hwidth : width ≠ 0)
    (hd : d.length = n.toNat * width.toNat) (hsize : n.toNat * width.toNat < 2 ^ 32)
    (hfit : 8 + QType.SC.countLen + elemLen .SC d n.toNat width.toNat < 2 ^ 24) :
    let call := Call.setVec (some nameX) (some QType.SC.str) (some d) n width
    call.ParamsFit ∧ call.HoldsVector ∧ call.SlotTestExact := by
  refine ⟨⟨nameX_fits, fun t d' q w ht hd' htype => ?_⟩, strings_holdsVector hwidth hd,
    fun _ _ w htype => ?_⟩
  · cases ht
    cases hd'
    obtain ⟨rfl, rfl⟩ := Prod.mk.inj (Except.ok.inj ((setVecType_strings hwidth).symm.trans htype))
    exact hfit
  · obtain ⟨_, rfl⟩ := Prod.mk.inj (Except.ok.inj ((setVecType_strings hwidth).symm.trans htype))
    exact slotsEnd_eq_slotsTerminated hd hsize.le fun heq => absurd heq hsize.ne

theorem slotCalls_fit : ∀ call ∈ slotCalls,
    call.ParamsFit ∧ call.HoldsVector ∧ call.SlotTestExact := by
  intro call hmem
  simp only [slotCalls, List.mem_cons, List.not_mem_nil, or_false] at hmem
  rcases hmem with rfl | rfl
  · exact smallStrings_fit (by decide) (by decide) (by decide) (by decide)
  · exact smallStrings_fit (by decide) (by decide) (by decide) (by decide)

theorem mixedCalls_fit : ∀ call ∈ mixedCalls,
    call.ParamsFit ∧ call.HoldsVector ∧ call.SlotTestExact := by
  intro call hmem
  simp only [mixedCalls, List.mem_cons, List.mem_append, List.not_mem_nil, or_false] at hmem
  rcases hmem with rfl | rfl | rfl | hslots | rfl
  · exact ⟨⟨nameX_fits, trivial⟩, trivial, trivial⟩
  · exact ⟨⟨nameX_fits, trivial⟩, trivial, trivial⟩
  · refine ⟨⟨nameX_fits, fun t d q width ht hd htype => ?_⟩, oneInt_holdsVector,
      fun _ _ width htype => by cases htype⟩
    cases ht
    cases hd
    cases htype
    decide
  · exact slotCalls_fit call hslots
  · refine ⟨⟨fun s hs => ?_, trivial⟩, trivial, trivial⟩
    cases hs

/-- Three slots of 2 GiB: `a`, the empty string, and no NUL at all. -/
def unendedSlots (m : Nat) : Bytes :=
  wideSlot m 97 ++ (wideSlot m 0 ++ List.replicate (m + 1) 98)

section Unended

variable {m : Nat}

theorem length_unendedSlots (m : Nat) : (unendedSlots m).length = 3 * (m + 1) := by
  simp only [unendedSlots, List.length_append, length_wideSlot, List.length_replicate]
  omega

theorem not_terminated_unendedSlots (m : Nat) : ¬ Terminated (unendedSlots m) 3 (m + 1) := by
  have hsecond : (unendedSlots m).drop (m + 1) = wideSlot m 0 ++ List.replicate (m + 1) 98 :=
    List.drop_left' (length_wideSlot m 97)
  have hthird : (unendedSlots m).drop (2 * (m + 1)) = List.replicate (m + 1) 98 := by
    rw [Nat.two_mul, ← List.drop_drop, hsecond]
    exact List.drop_left' (length_wideSlot m 0)
  intro hterm
  have h0 := hterm 2 (by decide)
  rw [slot, hthird, List.take_replicate, Nat.min_self] at h0
  cases List.eq_of_mem_replicate h0

/-- The third slot is found where the first one is. -/
theorem strlen_unendedSlots (hm : 0 < m) :
    CStr.strlen (unendedSlots m) = 1 ∧ CStr.strlen ((unendedSlots m).drop (m + 1)) = 0 := by
  constructor
  · rw [CStr.strlen, unendedSlots, takeWhile_wideSlot (by decide) hm]
    rfl
  · rw [unendedSlots, List.drop_left' (length_wideSlot m 97)]
    rfl

end Unended

/-- A vector of three slots of 2 GiB. -/
def wideCall (d : Bytes) : Call :=
  .setVec (some nameX) (some QType.SC.str) (some d) 3 2147483648

section Wide

variable {d : Bytes}

theorem checksBy_wideCall (slotTest : Bytes → Nat → Nat → Bool) (d : Bytes) :
    (wideCall d).checksBy slotTest 3 = slotTest d 3 (2 ^ 31) := by
  rw [wideCall, Call.checksBy, setVecType_strings (by decide)]
  rfl

/-- The third offset wraps to the first. -/
theorem slotTotal_wide (hfirst : CStr.strlen d = 1) (hsecond : CStr.strlen (d.drop (2 ^ 31)) = 0) :
    slotTotal d (fun i => i * 2 ^ 31 % 2 ^ 32) 3 0 = 5 := by
  have h0 : d.drop (0 * 2 ^ 31 % 2 ^ 32) = d := List.drop_zero
  have h1 : d.drop ((0 + 1) * 2 ^ 31 % 2 ^ 32) = d.drop (2 ^ 31) := rfl
  have h2 : d.drop ((0 + 1 + 1) * 2 ^ 31 % 2 ^ 32) = d := List.drop_zero
  rw [slotTotal, slotTotal, slotTotal, slotTotal, h0, h1, h2, hfirst, hsecond]

theorem slotsEnd_wide (hfirst : CStr.strlen d = 1) (hsecond : CStr.strlen (d.drop (2 ^ 31)) = 0) :
    slotsEnd d 3 (2 ^ 31) = true := by
  have h0 : slotFrom d (2 ^ 31) 0 = d := List.drop_zero
  have h1 : slotFrom d (2 ^ 31) 1 = d.drop (2 ^ 31) := rfl
  have h2 : slotFrom d (2 ^ 31) 2 = d := List.drop_zero
  rw [slotsEnd_iff]
  intro i hi
  match i with
  | 0 =>
      rw [slotLen, h0, hfirst]
      decide
  | 1 =>
      rw [slotLen, h1, hsecond]
      decide
  | 2 =>
      rw [slotLen, h2, hfirst]
      decide

theorem wideCall_fits (hlen : d.length = 3 * 2 ^ 31) (hfirst : CStr.strlen d = 1)
    (hsecond : CStr.strlen (d.drop (2 ^ 31)) = 0) :
    (wideCall d).ParamsFit ∧ (wideCall d).HoldsVector := by
  refine ⟨⟨fun s hs => ?_, fun t d' q width ht hd htype => ?_⟩,
    strings_holdsVector (by decide) hlen⟩
  · cases hs
    decide
  · cases ht
    cases hd
    obtain ⟨rfl, rfl⟩ := Prod.mk.inj
      (Except.ok.inj ((setVecType_strings (by decide)).symm.trans htype))
    have hn : (3 : UInt32).toNat = 3 := rfl
    have hwidth : (2147483648 : UInt32).toNat = 2 ^ 31 := rfl
    rw [hn, hwidth, elemLen, if_pos rfl, slotTotal_wide hfirst hsecond]
    decide

/-- A vector of three such slots with a NUL missing is sent all the same. -/
theorem not_framesCalls_wide (hlen : d.length = 3 * 2 ^ 31) (hfirst : CStr.strlen d = 1)
    (hsecond : CStr.strlen (d.drop (2 ^ 31)) = 0) (hterm : ¬ Terminated d 3 (2 ^ 31)) :
    ¬ FramesCalls 3 [wideCall d] (Conn.fresh []) := by
  obtain ⟨hfit, hdata⟩ := wideCall_fits hlen hfirst hsecond
  have hyes : (wideCall d).checks 3 = true :=
    (checksBy_wideCall slotsEnd d).trans (slotsEnd_wide hfirst hsecond)
  have hno : (wideCall d).meantChecks 3 = false :=
    (checksBy_wideCall slotsTerminated d).trans
      (Bool.eq_false_iff.mpr fun hall => hterm (slotsTerminated_iff.mp hall))
  rintro ⟨_, hsilent, _⟩
  exact sent_ne_of_checks (by decide) hfit hdata (fun _ => ⟨rfl, rfl⟩) hyes (hsilent hno)

end Wide

end RserveClient
