import RserveClient.Encoding.CanonicalReply
import RserveClient.Encoding.Payload

/-!
# Numeric vectors through a server

What a `set_vec` request decodes to, what `get_vec` returns for a canonical
reply, and the two put together: a server that stores what it decodes and
returns it canonically gives back the vector that was set.
-/

namespace RserveClient

open Interaction Arrivals Framing
open LittleEndian (encode word)

/-- A vector in the workspace of a server: its type code and its element bytes. -/
structure Stored where
  xt : Nat
  elems : Bytes
  deriving DecidableEq

/-- Read a SEXP by its own word: all that follows must be its elements. -/
def decodeSexp (bs : Bytes) : Option Stored :=
  if (bs.drop 4).length = parLen (word bs 0) then some ⟨parType (word bs 0), bs.drop 4⟩
  else none

/-- What follows the first parameter. -/
def afterFirst (payload : Bytes) : Bytes := payload.drop (4 + parLen (word payload 0))

/-- Name and vector of a set request. The length in front of the vector is passed
over, the SEXP behind it is read by its own word. -/
def decodeSet (payload : Bytes) : Option (Bytes × Stored) := do
  let name ← decodeName payload
  if parType (word (afterFirst payload) 0) = dtSexp then
    let v ← decodeSexp ((afterFirst payload).drop 4)
    return (name, v)
  else none

theorem afterFirst_nameParam {s : CStr} (h : lenName s < 2 ^ 24) (rest : Bytes) :
    afterFirst (nameParam s ++ rest) = rest := by
  rw [afterFirst, LittleEndian.word_append _ _ 0 (by rw [length_nameParam]; omega), word_nameParam,
    parLen_parWord _ (by decide), Nat.mod_eq_of_lt h]
  exact List.drop_left' (length_nameParam s)

section Set

variable {sock : Int} {s : CStr} {d : Bytes} {q : QType} {n inWidth : UInt32}

/-- A numeric type: elements of a fixed width and no count word. -/
def QType.isNumeric (q : QType) : Prop := q = .F8 ∨ q = .I4

theorem QType.isNumeric.countLen {q : QType} (h : q.isNumeric) : q.countLen = 0 := by
  rcases h with rfl | rfl <;> rfl

theorem QType.isNumeric.getVecType {q : QType} (h : q.isNumeric) :
    getVecType (some q.str) = .ok q := by
  rcases h with rfl | rfl <;> rfl

theorem QType.isNumeric.setVecType {q : QType} (h : q.isNumeric) (inWidth : UInt32) :
    setVecType q.str inWidth = .ok (q, q.width) := by
  rcases h with rfl | rfl <;> rfl

theorem QType.isNumeric.ne_SC {q : QType} (h : q.isNumeric) : q ≠ .SC := by
  rcases h with rfl | rfl <;> decide

theorem QType.isNumeric.ne_I1 {q : QType} (h : q.isNumeric) : q ≠ .I1 := by
  rcases h with rfl | rfl <;> decide

/-- The packet built for a numeric vector. -/
def numericParams (s : CStr) (d : Bytes) (q : QType) : SetVecParams where
  ph := requestHdr .setSexp (4 + lenName s + (8 + d.length))
  param1 := nameParam s
  hdrParam2 := encode 4 (parWord (8 + d.length) dtSexp) ++ encode 4 (parWord d.length q.xt)
  elems := d
  cumLen := d.length

/-- Below the field limit a numeric vector is encoded in this way. -/
theorem setVecParams_numeric (hsock : 0 ≤ sock) (hq : q.isNumeric) (hname : s.bytes ≠ [])
    (hn : n ≠ 0) (hd : d.length = n.toNat * q.width)
    (hsize : (4 + lenName s) + (8 + d.length) < 2 ^ 24) :
    Encodes sock (some s) (some q.str) (some d) n inWidth s d q q.width
      (numericParams s d q) := by
  have hlen2 : lenParam2 q d.length = 8 + d.length := by
    rw [lenParam2, hq.countLen, CInt.toUInt32_natCast, Nat.mod_eq_of_lt (by omega)]
  have hprod : CInt.toUInt32 (n.toNat * q.width : Nat) = d.length := by
    rw [← hd, CInt.toUInt32_natCast, Nat.mod_eq_of_lt (by omega)]
  refine ⟨hsock, rfl, hname, ⟨q.str, rfl, ?_, hq.setVecType inWidth⟩, rfl, hn, ?_, ?_, ?_, ?_, rfl,
    ?_⟩
  · rcases hq with rfl | rfl <;> decide
  · rw [ptrdiffMax]
    omega
  · rw [setVecElems, if_neg hq.ne_SC, hprod, numericParams]
  · change lenAccepted (4 + lenName s + lenParam2 q d.length)
    rw [hlen2, lenAccepted, CInt.toInt_eq (by omega) (by omega)]
    omega
  · change requestHdr .setSexp (4 + lenName s + (8 + d.length)) =
      requestHdr .setSexp (4 + lenName s + lenParam2 q d.length)
    rw [hlen2]
  · change encode 4 (parWord (8 + d.length) dtSexp) ++ encode 4 (parWord d.length q.xt) =
      mkHdrParam2 q n.toNat q.width d.length (lenParam2 q d.length)
    have hxt : xtWordLen q n.toNat q.width d.length (8 + d.length) = d.length := by
      rcases hq with rfl | rfl <;> exact hprod
    rw [hlen2, mkHdrParam2, hxt, if_neg hq.ne_I1, List.append_nil]

/-- The request decodes to the name and the elements. -/
theorem decodeSet_numericParams (hsize : (4 + lenName s) + (8 + d.length) < 2 ^ 24) :
    decodeSet (numericParams s d q).payload = some (s.bytes, ⟨q.xt, d⟩) := by
  have hpay : (numericParams s d q).payload =
      nameParam s ++ (encode 4 (parWord (8 + d.length) dtSexp) ++
        (encode 4 (parWord d.length q.xt) ++ d)) := by
    rw [SetVecParams.payload, numericParams, List.take_length, List.append_assoc]
  have hsexp : decodeSexp (encode 4 (parWord d.length q.xt) ++ d) = some ⟨q.xt, d⟩ := by
    rw [decodeSexp, List.drop_left' (LittleEndian.length_encode 4 _),
      LittleEndian.word_encode_zero, Nat.mod_eq_of_lt (parWord_lt _ _),
      parLen_parWord _ q.xt_lt, Nat.mod_eq_of_lt (by omega), if_pos rfl,
      parType_parWord _ q.xt_lt]
  have hdt : parType (word (encode 4 (parWord (8 + d.length) dtSexp) ++
      (encode 4 (parWord d.length q.xt) ++ d)) 0) = dtSexp := by
    rw [LittleEndian.word_encode_zero, Nat.mod_eq_of_lt (parWord_lt _ _)]
    exact parType_parWord _ (by decide)
  rw [hpay, decodeSet, decodeName_nameParam (by omega), afterFirst_nameParam (by omega),
    List.drop_left' (LittleEndian.length_encode 4 _), hdt, hsexp]
  rfl

end Set

/-- The vectors by name. -/
abbrev Store := Bytes → Option Stored

/-- A packet without a payload. -/
def bareReply (cmd : Int32) : Bytes := (packet ⟨cmd, 0, 0, 0⟩ []).bytes

/-- Store what a set request decodes to; evaluate a name to the vector stored under it. -/
def serve (store : Store) (request : Bytes) : Store × Bytes :=
  let payload := request.drop hdrLen
  if (Phdr.ofBytes request).cmd = cmdSetSexp then
    match decodeSet payload with
    | some (name, v) => (Function.update store name (some v), bareReply respOk)
    | none => (store, bareReply respErr)
  else
    match (decodeName payload).bind store with
    | some v => (store, (vecReply 0 v.xt v.elems).bytes)
    | none => (store, bareReply respErr)

/-- The replies to a list of requests, and the store after them. -/
def serveAll : Store → List Bytes → Store × Bytes
  | store, [] => (store, [])
  | store, request :: requests =>
      let r := serve store request
      let rest := serveAll r.1 requests
      (rest.1, r.2 ++ rest.2)

section Session

variable {sock : Int} {c : Conn} {s : CStr} {d : Bytes} {q : QType} {n inWidth : UInt32}

theorem getVecRequest_numeric (hq : q.isNumeric) (h : 4 + lenName s < 2 ^ 24) :
    getVecRequest (some s) (some q.str) = some (requestBytes .eval s) := by
  rw [getVecRequest, hq.getVecType]
  exact if_pos (requestFits_of_lt h)

/-- `get_vec` returns the elements of a canonical reply. -/
theorem run_getVec_numeric {name : Option CStr} {bs : Bytes} (hsock : 0 ≤ sock) (hc : c.Ready)
    (hq : q.isNumeric) (hreq : getVecRequest name (some q.str) = some bs)
    (hd : d.length = n.toNat * q.width) (hsize : d.length < 2 ^ 24)
    (hvec : BringsVec q.xt d c.inc) (h8 : 8 ≤ (front (skip hdrLen c.inc)).length)
    (out : VecOut) :
    (Prog.run Conn.handle ((Call.getVec name (some q.str) out).prog sock) c).1 =
      ⟨.ok, .vec ⟨some d, n.toNat⟩⟩ := by
  have hcount : q.count d.length = n.toNat := by
    rw [QType.count, hq.countLen, Nat.sub_zero, hd]
    exact Nat.mul_div_cancel _ (QType.width_pos hq.ne_SC)
  have hword : q.countLen ≤ d.length := by
    rw [hq.countLen]
    exact Nat.zero_le _
  have hrun := run_getVec_vecReply hsock hc hreq hq.getVecType hvec hsize hword h8 out
  rw [hrun, hcount, hq.countLen, List.drop_zero, ← hd, List.take_length]

/-- The server answers the set request with a bare packet and the evaluation of the
name with the vector. -/
theorem serveAll_set_get (hsize : (4 + lenName s) + (8 + d.length) < 2 ^ 24) (store : Store) :
    (serveAll store [(numericParams s d q).bytes, requestBytes .eval s]).2 =
      bareReply respOk ++ (vecReply 0 q.xt d).bytes := by
  have hset : (serve store (numericParams s d q).bytes) =
      (Function.update store s.bytes (some ⟨q.xt, d⟩), bareReply respOk) := by
    have hcmd : (Phdr.ofBytes (numericParams s d q).bytes).cmd = cmdSetSexp := by
      rw [SetVecParams.bytes_eq, Phdr.ofBytes_bytes_append]
      rfl
    simp only [serve, hcmd, if_true, SetVecParams.drop_bytes, decodeSet_numericParams hsize]
  have hget : (serve (Function.update store s.bytes (some ⟨q.xt, d⟩)) (requestBytes .eval s)).2 =
      (vecReply 0 q.xt d).bytes := by
    have hcmd : (Phdr.ofBytes (requestBytes .eval s)).cmd ≠ cmdSetSexp := by
      rw [requestBytes, Phdr.ofBytes_bytes_append]
      change cmdEval ≠ cmdSetSexp
      decide
    have hname := decodeName_nameParam (s := s) (by omega) []
    have hdrop : (requestBytes .eval s).drop hdrLen = nameParam s ++ [] := by
      rw [requestBytes, List.append_nil]
      exact List.drop_left' (Phdr.length_bytes _)
    simp only [serve, if_neg hcmd, hdrop, hname, Option.bind_some, Function.update_self]
  rw [serveAll, serveAll, serveAll, hset, hget, List.append_nil]

end Session

/-- The request a server decodes, the reply `get_vec` decodes, and both in one session. -/
structure RoundTrips (sock : Int) (s : CStr) (d : Bytes) (q : QType) (n inWidth : UInt32)
    (set get : Bytes) : Prop where
  set_eq : setVecRequest sock (some s) (some q.str) (some d) n inWidth = some set
  get_eq : getVecRequest (some s) (some q.str) = some get
  sent : ∀ c : Conn, c.Ready →
    (Prog.run Conn.handle ((Call.setVec (some s) (some q.str) (some d) n inWidth).prog sock)
      c).2.sent = c.sent ++ set
  /-- The request decodes to the name, the type and the elements. -/
  decoded : decodeSet (set.drop hdrLen) = some (s.bytes, ⟨q.xt, d⟩)
  /-- A canonical reply is returned as its elements. -/
  returned : ∀ (c : Conn) (out : VecOut), c.Ready → BringsVec q.xt d c.inc →
    8 ≤ (front (skip hdrLen c.inc)).length →
    (Prog.run Conn.handle ((Call.getVec (some s) (some q.str) out).prog sock) c).1 =
      ⟨.ok, .vec ⟨some d, n.toNat⟩⟩
  /-- With the server in between, what was set is what is got. -/
  identity : ∀ (c : Conn) (store : Store) (out : VecOut) (rest : Bytes), c.Ready →
    avail c.inc = (serveAll store [set, get]).2 ++ rest →
    8 ≤ (front (skip (hdrLen + hdrLen) c.inc)).length →
    let r := runCalls sock [.setVec (some s) (some q.str) (some d) n inWidth,
      .getVec (some s) (some q.str) out] c
    r.1 = [⟨.ok, .nothing⟩, ⟨.ok, .vec ⟨some d, n.toNat⟩⟩] ∧
      r.2.sent = c.sent ++ (set ++ get)

section Session

variable {sock : Int} {c : Conn} {s : CStr} {d : Bytes} {q : QType} {n inWidth : UInt32}

/-- A bare reply passes for `set_vec`. -/
theorem setVec_accepts_bareReply {name qtype : Option CStr} {data : Option Bytes} {cmd : Int32}
    {rest : Bytes} (hav : avail c.inc = bareReply cmd ++ rest) :
    (Call.setVec name qtype data n inWidth).accepts c.inc := by
  have hhdr : replyHdr c.inc = ⟨cmd, 0, 0, 0⟩ := by
    rw [replyHdr, hav, bareReply, packet, Frame.bytes, List.append_nil,
      Phdr.ofBytes_bytes_append]
  constructor
  · rw [hav, List.length_append]
    exact Nat.le_add_right 16 _
  · rw [hhdr]
    rfl

theorem holdsVector_numeric {s : CStr} (hq : q.isNumeric) (hd : d.length = n.toNat * q.width) :
    (Call.setVec (some s) (some q.str) (some d) n inWidth).HoldsVector := by
  intro d' t q' width hd' ht htype
  obtain rfl := Option.some.inj hd'
  obtain rfl := Option.some.inj ht
  obtain ⟨rfl, rfl⟩ := Prod.mk.inj (Except.ok.inj ((hq.setVecType inWidth).symm.trans htype))
  exact hd

/-- Setting and getting a vector on one connection. -/
theorem runCalls_set_get {cmd : Int32} {rest set get : Bytes} (hsock : 0 ≤ sock)
    (hc : c.Ready) (hq : q.isNumeric) (hd : d.length = n.toNat * q.width)
    (hsize : d.length < 2 ^ 24)
    (hset : setVecRequest sock (some s) (some q.str) (some d) n inWidth = some set)
    (hget : getVecRequest (some s) (some q.str) = some get)
    (hav : avail c.inc = bareReply cmd ++ ((vecReply 0 q.xt d).bytes ++ rest))
    (h8 : 8 ≤ (front (skip (hdrLen + hdrLen) c.inc)).length) (out : VecOut) :
    runCalls sock [.setVec (some s) (some q.str) (some d) n inWidth,
        .getVec (some s) (some q.str) out] c =
      ([⟨.ok, .nothing⟩, ⟨.ok, .vec ⟨some d, n.toNat⟩⟩],
        (Prog.run Conn.handle ((Call.getVec (some s) (some q.str) out).prog sock)
          ((c.push set).skip hdrLen)).2) := by
  have hreq : (Call.setVec (some s) (some q.str) (some d) n inWidth).request sock = some set :=
    hset
  have hholds : (Call.setVec (some s) (some q.str) (some d) n inWidth).HoldsVector :=
    holdsVector_numeric hq hd
  have hacc : (Call.setVec (some s) (some q.str) (some d) n inWidth).accepts c.inc :=
    setVec_accepts_bareReply hav
  have h16 : hdrLen ≤ (avail c.inc).length := hacc.1
  have hfirst := run_prog_ok hsock hc hholds hreq hacc
  have hc' : ((c.push set).skip hdrLen).Ready := (hc.push set).withInc _
  have hvec : BringsVec q.xt d ((c.push set).skip hdrLen).inc := by
    refine ⟨0, rest, ?_⟩
    rw [Conn.inc_skip, Conn.inc_push, avail_skip h16, hav]
    exact List.drop_left' (Phdr.length_bytes _)
  have hskip : skip hdrLen ((c.push set).skip hdrLen).inc = skip (hdrLen + hdrLen) c.inc := by
    have hle := hvec.le_length
    rw [Conn.inc_skip, Conn.inc_push, avail_skip h16, List.length_drop] at hle
    have h32 : hdrLen + hdrLen ≤ (avail c.inc).length := by
      unfold hdrLen at hle ⊢
      omega
    rw [Conn.inc_skip, Conn.inc_push]
    exact skip_skip h32
  have hsecond := run_getVec_numeric hsock hc' hq hget hd hsize hvec (hskip ▸ h8) out
  simp only [runCalls, hfirst]
  rw [← hsecond]
  rfl

end Session

/-- Numeric vectors below the field limit come back as they were set. -/
theorem numeric_vectors_roundTrip {sock : Int} {s : CStr} {d : Bytes} {q : QType}
    {n inWidth : UInt32} (hsock : 0 ≤ sock) (hq : q = .F8 ∨ q = .I4) (hname : s.bytes ≠ [])
    (hn : n ≠ 0) (hd : d.length = n.toNat * q.width)
    (hsize : (4 + lenName s) + (8 + d.length) < 2 ^ 24) :
    ∃ set get, RoundTrips sock s d q n inWidth set get := by
  have hnum : q.isNumeric := hq
  have henc : Encodes sock _ _ _ n inWidth s d q q.width _ :=
    setVecParams_numeric hsock hnum hname hn hd hsize
  have hset : setVecRequest sock (some s) (some q.str) (some d) n inWidth =
      some (numericParams s d q).bytes := by
    rw [setVecRequest, henc.setVecParams_eq]
  have hget := getVecRequest_numeric (s := s) hnum (by omega)
  refine ⟨_, _, hset, hget, ?_, ?_, ?_, ?_⟩
  · intro c hc
    exact sent_run_prog hsock hc (holdsVector_numeric hnum hd) hset
  · rw [SetVecParams.drop_bytes]
    exact decodeSet_numericParams hsize
  · intro c out hc hvec h8
    exact run_getVec_numeric hsock hc hnum hget hd (by omega) hvec h8 out
  · intro c store out rest hc hav h8
    rw [serveAll_set_get hsize, List.append_assoc] at hav
    have hrun := runCalls_set_get hsock hc hnum hd (by omega) hset hget hav h8 out
    have hreq : (Call.getVec (some s) (some q.str) out).request sock = some _ := hget
    have hholds : (Call.getVec (some s) (some q.str) out).HoldsVector := trivial
    have hsent := sent_run_prog (c := (c.push (numericParams s d q).bytes).skip hdrLen) hsock
      ((hc.push _).withInc _) hholds hreq
    rw [hrun]
    refine ⟨rfl, ?_⟩
    change (Prog.run Conn.handle _ _).2.sent = _
    rw [hsent, Conn.sent_skip, Conn.sent_push, List.append_assoc]

/-- The memory of 1, 2 and -1. -/
def threeDoubles : Bytes :=
  [0, 0, 0, 0, 0, 0, 240, 63, 0, 0, 0, 0, 0, 0, 0, 64, 0, 0, 0, 0, 0, 0, 240, 191]

theorem numeric_vectors_roundTrip_threeDoubles :
    ∃ set get, RoundTrips 3 nameX threeDoubles .F8 3 0 set get :=
  numeric_vectors_roundTrip (by decide) (Or.inl rfl) (by decide) (by decide) (by decide)
    (by decide)

end RserveClient
