import RserveClient.Client.Api
import RserveClient.Encoding.Logicals
import RserveClient.Encoding.RoundTrip
import RserveClient.Session.Evaluations
import RserveClient.Session.Live

/-!
# A server that evaluates R

What the client library relies on when it talks to R: an abstract workspace that binds names
to values, and rules that tell how the server answers a vector that is set, a name, and the
few commands that the library pastes together.

## Implementation notes

R itself is not part of the sources. A server is a parameter, and the rules are those of the
language and of the packet format: nothing is said about requests the library does not make.
-/

namespace RserveClient

open Interaction Arrivals Framing
open LittleEndian (encode word)

/-- A numeric vector whose bytes are whole elements and fit the length field. -/
structure Numeric where
  q : QType
  data : Bytes
  numeric : q.isNumeric
  whole : q.width ∣ data.length
  fits : data.length < 2 ^ 24

theorem isNumeric_F8 : QType.F8.isNumeric := Or.inl rfl

theorem isNumeric_I4 : QType.I4.isNumeric := Or.inr rfl

def Numeric.count (v : Numeric) : Nat := v.data.length / v.q.width

/-- What a name is bound to. -/
inductive Value where
  | vector (v : Numeric)
  | logical (x : Bool)
  | other

/-- The values by name. -/
abbrev Workspace := Bytes → Option Value

/-- The content of a single logical: its count, the byte, and padding. -/
def logicalContent (x : Bool) : Bytes := boolContent [if x then 1 else 0] [255, 255, 255]

/-- What a value looks like in a reply. -/
def Value.stored : Value → Option Stored
  | vector v => some ⟨v.q.xt, v.data⟩
  | logical x => some ⟨xtArrayBool, logicalContent x⟩
  | other => none

/-- What `length` returns, as a reply has it. -/
def lengthStored (n : Nat) : Stored := ⟨xtArrayInt, encode 4 n⟩

/-- A reply arrives in pieces, the first of which after the header holds the type words and as
much of the value as a single number takes. -/
structure Delivers (reply : Bytes) (inc : List (Arrival UInt8)) : Prop where
  clean : Clean inc
  elems : elems inc = reply
  front : min 16 (reply.length - hdrLen) ≤ (front (skip hdrLen inc)).length

instance (reply : Bytes) (inc : List (Arrival UInt8)) : Decidable (Delivers reply inc) :=
  decidable_of_iff (Clean inc ∧ Arrivals.elems inc = reply ∧
      min 16 (reply.length - hdrLen) ≤ (Arrivals.front (skip hdrLen inc)).length)
    ⟨fun h => ⟨h.1, h.2.1, h.2.2⟩, fun h => ⟨h.clean, h.elems, h.front⟩⟩

theorem Delivers.avail_eq {reply : Bytes} {inc : List (Arrival UInt8)} (h : Delivers reply inc) :
    avail inc = reply := h.clean.avail_eq.trans h.elems

/-- The packet asks for the evaluation of a text. -/
structure AsksFor (command : Command) (text : Bytes) (f : Frame UInt8) : Prop where
  valid : packetFormat.Valid f
  cmd : (Phdr.ofBytes f.head).cmd = command.code
  text : decodeName f.body = some text

/-- The packet sets a name to a vector. -/
structure Sets (name : Bytes) (v : Stored) (f : Frame UInt8) : Prop where
  valid : packetFormat.Valid f
  cmd : (Phdr.ofBytes f.head).cmd = cmdSetSexp
  set : decodeSet f.body = some (name, v)

/-- The packet with which the library has a text evaluated. -/
def requestFrame (command : Command) (s : CStr) : Frame UInt8 :=
  packet (requestHdr command (4 + lenName s)) (nameParam s)

theorem asksFor_requestFrame {command : Command} {s : CStr} (h : 4 + lenName s < 2 ^ 24) :
    AsksFor command s.bytes (requestFrame command s) := by
  have hreq : nameRequest command (some s) = some (requestBytes command s) :=
    if_pos (requestFits_of_lt h)
  obtain ⟨s', hs, _, hvalid, hname⟩ := nameRequest_packet hreq fun t ht =>
    Option.some.inj ht ▸ h
  obtain rfl := Option.some.inj hs
  refine ⟨hvalid, ?_, hname⟩
  change (Phdr.ofBytes (requestHdr command (4 + lenName s)).bytes).cmd = command.code
  rw [Phdr.ofBytes_bytes]
  rfl

/-- The packet in which it asks for the value. -/
def askFrame (s : CStr) : Frame UInt8 := requestFrame .eval s

theorem asksFor_askFrame {s : CStr} (h : 4 + lenName s < 2 ^ 24) :
    AsksFor .eval s.bytes (askFrame s) := asksFor_requestFrame h

/-- A server with the workspace that its state stands for. -/
structure RServer (σ : Type) where
  answer : Server σ
  workspace : σ → Workspace
  /-- What R reads as a name. -/
  IsName : CStr → Prop

namespace RServer

variable {σ : Type} (R : RServer σ)

/-- Asked for the text, the server goes on to a workspace and returns a value. -/
def Evaluates (s : σ) (text : Bytes) (ws : Workspace) (v : Stored) : Prop :=
  ∀ f, AsksFor .eval text f → R.workspace (R.answer s f.bytes).1 = ws ∧
    ∃ msgId, Delivers (vecReply msgId v.xt v.elems).bytes (R.answer s f.bytes).2

/-- How R answers what the library asks. -/
structure Rules : Prop where
  /-- Names are not empty, and R has a limit on their length. -/
  short : ∀ n, R.IsName n → n.bytes ≠ [] ∧ n.bytes.length ≤ 10000
  /-- A vector that is set is bound, and the reply has no payload. -/
  set : ∀ s name (v : Numeric) f, Sets name ⟨v.q.xt, v.data⟩ f →
    R.workspace (R.answer s f.bytes).1 =
        Function.update (R.workspace s) name (some (.vector v)) ∧
      ∃ cmd, Delivers (bareReply cmd) (R.answer s f.bytes).2
  /-- A name evaluates to its value. -/
  name : ∀ s n v stored, R.IsName n → R.workspace s n.bytes = some v → v.stored = some stored →
    R.Evaluates s n.bytes (R.workspace s) stored
  /-- `exists("n")` tells whether a name is bound. -/
  existsName : ∀ s n, R.IsName n →
    R.Evaluates s (existsBuilder.format.paste n).bytes (R.workspace s)
      ⟨xtArrayBool, logicalContent (R.workspace s n.bytes).isSome⟩
  /-- `length(n)` is the number of elements. -/
  length : ∀ s n (v : Numeric), R.IsName n → R.workspace s n.bytes = some (.vector v) →
    R.Evaluates s (getVecLenBuilder.format.paste n).bytes (R.workspace s) (lengthStored v.count)
  /-- `n <- TRUE` and `n <- FALSE` bind a name and return the logical. -/
  assign : ∀ s n x, R.IsName n →
    R.Evaluates s ((setBoolBuilder x).format.paste n).bytes
      (Function.update (R.workspace s) n.bytes (some (.logical x)))
      ⟨xtArrayBool, logicalContent x⟩

end RServer

section Exchange

variable {σ : Type} (server : Server σ) {sock : Int}

/-- Between two calls: nothing is cut, nothing is left to read, and the server has no part of
a packet. -/
structure Idle (v : Conn × (Bytes × σ)) : Prop where
  ready : v.1.Ready
  inc : v.1.inc = []
  pending : v.2.1 = []

theorem inc_eq_nil_of_taken {inc : List (Arrival UInt8)} (hclean : Clean inc) {n : Nat}
    (hn : n = (elems inc).length) : skip n inc = [] := by
  have hle : n ≤ (avail inc).length := by
    rw [hclean.avail_eq]
    exact Nat.le_of_eq hn
  have hnil : elems (skip n inc) = [] := by
    rw [elems_skip hle, hn, List.drop_length]
  cases hskip : skip n inc with
  | nil => rfl
  | cons e s =>
      cases e with
      | fault =>
          have hmem : Arrival.fault ∈ skip n inc := by
            rw [hskip]
            exact List.mem_cons_self
          exact absurd hmem hclean.skip
      | piece a as =>
          rw [hskip, Arrivals.elems] at hnil
          cases hnil

/-- The answer to a request that goes out whole is there when the call begins to read. -/
theorem run_live_request (hsock : 0 ≤ sock) {call : Call} {f : Frame UInt8}
    {v : Conn × (Bytes × σ)} (hv : Idle v) (hdata : call.HoldsVector)
    (hreq : call.request sock = some f.bytes) (hvalid : packetFormat.Valid f) :
    (call.prog sock).run (liveHandle server sock) v =
      let r := (call.prog sock).run Conn.handle (v.1.arrive (server v.2.2 f.bytes).2)
      (r.1, r.2, [], (server v.2.2 f.bytes).1) := by
  obtain ⟨c, buf, s⟩ := v
  obtain ⟨hready, hinc, hpending⟩ := hv
  dsimp only at hready hpending
  subst hpending
  obtain ⟨bs, hsent, hlive⟩ := run_live_prog server sock (call.phases_prog sock) (c, [], s)
  have hbs : bs = f.bytes :=
    List.append_cancel_left (hsent.symm.trans (sent_run_prog hsock hready hdata hreq))
  rw [hlive, hbs, Format.feedAll_frame hvalid]

/-- The reply half begins with just the answer to read. -/
theorem run_live_reply (hsock : 0 ≤ sock) {call : Call} {f : Frame UInt8}
    {v : Conn × (Bytes × σ)} (hv : Idle v) (hdata : call.HoldsVector)
    (hreq : call.request sock = some f.bytes) (hvalid : packetFormat.Valid f) :
    ∃ c, c.Ready ∧ c.inc = (server v.2.2 f.bytes).2 ∧
      (call.prog sock).run (liveHandle server sock) v =
        let r := (call.reply sock).run Conn.handle c
        (r.1, r.2, [], (server v.2.2 f.bytes).1) := by
  have hready : (v.1.arrive (server v.2.2 f.bytes).2).Ready := hv.ready.withInc _
  refine ⟨(v.1.arrive (server v.2.2 f.bytes).2).push f.bytes, hready.push f.bytes, ?_, ?_⟩
  · rw [Conn.inc_push, Conn.arrive, Conn.inc_withInc, hv.inc, List.nil_append]
  · rw [run_live_request server hsock hv hdata hreq hvalid, run_prog hsock hready hdata hreq]

theorem Call.ready_after {call : Call} {c : Conn} (hne : call ≠ .rshutdown) (hc : c.Ready) :
    (call.after c).Ready := by
  cases call with
  | rshutdown => exact absurd rfl hne
  | _ => exact ⟨hc.isOpen, hc.outc⟩

/-- A call that takes just the answer leaves the connection as idle as it found it. -/
theorem run_live_ok (hsock : 0 ≤ sock) {call : Call} {f : Frame UInt8}
    {v : Conn × (Bytes × σ)} (hv : Idle v) (hdata : call.HoldsVector)
    (hreq : call.request sock = some f.bytes) (hvalid : packetFormat.Valid f)
    (hne : call ≠ .rshutdown) (hacc : call.accepts (server v.2.2 f.bytes).2)
    (hclean : Clean (server v.2.2 f.bytes).2)
    (htaken : call.taken (server v.2.2 f.bytes).2 = (elems (server v.2.2 f.bytes).2).length) :
    ∃ v', (call.prog sock).run (liveHandle server sock) v =
        (⟨.ok, call.output (server v.2.2 f.bytes).2⟩, v') ∧
      Idle v' ∧ v'.2.2 = (server v.2.2 f.bytes).1 := by
  obtain ⟨c, hc, hinc, hlive⟩ := run_live_reply server hsock hv hdata hreq hvalid
  have hrun := run_reply_ok hsock hc.isOpen (hinc.symm ▸ hacc)
  rw [hrun, hinc] at hlive
  refine ⟨_, hlive, ⟨Call.ready_after hne hc, ?_, rfl⟩, rfl⟩
  change (call.after c).inc = []
  rw [Call.inc_after, hinc]
  exact inc_eq_nil_of_taken hclean htaken

end Exchange

/-- A call of `exec_str` is the function itself. -/
theorem run_execStr_of_call {W : Type} {h : Handler Syscall Syscall.Res W} {sock : Int}
    {str : Option CStr} {ptrOutput : Bool} {xt : Int} {out out' : OutVars} {status : Status}
    {w w' : W} (hrun : ((Call.execStr str ptrOutput xt out).prog sock).run h w =
      (⟨status, .buffer out'⟩, w')) :
    (execStr sock str ptrOutput xt out).run h w = ((status, out'), w') := by
  have hprog : (Call.execStr str ptrOutput xt out).prog sock =
      (execStr sock str ptrOutput xt out).bind fun r => .ret ⟨r.1, .buffer r.2⟩ := rfl
  rw [hprog, Prog.run_bind', Prog.run_ret, Prod.mk.injEq, Ret.mk.injEq] at hrun
  obtain ⟨⟨hstatus, hbuffer⟩, hworld⟩ := hrun
  exact Prod.ext (Prod.ext hstatus (Output.buffer.inj hbuffer)) hworld

theorem run_call_of_execStr {W : Type} {h : Handler Syscall Syscall.Res W} {sock : Int}
    {str : Option CStr} {ptrOutput : Bool} {xt : Int} {out : OutVars} {r : Status × OutVars}
    {w w' : W} (hrun : (execStr sock str ptrOutput xt out).run h w = (r, w')) :
    ((Call.execStr str ptrOutput xt out).prog sock).run h w = (⟨r.1, .buffer r.2⟩, w') := by
  have hprog : (Call.execStr str ptrOutput xt out).prog sock =
      (execStr sock str ptrOutput xt out).bind fun r => .ret ⟨r.1, .buffer r.2⟩ := rfl
  rw [hprog, Prog.run_bind', Prog.run_ret, hrun]

/-- Just a header that announces nothing. -/
structure Bare (inc : List (Arrival UInt8)) : Prop where
  clean : Clean inc
  reply : ∃ hdr : Phdr, hdr.len = 0 ∧ Arrivals.elems inc = (packet hdr []).bytes

namespace Bare

variable {inc : List (Arrival UInt8)}

theorem length_elems (h : Bare inc) : (Arrivals.elems inc).length = 16 := by
  obtain ⟨hdr, _, helems⟩ := h.reply
  rw [helems, packet, Frame.bytes, List.append_nil, Phdr.length_bytes]

theorem hdrLen_le (h : Bare inc) : 16 ≤ (avail inc).length := by
  rw [h.clean.avail_eq, h.length_elems]

theorem replyHdr_len (h : Bare inc) : (replyHdr inc).len.toInt = 0 := by
  obtain ⟨hdr, hzero, helems⟩ := h.reply
  rw [replyHdr, h.clean.avail_eq, helems, packet, Frame.bytes, List.append_nil,
    Phdr.ofBytes_bytes, hzero]
  rfl

end Bare

section Values

variable {xt : Nat} {content : Bytes} {msgId : Int32} {inc : List (Arrival UInt8)}

theorem Delivers.bringsVec (h : Delivers (vecReply msgId xt content).bytes inc) :
    BringsVec xt content inc :=
  ⟨msgId, [], by rw [h.avail_eq, List.append_nil]⟩

/-- All of the reply is there, and no more. -/
theorem Delivers.length_eq (h : Delivers (vecReply msgId xt content).bytes inc) :
    (Arrivals.elems inc).length = 24 + content.length := by
  rw [h.elems, length_vecReply]

theorem Delivers.front_ge (h : Delivers (vecReply msgId xt content).bytes inc) :
    min 16 (8 + content.length) ≤ (Arrivals.front (skip hdrLen inc)).length := by
  have hfront := h.front
  have hlen : (vecReply msgId xt content).bytes.length - hdrLen =
      8 + content.length := by
    rw [length_vecReply, hdrLen]
    omega
  rwa [hlen] at hfront

/-- The payload of a vector reply. -/
def vecPayload (xt : Nat) (content : Bytes) : Bytes :=
  encode 4 (parWord (4 + content.length) dtSexp) ++
    (encode 4 (parWord content.length xt) ++ content)

theorem length_vecPayload (xt : Nat) (content : Bytes) :
    (vecPayload xt content).length = 8 + content.length := by
  simp only [vecPayload, List.length_append, LittleEndian.length_encode]
  omega

theorem drop_vecPayload (xt : Nat) (content : Bytes) :
    (vecPayload xt content).drop 8 = content := by
  have h8 : (vecPayload xt content).drop 8 = ((vecPayload xt content).drop 4).drop 4 := by
    rw [List.drop_drop]
  rw [h8, vecPayload, List.drop_left' (LittleEndian.length_encode 4 _),
    List.drop_left' (LittleEndian.length_encode 4 _)]

theorem typesAccepted_vecPayload {asked : Int} (hxt : xt < 256)
    (hasked : 0 ≤ asked → (xt : Int) = asked) : typesAccepted asked (vecPayload xt content) := by
  rw [typesAccepted, vecPayload, LittleEndian.word_encode_zero, LittleEndian.word_encode_succ,
    LittleEndian.word_encode_zero, Nat.mod_eq_of_lt (parWord_lt _ _),
    Nat.mod_eq_of_lt (parWord_lt _ _), parType_parWord _ hxt]
  exact ⟨parType_parWord _ (by decide), hasked⟩

theorem BringsVec.bringsPacket (h : BringsVec xt content inc)
    (hlen : content.length < 2 ^ 24) :
    ∃ hdr, BringsPacket hdr (vecPayload xt content) inc := by
  obtain ⟨msgId, rest, hav⟩ := h
  refine ⟨⟨respOk, Int32.ofInt (8 + content.length : Nat), msgId, 0⟩, ⟨rest, hav⟩, ?_⟩
  rw [length_vecPayload, CInt.toInt_ofInt, CInt.toInt_eq (by omega) (by omega)]

end Values

section Evaluations

variable {σ : Type} (server : Server σ) {sock : Int}

/-- An evaluation that is answered by a value of the type it asks for. -/
theorem run_live_execStr_value (hsock : 0 ≤ sock) {str : CStr} {xt : Int} (out : OutVars)
    {stored : Stored} {msgId : Int32} {v : Conn × (Bytes × σ)} (hv : Idle v)
    (hfit : 4 + lenName str < 2 ^ 24) (hlen : stored.elems.length < 2 ^ 24)
    (hxt : stored.xt < 256) (hasked : 0 ≤ xt → (stored.xt : Int) = xt)
    (hclean : Clean (server v.2.2 (askFrame str).bytes).2)
    (hreply : elems (server v.2.2 (askFrame str).bytes).2 =
      (vecReply msgId stored.xt stored.elems).bytes) :
    ∃ v', (execStr sock (some str) true xt out).run (liveHandle server sock) v =
        ((.ok, ⟨some stored.elems, stored.elems.length⟩), v') ∧
      Idle v' ∧ v'.2.2 = (server v.2.2 (askFrame str).bytes).1 := by
  have hvec : BringsVec stored.xt stored.elems (server v.2.2 (askFrame str).bytes).2 :=
    ⟨msgId, [], by rw [hclean.avail_eq, hreply, List.append_nil]⟩
  obtain ⟨hdr, hbrings⟩ := hvec.bringsPacket hlen
  have hacc : execAccepted true xt (server v.2.2 (askFrame str).bytes).2 := by
    refine (hbrings.execAccepted_iff xt).mpr ⟨?_, typesAccepted_vecPayload hxt hasked⟩
    rw [length_vecPayload]
    exact Nat.le_add_right 8 _
  have hout := hbrings.execOut_eq out
  rw [drop_vecPayload, length_vecPayload, Nat.add_sub_cancel_left] at hout
  have htaken : execTaken true (server v.2.2 (askFrame str).bytes).2 =
      (elems (server v.2.2 (askFrame str).bytes).2).length := by
    rw [hreply, length_vecReply, execTaken, if_pos rfl, hbrings.replyHdr_eq, hbrings.len_eq,
      Int.toNat_natCast, length_vecPayload]
    omega
  have hreq : (Call.execStr (some str) true xt out).request sock =
      some (askFrame str).bytes := if_pos (requestFits_of_lt hfit)
  obtain ⟨v', hrun, hidle, hstate⟩ := run_live_ok server hsock hv
    (show (Call.execStr (some str) true xt out).HoldsVector from trivial) hreq
    (asksFor_askFrame hfit).valid (by rintro ⟨⟩) hacc hclean htaken
  refine ⟨v', ?_, hidle, hstate⟩
  rw [run_execStr_of_call hrun]
  exact Prod.ext (Prod.ext rfl hout) rfl

/-- An evaluation that is answered without a payload: the call fails, and the connection goes
on. -/
theorem run_live_execStr_error (hsock : 0 ≤ sock) {str : CStr} (xt : Int) (out : OutVars)
    {v : Conn × (Bytes × σ)} (hv : Idle v) (hfit : 4 + lenName str < 2 ^ 24)
    (hbare : Bare (server v.2.2 (askFrame str).bytes).2) :
    ∃ v', (execStr sock (some str) true xt out).run (liveHandle server sock) v =
        ((.bad .reply, ⟨none, 0⟩), v') ∧
      Idle v' ∧ v'.2.2 = (server v.2.2 (askFrame str).bytes).1 := by
  have hreq : (Call.execStr (some str) true xt out).request sock = some (askFrame str).bytes :=
    if_pos (requestFits_of_lt hfit)
  obtain ⟨c, hc, hinc, hstart⟩ := run_live_reply server hsock hv
    (show (Call.execStr (some str) true xt out).HoldsVector from trivial) hreq
    (asksFor_askFrame hfit).valid
  have hfound := exec_execStrReply (v := out) hsock hc.isOpen xt rfl
  rw [hinc, hbare.replyHdr_len] at hfound
  rw [if_neg (Nat.not_lt.mpr hbare.hdrLen_le), if_pos rfl] at hfound
  have hreply : ((Call.execStr (some str) true xt out).reply sock).run Conn.handle c =
      (⟨.bad .reply, .buffer ⟨none, 0⟩⟩, c.skip 16) := by
    rw [execOn] at hfound
    rw [Call.reply, Proc.run_finish, hfound]
    rfl
  rw [hreply] at hstart
  refine ⟨_, run_execStr_of_call hstart, ⟨⟨hc.isOpen, hc.outc⟩, ?_, rfl⟩, rfl⟩
  rw [Conn.inc_skip, hinc]
  exact inc_eq_nil_of_taken hbare.clean hbare.length_elems.symm

/-- A void evaluation returns 0 whatever the header of the answer says. -/
theorem run_live_execStr_void (hsock : 0 ≤ sock) {str : CStr} (xt : Int) (out : OutVars)
    {v : Conn × (Bytes × σ)} (hv : Idle v) (hfit : 4 + lenName str < 2 ^ 24)
    (hbare : Bare (server v.2.2 (requestFrame .voidEval str).bytes).2) :
    ∃ v', (execStr sock (some str) false xt out).run (liveHandle server sock) v =
        ((.ok, out), v') ∧
      Idle v' ∧ v'.2.2 = (server v.2.2 (requestFrame .voidEval str).bytes).1 := by
  have hreq : (Call.execStr (some str) false xt out).request sock =
      some (requestFrame .voidEval str).bytes := if_pos (requestFits_of_lt hfit)
  obtain ⟨v', hrun, hidle, hstate⟩ := run_live_ok server hsock hv
    (show (Call.execStr (some str) false xt out).HoldsVector from trivial) hreq
    (asksFor_requestFrame hfit).valid (by rintro ⟨⟩) hbare.hdrLen_le hbare.clean
    hbare.length_elems.symm
  exact ⟨v', run_execStr_of_call hrun, hidle, hstate⟩

end Evaluations

section Setting

variable {σ : Type} (server : Server σ) {sock : Int}

/-- The packet that `set_vec` sends for a numeric vector. -/
def setFrame (s : CStr) (v : Numeric) : Frame UInt8 :=
  packet (numericParams s v.data v.q).ph (numericParams s v.data v.q).payload

theorem sets_setFrame {s : CStr} {v : Numeric}
    (hsize : (4 + lenName s) + (8 + v.data.length) < 2 ^ 24) :
    Sets s.bytes ⟨v.q.xt, v.data⟩ (setFrame s v) := by
  refine ⟨packet_valid ?_, ?_, decodeSet_numericParams hsize⟩
  · have hpay : (numericParams s v.data v.q).payload.length =
        4 + lenName s + (8 + v.data.length) := by
      simp only [SetVecParams.payload, numericParams, List.take_length, List.length_append,
        length_nameParam, LittleEndian.length_encode]
    rw [hpay]
    change (Int32.ofInt ((4 + lenName s + (8 + v.data.length) : Nat) : Int)).toInt = _
    rw [CInt.toInt_ofInt, CInt.toInt_eq (by omega) (by omega)]
  · change (Phdr.ofBytes (requestHdr .setSexp _).bytes).cmd = cmdSetSexp
    rw [Phdr.ofBytes_bytes]
    rfl

/-- A vector that is set, and answered without a payload. -/
theorem run_live_set (hsock : 0 ≤ sock) {name : CStr} {vec : Numeric} {n inWidth : UInt32}
    {v : Conn × (Bytes × σ)} (hv : Idle v) (hname : name.bytes ≠ []) (hn : n ≠ 0)
    (hlen : vec.data.length = n.toNat * vec.q.width)
    (hsize : (4 + lenName name) + (8 + vec.data.length) < 2 ^ 24)
    (hbare : Bare (server v.2.2 (setFrame name vec).bytes).2) :
    ∃ v', ((Call.setVec (some name) (some vec.q.str) (some vec.data) n inWidth).prog sock).run
        (liveHandle server sock) v = (⟨.ok, .nothing⟩, v') ∧
      Idle v' ∧ v'.2.2 = (server v.2.2 (setFrame name vec).bytes).1 := by
  have henc : Encodes sock _ _ _ n inWidth name vec.data vec.q vec.q.width _ :=
    setVecParams_numeric hsock vec.numeric hname hn hlen hsize
  have hreq : (Call.setVec (some name) (some vec.q.str) (some vec.data) n inWidth).request sock =
      some (setFrame name vec).bytes := by
    change setVecRequest _ _ _ _ _ _ = _
    rw [setVecRequest, henc.setVecParams_eq]
    exact congrArg some (SetVecParams.bytes_eq _)
  exact run_live_ok server hsock hv (holdsVector_numeric vec.numeric hlen) hreq
    (sets_setFrame hsize).valid (by rintro ⟨⟩) ⟨hbare.hdrLen_le, hbare.replyHdr_len⟩ hbare.clean
    hbare.length_elems.symm

end Setting

end RserveClient
