import RserveClient.Client.Sends
import RserveClient.Encoding.Sizes

/-!
# Requests on a stream that can break off

The outgoing stream when any send may be cut short. The operations give the
failure to their caller and leave the socket open, so what happens to the
framing is decided by the caller's next call.
-/

namespace RserveClient

open Interaction Arrivals Framing

/-- The bytes sent so far are whole packets. -/
def AtBoundary (sent : Bytes) : Prop := (packetFormat.parse sent).isSome = true

instance (sent : Bytes) : Decidable (AtBoundary sent) := inferInstanceAs (Decidable (_ = true))

/-- Every call that sends anything starts at a packet boundary. -/
def HeadersAtBoundary (sock : Int) : List Call → Conn → Prop
  | [], _ => True
  | call :: calls, c =>
      let c' := (Prog.run Conn.handle (call.prog sock) c).2
      (c'.sent ≠ c.sent → AtBoundary c.sent) ∧ HeadersAtBoundary sock calls c'

/-- The call has failed with a part of its request sent, and not all of it. -/
def CutShort (sock : Int) (call : Call) (c : Conn) : Prop :=
  let r := Prog.run Conn.handle (call.prog sock) c
  r.1.status.code < 0 ∧
    ∃ bs, call.request sock = some bs ∧ r.2.sent ≠ c.sent ∧ r.2.sent ≠ c.sent ++ bs

/-- After a request that was cut short nothing more is sent. -/
def QuietAfterCut (sock : Int) : List Call → Conn → Prop
  | [], _ => True
  | call :: calls, c =>
      let c' := (Prog.run Conn.handle (call.prog sock) c).2
      (CutShort sock call c → (runCalls sock calls c').2.sent = c'.sent) ∧
        QuietAfterCut sock calls c'

/-- The length of the packet can be told by its header. -/
def Call.packetFits (sock : Int) (call : Call) : Prop :=
  ∀ bs, call.request sock = some bs → bs.length < hdrLen + 2 ^ 31

section Request

variable {sock : Int} {call : Call} {bs : Bytes}

theorem nameRequest_frame {command : Command} {name : Option CStr}
    (h : nameRequest command name = some bs) (hsize : bs.length < hdrLen + 2 ^ 31) :
    ∃ f, packetFormat.Valid f ∧ f.bytes = bs := by
  obtain ⟨s, _, _, rfl⟩ := nameRequest_eq_some h
  have hlen := length_nameParam s
  rw [requestBytes, List.length_append, Phdr.length_bytes, hlen] at hsize
  refine ⟨packet (requestHdr command (4 + lenName s)) (nameParam s), packet_valid ?_, rfl⟩
  rw [requestHdr, CInt.toInt_ofInt, CInt.toInt_eq (by omega) (by omega), hlen]

/-- A whole request is one packet. -/
theorem request_frame (hfit : call.packetFits sock) (hdata : call.HoldsVector)
    (hreq : call.request sock = some bs) : ∃ f, packetFormat.Valid f ∧ f.bytes = bs := by
  have hsize := hfit bs hreq
  cases call with
  | execStr str ptrOutput xt out => exact nameRequest_frame hreq hsize
  | getVec name qtype out =>
      obtain ⟨s, q, rfl, _, hfits, rfl⟩ := getVecRequest_eq_some hreq
      have hname : nameRequest .eval (some s) = some (requestBytes .eval s) := if_pos hfits
      exact nameRequest_frame hname hsize
  | getF8 name dval => exact nameRequest_frame hreq hsize
  | getI4 name dval => exact nameRequest_frame hreq hsize
  | getNamedVecF8 name szKeyBlob szVals vars => exact nameRequest_frame hreq hsize
  | setVec name qtype data n inWidth =>
      obtain ⟨p, hp, rfl⟩ := setVecRequest_eq_some hreq
      obtain ⟨s, d, q, width, henc⟩ := setVecParams_ok hp
      rw [p.bytes_eq, List.length_append, Phdr.length_bytes] at hsize
      have hlen := henc.len_ph (henc.holdsVector hdata) (Nat.lt_of_add_lt_add_left hsize)
      exact ⟨packet p.ph p.payload, packet_valid hlen, rfl⟩
  | rshutdown =>
      obtain rfl := Option.some.inj hreq
      exact ⟨packet ⟨cmdShutdown, 0, 0, 0⟩ [], packet_valid rfl, List.append_nil _⟩

end Request

section Stream

variable {sock : Int} {call : Call} {calls : List Call} {c : Conn}

/-- A call adds to the stream, if anything, the beginning of its request. -/
theorem sent_prefix_run_prog (hsock : 0 ≤ sock) (hdata : call.HoldsVector) (c : Conn) :
    c.sent <+: (Prog.run Conn.handle (call.prog sock) c).2.sent := by
  cases hreq : call.request sock with
  | none =>
      obtain ⟨why, out, hrun⟩ := run_prog_refused hsock c hreq
      rw [hrun]
  | some bs =>
      obtain ⟨sent, _, hsent, _⟩ := sent_run_prog_prefix hsock hdata hreq c
      rw [hsent]
      exact List.prefix_append _ _

theorem sent_prefix_runCalls (hsock : 0 ≤ sock) (hdata : ∀ call ∈ calls, call.HoldsVector)
    (c : Conn) : c.sent <+: (runCalls sock calls c).2.sent := by
  induction calls generalizing c with
  | nil => exact List.prefix_rfl
  | cons call calls ih =>
      have hfirst := sent_prefix_run_prog hsock (hdata call List.mem_cons_self) c
      exact hfirst.trans (ih (fun call' hmem => hdata call' (List.mem_cons_of_mem call hmem)) _)

/-- If nothing is sent by a list of calls then nothing is sent by the first of them. -/
theorem sent_eq_of_runCalls (hsock : 0 ≤ sock) (hdata : ∀ call' ∈ call :: calls, call'.HoldsVector)
    (h : (runCalls sock (call :: calls) c).2.sent = c.sent) :
    (Prog.run Conn.handle (call.prog sock) c).2.sent = c.sent := by
  have hfirst := sent_prefix_run_prog hsock (hdata call List.mem_cons_self) c
  have hrest := sent_prefix_runCalls hsock
    (fun call' hmem => hdata call' (List.mem_cons_of_mem call hmem))
    (Prog.run Conn.handle (call.prog sock) c).2
  change (runCalls sock calls (Prog.run Conn.handle (call.prog sock) c).2).2.sent = c.sent at h
  rw [h] at hrest
  exact (hfirst.eq_of_length_le hrest.length_le).symm

/-- Off a boundary every call that sends breaks the framing. -/
theorem headersAtBoundary_iff_quiet (hsock : 0 ≤ sock)
    (hdata : ∀ call ∈ calls, call.HoldsVector) (hoff : ¬ AtBoundary c.sent) :
    HeadersAtBoundary sock calls c ↔ (runCalls sock calls c).2.sent = c.sent := by
  induction calls generalizing c with
  | nil => exact iff_of_true trivial rfl
  | cons call calls ih =>
      have hrest := fun call' hmem => hdata call' (List.mem_cons_of_mem call hmem)
      constructor
      · rintro ⟨hhead, htail⟩
        have hsame : (Prog.run Conn.handle (call.prog sock) c).2.sent = c.sent := by
          by_contra hsent
          exact hoff (hhead hsent)
        exact ((ih hrest (hsame ▸ hoff)).mp htail).trans hsame
      · intro hquiet
        have hsame := sent_eq_of_runCalls hsock hdata hquiet
        refine ⟨fun hsent => absurd hsame hsent, (ih hrest (hsame ▸ hoff)).mpr ?_⟩
        exact hquiet.trans hsame.symm

theorem quietAfterCut_of_quiet (hsock : 0 ≤ sock) (hdata : ∀ call ∈ calls, call.HoldsVector)
    (h : (runCalls sock calls c).2.sent = c.sent) : QuietAfterCut sock calls c := by
  induction calls generalizing c with
  | nil => trivial
  | cons call calls ih =>
      have hsame := sent_eq_of_runCalls hsock hdata h
      constructor
      · rintro ⟨_, bs, _, hsent, _⟩
        exact absurd hsame hsent
      · exact ih (fun call' hmem => hdata call' (List.mem_cons_of_mem call hmem))
          (h.trans hsame.symm)

/-- What one call does to a stream of whole packets: the stream stays one, or the call is
cut short and it is none any more. -/
theorem atBoundary_run_prog (hsock : 0 ≤ sock) (hfit : call.packetFits sock)
    (hdata : call.HoldsVector) (hat : AtBoundary c.sent) :
    (¬ CutShort sock call c ∧ AtBoundary (Prog.run Conn.handle (call.prog sock) c).2.sent) ∨
      (CutShort sock call c ∧
        ¬ AtBoundary (Prog.run Conn.handle (call.prog sock) c).2.sent) := by
  cases hreq : call.request sock with
  | none =>
      obtain ⟨why, out, hrun⟩ := run_prog_refused hsock c hreq
      refine Or.inl ⟨?_, ?_⟩
      · rintro ⟨_, bs, hbs, _⟩
        rw [hreq] at hbs
        cases hbs
      · rw [hrun]
        exact hat
  | some bs =>
      obtain ⟨f, hvalid, rfl⟩ := request_frame hfit hdata hreq
      obtain ⟨sent, hprefix, hsent, hok⟩ := sent_run_prog_prefix hsock hdata hreq c
      obtain ⟨fs, hfs⟩ := Option.isSome_iff_exists.mp hat
      have hneg : sent ≠ f.bytes →
          (Prog.run Conn.handle (call.prog sock) c).1.status.code < 0 := by
        intro hne
        cases hstatus : (Prog.run Conn.handle (call.prog sock) c).1.status with
        | ok => exact absurd (hok hstatus) hne
        | bad why => exact why.code_neg
      have hiff : CutShort sock call c ↔ sent ≠ [] ∧ sent ≠ f.bytes := by
        simp only [CutShort, hreq, Option.some.injEq, exists_eq_left', hsent, ne_eq,
          List.append_right_eq_self, List.append_cancel_left_eq]
        exact ⟨And.right, fun hcut => ⟨hneg hcut.2, hcut⟩⟩
      rw [hiff, hsent]
      by_cases hnone : sent = []
      · refine Or.inl ⟨fun hcut => hcut.1 hnone, ?_⟩
        rw [hnone, List.append_nil]
        exact hat
      by_cases hwhole : sent = f.bytes
      · refine Or.inl ⟨fun hcut => hcut.2 hwhole, ?_⟩
        rw [hwhole, AtBoundary, Format.parse_append_frame hfs hvalid]
        rfl
      · refine Or.inr ⟨⟨hnone, hwhole⟩, ?_⟩
        rw [AtBoundary, Format.parse_append_cut hfs hvalid hprefix hnone hwhole]
        exact Bool.false_ne_true

/-- The framing holds exactly as long as the caller gives a socket up after a request
that was cut short. -/
theorem headersAtBoundary_iff (hsock : 0 ≤ sock) (hfit : ∀ call ∈ calls, call.packetFits sock)
    (hdata : ∀ call ∈ calls, call.HoldsVector) (hat : AtBoundary c.sent) :
    HeadersAtBoundary sock calls c ↔ QuietAfterCut sock calls c := by
  induction calls generalizing c with
  | nil => exact Iff.rfl
  | cons call calls ih =>
      have hrest := fun call' hmem => hdata call' (List.mem_cons_of_mem call hmem)
      rw [HeadersAtBoundary, QuietAfterCut]
      rcases atBoundary_run_prog hsock (hfit call List.mem_cons_self)
        (hdata call List.mem_cons_self) hat with ⟨hno, hat'⟩ | ⟨hcut, hoff⟩
      · have htail := ih (fun call' hmem => hfit call' (List.mem_cons_of_mem call hmem)) hrest hat'
        simp only [hat, hno, implies_true, false_implies, true_and, htail]
      · have hquiet := headersAtBoundary_iff_quiet hsock hrest hoff
        simp only [hat, hcut, implies_true, true_implies, true_and, hquiet]
        exact ⟨fun h => ⟨h, quietAfterCut_of_quiet hsock hrest h⟩, And.left⟩

end Stream

/-- The header of a first request goes out whole, and five bytes of its parameter. -/
def cutConn : Conn := ⟨[], [.all, .part 5], [], true⟩

theorem headersAtBoundary_iff_cutConn :
    HeadersAtBoundary 3 [evalX, evalX] cutConn ↔ QuietAfterCut 3 [evalX, evalX] cutConn := by
  refine headersAtBoundary_iff (by decide) ?_ ?_ (by decide)
  · intro call hmem bs hreq
    obtain rfl : call = evalX := by simpa using hmem
    obtain rfl := Option.some.inj hreq
    decide
  · intro call hmem
    obtain rfl : call = evalX := by simpa using hmem
    trivial

/-- The next request is sent all the same. Its first seven bytes are taken for the rest of
the parameter. -/
theorem request_inside_request :
    (Prog.run Conn.handle (evalX.prog 3) cutConn).1.status.code < 0 ∧
      (runCalls 3 [evalX, evalX] cutConn).2.sent =
        (requestBytes .voidEval nameX).take 21 ++ requestBytes .voidEval nameX ∧
      (packetFormat.parse ((runCalls 3 [evalX, evalX] cutConn).2.sent.take 28)).isSome = true ∧
      ¬ HeadersAtBoundary 3 [evalX, evalX] cutConn := by
  refine ⟨by decide, by decide, by decide, ?_⟩
  rintro ⟨_, hsecond, _⟩
  exact absurd (hsecond (by decide)) (by decide)

end RserveClient
