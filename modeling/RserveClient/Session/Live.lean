import RserveClient.Client.Phases
import RserveClient.Client.Sends
import RserveClient.Foundation.Reassembly
import RserveClient.Session.Outbound

/-!
# A connection with its server

So far what arrives was fixed beforehand. Here a server stands at the other end: it collects
what is sent, answers every packet as soon as it is complete, and its answers arrive in
pieces of its own choice. A call cannot tell the difference, since it sends before it reads.

## Implementation notes

The server is any function from a state and a packet to a state and arrivals. Where all of
an answer has been read the list of arrivals is empty, which stands for an end of file; the
sessions below never read there.
-/

namespace RserveClient

open Interaction Arrivals Framing

/-- A server: the state after a packet, and what it makes arrive. -/
abbrev Server (σ : Type) := σ → Bytes → σ × List (Arrival UInt8)

section Live

variable {σ : Type} (server : Server σ)

/-- The server hears the bytes that a `send` has taken. -/
def serverHears : Reaction Syscall Syscall.Res (Bytes × σ) (Arrival UInt8)
  | .send _ buf, r, st =>
      let numSent : Int := r
      packetFormat.feedAll server st (buf.take numSent.toNat)
  | .read _ _, _, st => (st, [])
  | .close _, _, st => (st, [])

/-- More arrives. -/
def Conn.arrive (c : Conn) (more : List (Arrival UInt8)) : Conn := c.withInc (c.inc ++ more)

theorem Conn.send_arrive (c : Conn) (more : List (Arrival UInt8)) (buf : Bytes) :
    (c.arrive more).send buf = ((c.send buf).1, (c.send buf).2.arrive more) := by
  unfold Conn.send Conn.arrive
  cases hopen : c.isOpen with
  | false => simp only [Conn.isOpen_withInc, hopen, Bool.false_eq_true, if_false]
  | true =>
      simp only [Conn.isOpen_withInc, Conn.outc_withInc, hopen, if_true]
      rcases hout : c.outc with _ | ⟨_ | k | _, os⟩ <;> rfl

/-- The number returned tells what has gone out. -/
theorem Conn.sent_send (c : Conn) (buf : Bytes) :
    (c.send buf).2.sent = c.sent ++ buf.take (c.send buf).1.toNat := by
  unfold Conn.send
  cases hopen : c.isOpen with
  | false => exact (List.append_nil _).symm
  | true =>
      rcases hout : c.outc with _ | ⟨_ | k | _, os⟩
      · simp only [if_true, Conn.sent_push, Int.toNat_natCast, List.take_length]
      · simp only [if_true, Conn.sent_push, Int.toNat_natCast, List.take_length]
      · have htake : buf.take (buf.take k).length = buf.take k := by
          rw [List.length_take, ← List.take_eq_take_min]
        simp only [if_true, Conn.sent_push, Int.toNat_natCast, htake]
      · exact (List.append_nil _).symm

/-- Arrivals go to the end of the list, and only sends are heard. -/
def connInlet (sock : Int) :
    Inlet (Syscall.sends sock) (Syscall.hears sock) Conn.handle (serverHears server) where
  extend := Conn.arrive
  extend_nil c := by
    rw [Conn.arrive, List.append_nil]
    rfl
  extend_extend c as bs := by
    simp only [Conn.arrive, Conn.inc_withInc, Conn.withInc_withInc, List.append_assoc]
  before := by
    rintro (⟨s, buf⟩ | ⟨s, count⟩ | s) hop c es
    · exact c.send_arrive es buf
    · exact hop.elim
    · exact hop.elim
  quiet := by
    rintro (⟨s, buf⟩ | ⟨s, count⟩ | s) hop r st
    · exact hop.elim
    · rfl
    · rfl

/-- The connection and the server answer the system calls. -/
def liveHandle (sock : Int) : Handler Syscall Syscall.Res (Conn × (Bytes × σ)) :=
  (connInlet server sock).live

/-- The server hears just the bytes that go out. -/
theorem reaction_eq_feedAll {α : Type} (p : SysProg α) (c : Conn) (st : Bytes × σ) :
    ∃ bs, (p.run Conn.handle c).2.sent = c.sent ++ bs ∧
      p.reaction Conn.handle (serverHears server) c st = packetFormat.feedAll server st bs := by
  induction p generalizing c st with
  | ret a => exact ⟨[], (List.append_nil _).symm, rfl⟩
  | call op next ih =>
      suffices hop : ∃ bs, (Conn.handle op c).2.sent = c.sent ++ bs ∧
          serverHears server op (Conn.handle op c).1 st = packetFormat.feedAll server st bs by
        obtain ⟨bs, hsent, hhears⟩ := hop
        obtain ⟨bs', hsent', hrest⟩ := ih (Conn.handle op c).1 (Conn.handle op c).2
          (packetFormat.feedAll server st bs).1
        refine ⟨bs ++ bs', ?_, ?_⟩
        · rw [Prog.run_call, hsent', hsent, List.append_assoc]
        · rw [Prog.reaction, Format.feedAll_append]
          rw [hhears, hrest]
      cases op with
      | send s buf =>
          change ∃ bs, (c.send buf).2.sent = c.sent ++ bs ∧
            packetFormat.feedAll server st (buf.take (c.send buf).1.toNat) = _
          exact ⟨buf.take (c.send buf).1.toNat, c.sent_send buf, rfl⟩
      | read s count =>
          refine ⟨[], ?_, rfl⟩
          rw [List.append_nil]
          change (c.read count).2.sent = c.sent
          unfold Conn.read
          split <;> rfl
      | close s =>
          refine ⟨[], ?_, rfl⟩
          rw [List.append_nil]
          change c.close.2.sent = c.sent
          unfold Conn.close
          split <;> rfl

section Atomic

variable (past : Nat → UInt8) (sock : Int)

/-- A whole exchange at once: all that the call is going to send goes out, the server hears it
and answers, and then the call runs with the answers there. -/
def exchange (call : ApiCall) (v : Conn × (Bytes × σ)) : ApiRet × (Conn × (Bytes × σ)) :=
  let out := ((call.prog past sock).run Conn.handle v.1).2.sent.drop v.1.sent.length
  let heard := packetFormat.feedAll server v.2 out
  let r := (call.prog past sock).run Conn.handle (v.1.arrive heard.2)
  (r.1, r.2, heard.1)

def exchanges : List ApiCall → Conn × (Bytes × σ) → List ApiRet × (Conn × (Bytes × σ))
  | [], v => ([], v)
  | call :: calls, v =>
      let r := exchange server past sock call v
      let rest := exchanges calls r.2
      (r.1 :: rest.1, rest.2)

theorem run_live_prog {α : Type} {p : SysProg α}
    (hp : p.Phases (Syscall.sends sock) (Syscall.hears sock)) (v : Conn × (Bytes × σ)) :
    ∃ bs, (p.run Conn.handle v.1).2.sent = v.1.sent ++ bs ∧
      p.run (liveHandle server sock) v =
        let heard := packetFormat.feedAll server v.2 bs
        let r := p.run Conn.handle (v.1.arrive heard.2)
        (r.1, r.2, heard.1) := by
  obtain ⟨bs, hsent, hhears⟩ := reaction_eq_feedAll server p v.1 v.2
  refine ⟨bs, hsent, ?_⟩
  have hlive := (connInlet server sock).run_live hp v.1 v.2
  rw [hhears] at hlive
  exact hlive

theorem run_live_call (call : ApiCall) (v : Conn × (Bytes × σ)) :
    (call.prog past sock).run (liveHandle server sock) v = exchange server past sock call v := by
  obtain ⟨bs, hsent, hlive⟩ := run_live_prog server sock (call.phases_prog past sock) v
  rw [hlive, exchange, hsent, List.drop_left]

/-- A session with a server that hears every send as it is made is a sequence of exchanges
that happen in one step each: for every server, every way in which sends are cut, and every
mixture of calls. -/
theorem session_atomic (calls : List ApiCall) (v : Conn × (Bytes × σ)) :
    (session past sock calls).run (liveHandle server sock) v =
      exchanges server past sock calls v := by
  induction calls generalizing v with
  | nil => rfl
  | cons call calls ih =>
      rw [run_session_cons, run_live_call]
      dsimp only
      rw [ih, exchanges]

end Atomic

end Live

end RserveClient
