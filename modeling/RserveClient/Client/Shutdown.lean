import RserveClient.Client.Socket

/-!
# Shutting the server down

`rshutdown` sends a bare header, takes whatever one `read` brings, and closes
the socket.
-/

namespace RserveClient

open Interaction Arrivals

def closeConn {σ : Type} (sock : Int) : Body σ Unit := do
  Proc.exitIf (sock < 0) .argument
  let status ← Proc.lift (sysClose sock)
  Proc.exitIf (status < 0) .close

/-- The reply half of `rshutdown`; an end of file or a failed read leaves the
socket open. -/
def rshutdownReply {σ : Type} (sock : Int) : Body σ Unit := do
  match ← Proc.lift (sysRead sock 32) with
  | none => Proc.exit .fault
  | some outbuf =>
      Proc.exitIf (outbuf.length = 0) .eof
      closeConn sock

def rshutdownBody {σ : Type} (sock : Int) : Body σ Unit := do
  let ph ← Proc.ofExcept (mkHdr .shutdown 0)
  sendBuf sock ph.bytes hdrLen
  rshutdownReply sock

def rshutdown (sock : Int) : SysProg Status :=
  (rshutdownBody sock).finish () fun exit _ => Status.ofExit exit

/-- The one packet `rshutdown` sends. -/
def shutdownRequest : Bytes :=
  (Phdr.mk cmdShutdown 0 0 0).bytes

/-- The socket is closed, the streams are as they were. -/
def Conn.closed (c : Conn) : Conn := { c with isOpen := false }

section

variable {σ : Type} {sock : Int} {c : Conn}

theorem exec_rshutdownBody (sock : Int) (hc : c.Ready) (s : σ) :
    execOn (rshutdownBody sock) s c =
      execOn (rshutdownReply sock) s (c.push shutdownRequest) := by
  have hsend := exec_sendBuf hc sock shutdownRequest s (by
    rw [shutdownRequest, Phdr.length_bytes]
    decide)
  rw [shutdownRequest, Phdr.length_bytes] at hsend
  exact Proc.exec_bind_ok hsend

theorem exec_closeConn (hsock : 0 ≤ sock) (hopen : c.isOpen = true) (s : σ) :
    execOn (closeConn sock) s c = ⟨.ok (), s, c.closed⟩ := by
  have hclose : Prog.run Conn.handle (sysClose sock) c = ((0 : Int), c.closed) := by
    simp [Conn.close, hopen, Conn.closed]
  rw [execOn, closeConn, Proc.exec_exitIf_neg (Int.not_lt.mpr hsock),
    Proc.exec_lift_bind hclose, Proc.exec_exitIf, if_neg (by decide)]

/-- Any byte at all counts as a reply. -/
theorem exec_rshutdownReply (hsock : 0 ≤ sock) (hopen : c.isOpen = true)
    (hfront : 0 < (front c.inc).length) (s : σ) :
    execOn (rshutdownReply sock) s c =
      ⟨.ok (), s, (c.skip (min 32 (front c.inc).length)).closed⟩ := by
  have hle := length_front_le c.inc
  have hlen : ((avail c.inc).take (min 32 (front c.inc).length)).length ≠ 0 := by
    rw [List.length_take]
    omega
  rw [execOn, rshutdownReply,
    Proc.exec_lift_bind (run_sysRead_front hopen hfront sock (by decide))]
  dsimp only
  rw [Proc.exec_exitIf_neg hlen]
  exact exec_closeConn (c := c.skip _) hsock hopen s

theorem exec_rshutdownReply_none (sock : Int) (hopen : c.isOpen = true)
    (hfront : (front c.inc).length = 0) (s : σ) :
    ∃ why inc', execOn (rshutdownReply sock) s c = ⟨.error why, s, c.withInc inc'⟩ ∧
      why.isTransport := by
  rcases run_sysRead_none hopen hfront sock 32 with ⟨inc', hrun⟩ | ⟨inc', hrun⟩
  · refine ⟨.eof, inc', ?_, trivial⟩
    rw [execOn, rshutdownReply, Proc.exec_lift_bind hrun]
    rfl
  · refine ⟨.fault, inc', ?_, trivial⟩
    rw [execOn, rshutdownReply, Proc.exec_lift_bind hrun, Proc.exec_exit]

end

end RserveClient
