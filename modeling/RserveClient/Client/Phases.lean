import RserveClient.Client.Api
import RserveClient.Client.Connect
import RserveClient.Foundation.Phases

/-!
# The system calls of a function

Every function sends on its socket first and from then on only reads from it; `rshutdown`
closes it after the read. No function touches another descriptor.

## Implementation notes

The two kinds of calls are parameters of the lemmas, so that each body is gone through once.
-/

namespace RserveClient

open Interaction

namespace Syscall

/-- A `send` on the socket. -/
def sends (sock : Int) : Syscall → Prop
  | .send s _ => s = sock
  | _ => False

def reads (sock : Int) : Syscall → Prop
  | .read s _ => s = sock
  | _ => False

/-- A `read` from the socket, or a `close` of it. -/
def hears (sock : Int) : Syscall → Prop
  | .send _ _ => False
  | .read s _ => s = sock
  | .close s => s = sock

end Syscall

-- a body is not to be evaluated where only its system calls matter
attribute [local irreducible] Proc.Only

section Bodies

variable {P Q : Syscall → Prop} {sock : Int} {σ : Type}

section Reads

variable (hread : ∀ count, Q (.read sock count))
include hread

omit hread in
theorem only_cBye (status : Status) : Proc.Only Q (cBye (σ := σ) status) := by
  cases status with
  | ok => exact Proc.only_pure _
  | bad why => exact Proc.only_exit why

theorem only_recvBuf (buflen : Int) : Proc.Only Q (recvBuf (σ := σ) sock buflen) :=
  (Proc.only_lift (only_getBufFromSock hread false buflen)).bind fun r =>
    (only_cBye r.status).bind fun _ => Proc.only_pure _

theorem only_recvInto (buflen : Int) (store : Bytes → σ → σ) :
    Proc.Only Q (recvInto sock buflen store) :=
  (Proc.only_lift (only_getBufFromSock hread false buflen)).bind fun r =>
    (Proc.only_update _).bind fun _ => only_cBye r.status

theorem only_readHdr : Proc.Only Q (readHdr (σ := σ) sock) :=
  (only_recvBuf hread hdrLen).bind fun _ => Proc.only_pure _

theorem only_readOnce (count : Nat) : Proc.Only Q (readOnce (σ := σ) sock count) := by
  refine Proc.Only.bind (Proc.only_perform (hread count)) ?_
  rintro (_ | buf)
  · exact Proc.only_exit _
  · exact Proc.only_exitIf_bind <| Proc.only_exitIf_bind <|
      Proc.only_pure _

theorem only_recvVecHead (xt : Nat) : Proc.Only Q (recvVecHead (σ := σ) sock xt) :=
  (only_readHdr hread).bind fun _ => (only_readOnce hread 8).bind fun _ =>
    Proc.only_exitIf_bind <| Proc.only_exitIf_bind <|
      Proc.only_exitIf_bind <| Proc.only_pure _

theorem only_execStrReply (ptrOutput : Bool) (xt : Int) :
    Proc.Only Q (execStrReply sock ptrOutput xt) := by
  refine (only_readHdr hread).bind fun ph => ?_
  cases ptrOutput with
  | false => exact Proc.only_pure _
  | true =>
      exact (Proc.only_update _).bind fun _ => Proc.only_exitIf_bind <|
        Proc.only_exitIf_bind <| (only_recvBuf hread 8).bind fun _ =>
        Proc.only_exitIf_bind <| Proc.only_exitIf_bind <|
        (only_recvBuf hread _).bind fun _ => Proc.only_update _

theorem only_recvElements (q : QType) (left : Int) : Proc.Only Q (recvElements sock q left) :=
  (Proc.only_update _).bind fun _ => Proc.only_exitIf_bind <|
    (only_recvBuf hread _).bind fun _ => Proc.only_update _

theorem only_recvCountWord (q : QType) (left : Int) :
    Proc.Only Q (recvCountWord (σ := σ) sock q left) := by
  rw [recvCountWord]
  split
  · exact (only_recvBuf hread 4).bind fun _ => Proc.only_pure _
  · exact Proc.only_pure _

theorem only_getVecReply (q : QType) : Proc.Only Q (getVecReply sock q) :=
  (only_recvVecHead hread q.xt).bind fun left => (only_recvCountWord hread q left).bind fun left =>
    only_recvElements hread q left

theorem only_getScalarReply (q : QType) : Proc.Only Q (getScalarReply q sock) := by
  refine (only_recvVecHead hread q.xt).bind fun left => Proc.only_exitIf_bind ?_
  refine Proc.Only.bind (Proc.only_perform (hread q.width)) ?_
  rintro (_ | buf)
  · exact Proc.only_exit _
  · exact (Proc.only_update _).bind fun _ => Proc.only_exitIf _ _

theorem only_getNamedVecReply (szKeyBlob szVals : UInt32) :
    Proc.Only Q (getNamedVecReply sock szKeyBlob szVals) :=
  (only_recvBuf hread hdrLen).bind fun _ => Proc.only_exitIf_bind <|
    (only_recvBuf hread hdrLen).bind fun _ => Proc.Only.bind
      (Proc.only_exitIf_bind <| Proc.only_exitIf_bind <|
        Proc.only_exitIf_bind <| Proc.only_exitIf_bind <|
        Proc.only_exitIf _ _)
      fun _ => (only_recvInto hread _ _).bind fun _ => (Proc.only_view _).bind fun _ =>
        (only_recvBuf hread 12).bind fun _ => Proc.only_exitIf_bind <|
        (only_recvInto hread _ _).bind fun _ => Proc.only_update _

theorem only_setVecReply : Proc.Only Q (setVecReply (σ := σ) sock) :=
  (only_readHdr hread).bind fun _ => Proc.only_exitIf _ _

omit hread in
theorem only_closeConn (hclose : Q (.close sock)) : Proc.Only Q (closeConn (σ := σ) sock) :=
  Proc.only_exitIf_bind <| Proc.Only.bind (Proc.only_perform hclose) fun _ =>
    Proc.only_exitIf _ _

theorem only_rshutdownReply (hclose : Q (.close sock)) :
    Proc.Only Q (rshutdownReply (σ := σ) sock) := by
  refine Proc.Only.bind (Proc.only_perform (hread 32)) ?_
  rintro (_ | outbuf)
  · exact Proc.only_exit _
  · exact Proc.only_exitIf_bind (only_closeConn hclose)

end Reads

section Sends

variable (hsend : ∀ buf, P (.send sock buf))
include hsend

theorem only_sendBuf (buf : Bytes) (expected : Nat) :
    Proc.Only P (sendBuf (σ := σ) sock buf expected) :=
  Proc.Only.bind (Proc.only_perform (hsend buf)) fun _ => Proc.only_exitIf _ _

theorem only_sendRequest (command : Command) (param1 : Bytes) :
    Proc.Only P (sendRequest (σ := σ) sock command param1) :=
  (Proc.only_ofExcept _).bind fun ph => (only_sendBuf hsend ph.bytes hdrLen).bind fun _ =>
    only_sendBuf hsend param1 param1.length

theorem only_sendParams (p : SetVecParams) : Proc.Only P (sendParams (σ := σ) sock p) :=
  (only_sendBuf hsend p.ph.bytes hdrLen).bind fun _ =>
    (only_sendBuf hsend p.param1 p.param1.length).bind fun _ =>
      Proc.Only.bind (Proc.only_perform (hsend p.hdrParam2)) fun _ =>
        Proc.only_exitIf_bind <| only_sendBuf hsend _ _

end Sends

variable (hsend : ∀ buf, P (.send sock buf)) (hread : ∀ count, Q (.read sock count))
include hsend hread

theorem phases_execStr (str : Option CStr) (ptrOutput : Bool) (xt : Int) (out : OutVars) :
    (execStr sock str ptrOutput xt out).Phases P Q := by
  apply Proc.Phases.finish
  refine (Proc.only_exitIf _ _).bindPhases fun _ => (Proc.only_exitIf _ _).bindPhases fun _ =>
    (Proc.only_ofExcept _).bindPhases fun param1 => ?_
  exact (only_sendRequest hsend _ param1).bindPhases fun _ =>
    (only_execStrReply hread ptrOutput xt).phases

theorem phases_getVec (name qtype : Option CStr) (out : VecOut) :
    (getVec sock name qtype out).Phases P Q := by
  apply Proc.Phases.finish
  refine (Proc.only_ofExcept _).bindPhases fun param1 => (Proc.only_update _).bindPhases fun _ =>
    (Proc.only_exitIf _ _).bindPhases fun _ => (Proc.only_ofExcept _).bindPhases fun q => ?_
  exact (only_sendRequest hsend _ param1).bindPhases fun _ =>
    (Proc.only_update _).bindPhases fun _ => (only_getVecReply hread q).phases

theorem phases_getScalar (q : QType) (name : Option CStr) (dval : Bytes) :
    (getScalar q sock name dval).Phases P Q := by
  apply Proc.Phases.finish
  refine (Proc.only_ofExcept _).bindPhases fun param1 => ?_
  exact (only_sendRequest hsend _ param1).bindPhases fun _ => (only_getScalarReply hread q).phases

theorem phases_getNamedVecF8 (name : Option CStr) (szKeyBlob szVals : UInt32) (v : NamedVars) :
    (getNamedVecF8 sock name szKeyBlob szVals v).Phases P Q := by
  apply Proc.Phases.finish
  refine (Proc.only_ofExcept _).bindPhases fun param1 => (Proc.only_update _).bindPhases fun _ => ?_
  exact (only_sendRequest hsend _ param1).bindPhases fun _ =>
    (only_getNamedVecReply hread szKeyBlob szVals).phases

theorem phases_setVec (name qtype : Option CStr) (data : Option Bytes) (n inWidth : UInt32) :
    (setVec sock name qtype data n inWidth).Phases P Q := by
  apply Proc.Phases.finish
  refine (Proc.only_ofExcept _).bindPhases fun p => ?_
  exact (only_sendParams hsend p).bindPhases fun _ => (only_setVecReply hread).phases

theorem phases_rshutdown (hclose : Q (.close sock)) : (rshutdown sock).Phases P Q := by
  apply Proc.Phases.finish
  refine (Proc.only_ofExcept _).bindPhases fun ph => ?_
  exact (only_sendBuf hsend ph.bytes hdrLen).bindPhases fun _ =>
    (only_rshutdownReply hread hclose).phases

end Bodies

/-- A call sends first and then listens. -/
theorem Call.phases_prog (sock : Int) (call : Call) :
    (call.prog sock).Phases (Syscall.sends sock) (Syscall.hears sock) := by
  have hsend : ∀ buf, Syscall.sends sock (.send sock buf) := fun _ => rfl
  have hread : ∀ count, Syscall.hears sock (.read sock count) := fun _ => rfl
  cases call with
  | execStr str ptrOutput xt out =>
      exact (phases_execStr hsend hread str ptrOutput xt out).bind fun _ => trivial
  | getVec name qtype out =>
      exact (phases_getVec hsend hread name qtype out).bind fun _ => trivial
  | getF8 name dval => exact (phases_getScalar hsend hread .F8 name dval).bind fun _ => trivial
  | getI4 name dval => exact (phases_getScalar hsend hread .I4 name dval).bind fun _ => trivial
  | getNamedVecF8 name szKeyBlob szVals vars =>
      exact (phases_getNamedVecF8 hsend hread name szKeyBlob szVals vars).bind fun _ => trivial
  | setVec name qtype data n inWidth =>
      exact (phases_setVec hsend hread name qtype data n inWidth).bind fun _ => trivial
  | rshutdown => exact (phases_rshutdown hsend hread rfl).bind fun _ => trivial

/-- A function above `exec_str` never closes the socket. -/
theorem Asking.phases_prog (past : Nat → UInt8) (sock : Int) (f : Asking) :
    (f.prog past sock).Phases (Syscall.sends sock) (Syscall.reads sock) := by
  have hsend : ∀ buf, Syscall.sends sock (.send sock buf) := fun _ => rfl
  have hread : ∀ count, Syscall.reads sock (.read sock count) := fun _ => rfl
  rw [f.prog_eq]
  unfold evaluation
  cases f.cmd sock with
  | error why => trivial
  | ok rcmd =>
      exact (phases_execStr hsend hread (some rcmd) true f.xt ⟨none, 0⟩).bind fun _ => trivial

theorem Syscall.hears_of_reads {sock : Int} (call : Syscall) (h : call.reads sock) :
    call.hears sock := by
  cases call with
  | send s buf => exact h
  | read s count => exact h
  | close s => exact h.elim

theorem ApiCall.phases_prog (past : Nat → UInt8) (sock : Int) (call : ApiCall) :
    (call.prog past sock).Phases (Syscall.sends sock) (Syscall.hears sock) := by
  cases call with
  | exchange call => exact (call.phases_prog sock).bind fun _ => trivial
  | ask f =>
      exact ((f.phases_prog past sock).mono Syscall.hears_of_reads).bind fun _ => trivial

/-- A call on a socket makes no system call on another descriptor. -/
theorem ApiCall.only_prog (past : Nat → UInt8) (sock : Int) (call : ApiCall) :
    (call.prog past sock).Only fun c => c.sock = sock := by
  apply (call.phases_prog past sock).only
  · intro c hc
    cases c with
    | send s buf => exact hc
    | read s count => exact hc.elim
    | close s => exact hc.elim
  · intro c hc
    cases c with
    | send s buf => exact hc.elim
    | read s count => exact hc
    | close s => exact hc

theorem only_session (past : Nat → UInt8) (sock : Int) (calls : List ApiCall) :
    (session past sock calls).Only fun c => c.sock = sock := by
  induction calls with
  | nil => trivial
  | cons call calls ih => exact (call.only_prog past sock).bind fun _ => ih.bind fun _ => trivial

end RserveClient
