import RserveClient.Client.ExecStr
import RserveClient.Client.GetScalar
import RserveClient.Client.GetVec
import RserveClient.Client.NamedVec
import RserveClient.Client.SetVec
import RserveClient.Client.Shutdown

/-!
# Calls on one socket

The seven operations that exchange a request for a reply, as one type, so that
statements about sessions range over any mixture of them.

## Implementation notes

A call carries its arguments and the caller's memory before it. The request
and the reply half of a call are named separately, and running the call is
shown to be sending the one and then running the other.
-/

namespace RserveClient

open Interaction Arrivals

inductive Call where
  | execStr (str : Option CStr) (ptrOutput : Bool) (expectedXt : Int) (out : OutVars)
  | getVec (name qtype : Option CStr) (out : VecOut)
  | getF8 (name : Option CStr) (dval : Bytes)
  | getI4 (name : Option CStr) (dval : Bytes)
  | getNamedVecF8 (name : Option CStr) (szKeyBlob szVals : UInt32) (vars : NamedVars)
  | setVec (name qtype : Option CStr) (data : Option Bytes) (n inWidth : UInt32)
  | rshutdown
  deriving DecidableEq

/-- The caller's memory after a call. -/
inductive Output where
  | buffer (v : OutVars)
  | vec (v : VecOut)
  | scalar (dval : Bytes)
  | named (v : NamedVars)
  | nothing
  deriving DecidableEq, Repr

structure Ret where
  status : Status
  output : Output
  deriving DecidableEq, Repr

namespace Call

def prog (sock : Int) : Call → SysProg Ret
  | execStr str ptrOutput xt out => do
      let r ← RserveClient.execStr sock str ptrOutput xt out
      return ⟨r.1, .buffer r.2⟩
  | getVec name qtype out => do
      let r ← RserveClient.getVec sock name qtype out
      return ⟨r.1, .vec r.2⟩
  | getF8 name dval => do
      let r ← RserveClient.getF8 sock name dval
      return ⟨r.1, .scalar r.2⟩
  | getI4 name dval => do
      let r ← RserveClient.getI4 sock name dval
      return ⟨r.1, .scalar r.2⟩
  | getNamedVecF8 name szKeyBlob szVals vars => do
      let r ← RserveClient.getNamedVecF8 sock name szKeyBlob szVals vars
      return ⟨r.1, .named r.2⟩
  | setVec name qtype data n inWidth => do
      let status ← RserveClient.setVec sock name qtype data n inWidth
      return ⟨status, .nothing⟩
  | rshutdown => do
      let status ← RserveClient.rshutdown sock
      return ⟨status, .nothing⟩

/-- What a call sends, if its arguments pass their checks. -/
def request (sock : Int) : Call → Option Bytes
  | execStr str ptrOutput _ _ => execStrRequest str ptrOutput
  | getVec name qtype _ => getVecRequest name qtype
  | getF8 name _ => nameRequest .eval name
  | getI4 name _ => nameRequest .eval name
  | getNamedVecF8 name _ _ _ => nameRequest .eval name
  | setVec name qtype data n inWidth => setVecRequest sock name qtype data n inWidth
  | rshutdown => some shutdownRequest

/-- The reply half of a call whose request has been sent. -/
def reply (sock : Int) : Call → SysProg Ret
  | execStr _ ptrOutput xt out =>
      (execStrReply sock ptrOutput xt).finish out
        fun exit v => ⟨Status.ofExit exit, .buffer v⟩
  | getVec _ qtype out =>
      match getVecType qtype with
      | .ok q =>
          (getVecReply sock q).finish (.start out)
            fun exit v => ⟨(getVecBye exit v).1, .vec (getVecBye exit v).2⟩
      | .error why => return ⟨.bad why, .vec out⟩
  | getF8 _ dval =>
      (getScalarReply .F8 sock).finish dval fun exit v => ⟨Status.ofExit exit, .scalar v⟩
  | getI4 _ dval =>
      (getScalarReply .I4 sock).finish dval fun exit v => ⟨Status.ofExit exit, .scalar v⟩
  | getNamedVecF8 _ szKeyBlob szVals vars =>
      (getNamedVecReply sock szKeyBlob szVals).finish (vars.cleared szKeyBlob szVals)
        fun exit v => ⟨Status.ofExit exit, .named v⟩
  | setVec _ _ _ _ _ =>
      (setVecReply sock).finish () fun exit _ => ⟨Status.ofExit exit, .nothing⟩
  | rshutdown =>
      (rshutdownReply sock).finish () fun exit _ => ⟨Status.ofExit exit, .nothing⟩

/-- The array at `data` has the `n` elements the caller says it has. -/
def HoldsVector : Call → Prop
  | setVec _ qtype data n inWidth =>
      ∀ d t q width, data = some d → qtype = some t →
        setVecType t inWidth = .ok (q, width) → d.length = n.toNat * width
  | _ => True

end Call

/-- One call after another on the same connection. -/
def runCalls (sock : Int) : List Call → Conn → List Ret × Conn
  | [], c => ([], c)
  | call :: calls, c =>
      let r := Prog.run Conn.handle (call.prog sock) c
      let rest := runCalls sock calls r.2
      (r.1 :: rest.1, rest.2)

section Run

variable {sock : Int} {call : Call} {c : Conn} {bs : Bytes}

theorem Encodes.holdsVector {name qtype : Option CStr} {data : Option Bytes} {n inWidth : UInt32}
    {s : CStr} {d : Bytes} {q : QType} {width : Nat} {p : SetVecParams}
    (h : Encodes sock name qtype data n inWidth s d q width p)
    (hdata : (Call.setVec name qtype data n inWidth).HoldsVector) :
    d.length = n.toNat * width := by
  obtain ⟨t, ht, _, htype⟩ := h.type_eq
  exact hdata d t q width h.data_eq ht htype

/-- An accepted call sends its request whole and then runs its reply half. -/
theorem run_prog (hsock : 0 ≤ sock) (hc : c.Ready) (hdata : call.HoldsVector)
    (hreq : call.request sock = some bs) :
    Prog.run Conn.handle (call.prog sock) c =
      Prog.run Conn.handle (call.reply sock) (c.push bs) := by
  cases call with
  | execStr str ptrOutput xt out =>
      have h := exec_execStrBody hsock hc hreq xt out
      simp only [Call.prog, Call.reply, Prog.run_bind, execStr, Proc.run_finish, Prog.run_pure, h]
  | getVec name qtype out =>
      obtain ⟨s, q, _, hq, _, _⟩ := getVecRequest_eq_some hreq
      have h := exec_getVecBody sock hc hreq hq (.start out)
      simp only [Call.prog, Call.reply, Prog.run_bind, getVec, Proc.run_finish, Prog.run_pure, h,
        hq, VecFrame.start_sent]
  | getF8 name dval =>
      have h := exec_nameRequest sock hc hreq dval (getScalarReply .F8 sock)
      simp only [Call.prog, Call.reply, Prog.run_bind, getF8, getScalar, getScalarBody,
        Proc.run_finish, Prog.run_pure, h]
  | getI4 name dval =>
      have h := exec_nameRequest sock hc hreq dval (getScalarReply .I4 sock)
      simp only [Call.prog, Call.reply, Prog.run_bind, getI4, getScalar, getScalarBody,
        Proc.run_finish, Prog.run_pure, h]
  | getNamedVecF8 name szKeyBlob szVals vars =>
      have h := exec_getNamedVecF8Body sock szKeyBlob szVals hc hreq vars
      simp only [Call.prog, Call.reply, Prog.run_bind, getNamedVecF8, Proc.run_finish,
        Prog.run_pure, h]
  | setVec name qtype data n inWidth =>
      obtain ⟨p, hp, rfl⟩ := setVecRequest_eq_some hreq
      obtain ⟨s, d, q, width, henc⟩ := setVecParams_ok hp
      have h := exec_setVecBody henc (henc.holdsVector hdata) hc ()
      simp only [Call.prog, Call.reply, Prog.run_bind, setVec, Proc.run_finish, Prog.run_pure, h]
  | rshutdown =>
      cases hreq
      have h := exec_rshutdownBody sock hc ()
      simp only [Call.prog, Call.reply, Prog.run_bind, rshutdown, Proc.run_finish, Prog.run_pure,
        h]

/-- A refused call fails and leaves the connection alone. -/
theorem run_prog_refused (hsock : 0 ≤ sock) (c : Conn) (hreq : call.request sock = none) :
    ∃ why out, Prog.run Conn.handle (call.prog sock) c = (⟨.bad why, out⟩, c) := by
  cases call with
  | execStr str ptrOutput xt out =>
      obtain ⟨why, h⟩ := exec_execStrBody_refused (c := c) hsock hreq xt out
      refine ⟨why, .buffer out, ?_⟩
      simp only [Call.prog, Prog.run_bind, execStr, Proc.run_finish, Prog.run_pure, h,
        Status.ofExit]
  | getVec name qtype out =>
      obtain ⟨why, v', h, _⟩ := exec_getVecBody_refused (c := c) sock hreq (.start out)
      refine ⟨why, .vec ⟨none, 0⟩, ?_⟩
      simp only [Call.prog, Prog.run_bind, getVec, Proc.run_finish, Prog.run_pure, h, getVecBye]
  | getF8 name dval =>
      obtain ⟨why, h⟩ := exec_nameRequest_refused (c := c) sock hreq dval
        (getScalarReply .F8 sock)
      refine ⟨why, .scalar dval, ?_⟩
      simp only [Call.prog, Prog.run_bind, getF8, getScalar, getScalarBody, Proc.run_finish,
        Prog.run_pure, h, Status.ofExit]
  | getI4 name dval =>
      obtain ⟨why, h⟩ := exec_nameRequest_refused (c := c) sock hreq dval
        (getScalarReply .I4 sock)
      refine ⟨why, .scalar dval, ?_⟩
      simp only [Call.prog, Prog.run_bind, getI4, getScalar, getScalarBody, Proc.run_finish,
        Prog.run_pure, h, Status.ofExit]
  | getNamedVecF8 name szKeyBlob szVals vars =>
      obtain ⟨why, v', h⟩ := exec_getNamedVecF8Body_refused (c := c) sock szKeyBlob szVals
        hreq vars
      refine ⟨why, .named v', ?_⟩
      simp only [Call.prog, Prog.run_bind, getNamedVecF8, Proc.run_finish, Prog.run_pure, h,
        Status.ofExit]
  | setVec name qtype data n inWidth =>
      obtain ⟨why, h⟩ := exec_setVecBody_refused (c := c) hreq ()
      refine ⟨why, .nothing, ?_⟩
      simp only [Call.prog, Prog.run_bind, setVec, Proc.run_finish, Prog.run_pure, h,
        Status.ofExit]
  | rshutdown => cases hreq

end Run

end RserveClient
