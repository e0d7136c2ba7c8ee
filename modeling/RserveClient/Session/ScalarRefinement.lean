import RserveClient.Client.Sends
import RserveClient.Encoding.CanonicalReply

/-!
# Scalars as vectors of one element

`get_F8` and `get_I4` against `get_vec` with the same type, name and stream. The
three copies of the reply parser differ in the last read only, and that read
is complete where every read is.
-/

namespace RserveClient

open Interaction Arrivals

/-- A read that returns all the bytes it asks for; the other calls may end in any way. -/
def FullRead : (op : Syscall) → op.Res → Prop
  | .read _ count, some buf => buf.length = count
  | .read _ _, none => False
  | .send _ _, _ => True
  | .close _, _ => True

instance : (op : Syscall) → (r : op.Res) → Decidable (FullRead op r)
  | .read _ count, some buf => inferInstanceAs (Decidable (buf.length = count))
  | .read _ _, none => isFalse id
  | .send _ _, _ => isTrue trivial
  | .close _, _ => isTrue trivial

/-- Along the run of the program every read returns all the bytes it asks for. -/
def ReadsFull {α : Type} (p : SysProg α) (c : Conn) : Prop := Prog.Along Conn.handle FullRead p c

instance {α : Type} (p : SysProg α) (c : Conn) : Decidable (ReadsFull p c) :=
  inferInstanceAs (Decidable (Prog.Along _ _ _ _))

/-- The scalar getter returns 0 with the value `v` exactly where `get_vec` returns 0 with
one element of these bytes, and then both leave the same connection: the same bytes sent,
and the same bytes taken. -/
def RefinesGetVec (scalar : SysProg (Status × Bytes)) (q : QType) (sock : Int)
    (name : Option CStr) (out : VecOut) (c : Conn) : Prop :=
  let one := Prog.run Conn.handle scalar c
  let vec := Prog.run Conn.handle (getVec sock name (some q.str) out) c
  (∀ v, one.1 = (.ok, v) ↔ vec.1 = (.ok, ⟨some v, 1⟩)) ∧ (one.1.1 = .ok → one.2 = vec.2)

section Getters

variable {sock : Int} {name : Option CStr} {c : Conn} {q : QType}

/-- Reads along the scalar getter are reads along its reply half. -/
theorem Requested.along_getScalarReply {c' : Conn} {R : (op : Syscall) → op.Res → Prop}
    (h : Requested sock name c c') {dval : Bytes}
    (hrun : Prog.Along Conn.handle R (getScalar q sock name dval) c) :
    Proc.Along Conn.handle R (getScalarReply q sock) dval c' := by
  obtain ⟨s, rfl, hfits, hsent⟩ := h.sent
  have hparam := mkDtString_some s
  rw [if_neg (Nat.not_lt.mpr hfits.1)] at hparam
  have hsend := exec_sendName_pieces c sock .eval hfits dval
  rw [sentPieces, hsent, if_pos rfl] at hsend
  have hbody := Proc.Along.of_finish hrun
  rw [getScalarBody, hparam] at hbody
  exact (hbody.rest (Proc.exec_ofExcept_ok _ _ _ _)).rest hsend

/-- Reads after an accepted head are reads along the rest of the reply half. -/
theorem along_afterHead {σ : Type} {xt : Nat} {R : (op : Syscall) → op.Res → Prop}
    {rest : Int → Body σ Unit} {s : σ} (hsock : 0 ≤ sock) (hopen : c.isOpen = true)
    (hhead : headArrives c.inc) (hgood : replyHeadAccepted xt c.inc)
    (hrun : Proc.Along Conn.handle R (recvVecHead sock xt >>= rest) s c) :
    Proc.Along Conn.handle R (rest (xtLen c.inc)) s (c.skip 24) := by
  have hrecv := exec_recvVecHead (s := s) hsock hopen hhead xt
  rw [if_pos hgood] at hrecv
  exact hrun.rest hrecv

/-- The last read of an accepted scalar is answered as all reads are. -/
theorem along_lastRead {R : (op : Syscall) → op.Res → Prop} {dval : Bytes} (hsock : 0 ≤ sock)
    (hopen : c.isOpen = true)
    (hrun : Proc.Along Conn.handle R (getScalarReply q sock) dval c)
    (hacc : scalarAccepted q c.inc) : R (.read sock q.width) ((c.skip 24).read q.width).1 := by
  obtain ⟨hhead, hgood, hone, _⟩ := hacc
  have hcount := scalar_count (q := q) (xtLen_lt c.inc)
  have hcheck : Proc.Along Conn.handle R
      (Proc.exitIf (CInt.toInt (CInt.toSizeT (xtLen c.inc) / q.width : Nat) ≠ 1) .reply >>=
        fun _ => recvScalar q sock) dval (c.skip 24) :=
    along_afterHead hsock hopen hhead hgood hrun
  rw [hcount, hone] at hcheck
  have hpassed : execOn (Proc.exitIf (((1 : Nat) : Int) ≠ 1) .reply : Body Bytes Unit) dval
      (c.skip 24) = ⟨.ok (), dval, c.skip 24⟩ := rfl
  exact (hcheck.rest hpassed).first.of_perform

/-- Where every read is full it meets the whole value. -/
theorem scalarRead_eq_of_full {dval : Bytes} (hsock : 0 ≤ sock) (hopen : c.isOpen = true)
    (hq : q ≠ .SC) (hrun : Proc.Along Conn.handle FullRead (getScalarReply q sock) dval c)
    (hacc : scalarAccepted q c.inc) : scalarRead q c.inc = q.width := by
  have hfull := along_lastRead hsock hopen hrun hacc
  have hread := run_sysRead_front (c := c.skip 24) hopen hacc.2.2.2 sock (QType.width_pos hq)
  rw [run_sysRead] at hread
  rw [hread] at hfull
  have hlen : ((avail (c.skip 24).inc).take
      (min q.width (front (c.skip 24).inc).length)).length = q.width := hfull
  rw [List.length_take] at hlen
  rw [scalarRead]
  change min q.width (front (c.skip 24).inc).length = q.width
  omega

/-- A scalar that is met whole is a vector of one element. -/
theorem vecAccepted_of_scalar (hcount : q.countLen = 0) (hacc : scalarAccepted q c.inc)
    (hfull : scalarRead q c.inc = q.width) :
    vecAccepted q c.inc ∧ q.count (xtLen c.inc) = 1 := by
  obtain ⟨hhead, hgood, hone, _⟩ := hacc
  have hle := length_front_le (skip 24 c.inc)
  have h24 := hhead.le_length
  rw [avail_skip h24, List.length_drop] at hle
  rw [scalarRead] at hfull
  have hn : q.count (xtLen c.inc) = 1 := by rw [QType.count, hcount, Nat.sub_zero, hone]
  refine ⟨⟨hhead, hgood, by omega, ?_⟩, hn⟩
  rw [vecTaken, hn, hcount]
  omega

/-- A vector of one element is a scalar of which some is there. -/
theorem scalarAccepted_of_vec (hcount : q.countLen = 0) (hq : q ≠ .SC)
    (hacc : vecAccepted q c.inc) (hn : q.count (xtLen c.inc) = 1) : scalarAccepted q c.inc := by
  obtain ⟨hhead, hgood, _, hall⟩ := hacc
  have hwidth := QType.width_pos hq
  have hone : xtLen c.inc / q.width = 1 := by
    rwa [QType.count, hcount, Nat.sub_zero] at hn
  rw [vecTaken, hn, hcount] at hall
  refine ⟨hhead, hgood, hone, front_pos ?_⟩
  rw [avail_skip hhead.le_length, List.length_drop]
  omega

end Getters

section Refinement

variable {sock : Int} {name : Option CStr} {c : Conn} {q : QType} {dval : Bytes} {out : VecOut}

/-- A store as long as the memory replaces it. -/
theorem overwrite_whole {mem new : Bytes} (h : mem.length = new.length) :
    overwrite mem new = new := by
  rw [overwrite, ← h, List.drop_length, List.append_nil]

/-- The two reply halves, from the same connection. -/
theorem replies_refine {c' : Conn} (h : Requested sock name c c') (hcount : q.countLen = 0)
    (hq : q ≠ .SC) (htype : getVecType (some q.str) = .ok q) (hdval : dval.length = q.width)
    (hfull : scalarAccepted q c'.inc → scalarRead q c'.inc = q.width) :
    RefinesGetVec (getScalar q sock name dval) q sock name out c := by
  have hone := h.exec_getScalarBody q dval
  have hall := h.exec_getVecBody htype (.start out)
  rw [VecFrame.start_sent] at hall
  by_cases hacc : scalarAccepted q c'.inc
  · obtain ⟨hvec, hn⟩ := vecAccepted_of_scalar hcount hacc (hfull hacc)
    rw [exec_getScalarReply_ok h.sock_nonneg h.isOpen hq hacc, scalarOut, hfull hacc] at hone
    rw [exec_getVecReply_ok h.sock_nonneg h.isOpen hvec, vecData, vecTaken, hn, hcount] at hall
    have hlen : (((avail c'.inc).drop 24).take q.width).length = q.width := by
      have hmet := hfull hacc
      have hle := length_front_le (skip 24 c'.inc)
      rw [avail_skip hacc.1.le_length] at hle
      rw [scalarRead] at hmet
      rw [List.length_take]
      omega
    rw [overwrite_whole (hdval.trans hlen.symm)] at hone
    rw [RefinesGetVec, getScalar, getVec, Proc.run_finish_of_exec hone,
      Proc.run_finish_of_exec hall]
    refine ⟨fun v => ?_, fun _ => ?_⟩
    · simp only [getVecBye, VecFrame.filled, Status.ofExit, Nat.one_mul, Nat.add_zero,
        Prod.mk.injEq, true_and, VecOut.mk.injEq, Option.some.injEq, Nat.cast_one, and_true]
    · rw [Nat.add_zero, Nat.one_mul]
  · obtain ⟨why, v', inc', hbad⟩ := exec_getScalarReply_bad (v := dval) h.sock_nonneg h.isOpen hacc
    rw [hbad] at hone
    rw [RefinesGetVec, getScalar, getVec, Proc.run_finish_of_exec hone,
      Proc.run_finish_of_exec hall]
    refine ⟨fun v => ⟨fun hv => ?_, fun hv => ?_⟩, fun hv => ?_⟩
    · cases hv
    · exfalso
      by_cases hvec : vecAccepted q c'.inc
      · rw [exec_getVecReply_ok h.sock_nonneg h.isOpen hvec] at hv
        simp only [getVecBye, VecFrame.filled, Prod.mk.injEq, true_and, VecOut.mk.injEq] at hv
        exact hacc (scalarAccepted_of_vec hcount hq hvec (by omega))
      · obtain ⟨why', v'', inc'', hbad'⟩ := exec_getVecReply_bad (q := q)
          (v := .start out) h.sock_nonneg h.isOpen hvec
        rw [hbad'] at hv
        cases hv
    · cases hv

theorem getScalar_refines (hcount : q.countLen = 0) (hq : q ≠ .SC)
    (htype : getVecType (some q.str) = .ok q) (hdval : dval.length = q.width)
    (hreads : ReadsFull (getScalar q sock name dval) c) :
    RefinesGetVec (getScalar q sock name dval) q sock name out c := by
  by_cases hreq : ∃ c', Requested sock name c c'
  · obtain ⟨c', h⟩ := hreq
    exact replies_refine h hcount hq htype hdval
      (scalarRead_eq_of_full h.sock_nonneg h.isOpen hq (h.along_getScalarReply hreads))
  · have hnone : ¬ ∃ q' c', getVecType (some q.str) = .ok q' ∧ Requested sock name c c' := by
      rintro ⟨q', c', _, h⟩
      exact hreq ⟨c', h⟩
    obtain ⟨why, v, c', hone⟩ := (exec_getScalarBody_cases sock name c q dval).resolve_left hreq
    obtain ⟨why', v', c'', hall, _⟩ :=
      (exec_getVecBody_cases sock name (some q.str) c (.start out)).resolve_left hnone
    rw [RefinesGetVec, getScalar, getVec, Proc.run_finish_of_exec hone,
      Proc.run_finish_of_exec hall]
    refine ⟨fun v => ⟨fun hv => ?_, fun hv => ?_⟩, fun hv => ?_⟩
    · cases hv
    · cases hv
    · cases hv

/-- Where every read is full, `get_F8` and `get_I4` return a value exactly where `get_vec`
returns it as the only element. -/
theorem scalars_refine_vectors (sock : Int) (name : Option CStr) (out : VecOut) (c : Conn) :
    (∀ dval : Bytes, dval.length = 8 → ReadsFull (getF8 sock name dval) c →
      RefinesGetVec (getF8 sock name dval) .F8 sock name out c) ∧
    (∀ dval : Bytes, dval.length = 4 → ReadsFull (getI4 sock name dval) c →
      RefinesGetVec (getI4 sock name dval) .I4 sock name out c) := by
  constructor
  · intro dval hdval hreads
    exact getScalar_refines rfl (by decide) (by decide) hdval hreads
  · intro dval hdval hreads
    exact getScalar_refines rfl (by decide) (by decide) hdval hreads

end Refinement

/-- The reply `7L`, in one piece. -/
def oneInt : List (Arrival UInt8) := pushBack (vecReply 0 xtArrayInt [7, 0, 0, 0]).bytes []

theorem scalars_refine_vectors_ones :
    RefinesGetVec (getF8 3 (some nameX) (List.replicate 8 0)) .F8 3 (some nameX) ⟨none, 0⟩
        (Conn.fresh oneDouble) ∧
      RefinesGetVec (getI4 3 (some nameX) (List.replicate 4 0)) .I4 3 (some nameX) ⟨none, 0⟩
        (Conn.fresh oneInt) :=
  ⟨(scalars_refine_vectors 3 (some nameX) ⟨none, 0⟩ (Conn.fresh oneDouble)).1
      (List.replicate 8 0) (by decide) (by decide),
    (scalars_refine_vectors 3 (some nameX) ⟨none, 0⟩ (Conn.fresh oneInt)).2
      (List.replicate 4 0) (by decide) (by decide)⟩

end RserveClient
