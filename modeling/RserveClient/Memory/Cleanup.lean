import RserveClient.Client.Sends
import RserveClient.Encoding.CanonicalReply

/-!
# The cleanup of `get_vec`

What the code at `BYE` does on a failure: the variables it looks at, and the
buffers it releases. `data` is declared below most of the jumps to that label.
-/

namespace RserveClient

open Interaction Arrivals

/-- `free_if_non_null` on a variable that holds buffer `b`. It is undefined on a variable
that was never assigned, and so is releasing a buffer that is not allocated. -/
def freeIfNonNull (x : Local) (b : Buffer) (live : List Buffer) : Option (List Buffer) :=
  match x with
  | .unassigned => none
  | .null => some live
  | .block => if b ∈ live then some (live.erase b) else none

/-- The releases at `BYE`: `data` after a failure only, `param1` always. What is left are the
buffers still allocated. -/
def vecCleanup (exit : Except Why Unit) (v : VecFrame) : Option (List Buffer) :=
  match exit with
  | .ok _ => freeIfNonNull v.param1 .param1 v.live
  | .error _ => do
      let live ← freeIfNonNull v.data .data v.live
      freeIfNonNull v.param1 .param1 live

/-- A failure clears the outputs, looks at no variable that was not assigned, and releases
all that was allocated. -/
def CleanFailure (sock : Int) (name qtype : Option CStr) (out : VecOut) (c : Conn) : Prop :=
  let r := execOn (getVecBody sock name qtype) (.start out) c
  (getVecBye r.exit r.vars).1.code < 0 →
    (getVecBye r.exit r.vars).2 = ⟨none, 0⟩ ∧ vecCleanup r.exit r.vars = some []

/-- The reply gets as far as the declaration of `data`: an accepted head, and the count
word of logicals. -/
def dataDeclared (q : QType) (inc : List (Arrival UInt8)) : Prop :=
  headArrives inc ∧ replyHeadAccepted q.xt inc ∧ 24 + q.countLen ≤ (avail inc).length

instance (q : QType) (inc : List (Arrival UInt8)) : Decidable (dataDeclared q inc) :=
  inferInstanceAs (Decidable (_ ∧ _ ∧ _))

/-- The call gets that far: its arguments pass, and its request goes out whole. -/
def ReachesData (sock : Int) (name qtype : Option CStr) (c : Conn) : Prop :=
  ∃ q c', getVecType qtype = .ok q ∧ Requested sock name c c' ∧ dataDeclared q c.inc

section Exits

variable {v : VecFrame} {why : Why} {out : VecOut}

/-- Before the declaration of `data` the cleanup is undefined. -/
theorem vecCleanup_unassigned (h : v.data = .unassigned) : vecCleanup (.error why) v = none := by
  rw [vecCleanup, h]
  rfl

/-- After a failed `malloc` there is nothing to release. -/
theorem vecCleanup_dataNull : vecCleanup (.error why) (VecFrame.start out).dataNull = some [] :=
  rfl

/-- After one that succeeded the buffer is released. -/
theorem vecCleanup_allocData : vecCleanup (.error why) (VecFrame.start out).allocData = some [] :=
  rfl

end Exits

section GetVec

variable {sock : Int} {name qtype : Option CStr} {c c' : Conn} {q : QType} {out : VecOut}

/-- The release of `param1` between the sends and the reply finds it allocated. -/
theorem freeParam1_defined (v : VecFrame) :
    freeIfNonNull v.allocParam1.param1 .param1 v.allocParam1.live =
      some v.allocParam1.freeParam1.live := by
  change (if Buffer.param1 ∈ .param1 :: v.live then _ else none) = _
  rw [if_pos List.mem_cons_self]
  rfl

/-- A reply that gets to the declaration ends with `data` assigned. -/
theorem cleanup_of_declared (out : VecOut) (hsock : 0 ≤ sock) (hopen : c.isOpen = true)
    (h : dataDeclared q c.inc) :
    ∀ why v c', execOn (getVecReply sock q) (.start out) c = ⟨.error why, v, c'⟩ →
      vecCleanup (.error why) v = some [] := by
  obtain ⟨hhead, hgood, hcount⟩ := h
  intro why v c' hexec
  rw [exec_getVecReply hsock hopen hhead, if_neg (not_not_intro hgood),
    if_neg (Nat.not_lt.mpr hcount)] at hexec
  split_ifs at hexec with hword hall
  · cases hexec
    exact vecCleanup_dataNull
  · cases hexec
    exact vecCleanup_allocData
  · cases hexec

/-- One that does not fails with `data` unassigned. -/
theorem unassigned_of_undeclared (out : VecOut) (hsock : 0 ≤ sock) (hopen : c.isOpen = true)
    (h : ¬ dataDeclared q c.inc) :
    ∃ why v c', execOn (getVecReply sock q) (.start out) c = ⟨.error why, v, c'⟩ ∧
      v.data = .unassigned := by
  by_cases hhead : headArrives c.inc
  · rw [exec_getVecReply hsock hopen hhead]
    by_cases hgood : replyHeadAccepted q.xt c.inc
    · have hcount : (avail c.inc).length < 24 + q.countLen :=
        Nat.lt_of_not_le fun hle => h ⟨hhead, hgood, hle⟩
      rw [if_neg (not_not_intro hgood), if_pos hcount]
      exact ⟨_, _, _, rfl, rfl⟩
    · rw [if_pos hgood]
      exact ⟨_, _, _, rfl, rfl⟩
  · obtain ⟨why, inc', hexec, _⟩ := exec_getVecReply_transport (v := .start out) (q := q) hsock
      hopen hhead
    exact ⟨why, _, _, hexec, rfl⟩

theorem not_cleanFailure {why : Why} {v : VecFrame}
    (hexec : execOn (getVecBody sock name qtype) (.start out) c = ⟨.error why, v, c'⟩)
    (hdata : v.data = .unassigned) : ¬ CleanFailure sock name qtype out c := by
  intro hclean
  rw [CleanFailure, hexec] at hclean
  have hcleanup := (hclean why.code_neg).2
  rw [vecCleanup_unassigned hdata] at hcleanup
  cases hcleanup

end GetVec

/-- The cleanup after a failure is well defined, and then complete, exactly where the call
gets as far as the declaration of `data`. -/
theorem failure_is_clean_iff (sock : Int) (name qtype : Option CStr) (out : VecOut) (c : Conn) :
    CleanFailure sock name qtype out c ↔ ReachesData sock name qtype c := by
  constructor
  · intro hclean
    rcases exec_getVecBody_cases sock name qtype c (.start out) with
      ⟨q, c', hq, h⟩ | ⟨why, v, c', hexec, hdata⟩
    · refine ⟨q, c', hq, h, ?_⟩
      by_contra hundeclared
      obtain ⟨hopen, hinc⟩ := h.isOpen_inc
      rw [← hinc] at hundeclared
      obtain ⟨why, v, c'', hexec, hdata⟩ :=
        unassigned_of_undeclared out h.sock_nonneg hopen hundeclared
      have hbody := h.exec_getVecBody hq (.start out)
      rw [VecFrame.start_sent, hexec] at hbody
      exact not_cleanFailure hbody hdata hclean
    · exact absurd hclean (not_cleanFailure hexec hdata)
  · rintro ⟨q, c', hq, h, hdecl⟩
    obtain ⟨hopen, hinc⟩ := h.isOpen_inc
    rw [← hinc] at hdecl
    have hbody := h.exec_getVecBody hq (.start out)
    rw [VecFrame.start_sent] at hbody
    have hcleanup := cleanup_of_declared out h.sock_nonneg hopen hdecl
    rw [CleanFailure, hbody]
    rcases hexec : execOn (getVecReply sock q) (.start out) c' with ⟨exit, v, c''⟩
    cases exit with
    | ok u =>
        intro hneg
        exact absurd hneg (Int.lt_irrefl 0)
    | error why =>
        intro _
        exact ⟨rfl, hcleanup why v c'' hexec⟩

/-- A reply of the wrong type: an integer vector where doubles are asked for. -/
theorem wrong_type_not_clean :
    (Prog.run Conn.handle (getVec 3 (some nameX) (some QType.F8.str) ⟨none, 0⟩)
        (Conn.fresh (pushBack (vecReply 0 xtArrayInt [7, 0, 0, 0]).bytes []))).1.1.code = -1 ∧
      (execOn (getVecBody 3 (some nameX) (some QType.F8.str)) (.start ⟨none, 0⟩)
        (Conn.fresh (pushBack (vecReply 0 xtArrayInt [7, 0, 0, 0]).bytes []))).vars.data =
          .unassigned ∧
      ¬ CleanFailure 3 (some nameX) (some QType.F8.str) ⟨none, 0⟩
        (Conn.fresh (pushBack (vecReply 0 xtArrayInt [7, 0, 0, 0]).bytes [])) := by
  refine ⟨by decide, by decide, ?_⟩
  intro hclean
  exact absurd (hclean (by decide)).2 (by decide)

end RserveClient
