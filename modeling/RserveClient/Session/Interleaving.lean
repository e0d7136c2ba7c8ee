import RserveClient.Foundation.Transition
import RserveClient.Session.Draining

/-!
# Calls, replies and timeouts in any order

One socket as a transition system: the client issues calls one after another,
the server answers requests in the order they came, at any later time, and any
read may time out. Unread bytes are tagged with the request they answer, so
that a call can be seen to return a reply that is not its own.

## Implementation notes

A running call is the rest of its program. The client keeps nothing else
between calls: no state about requests that are still to be answered.
-/

namespace RserveClient

open Interaction Arrivals Transition

/-- The sends a program makes before its next read, and the program from there on. -/
def flush {α : Type} : SysProg α → Bytes × SysProg α
  | .ret a => ([], .ret a)
  | .call (.send _ buf) next =>
      let r := flush (next (buf.length : Int))
      (buf ++ r.1, r.2)
  | .call (.read sock count) next => ([], .call (.read sock count) next)
  | .call (.close sock) next => ([], .call (.close sock) next)

/-- A call in progress: what is left of its program, what its reads have met, and
the bytes they brought with the requests these answer. -/
structure Running where
  id : Nat
  call : Call
  prog : SysProg Ret
  heard : List (Arrival UInt8)
  got : List (Nat × UInt8)

structure Finished where
  id : Nat
  call : Call
  ret : Ret
  got : List (Nat × UInt8)
  deriving DecidableEq

/-- The socket with both its ends: requests not yet answered, bytes not yet read,
the running call, and what happened so far. -/
structure Sys where
  waiting : List Nat
  stream : List (Nat × UInt8)
  running : Option Running
  finished : List Finished
  answered : List (Nat × Phdr × Bytes)
  next : Nat

inductive Label where
  | issue (call : Call)
  | answer (h : Phdr) (payload : Bytes)
  | recv (m : Nat)
  | timeout
  | finish

namespace Sys

def init : Sys := ⟨[], [], none, [], [], 0⟩

/-- Issue a call when none is running; a refused one makes no request. -/
def issue (sock : Int) (call : Call) (s : Sys) : Option Sys :=
  match s.running with
  | some _ => none
  | none =>
      let r := flush (call.prog sock)
      some { s with
        waiting := if r.1 = [] then s.waiting else s.waiting ++ [s.next]
        running := some ⟨s.next, call, r.2, [], []⟩
        next := s.next + 1 }

/-- The server answers the oldest request with one packet. -/
def answer (h : Phdr) (payload : Bytes) (s : Sys) : Option Sys :=
  match s.waiting with
  | [] => none
  | id :: waiting =>
      if h.len.toInt = payload.length then
        some { s with
          waiting := waiting
          stream := s.stream ++ (packet h payload).bytes.map fun b => (id, b)
          answered := s.answered ++ [(id, h, payload)] }
      else none

/-- The running call's read returns the next `m` bytes. -/
def recv (m : Nat) (s : Sys) : Option Sys :=
  match s.running with
  | some ⟨id, call, .call (.read _ count) next, heard, got⟩ =>
      if 0 < m ∧ m ≤ count ∧ m ≤ s.stream.length then
        let bs := (s.stream.take m).map Prod.snd
        some { s with
          stream := s.stream.drop m
          running := some ⟨id, call, next (some bs), heard ++ pushBack bs [],
            got ++ s.stream.take m⟩ }
      else none
  | _ => none

/-- The running call's read fails. -/
def timeout (s : Sys) : Option Sys :=
  match s.running with
  | some ⟨id, call, .call (.read _ _) next, heard, got⟩ =>
      some { s with running := some ⟨id, call, next none, heard ++ [.fault], got⟩ }
  | _ => none

def finish (s : Sys) : Option Sys :=
  match s.running with
  | some ⟨id, call, .ret ret, _, got⟩ =>
      some { s with running := none, finished := s.finished ++ [⟨id, call, ret, got⟩] }
  | _ => none

def step (sock : Int) (s : Sys) : Label → Option Sys
  | .issue call => s.issue sock call
  | .answer h payload => s.answer h payload
  | .recv m => s.recv m
  | .timeout => s.timeout
  | .finish => s.finish

end Sys

/-- A finished call that returned 0 took bytes of its own reply only, and returned
what it returns when that reply is all there is to read. -/
def Finished.Own (sock : Int) (answered : List (Nat × Phdr × Bytes)) (f : Finished) : Prop :=
  f.ret.status.code = 0 →
    (∀ b ∈ f.got, b.1 = f.id) ∧
    ∃ h payload inc, (f.id, h, payload) ∈ answered ∧ Clean inc ∧
      elems inc = (packet h payload).bytes ∧
      (Prog.run Conn.handle (f.call.prog sock) (Conn.fresh inc)).1 = f.ret

/-- Sending first changes nothing else. -/
theorem run_flush {α : Type} (p : SysProg α) {c : Conn} (hc : c.Ready) :
    Prog.run Conn.handle p c = Prog.run Conn.handle (flush p).2 (c.push (flush p).1) := by
  induction p generalizing c with
  | ret a =>
      have hpush : c.push [] = c := by simp [Conn.push]
      rw [flush, hpush]
  | call op next ih =>
      have hpush : c.push [] = c := by simp [Conn.push]
      cases op with
      | send sock buf =>
          have hsend : Conn.handle (.send sock buf) c = ((buf.length : Int), c.push buf) :=
            Conn.send_ready hc buf
          rw [Prog.run_call, hsend, ih (buf.length : Int) (hc.push buf), flush, Conn.push_push]
      | read sock count => rw [flush, hpush]
      | close sock => rw [flush, hpush]

theorem run_read {α : Type} (sock : Int) (count : Nat) (next : Option Bytes → SysProg α)
    (c : Conn) : Prog.run Conn.handle (.call (.read sock count) next) c =
      Prog.run Conn.handle (next (c.read count).1) (c.read count).2 := rfl

theorem read_pushBack {bs : Bytes} {count : Nat} (hpos : 0 < bs.length)
    (hle : bs.length ≤ count) (rest : List (Arrival UInt8)) :
    Arrivals.read count (pushBack bs [] ++ rest) = (some bs, rest) := by
  cases bs with
  | nil => simp at hpos
  | cons b bs =>
      have htake : (b :: bs).take count = b :: bs := List.take_of_length_le hle
      have hdrop : (b :: bs).drop count = [] := List.drop_eq_nil_of_le hle
      simp only [pushBack, List.cons_append, List.nil_append, Arrivals.read, htake, hdrop]

/-- What is left of a call's program does on any further stream what the whole
program does on the stream it has heard and then that one. -/
def Resumes (sock : Int) (call : Call) (heard : List (Arrival UInt8)) (prog : SysProg Ret) :
    Prop :=
  ∃ bs, ∀ rest, Prog.run Conn.handle (call.prog sock) (Conn.fresh (heard ++ rest)) =
    Prog.run Conn.handle prog ((Conn.fresh rest).push bs)

section Resumes

variable {sock : Int} {call : Call} {heard : List (Arrival UInt8)}

theorem resumes_issue (sock : Int) (call : Call) :
    Resumes sock call [] (flush (call.prog sock)).2 := by
  refine ⟨(flush (call.prog sock)).1, ?_⟩
  intro rest
  exact run_flush (call.prog sock) ⟨rfl, rfl⟩

theorem resumes_recv {sock' : Int} {count : Nat} {next : Option Bytes → SysProg Ret}
    {bs : Bytes} (hpos : 0 < bs.length) (hle : bs.length ≤ count)
    (h : Resumes sock call heard (.call (.read sock' count) next)) :
    Resumes sock call (heard ++ pushBack bs []) (next (some bs)) := by
  obtain ⟨sent, hrun⟩ := h
  refine ⟨sent, ?_⟩
  intro rest
  have hread : ((Conn.fresh (pushBack bs [] ++ rest)).push sent).read count =
      (some bs, (Conn.fresh rest).push sent) := by
    rw [Conn.read_open rfl, Conn.inc_push, Conn.fresh, read_pushBack hpos hle]
    rfl
  rw [List.append_assoc, hrun, run_read, hread]

theorem resumes_timeout {sock' : Int} {count : Nat} {next : Option Bytes → SysProg Ret}
    (h : Resumes sock call heard (.call (.read sock' count) next)) :
    Resumes sock call (heard ++ [.fault]) (next none) := by
  obtain ⟨sent, hrun⟩ := h
  refine ⟨sent, ?_⟩
  intro rest
  rw [List.append_assoc]
  exact hrun ([.fault] ++ rest)

end Resumes

theorem accepts_length {call : Call} {inc : List (Arrival UInt8)} (hbasic : call.isBasic)
    (h : call.accepts inc) : 16 ≤ (avail inc).length := by
  cases call with
  | execStr str ptrOutput xt out =>
      cases ptrOutput with
      | true => exact (Nat.le_add_right 16 _).trans h.2.2
      | false => exact h
  | getVec name qtype out =>
      obtain ⟨q, _, hacc⟩ := h
      exact hacc.1.1
  | getF8 name dval => exact h.1.1
  | getI4 name dval => exact h.1.1
  | getNamedVecF8 name szKeyBlob szVals vars => exact hbasic.elim
  | setVec name qtype data n inWidth => exact h.1
  | rshutdown => exact hbasic.elim

/-- A call that has returned 0 has met no timeout, and at least a header. -/
theorem heard_of_ok {sock : Int} (hsock : 0 ≤ sock) {call : Call} {ret : Ret}
    {heard : List (Arrival UInt8)} (hbasic : call.isBasic) (hdata : call.HoldsVector)
    (h : Resumes sock call heard (.ret ret))
    (hok : ret.status = .ok) : Clean heard ∧ 16 ≤ (elems heard).length := by
  obtain ⟨sent, hrun⟩ := h
  have hend := hrun []
  rw [List.append_nil, Prog.run_ret] at hend
  have hready : (Conn.fresh heard).Ready := ⟨rfl, rfl⟩
  cases hreq : call.request sock with
  | none =>
      obtain ⟨why, out, hbad⟩ := run_prog_refused hsock (Conn.fresh heard) hreq
      rw [hend] at hbad
      rw [(Prod.mk.inj hbad).1] at hok
      cases hok
  | some bs =>
      have hstatus : (Prog.run Conn.handle (call.prog sock) (Conn.fresh heard)).1.status = .ok := by
        rw [hend]
        exact hok
      have hacc := (status_ok_iff hsock hready hdata hreq).mp hstatus
      have hlong := (accepts_length hbasic hacc).trans (length_avail_le heard)
      refine ⟨fun hfault => ?_, hlong⟩
      have hleft := fault_mem_skip (Call.taken_le hacc) hfault
      rw [run_prog_ok hsock hready hdata hreq hacc] at hend
      have hinc := congrArg (fun r => r.2.inc) hend
      have hnil : skip (call.taken heard) heard = [] :=
        (Call.inc_after call ((Conn.fresh heard).push bs)).symm.trans hinc
      change Arrival.fault ∈ skip (call.taken heard) heard at hleft
      rw [hnil] at hleft
      cases hleft

section StepCases

variable {sock : Int} {s s' : Sys}

theorem Sys.issue_cases {call : Call} (h : s.issue sock call = some s') :
    s.running = none ∧
      s' = { s with
        waiting := if (flush (call.prog sock)).1 = [] then s.waiting else s.waiting ++ [s.next]
        running := some ⟨s.next, call, (flush (call.prog sock)).2, [], []⟩
        next := s.next + 1 } := by
  unfold Sys.issue at h
  split at h
  · cases h
  · rename_i hnone
    exact ⟨hnone, (Option.some.inj h).symm⟩

theorem Sys.answer_cases {hd : Phdr} {payload : Bytes} (h : s.answer hd payload = some s') :
    ∃ id waiting, s.waiting = id :: waiting ∧ hd.len.toInt = payload.length ∧
      s' = { s with
        waiting := waiting
        stream := s.stream ++ (packet hd payload).bytes.map fun b => (id, b)
        answered := s.answered ++ [(id, hd, payload)] } := by
  unfold Sys.answer at h
  split at h
  · cases h
  · rename_i id waiting hw
    split at h
    · rename_i hlen
      exact ⟨id, waiting, hw, hlen, (Option.some.inj h).symm⟩
    · cases h

theorem Sys.recv_cases {m : Nat} (h : s.recv m = some s') :
    ∃ id call sock' count, ∃ next : Option Bytes → SysProg Ret, ∃ heard got,
      s.running = some ⟨id, call, .call (.read sock' count) next, heard, got⟩ ∧
      0 < m ∧ m ≤ count ∧ m ≤ s.stream.length ∧
      s' = { s with
        stream := s.stream.drop m
        running := some ⟨id, call, next (some ((s.stream.take m).map Prod.snd)),
          heard ++ pushBack ((s.stream.take m).map Prod.snd) [], got ++ s.stream.take m⟩ } := by
  unfold Sys.recv at h
  split at h
  · rename_i id call sock' count next heard got hrunning
    split at h
    · rename_i hm
      exact ⟨id, call, sock', count, next, heard, got, hrunning, hm.1, hm.2.1, hm.2.2,
        (Option.some.inj h).symm⟩
    · cases h
  · cases h

theorem Sys.timeout_cases (h : s.timeout = some s') :
    ∃ id call sock' count, ∃ next : Option Bytes → SysProg Ret, ∃ heard got,
      s.running = some ⟨id, call, .call (.read sock' count) next, heard, got⟩ ∧
      s' = { s with running := some ⟨id, call, next none, heard ++ [.fault], got⟩ } := by
  unfold Sys.timeout at h
  split at h
  · rename_i id call sock' count next heard got hrunning
    exact ⟨id, call, sock', count, next, heard, got, hrunning, (Option.some.inj h).symm⟩
  · cases h

theorem Sys.finish_cases (h : s.finish = some s') :
    ∃ id call ret heard got, s.running = some ⟨id, call, .ret ret, heard, got⟩ ∧
      s' = { s with
        running := none, finished := s.finished ++ [⟨id, call, ret, got⟩] } := by
  unfold Sys.finish at h
  split at h
  · rename_i id call ret heard got hrunning
    exact ⟨id, call, ret, heard, got, hrunning, (Option.some.inj h).symm⟩
  · cases h

end StepCases

/-- Nothing of an earlier reply is outstanding: every request has been answered, and
every answer read. -/
def Sys.Quiet (s : Sys) : Prop := s.waiting = [] ∧ s.stream = []

/-- The calls are those of five functions, with the vector that they name; every step may
happen at any time. -/
def Sys.allowed (_ : Sys) : Label → Prop
  | .issue call => call.isBasic ∧ call.HoldsVector
  | _ => True

/-- Requests are numbered in the order of their calls. -/
structure Sys.Numbered (s : Sys) : Prop where
  waiting : ∀ id ∈ s.waiting, id < s.next
  stream : ∀ b ∈ s.stream, b.1 < s.next
  finished : ∀ f ∈ s.finished, f.id < s.next
  running : ∀ r, s.running = some r → r.id < s.next

/-- What a running call has heard, and that it is the rest of its program on that. -/
structure Listens (sock : Int) (r : Running) : Prop where
  basic : r.call.isBasic
  holds : r.call.HoldsVector
  resumes : Resumes sock r.call r.heard r.prog
  heard : elems r.heard = r.got.map Prod.snd

/-- The stream holds nothing but the rest of the running call's own reply. -/
structure OwnLine (s : Sys) (r : Running) : Prop where
  tagged : ∀ b ∈ r.got, b.1 = r.id
  waiting : s.waiting = [] ∨ s.waiting = [r.id]
  stage : (s.stream = [] ∧ r.got = []) ∨
    (s.waiting = [] ∧ ∃ h payload, (r.id, h, payload) ∈ s.answered ∧
      r.got ++ s.stream = (packet h payload).bytes.map fun b => (r.id, b))

/-- The running call has read of an earlier reply, or will do so with its next byte. -/
def StaleLine (s : Sys) (r : Running) : Prop :=
  (∃ b ∈ r.got, b.1 ≠ r.id) ∨
    (r.got = [] ∧ ((∃ b stream, s.stream = b :: stream ∧ b.1 ≠ r.id) ∨
      (s.stream = [] ∧ ∃ id waiting, s.waiting = id :: waiting ∧ id ≠ r.id)))

/-- What holds of call `k` from its issue on, by whether the line was quiet then. -/
structure Tracked (sock : Int) (k : Nat) (quiet : Prop) (s : Sys) : Prop where
  old : k < s.next
  listens : ∀ r, s.running = some r → r.id = k → Listens sock r
  own : quiet → ∀ r, s.running = some r → r.id = k → OwnLine s r
  stale : ¬ quiet → ∀ r, s.running = some r → r.id = k → StaleLine s r
  doneOwn : quiet → ∀ f ∈ s.finished, f.id = k → f.Own sock s.answered
  doneStale : ¬ quiet → ∀ f ∈ s.finished, f.id = k → f.ret.status = .ok →
    ∃ b ∈ f.got, b.1 ≠ k

theorem Finished.Own.mono {sock : Int} {f : Finished} {as bs : List (Nat × Phdr × Bytes)}
    (h : f.Own sock as) (hsub : ∀ a ∈ as, a ∈ bs) : f.Own sock bs := by
  intro hok
  obtain ⟨htags, hd, payload, inc, hmem, hrest⟩ := h hok
  exact ⟨htags, hd, payload, inc, hsub _ hmem, hrest⟩

theorem numbered_init : Sys.init.Numbered where
  waiting _ hid := (List.not_mem_nil hid).elim
  stream _ hb := (List.not_mem_nil hb).elim
  finished _ hf := (List.not_mem_nil hf).elim
  running _ hr := by cases hr

section Numbered

variable {sock : Int} {s s' : Sys}

theorem numbered_issue {call : Call} (hs : s.Numbered) (h : s.issue sock call = some s') :
    s'.Numbered := by
  obtain ⟨_, rfl⟩ := Sys.issue_cases h
  refine ⟨fun id hid => ?_, fun b hb => Nat.lt_succ_of_lt (hs.stream b hb),
    fun f hf => Nat.lt_succ_of_lt (hs.finished f hf), fun r hr => ?_⟩
  · dsimp only at hid
    split at hid
    · exact Nat.lt_succ_of_lt (hs.waiting id hid)
    · rcases List.mem_append.mp hid with hold | hnew
      · exact Nat.lt_succ_of_lt (hs.waiting id hold)
      · rw [List.mem_singleton.mp hnew]
        exact Nat.lt_succ_self s.next
  · obtain rfl := Option.some.inj hr
    exact Nat.lt_succ_self s.next

theorem numbered_step {l : Label} (hs : s.Numbered) (h : s.step sock l = some s') :
    s'.Numbered := by
  cases l with
  | issue call => exact numbered_issue hs h
  | answer hd payload =>
      obtain ⟨id, waiting, hwaiting, _, rfl⟩ := Sys.answer_cases h
      refine ⟨fun id' hid => hs.waiting id' ?_, fun b hb => ?_, hs.finished, hs.running⟩
      · rw [hwaiting]
        exact List.mem_cons_of_mem id hid
      · rcases List.mem_append.mp hb with hold | hnew
        · exact hs.stream b hold
        · obtain ⟨_, _, rfl⟩ := List.mem_map.mp hnew
          exact hs.waiting id (hwaiting ▸ List.mem_cons_self)
  | recv m =>
      obtain ⟨id, call, _, _, _, _, _, hrunning, _, _, _, rfl⟩ := Sys.recv_cases h
      refine ⟨hs.waiting, fun b hb => hs.stream b (List.mem_of_mem_drop hb), hs.finished,
        fun r hr => ?_⟩
      obtain rfl := Option.some.inj hr
      have hlt := hs.running _ hrunning
      exact hlt
  | timeout =>
      obtain ⟨id, call, _, _, _, _, _, hrunning, rfl⟩ := Sys.timeout_cases h
      refine ⟨hs.waiting, hs.stream, hs.finished, fun r hr => ?_⟩
      obtain rfl := Option.some.inj hr
      have hlt := hs.running _ hrunning
      exact hlt
  | finish =>
      obtain ⟨id, call, ret, heard, got, hrunning, rfl⟩ := Sys.finish_cases h
      refine ⟨hs.waiting, hs.stream, fun f hf => ?_, fun r hr => by cases hr⟩
      rcases List.mem_append.mp hf with hold | hnew
      · exact hs.finished f hold
      · obtain rfl := List.mem_singleton.mp hnew
        exact hs.running _ hrunning

end Numbered

section Line

variable {s : Sys} {r : Running}

/-- The reply that arrives is that of the running call. -/
theorem OwnLine.answer (h : OwnLine s r) {hd : Phdr} {payload : Bytes} {s' : Sys}
    (hstep : s.answer hd payload = some s') : OwnLine s' r := by
  obtain ⟨id, waiting, hwaiting, hlen, rfl⟩ := Sys.answer_cases hstep
  have hone : s.waiting = [r.id] := by
    rcases h.waiting with h0 | h1
    · rw [h0] at hwaiting
      cases hwaiting
    · exact h1
  rw [hone] at hwaiting
  obtain ⟨rfl, rfl⟩ := List.cons.inj hwaiting
  have hempty : s.stream = [] ∧ r.got = [] := by
    rcases h.stage with hstage | ⟨hnone, _⟩
    · exact hstage
    · rw [hnone] at hone
      cases hone
  refine ⟨h.tagged, Or.inl rfl,
    Or.inr ⟨rfl, hd, payload, List.mem_append_right _ (List.mem_singleton.mpr rfl), ?_⟩⟩
  rw [hempty.1, hempty.2, List.nil_append, List.nil_append]

/-- What the running call reads is of its own reply. -/
theorem OwnLine.recv (h : OwnLine s r) {m : Nat} (hpos : 0 < m) (hlen : m ≤ s.stream.length)
    {s' : Sys} {r' : Running} (hwait : s'.waiting = s.waiting)
    (hstream : s'.stream = s.stream.drop m) (hanswered : s'.answered = s.answered)
    (hid : r'.id = r.id) (hgot : r'.got = r.got ++ s.stream.take m) : OwnLine s' r' := by
  -- bytes to read mean that the reply of this very call has arrived
  rcases h.stage with ⟨hnone, _⟩ | ⟨hwaiting, hd, payload, hmem, hbytes⟩
  · rw [hnone, List.length_nil] at hlen
    omega
  have hown : ∀ b ∈ r.got ++ s.stream, b.1 = r.id := by
    intro b hb
    rw [hbytes] at hb
    obtain ⟨x, _, rfl⟩ := List.mem_map.mp hb
    rfl
  have hnow : s'.waiting = [] := hwait.trans hwaiting
  refine ⟨fun b hb => ?_, Or.inl hnow, Or.inr ⟨hnow, hd, payload, ?_, ?_⟩⟩
  · rw [hgot] at hb
    rw [hid]
    rcases List.mem_append.mp hb with hold | htake
    · exact h.tagged b hold
    · exact hown b (List.mem_append_right _ (List.mem_of_mem_take htake))
  · rw [hanswered, hid]
    exact hmem
  · rw [hgot, hstream, hid, List.append_assoc, List.take_append_drop]
    exact hbytes

/-- A reply that arrives comes behind the earlier one, or is an earlier one itself. -/
theorem StaleLine.answer (h : StaleLine s r) {hd : Phdr} {payload : Bytes} {s' : Sys}
    (hstep : s.answer hd payload = some s') : StaleLine s' r := by
  obtain ⟨id, waiting, hwaiting, _, rfl⟩ := Sys.answer_cases hstep
  rcases h with hread | ⟨hgot, ⟨b, stream, hstream, hb⟩ | ⟨hnone, id', waiting', hfirst, hid⟩⟩
  · exact Or.inl hread
  · exact Or.inr ⟨hgot, Or.inl ⟨b, _, congrArg (· ++ _) hstream, hb⟩⟩
  · obtain ⟨rfl, rfl⟩ := List.cons.inj (hwaiting.symm.trans hfirst)
    cases hbytes : (packet hd payload).bytes with
    | nil =>
        have hlen : (hd.bytes ++ payload).length = 0 := congrArg List.length hbytes
        rw [List.length_append, Phdr.length_bytes, hdrLen] at hlen
        omega
    | cons x xs =>
        refine Or.inr ⟨hgot, Or.inl ⟨(id, x), xs.map fun b => (id, b), ?_, hid⟩⟩
        rw [hnone]
        rfl

/-- The next byte that the call reads is of an earlier reply. -/
theorem StaleLine.recv (h : StaleLine s r) {m : Nat} (hpos : 0 < m)
    (hlen : m ≤ s.stream.length) {s' : Sys} {r' : Running} (hid : r'.id = r.id)
    (hgot : r'.got = r.got ++ s.stream.take m) : StaleLine s' r' := by
  rw [StaleLine, hgot, hid]
  left
  rcases h with ⟨b, hb, htag⟩ | ⟨_, ⟨b, stream, hstream, htag⟩ | ⟨hnone, _⟩⟩
  · exact ⟨b, List.mem_append_left _ hb, htag⟩
  · obtain ⟨k, rfl⟩ := Nat.exists_eq_add_of_lt hpos
    refine ⟨b, List.mem_append_right _ ?_, htag⟩
    rw [hstream, List.take_succ_cons]
    exact List.mem_cons_self
  · rw [hnone, List.length_nil] at hlen
    omega

/-- Where no reply is outstanding there is none but the call's own. -/
theorem ownLine_issue {sock : Int} {call : Call} {s' : Sys} (hquiet : s.Quiet)
    (h : s.issue sock call = some s') (hr : s'.running = some r) : OwnLine s' r := by
  obtain ⟨hwaiting, hstream⟩ := hquiet
  obtain ⟨_, rfl⟩ := Sys.issue_cases h
  obtain rfl := Option.some.inj hr
  refine ⟨fun b hb => (List.not_mem_nil hb).elim, ?_, Or.inl ⟨hstream, rfl⟩⟩
  rw [hwaiting]
  by_cases hsent : (flush (call.prog sock)).1 = []
  · exact Or.inl (if_pos hsent)
  · exact Or.inr (if_neg hsent)

/-- Otherwise the oldest outstanding reply is an earlier one. -/
theorem staleLine_issue {sock : Int} {call : Call} {s' : Sys} (hs : s.Numbered)
    (hloud : ¬ s.Quiet) (h : s.issue sock call = some s') (hr : s'.running = some r) :
    StaleLine s' r := by
  obtain ⟨_, rfl⟩ := Sys.issue_cases h
  obtain rfl := Option.some.inj hr
  refine Or.inr ⟨rfl, ?_⟩
  cases hstream : s.stream with
  | cons b stream =>
      have hlt : b.1 < s.next := hs.stream b (hstream ▸ List.mem_cons_self)
      exact Or.inl ⟨b, stream, rfl, Nat.ne_of_lt hlt⟩
  | nil =>
      cases hwaiting : s.waiting with
      | nil => exact absurd ⟨hwaiting, hstream⟩ hloud
      | cons id waiting =>
          have hid : id ≠ s.next := Nat.ne_of_lt (hs.waiting id (hwaiting ▸ List.mem_cons_self))
          refine Or.inr ⟨rfl, id, ?_⟩
          dsimp only
          split
          · exact ⟨waiting, rfl, hid⟩
          · exact ⟨waiting ++ [s.next], rfl, hid⟩

end Line

section Finish

variable {sock : Int} {s : Sys} {id : Nat} {call : Call} {ret : Ret}
variable {heard : List (Arrival UInt8)} {got : List (Nat × UInt8)}

/-- A call that finishes with 0 has read something. -/
theorem Listens.got_ne_nil (hsock : 0 ≤ sock) (h : Listens sock ⟨id, call, .ret ret, heard, got⟩)
    (hok : ret.status = .ok) : got ≠ [] := by
  intro hgot
  have hheard : elems heard = got.map Prod.snd := h.heard
  have hlong := (heard_of_ok hsock h.basic h.holds h.resumes hok).2
  rw [hheard, hgot, List.map_nil, List.length_nil] at hlong
  omega

/-- With nothing else on the line a call that finishes with 0 returns its own reply. -/
theorem OwnLine.finish (hsock : 0 ≤ sock) (h : OwnLine s ⟨id, call, .ret ret, heard, got⟩)
    (hl : Listens sock ⟨id, call, .ret ret, heard, got⟩) :
    Finished.Own sock s.answered ⟨id, call, ret, got⟩ := by
  intro hzero
  have hok : ret.status = .ok := (Status.code_eq_zero_iff _).mp hzero
  have hclean := (heard_of_ok hsock hl.basic hl.holds hl.resumes hok).1
  have hheard : elems heard = got.map Prod.snd := hl.heard
  refine ⟨h.tagged, ?_⟩
  rcases h.stage with ⟨_, hnone⟩ | ⟨_, hd, payload, hmem, hbytes⟩
  · exact absurd hnone (hl.got_ne_nil hsock hok)
  have hsnd := congrArg (List.map Prod.snd) hbytes
  simp only [List.map_append, List.map_map] at hsnd
  obtain ⟨sent, hres⟩ := hl.resumes
  refine ⟨hd, payload, heard ++ pushBack (s.stream.map Prod.snd) [], hmem,
    hclean.append (Clean.pushBack (fun hmem => by cases hmem)), ?_, ?_⟩
  · rw [elems_append, elems_pushBack, hheard, elems, List.append_nil, hsnd]
    exact List.map_id _
  · exact congrArg Prod.fst (hres _)

theorem StaleLine.finish (hsock : 0 ≤ sock) (h : StaleLine s ⟨id, call, .ret ret, heard, got⟩)
    (hl : Listens sock ⟨id, call, .ret ret, heard, got⟩) (hok : ret.status = .ok) :
    ∃ b ∈ got, b.1 ≠ id := by
  rcases h with hread | ⟨hgot, _⟩
  · exact hread
  · exact absurd hgot (hl.got_ne_nil hsock hok)

end Finish

section Tracked

variable {sock : Int} {k : Nat} {quiet : Prop} {s s' : Sys}

/-- The call that is issued is followed from then on. -/
theorem tracked_start {call : Call} (hs : s.Numbered) (hcall : s.allowed (.issue call))
    (h : s.issue sock call = some s') : Tracked sock s.next s.Quiet s' := by
  have hown := fun (hquiet : s.Quiet) (r : Running) (hr : s'.running = some r)
    (_ : r.id = s.next) => ownLine_issue hquiet h hr
  have hstale := fun (hloud : ¬ s.Quiet) (r : Running) (hr : s'.running = some r)
    (_ : r.id = s.next) => staleLine_issue hs hloud h hr
  obtain ⟨_, rfl⟩ := Sys.issue_cases h
  have hnone : ∀ f ∈ s.finished, f.id ≠ s.next := fun f hf => Nat.ne_of_lt (hs.finished f hf)
  refine ⟨Nat.lt_succ_self s.next, fun r hr _ => ?_, hown, hstale,
    fun _ f hf hid => absurd hid (hnone f hf), fun _ f hf hid => absurd hid (hnone f hf)⟩
  obtain rfl := Option.some.inj hr
  exact ⟨hcall.1, hcall.2, resumes_issue sock call, rfl⟩

/-- A later call has another number. -/
theorem tracked_issue {call : Call} (ht : Tracked sock k quiet s)
    (h : s.issue sock call = some s') : Tracked sock k quiet s' := by
  obtain ⟨_, rfl⟩ := Sys.issue_cases h
  have hother : ∀ r, some (⟨s.next, call, (flush (call.prog sock)).2, [], []⟩ : Running) =
      some r → r.id ≠ k := by
    intro r hr
    obtain rfl := Option.some.inj hr
    exact Nat.ne_of_gt ht.old
  exact ⟨Nat.lt_succ_of_lt ht.old, fun r hr hid => absurd hid (hother r hr),
    fun _ r hr hid => absurd hid (hother r hr), fun _ r hr hid => absurd hid (hother r hr),
    ht.doneOwn, ht.doneStale⟩

theorem tracked_answer {hd : Phdr} {payload : Bytes} (ht : Tracked sock k quiet s)
    (h : s.answer hd payload = some s') : Tracked sock k quiet s' := by
  have hown := fun hquiet r hr hid => (ht.own hquiet r hr hid).answer h
  have hstale := fun hloud r hr hid => (ht.stale hloud r hr hid).answer h
  obtain ⟨id, waiting, _, _, rfl⟩ := Sys.answer_cases h
  exact ⟨ht.old, ht.listens, hown, hstale, fun hquiet f hf hid =>
    (ht.doneOwn hquiet f hf hid).mono fun a ha => List.mem_append_left _ ha, ht.doneStale⟩

theorem tracked_recv {m : Nat} (ht : Tracked sock k quiet s) (h : s.recv m = some s') :
    Tracked sock k quiet s' := by
  obtain ⟨id, call, sock', count, next, heard, got, hrunning, hpos, hcount, hlen, rfl⟩ :=
    Sys.recv_cases h
  have hsize : ((s.stream.take m).map Prod.snd).length = m := by
    rw [List.length_map, List.length_take, Nat.min_eq_left hlen]
  refine ⟨ht.old, fun r hr hid => ?_, fun hquiet r hr hid => ?_, fun hloud r hr hid => ?_,
    ht.doneOwn, ht.doneStale⟩
  · obtain rfl := Option.some.inj hr
    have hl := ht.listens _ hrunning hid
    refine ⟨hl.basic, hl.holds, resumes_recv (hsize.symm ▸ hpos) (hsize.symm ▸ hcount) hl.resumes,
      ?_⟩
    have hheard : elems heard = got.map Prod.snd := hl.heard
    rw [elems_append, elems_pushBack, hheard, List.map_append]
    exact congrArg _ (List.append_nil _)
  · obtain rfl := Option.some.inj hr
    exact (ht.own hquiet _ hrunning hid).recv hpos hlen rfl rfl rfl rfl rfl
  · obtain rfl := Option.some.inj hr
    exact (ht.stale hloud _ hrunning hid).recv hpos hlen rfl rfl

theorem tracked_timeout (ht : Tracked sock k quiet s) (h : s.timeout = some s') :
    Tracked sock k quiet s' := by
  obtain ⟨id, call, sock', count, next, heard, got, hrunning, rfl⟩ := Sys.timeout_cases h
  refine ⟨ht.old, fun r hr hid => ?_, fun hquiet r hr hid => ?_, fun hloud r hr hid => ?_,
    ht.doneOwn, ht.doneStale⟩
  · obtain rfl := Option.some.inj hr
    have hl := ht.listens _ hrunning hid
    refine ⟨hl.basic, hl.holds, resumes_timeout hl.resumes, ?_⟩
    rw [elems_append]
    exact (List.append_nil _).trans hl.heard
  · obtain rfl := Option.some.inj hr
    have hown := ht.own hquiet _ hrunning hid
    exact ⟨hown.tagged, hown.waiting, hown.stage⟩
  · obtain rfl := Option.some.inj hr
    have hstale := ht.stale hloud _ hrunning hid
    exact hstale

theorem tracked_finish (hsock : 0 ≤ sock) (ht : Tracked sock k quiet s)
    (h : s.finish = some s') : Tracked sock k quiet s' := by
  obtain ⟨id, call, ret, heard, got, hrunning, rfl⟩ := Sys.finish_cases h
  refine ⟨ht.old, (fun r hr => nomatch hr), (fun _ r hr => nomatch hr),
    (fun _ r hr => nomatch hr), fun hquiet f hf hid => ?_, fun hloud f hf hid hok => ?_⟩
  · rcases List.mem_append.mp hf with hold | hnew
    · exact ht.doneOwn hquiet f hold hid
    · obtain rfl := List.mem_singleton.mp hnew
      have hown := (ht.own hquiet _ hrunning hid).finish hsock (ht.listens _ hrunning hid)
      exact hown
  · rcases List.mem_append.mp hf with hold | hnew
    · exact ht.doneStale hloud f hold hid hok
    · obtain rfl := List.mem_singleton.mp hnew
      obtain rfl : id = k := hid
      exact (ht.stale hloud _ hrunning rfl).finish hsock (ht.listens _ hrunning rfl) hok

theorem tracked_step (hsock : 0 ≤ sock) {l : Label} (ht : Tracked sock k quiet s)
    (h : s.step sock l = some s') : Tracked sock k quiet s' := by
  cases l with
  | issue call => exact tracked_issue ht h
  | answer hd payload => exact tracked_answer ht h
  | recv m => exact tracked_recv ht h
  | timeout => exact tracked_timeout ht h
  | finish => exact tracked_finish hsock ht h

end Tracked

/-- In every order of issues, answers, reads and timeouts a call that returns 0 has returned
the reply to its own request exactly if no earlier reply was outstanding when it was issued,
whatever came before and comes after. -/
theorem own_reply_iff_quiet {sock : Int} (hsock : 0 ≤ sock) {s₀ s₁ s : Sys} {call : Call}
    (hbefore : Reach Sys.init (Sys.step sock) Sys.allowed s₀)
    (hcall : s₀.allowed (.issue call)) (hissue : s₀.step sock (.issue call) = some s₁)
    (hafter : Reach s₁ (Sys.step sock) Sys.allowed s) {f : Finished} (hf : f ∈ s.finished)
    (hid : f.id = s₀.next) (hzero : f.ret.status.code = 0) :
    f.Own sock s.answered ↔ s₀.Quiet := by
  have hnumbered : s₀.Numbered :=
    Reach.invariant numbered_init (fun hs _ hstep => numbered_step hs hstep) hbefore
  have htracked : Tracked sock s₀.next s₀.Quiet s :=
    Reach.invariant (tracked_start hnumbered hcall hissue)
      (fun ht _ hstep => tracked_step hsock ht hstep) hafter
  constructor
  · intro hown
    by_contra hloud
    obtain ⟨b, hb, htag⟩ :=
      htracked.doneStale hloud f hf hid ((Status.code_eq_zero_iff _).mp hzero)
    exact htag (((hown hzero).1 b hb).trans hid)
  · intro hquiet
    exact htracked.doneOwn hquiet f hf hid

/-- An evaluation of `x`, whatever its type. -/
def evalAny : Call := .execStr (some nameX) true (-1) ⟨none, 0⟩

/-- An error without a body, for whose body `get_F8` waits until it times out. -/
def timedOutSteps : List Label :=
  [.issue (.getF8 (some nameX) (List.replicate 8 0)), .answer ⟨respErr, 0, 0, 0⟩ [], .recv 16,
    .timeout, .finish]

/-- The next call is answered and reads in three pieces. -/
def repliedSteps : List Label :=
  [.answer ⟨respOk, 16, 0, 0⟩ (doubleReply.drop 16), .recv 16, .recv 8, .recv 8, .finish]

/-- The call behind the one that timed out, as it ends. -/
def repliedFinished : Finished :=
  ⟨1, evalAny, ⟨.ok, .buffer ⟨some [0, 0, 0, 0, 0, 0, 240, 63], 8⟩⟩,
    doubleReply.map fun b => (1, b)⟩

theorem own_reply_iff_quiet_afterTimeout :
    ∃ s₀ s₁ s, runSteps (Sys.step 3) Sys.init timedOutSteps = some s₀ ∧
      s₀.finished.map (fun f => f.ret.status) = [.bad .fault] ∧
      s₀.step 3 (.issue evalAny) = some s₁ ∧
      runSteps (Sys.step 3) s₁ repliedSteps = some s ∧ repliedFinished ∈ s.finished ∧
      repliedFinished.Own 3 s.answered := by
  have hrun : ((runSteps (Sys.step 3) Sys.init timedOutSteps).bind fun s₀ =>
      (s₀.step 3 (.issue evalAny)).bind fun s₁ =>
        (runSteps (Sys.step 3) s₁ repliedSteps).map fun s =>
          ((s₀.waiting, s₀.stream, s₀.next), s₀.finished.map (fun f => f.ret.status),
            s.finished.getLast?)) =
      some (([], [], 1), [.bad .fault], some repliedFinished) := by decide
  obtain ⟨s₀, hbefore, hrun⟩ := Option.bind_eq_some_iff.mp hrun
  obtain ⟨s₁, hissue, hrun⟩ := Option.bind_eq_some_iff.mp hrun
  obtain ⟨s, hafter, hend⟩ := Option.map_eq_some_iff.mp hrun
  obtain ⟨hline, hend⟩ := Prod.mk.inj hend
  obtain ⟨hfailed, hlast⟩ := Prod.mk.inj hend
  obtain ⟨hwaiting, hline⟩ := Prod.mk.inj hline
  obtain ⟨hstream, hnext⟩ := Prod.mk.inj hline
  have hmem : repliedFinished ∈ s.finished := List.mem_of_getLast? hlast
  have htimedOut : AllowedAlong (Sys.step 3) Sys.allowed Sys.init timedOutSteps :=
    ⟨⟨trivial, trivial⟩, fun _ _ => ⟨trivial, fun _ _ => ⟨trivial, fun _ _ => ⟨trivial,
      fun _ _ => ⟨trivial, fun _ _ => trivial⟩⟩⟩⟩⟩
  have hreplied : AllowedAlong (Sys.step 3) Sys.allowed s₁ repliedSteps :=
    ⟨trivial, fun _ _ => ⟨trivial, fun _ _ => ⟨trivial, fun _ _ => ⟨trivial,
      fun _ _ => ⟨trivial, fun _ _ => trivial⟩⟩⟩⟩⟩
  have hcall : s₀.allowed (.issue evalAny) := ⟨trivial, trivial⟩
  have hown := own_reply_iff_quiet (by decide) (Reach.init.runSteps htimedOut hbefore) hcall
    hissue (Reach.init.runSteps hreplied hafter) hmem hnext.symm rfl
  exact ⟨s₀, s₁, s, hbefore, hfailed, hissue, hafter, hmem, hown.mpr ⟨hwaiting, hstream⟩⟩

/-- The reply to a call that timed out arrives during the next call. -/
def staleSteps : List Label :=
  [.issue evalAny, .timeout, .finish,
    .issue (.execStr (some ⟨[121], by decide⟩) true (-1) ⟨none, 0⟩),
    .answer ⟨respOk, 16, 0, 0⟩ (doubleReply.drop 16), .recv 16, .recv 8, .recv 8, .finish]

/-- The second call as it ends: status 0, with the reply to request 0. -/
def staleFinished : Finished :=
  ⟨1, .execStr (some ⟨[121], by decide⟩) true (-1) ⟨none, 0⟩,
    ⟨.ok, .buffer ⟨some [0, 0, 0, 0, 0, 0, 240, 63], 8⟩⟩, doubleReply.map fun b => (0, b)⟩

theorem stale_reply_returned :
    ∃ s, runSteps (Sys.step 3) Sys.init staleSteps = some s ∧ staleFinished ∈ s.finished ∧
      ¬ staleFinished.Own 3 s.answered := by
  have hlast : (runSteps (Sys.step 3) Sys.init staleSteps).map
      (fun s => s.finished.getLast?) = some (some staleFinished) := by decide
  obtain ⟨s, hs, hfinished⟩ := Option.map_eq_some_iff.mp hlast
  refine ⟨s, hs, List.mem_of_getLast? hfinished, ?_⟩
  intro hown
  have htag := (hown rfl).1 (0, 1) (by decide)
  exact absurd htag (by decide)

end RserveClient
