import RserveClient.Client.Socket
import RserveClient.Foundation.Loop

/-!
# The read loop on the caller's memory

`get_buf_from_sock` once more, now with the memory it stores into and the three
quantities its loop moves: the pointer, the length still asked for and the total.
It ends after at most one read for each byte, and it refines the function that hands
the bytes over.
-/

namespace RserveClient

open Interaction Arrivals Loop

/-- Memory after bytes were stored at an offset. -/
def storeAt (mem : Bytes) (off : Nat) (new : Bytes) : Bytes :=
  mem.take off ++ (new ++ mem.drop (off + new.length))

/-- The memory from the caller's buffer on, and the variables of the loop: how far the
pointer has moved, what is still asked for, and the total read. -/
structure RecvVars where
  mem : Bytes
  buf : Nat
  buflen : Nat
  totalNumRead : Nat

/-- What the caller finds: the status, the memory and `*ptr_num_read`. -/
structure Filled where
  status : Status
  mem : Bytes
  numRead : Int

/-- One round of the loop. -/
def recvRound (sock : Int) (numToRead : Nat) (numRead : Int) (v : RecvVars) :
    SysProg (Round RecvVars Filled) := do
  match ← sysRead sock v.buflen with
  | none => return .leave ⟨.bad .fault, v.mem, numRead⟩
  | some [] => return .leave ⟨.bad .eof, v.mem, numRead⟩
  | some (b :: bs) =>
      let mem := storeAt v.mem v.buf (b :: bs)
      let totalNumRead := v.totalNumRead + (bs.length + 1)
      if numToRead ≤ totalNumRead then return .leave ⟨.ok, mem, totalNumRead⟩
      else return .again ⟨mem, v.buf + (bs.length + 1), v.buflen - (bs.length + 1), totalNumRead⟩

/-- The whole function; `none` is a loop that is still running after `fuel` rounds. -/
def getBufFromSockInto (fuel : Nat) (sock : Int) (bufIsNull : Bool) (mem : Bytes) (buflen : Int)
    (numRead : Int) : SysProg (Option Filled) :=
  if sock < 0 then return some ⟨.bad .argument, mem, numRead⟩
  else if buflen < 0 then return some ⟨.bad .argument, mem, numRead⟩
  else if bufIsNull then return some ⟨.bad .argument, mem, numRead⟩
  else if buflen = 0 then return some ⟨.ok, mem, numRead⟩
  else iterProg (recvRound sock buflen.toNat numRead) fuel ⟨mem, 0, buflen.toNat, 0⟩

theorem drop_overwrite (mem new : Bytes) :
    (overwrite mem new).drop new.length = mem.drop new.length := by
  rw [overwrite, List.drop_left]

/-- Storing behind what was stored continues it. -/
theorem storeAt_overwrite (mem got new : Bytes) :
    storeAt (overwrite mem got) got.length new = overwrite mem (got ++ new) := by
  have hdrop : (overwrite mem got).drop (got.length + new.length) =
      mem.drop (got.length + new.length) := by
    rw [← List.drop_drop, drop_overwrite, List.drop_drop]
  rw [storeAt, take_overwrite, hdrop, overwrite, List.length_append, List.append_assoc]

/-- What the caller finds after bytes handed over by the loop that keeps no memory. -/
def Recv.filled (mem : Bytes) (numRead : Int) (r : Recv) : Filled :=
  ⟨r.status, overwrite mem r.got, (r.numRead.map Nat.cast).getD numRead⟩

section Rounds

variable {mem : Bytes} {numRead : Int} {sock : Int} {n : Nat} {c₀ : Conn}

/-- Between rounds: the pointer and the total stand behind the bytes that came, which
lie in memory in order, and what is still asked for completes the reading of `n` bytes. -/
def RecvInv (mem : Bytes) (n : Nat) (c₀ : Conn) (v : RecvVars) (c : Conn) : Prop :=
  c.isOpen = true ∧ 0 < v.buflen ∧ c = c₀.withInc c.inc ∧
    ∃ got, v.mem = overwrite mem got ∧ v.buf = got.length ∧ v.totalNumRead = got.length ∧
      got.length + v.buflen = n ∧
      readAll n c₀.inc = ((readAll v.buflen c.inc).1, got ++ (readAll v.buflen c.inc).2.1,
        (readAll v.buflen c.inc).2.2)

/-- At the end: memory and count are those of reading `n` bytes of the stream. -/
def RecvPost (mem : Bytes) (numRead : Int) (n : Nat) (c₀ : Conn) (r : Filled) (c : Conn) : Prop :=
  r = (recvOf [] (readAll n c₀.inc)).filled mem numRead ∧ c = c₀.withInc (readAll n c₀.inc).2.2

theorem recvInv_init (mem : Bytes) (hopen : c₀.isOpen = true) (hpos : 0 < n) :
    RecvInv mem n c₀ ⟨mem, 0, n, 0⟩ c₀ :=
  ⟨hopen, hpos, rfl, [], rfl, rfl, rfl, Nat.zero_add n, rfl⟩

theorem calls_recvRound (sock : Int) (n : Nat) (numRead : Int) (v : RecvVars) (c : Conn) :
    Prog.calls Conn.handle (recvRound sock n numRead v) c ≤ 1 := by
  have hread : Prog.calls Conn.handle (sysRead sock v.buflen) c = 1 := rfl
  rw [recvRound, Prog.calls_bind, hread]
  rcases (Prog.run Conn.handle (sysRead sock v.buflen) c).1 with _ | bs
  · exact Nat.le_refl 1
  · cases bs with
    | nil => exact Nat.le_refl 1
    | cons b bs =>
        dsimp only
        split <;> exact Nat.le_refl 1

/-- A read that stores bytes leaves the loop or goes round again behind them. -/
theorem run_recvRound_piece {v : RecvVars} {c c' : Conn} {bs : Bytes}
    (hread : Prog.run Conn.handle (sysRead sock v.buflen) c = (some bs, c')) (hbs : bs ≠ []) :
    Prog.run Conn.handle (recvRound sock n numRead v) c =
      (if n ≤ v.totalNumRead + bs.length then
        .leave ⟨.ok, storeAt v.mem v.buf bs, (v.totalNumRead + bs.length : Nat)⟩
      else .again ⟨storeAt v.mem v.buf bs, v.buf + bs.length, v.buflen - bs.length,
        v.totalNumRead + bs.length⟩, c') := by
  obtain ⟨b, bs, rfl⟩ := List.exists_cons_of_ne_nil hbs
  rw [recvRound, Prog.run_bind, hread]
  dsimp only
  rw [List.length_cons]
  split <;> rfl

/-- Where nothing more comes, the loop leaves what it has stored. -/
theorem RecvInv.dry {v : RecvVars} {c : Conn} (hinv : RecvInv mem n c₀ v c) {stop : Stop}
    {s : List (Arrival UInt8)} (hdry : readAll v.buflen c.inc = (stop, [], s))
    (hstop : stop ≠ .whole) :
    RecvPost mem numRead n c₀ ⟨.bad (whyStopped stop), v.mem, numRead⟩ (c.withInc s) := by
  obtain ⟨_, _, hc, got, hmem, _, _, _, hall⟩ := hinv
  rw [hdry, List.append_nil] at hall
  refine ⟨?_, ?_⟩
  · rw [hall, hmem]
    cases stop with
    | whole => exact absurd rfl hstop
    | closed => rfl
    | fault => rfl
  · rw [hall, hc]
    rfl

/-- A piece that is used up leaves less to be asked for. -/
theorem RecvInv.more {v : RecvVars} {c : Conn} (hinv : RecvInv mem n c₀ v c) {a : UInt8}
    {as : Bytes} {s : List (Arrival UInt8)} (hinc : c.inc = .piece a as :: s)
    (hlt : as.length + 1 < v.buflen) :
    ¬ n ≤ v.totalNumRead + (a :: as).length ∧
      RecvInv mem n c₀ ⟨storeAt v.mem v.buf (a :: as), v.buf + (a :: as).length,
        v.buflen - (a :: as).length, v.totalNumRead + (a :: as).length⟩ (c.withInc s) := by
  obtain ⟨hopen, _, hc, got, hmem, hbuf, htotal, hleft, hall⟩ := hinv
  rw [hinc, readAll_piece_gt s hlt] at hall
  rw [hmem, hbuf, htotal, storeAt_overwrite, List.length_cons]
  refine ⟨by omega, hopen, by dsimp only; omega, ?_, got ++ a :: as, rfl, ?_, ?_, ?_, ?_⟩
  · rw [hc]
    rfl
  · rw [List.length_append, List.length_cons]
  · rw [List.length_append, List.length_cons]
  · rw [List.length_append, List.length_cons]
    dsimp only
    omega
  · rw [hall, List.append_assoc]
    rfl

/-- A piece that is long enough completes the bytes asked for. -/
theorem RecvInv.enough {v : RecvVars} {c : Conn} (hinv : RecvInv mem n c₀ v c) {a : UInt8}
    {as : Bytes} {s : List (Arrival UInt8)} (hinc : c.inc = .piece a as :: s)
    (hge : v.buflen ≤ as.length + 1) :
    n ≤ v.totalNumRead + ((a :: as).take v.buflen).length ∧
      RecvPost mem numRead n c₀ ⟨.ok, storeAt v.mem v.buf ((a :: as).take v.buflen),
        (v.totalNumRead + ((a :: as).take v.buflen).length : Nat)⟩
        (c.withInc (pushBack ((a :: as).drop v.buflen) s)) := by
  obtain ⟨_, _, hc, got, hmem, hbuf, htotal, hleft, hall⟩ := hinv
  rw [hinc, readAll_piece_le s hge] at hall
  rw [hmem, hbuf, htotal, storeAt_overwrite]
  refine ⟨?_, ?_, ?_⟩
  · rw [List.length_take, List.length_cons]
    omega
  · rw [hall, ← List.length_append]
    rfl
  · rw [hall, hc]
    rfl

/-- A round keeps the invariant, or leaves what reading `n` bytes of the stream leaves. -/
theorem recvRound_keeps {v : RecvVars} {c : Conn} (hinv : RecvInv mem n c₀ v c) :
    (Prog.run Conn.handle (recvRound sock n numRead v) c).1.Keeps
      (fun r => RecvPost mem numRead n c₀ r
        (Prog.run Conn.handle (recvRound sock n numRead v) c).2)
      (fun v' => RecvInv mem n c₀ v' (Prog.run Conn.handle (recvRound sock n numRead v) c).2)
      (fun v' => v'.buflen - 1) (v.buflen - 1) := by
  obtain ⟨k, hk⟩ : ∃ k, v.buflen = k + 1 := Nat.exists_eq_add_one.mpr hinv.2.1
  have hread : Prog.run Conn.handle (sysRead sock v.buflen) c = _ := Conn.read_open hinv.1 _
  cases hinc : c.inc with
  | nil =>
      have hdry : readAll v.buflen c.inc = (.closed, [], []) := by
        rw [hinc, hk, readAll]
      rw [hinc, Arrivals.read] at hread
      rw [recvRound, Prog.run_bind, hread]
      exact hinv.dry hdry (by decide)
  | cons e s =>
      cases e with
      | fault =>
          have hdry : readAll v.buflen c.inc = (.fault, [], s) := by
            rw [hinc, hk, readAll]
          rw [hinc, Arrivals.read] at hread
          rw [recvRound, Prog.run_bind, hread]
          exact hinv.dry hdry (by decide)
      | piece a as =>
          rw [hinc, Arrivals.read] at hread
          have hne : (a :: as).take v.buflen ≠ [] := by
            rw [hk, List.take_succ_cons]
            exact List.cons_ne_nil _ _
          rw [run_recvRound_piece hread hne]
          rcases Nat.lt_or_ge (as.length + 1) v.buflen with hlt | hge
          · obtain ⟨hmore, hnext⟩ := hinv.more hinc hlt
            rw [List.take_of_length_le hlt.le, List.drop_eq_nil_of_le hlt.le, if_neg hmore,
              pushBack_nil]
            refine ⟨hnext, ?_⟩
            change v.buflen - (as.length + 1) - 1 < v.buflen - 1
            omega
          · obtain ⟨hdone, hpost⟩ := hinv.enough hinc hge
            rw [if_pos hdone]
            exact hpost

/-- The whole loop: it is left after at most `n` reads, as the function that keeps no
memory is. -/
theorem run_getBufFromSockInto (mem : Bytes) (numRead : Int) (hsock : 0 ≤ sock) (hpos : 0 < n)
    (hopen : c₀.isOpen = true) {fuel : Nat} (hfuel : n ≤ fuel) :
    Prog.run Conn.handle (getBufFromSockInto fuel sock false mem n numRead) c₀ =
      (some ((recvOf [] (readAll n c₀.inc)).filled mem numRead),
        c₀.withInc (readAll n c₀.inc).2.2) ∧
    Prog.calls Conn.handle (getBufFromSockInto fuel sock false mem n numRead) c₀ ≤ n := by
  have hentry : getBufFromSockInto fuel sock false mem n numRead =
      iterProg (recvRound sock n numRead) fuel ⟨mem, 0, n, 0⟩ := by
    rw [getBufFromSockInto, if_neg (by omega), if_neg (by omega), if_neg Bool.false_ne_true,
      if_neg (by omega), Int.toNat_natCast]
  have hvariant : n - 1 < fuel := by omega
  obtain ⟨r, c', hrun, ⟨rfl, rfl⟩, hcalls⟩ := run_iterProg_of_variant (fun v => v.buflen - 1)
    (calls_recvRound sock n numRead) (fun _ _ => recvRound_keeps)
    (recvInv_init mem hopen hpos) hvariant
  dsimp only at hcalls
  rw [hentry]
  exact ⟨hrun, by omega⟩

/-- It refines `get_buf_from_sock` as the operations use it. -/
theorem getBufFromSockInto_refines (hsock : 0 ≤ sock) (hpos : 0 < n) (hopen : c₀.isOpen = true)
    {fuel : Nat} (hfuel : n ≤ fuel) :
    Prog.run Conn.handle (getBufFromSockInto fuel sock false mem n numRead) c₀ =
      (some ((Prog.run Conn.handle (getBufFromSock sock false n) c₀).1.filled mem numRead),
        (Prog.run Conn.handle (getBufFromSock sock false n) c₀).2) := by
  rw [(run_getBufFromSockInto mem numRead hsock hpos hopen hfuel).1,
    run_getBufFromSock hsock hpos hopen]

/-- If `n` bytes come, they and no others are taken and stored and their number is
reported. Otherwise the status tells what stopped the loop, and neither `*ptr_num_read` nor
the memory behind the bytes that came is touched. -/
def FilledExactly (mem : Bytes) (n : Nat) (numRead : Int) (inc : List (Arrival UInt8))
    (r : Filled) (inc' : List (Arrival UInt8)) : Prop :=
  if n ≤ (avail inc).length then
    r.status.code = 0 ∧ r.mem.take n = (avail inc).take n ∧ r.mem.drop n = mem.drop n ∧
      r.numRead = n ∧ avail inc' = (avail inc).drop n ∧ elems inc' = (elems inc).drop n
  else
    r.status.code = (if stop inc = .closed then -2 else -3) ∧
      r.mem.take (avail inc).length = avail inc ∧
      r.mem.drop (avail inc).length = mem.drop (avail inc).length ∧ r.numRead = numRead

/-- On every stream, in whatever pieces it comes, the loop ends after at most `n` reads and
has filled the buffer exactly. -/
theorem getBufFromSockInto_exact (hsock : 0 ≤ sock) (mem : Bytes) (hpos : 0 < n) (numRead : Int)
    {c : Conn} (hopen : c.isOpen = true) {fuel : Nat} (hfuel : n ≤ fuel) :
    Prog.calls Conn.handle (getBufFromSockInto fuel sock false mem n numRead) c ≤ n ∧
    ∃ r c', Prog.run Conn.handle (getBufFromSockInto fuel sock false mem n numRead) c =
        (some r, c') ∧ FilledExactly mem n numRead c.inc r c'.inc := by
  obtain ⟨hrun, hcalls⟩ := run_getBufFromSockInto mem numRead hsock hpos hopen
    hfuel
  refine ⟨hcalls, _, _, hrun, ?_⟩
  unfold FilledExactly
  split
  · rename_i hle
    have hlen : ((avail c.inc).take n).length = n := by
      rw [List.length_take]
      omega
    rw [readAll_whole hle]
    refine ⟨rfl, ?_, ?_, ?_, avail_skip hle, elems_skip hle⟩
    · change (overwrite mem ((avail c.inc).take n)).take n = _
      have htake := take_overwrite mem ((avail c.inc).take n)
      rwa [hlen] at htake
    · change (overwrite mem ((avail c.inc).take n)).drop n = _
      have hdrop := drop_overwrite mem ((avail c.inc).take n)
      rwa [hlen] at hdrop
    · change (((avail c.inc).take n).length : Int) = n
      rw [hlen]
  · rename_i hshort
    rw [readAll_short (Nat.lt_of_not_le hshort)]
    have htake := take_overwrite mem (avail c.inc)
    have hdrop := drop_overwrite mem (avail c.inc)
    cases hstop : stop c.inc with
    | whole => exact absurd hstop (stop_ne_whole c.inc)
    | closed => exact ⟨rfl, htake, hdrop, rfl⟩
    | fault => exact ⟨rfl, htake, hdrop, rfl⟩

/-- Five bytes wanted, two and then four there. -/
theorem getBufFromSockInto_exact_two_pieces :
    Prog.calls Conn.handle (getBufFromSockInto 9 3 false [0, 0, 0, 0, 0, 9] (5 : Nat) 7)
      (Conn.fresh [.piece 1 [2], .piece 3 [4, 5, 6]]) ≤ 5 ∧
    ∃ r c', Prog.run Conn.handle (getBufFromSockInto 9 3 false [0, 0, 0, 0, 0, 9] (5 : Nat) 7)
        (Conn.fresh [.piece 1 [2], .piece 3 [4, 5, 6]]) = (some r, c') ∧
      FilledExactly [0, 0, 0, 0, 0, 9] 5 7 [.piece 1 [2], .piece 3 [4, 5, 6]] r c'.inc :=
  getBufFromSockInto_exact (c := Conn.fresh [.piece 1 [2], .piece 3 [4, 5, 6]]) (by decide) _
    (by decide) 7 rfl (by decide)

end Rounds

end RserveClient
