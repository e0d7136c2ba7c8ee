import RserveClient.Foundation.Arrivals
import RserveClient.Foundation.Interaction
import RserveClient.Wire.Rsrv

/-!
# The socket and the functions that read it

The system calls of the client, the connection that answers them, and the
functions `get_buf_from_sock`, `read_hdr` and `mk_hdr` on which every operation
is built.

## Implementation notes

The connection lists what its reads will meet and how its sends will end, so a
statement about every connection covers every segmentation, timeout and close.
Memory is plentiful: an allocation fails exactly above `PTRDIFF_MAX`.
-/

namespace RserveClient

open Interaction

/-- The kinds of `go_BYE` the sources contain. -/
inductive Why where
  | argument
  | send
  | eof
  | fault
  | short
  | memory
  | reply
  | close
  deriving DecidableEq, Repr

/-- The status a `go_BYE` of each kind leaves. -/
def Why.code : Why → Int
  | .eof => -2
  | .fault => -3
  | _ => -1

/-- The status of a C function, with the kind of failure. -/
inductive Status where
  | ok
  | bad (why : Why)
  deriving DecidableEq, Repr

namespace Status

def code : Status → Int
  | ok => 0
  | bad why => why.code

def ofExit {α : Type} : Except Why α → Status
  | .ok _ => .ok
  | .error why => .bad why

end Status

theorem Why.code_neg (why : Why) : why.code < 0 := by
  cases why <;> decide

theorem Status.code_eq_zero_iff (s : Status) : s.code = 0 ↔ s = .ok := by
  cases s with
  | ok => simp [code]
  | bad why =>
      have h := why.code_neg
      constructor
      · intro hz
        simp only [code] at hz
        omega
      · intro hok
        cases hok

inductive Syscall where
  | send (sock : Int) (buf : Bytes)
  | read (sock : Int) (count : Nat)
  | close (sock : Int)

/-- `send` and `close` return a number. A `read` returns the bytes it stored, or
`none` for a negative result; no bytes at all means end of file. -/
def Syscall.Res : Syscall → Type
  | .send _ _ => Int
  | .read _ _ => Option Bytes
  | .close _ => Int

abbrev SysProg (α : Type) := Prog Syscall Syscall.Res α

/-- The body of a C function: variables `σ` that outlive a `goto BYE`. -/
abbrev Body (σ α : Type) := Proc Syscall Syscall.Res σ Why α

def sysSend (sock : Int) (buf : Bytes) : SysProg Int := Prog.perform (Syscall.send sock buf)

def sysRead (sock : Int) (count : Nat) : SysProg (Option Bytes) :=
  Prog.perform (Syscall.read sock count)

def sysClose (sock : Int) : SysProg Int := Prog.perform (Syscall.close sock)

/-- How one `send` ends: whole, after some bytes, or with an error. -/
inductive SendOutcome where
  | all
  | part (count : Nat)
  | fail
  deriving DecidableEq, Repr

/-- One connection: what reads will meet, how sends will end (whole once the
list is used up), the bytes sent so far, and whether the socket is open. -/
structure Conn where
  inc : List (Arrival UInt8)
  outc : List SendOutcome
  sent : Bytes
  isOpen : Bool
  deriving DecidableEq

namespace Conn

/-- A fresh connection on which every send is whole. -/
def fresh (inc : List (Arrival UInt8)) : Conn := ⟨inc, [], [], true⟩

def push (c : Conn) (bs : Bytes) : Conn := { c with sent := c.sent ++ bs }

def withInc (c : Conn) (inc : List (Arrival UInt8)) : Conn := { c with inc := inc }

def send (bs : Bytes) (c : Conn) : Int × Conn :=
  if c.isOpen then
    match c.outc with
    | [] => (bs.length, c.push bs)
    | .all :: os => (bs.length, { c.push bs with outc := os })
    | .part k :: os => ((bs.take k).length, { c.push (bs.take k) with outc := os })
    | .fail :: os => (-1, { c with outc := os })
  else (-1, c)

def read (count : Nat) (c : Conn) : Option Bytes × Conn :=
  if c.isOpen then
    ((Arrivals.read count c.inc).1, c.withInc (Arrivals.read count c.inc).2)
  else (none, c)

def close (c : Conn) : Int × Conn :=
  if c.isOpen then (0, { c with isOpen := false }) else (-1, c)

/-- The connection answers the system calls made on its socket, whatever its number. For a
negative one every real call fails; here a function that does not check for it sends before its
first read fails. `Host.handle` refuses negative numbers. -/
def handle : Handler Syscall Syscall.Res Conn
  | .send _ buf => send buf
  | .read _ count => read count
  | .close _ => close

/-- The connection after its next `n` bytes have been read. -/
def skip (n : Nat) (c : Conn) : Conn := c.withInc (Arrivals.skip n c.inc)

/-- Open, and every send to come is whole. -/
structure Ready (c : Conn) : Prop where
  isOpen : c.isOpen = true
  outc : c.outc = []

@[simp] theorem inc_push (c : Conn) (bs : Bytes) : (c.push bs).inc = c.inc := rfl
@[simp] theorem sent_push (c : Conn) (bs : Bytes) : (c.push bs).sent = c.sent ++ bs := rfl
@[simp] theorem isOpen_push (c : Conn) (bs : Bytes) : (c.push bs).isOpen = c.isOpen := rfl
@[simp] theorem outc_push (c : Conn) (bs : Bytes) : (c.push bs).outc = c.outc := rfl
@[simp] theorem inc_withInc (c : Conn) (s : List (Arrival UInt8)) : (c.withInc s).inc = s := rfl
@[simp] theorem sent_withInc (c : Conn) (s : List (Arrival UInt8)) :
    (c.withInc s).sent = c.sent := rfl
@[simp] theorem isOpen_withInc (c : Conn) (s : List (Arrival UInt8)) :
    (c.withInc s).isOpen = c.isOpen := rfl
@[simp] theorem outc_withInc (c : Conn) (s : List (Arrival UInt8)) :
    (c.withInc s).outc = c.outc := rfl
@[simp] theorem withInc_withInc (c : Conn) (s t : List (Arrival UInt8)) :
    (c.withInc s).withInc t = c.withInc t := rfl
@[simp] theorem push_push (c : Conn) (as bs : Bytes) :
    (c.push as).push bs = c.push (as ++ bs) := by
  simp [push, List.append_assoc]

@[simp] theorem skip_zero (c : Conn) : c.skip 0 = c := by
  simp [skip, withInc]
@[simp] theorem inc_skip (n : Nat) (c : Conn) : (c.skip n).inc = Arrivals.skip n c.inc := rfl
@[simp] theorem sent_skip (n : Nat) (c : Conn) : (c.skip n).sent = c.sent := rfl
@[simp] theorem isOpen_skip (n : Nat) (c : Conn) : (c.skip n).isOpen = c.isOpen := rfl
@[simp] theorem outc_skip (n : Nat) (c : Conn) : (c.skip n).outc = c.outc := rfl

theorem Ready.push {c : Conn} (h : c.Ready) (bs : Bytes) : (c.push bs).Ready :=
  ⟨h.isOpen, h.outc⟩

theorem Ready.withInc {c : Conn} (h : c.Ready) (s : List (Arrival UInt8)) :
    (c.withInc s).Ready := ⟨h.isOpen, h.outc⟩

theorem send_ready {c : Conn} (h : c.Ready) (bs : Bytes) :
    c.send bs = ((bs.length : Int), c.push bs) := by
  simp [send, h.isOpen, h.outc]

theorem read_open {c : Conn} (h : c.isOpen = true) (count : Nat) :
    c.read count =
      ((Arrivals.read count c.inc).1, c.withInc (Arrivals.read count c.inc).2) := by
  simp [read, h]

end Conn

@[simp] theorem run_sysSend (sock : Int) (buf : Bytes) (c : Conn) :
    Prog.run Conn.handle (sysSend sock buf) c = c.send buf := rfl

@[simp] theorem run_sysRead (sock : Int) (count : Nat) (c : Conn) :
    Prog.run Conn.handle (sysRead sock count) c = c.read count := rfl

@[simp] theorem run_sysClose (sock : Int) (c : Conn) :
    Prog.run Conn.handle (sysClose sock) c = c.close := rfl

/-- With no piece in front a read meets the end of file or fails. -/
theorem run_sysRead_none {c : Conn} (hopen : c.isOpen = true)
    (hfront : (Arrivals.front c.inc).length = 0) (sock : Int) (count : Nat) :
    (∃ inc', Prog.run Conn.handle (sysRead sock count) c = (some [], c.withInc inc')) ∨
      ∃ inc', Prog.run Conn.handle (sysRead sock count) c = (none, c.withInc inc') := by
  rw [run_sysRead, Conn.read_open hopen]
  rcases Arrivals.read_none (k := count) hfront with hread | hread
  · exact Or.inl ⟨_, by rw [hread]⟩
  · exact Or.inr ⟨_, by rw [hread]⟩

/-- With a piece in front a read brings what it asks for, as far as the piece goes. -/
theorem run_sysRead_front {c : Conn} (hopen : c.isOpen = true)
    (hfront : 0 < (Arrivals.front c.inc).length) (sock : Int) {count : Nat} (hpos : 0 < count) :
    Prog.run Conn.handle (sysRead sock count) c =
      (some ((Arrivals.avail c.inc).take (min count (Arrivals.front c.inc).length)),
        c.skip (min count (Arrivals.front c.inc).length)) := by
  rw [run_sysRead, Conn.read_open hopen, Arrivals.read_front hpos hfront]
  rfl

/-- The connection after a body has run on it. -/
abbrev execOn {σ α : Type} (p : Body σ α) (s : σ) (c : Conn) : Final Why σ Conn α :=
  Proc.exec Conn.handle p s c

/-- Memory after bytes were stored from its start; bytes beyond its end are kept,
so that a store past the end shows in the length. -/
def overwrite (mem new : Bytes) : Bytes := new ++ mem.drop new.length

theorem take_overwrite (mem new : Bytes) : (overwrite mem new).take new.length = new := by
  rw [overwrite, List.take_left]

/-- What `get_buf_from_sock` leaves: its status, the bytes stored from the start
of the buffer, and `*ptr_num_read` where it is assigned. -/
structure Recv where
  status : Status
  got : Bytes
  numRead : Option Nat
  deriving DecidableEq

/-- The read loop. Every read that goes on takes a byte, so the remaining
length bounds the rounds. -/
def recvLoop (sock : Int) (numToRead : Nat) : Nat → Nat → Bytes → SysProg Recv
  | 0, _, got => return ⟨.ok, got, some got.length⟩
  | fuel + 1, buflen, got => do
      match ← sysRead sock buflen with
      | none => return ⟨.bad .fault, got, none⟩
      | some [] => return ⟨.bad .eof, got, none⟩
      | some (b :: bs) =>
          let got := got ++ b :: bs
          if numToRead ≤ got.length then return ⟨.ok, got, some got.length⟩
          else recvLoop sock numToRead fuel (buflen - (bs.length + 1)) got

def getBufFromSock (sock : Int) (bufIsNull : Bool) (buflen : Int) : SysProg Recv :=
  if sock < 0 then return ⟨.bad .argument, [], none⟩
  else if buflen < 0 then return ⟨.bad .argument, [], none⟩
  else if bufIsNull then return ⟨.bad .argument, [], none⟩
  else if buflen = 0 then return ⟨.ok, [], none⟩
  else recvLoop sock buflen.toNat buflen.toNat buflen.toNat []

/-- The failure of a read that stopped early. -/
def whyStopped : Arrivals.Stop → Why
  | .fault => .fault
  | _ => .eof

/-- What the loop leaves after `got` when `buflen` more bytes are wanted. -/
def recvOf (got : Bytes) (r : Arrivals.Stop × Bytes × List (Arrival UInt8)) : Recv :=
  match r.1 with
  | .whole => ⟨.ok, got ++ r.2.1, some (got ++ r.2.1).length⟩
  | stop => ⟨.bad (whyStopped stop), got ++ r.2.1, none⟩

/-- The loop reads exactly what the stream brings for the length asked. -/
theorem run_recvLoop (sock : Int) (numToRead : Nat) {fuel buflen : Nat} {got : Bytes}
    {c : Conn} (hopen : c.isOpen = true) (hfuel : buflen ≤ fuel) (hpos : 0 < buflen)
    (hleft : got.length + buflen = numToRead) :
    Prog.run Conn.handle (recvLoop sock numToRead fuel buflen got) c =
      (recvOf got (Arrivals.readAll buflen c.inc),
        c.withInc (Arrivals.readAll buflen c.inc).2.2) := by
  induction fuel generalizing buflen got c with
  | zero => omega
  | succ fuel ih =>
      obtain ⟨n, rfl⟩ : ∃ n, buflen = n + 1 := ⟨buflen - 1, by omega⟩
      simp only [recvLoop, Prog.run_bind, run_sysRead, Conn.read_open hopen]
      cases hinc : c.inc with
      | nil => simp [Arrivals.read, Arrivals.readAll, recvOf, whyStopped]
      | cons e s =>
          cases e with
          | fault => simp [Arrivals.read, Arrivals.readAll, recvOf, whyStopped]
          | piece a as =>
              simp only [Arrivals.read, List.take_succ_cons]
              rcases Nat.lt_or_ge (as.length + 1) (n + 1) with hn | hn
              · have htake : as.take n = as := List.take_of_length_le (by omega)
                have hdrop : (a :: as).drop (n + 1) = [] :=
                  List.drop_eq_nil_of_le (by simpa using Nat.le_of_lt hn)
                have hmore : ¬ numToRead ≤ (got ++ a :: as).length := by
                  simp only [List.length_append, List.length_cons]
                  omega
                have hnext : (got ++ a :: as).length + (n + 1 - (as.length + 1)) =
                    numToRead := by
                  simp only [List.length_append, List.length_cons]
                  omega
                have hopen' : (c.withInc s).isOpen = true := hopen
                rw [htake, hdrop, Arrivals.readAll_piece_gt s hn, if_neg hmore,
                  Arrivals.pushBack_nil, ih hopen' (by omega) (by omega) hnext]
                simp only [Conn.inc_withInc, Conn.withInc_withInc, Arrivals.skip, recvOf,
                  List.append_assoc]
              · have hdone : numToRead ≤ (got ++ a :: as.take n).length := by
                  simp only [List.length_append, List.length_cons, List.length_take]
                  omega
                rw [if_pos hdone, Arrivals.readAll_piece_le s hn]
                simp [recvOf]

/-- `get_buf_from_sock` on an open socket: all bytes asked for, or a failure
after the bytes that came. -/
theorem run_getBufFromSock {sock : Int} (hsock : 0 ≤ sock) {n : Nat} (hpos : 0 < n) {c : Conn}
    (hopen : c.isOpen = true) :
    Prog.run Conn.handle (getBufFromSock sock false n) c =
      (recvOf [] (Arrivals.readAll n c.inc),
        c.withInc (Arrivals.readAll n c.inc).2.2) := by
  have h1 : ¬ sock < 0 := by omega
  have h2 : ¬ ((n : Int) < 0) := by omega
  have h3 : ¬ ((n : Int) = 0) := by omega
  simp only [getBufFromSock, if_neg h1, if_neg h2, if_neg h3, Bool.false_eq_true, if_false,
    Int.toNat_natCast]
  exact run_recvLoop sock n hopen (Nat.le_refl n) hpos (by simp)

section Steps

variable {σ : Type}

/-- `cBYE`: leave when a called function failed. -/
def cBye : Status → Body σ Unit
  | .ok => pure ()
  | .bad why => Proc.exit why

/-- Send a buffer and leave unless the count returned is the one expected. -/
def sendBuf (sock : Int) (buf : Bytes) (expected : Nat) : Body σ Unit := do
  let numSent ← Proc.lift (sysSend sock buf)
  Proc.exitIf (CInt.toSizeT numSent ≠ expected) .send

/-- Fill a local buffer by `get_buf_from_sock`. -/
def recvBuf (sock : Int) (buflen : Int) : Body σ Bytes := do
  let r ← Proc.lift (getBufFromSock sock false buflen)
  cBye r.status
  return r.got

/-- Fill the caller's memory by `get_buf_from_sock`: what came before a failure is
stored too. -/
def recvInto (sock : Int) (buflen : Int) (store : Bytes → σ → σ) : Body σ Unit := do
  let r ← Proc.lift (getBufFromSock sock false buflen)
  Proc.update (store r.got)
  cBye r.status

/-- `read_hdr`; a short count or a nonzero `res` is only reported. -/
def readHdr (sock : Int) : Body σ Phdr := do
  let buf ← recvBuf sock hdrLen
  return Phdr.ofBytes buf

/-- The header at the front of what arrives. -/
abbrev replyHdr (inc : List (Arrival UInt8)) : Phdr := Phdr.ofBytes (Arrivals.avail inc)

/-- A single `read` of `count` bytes whose count is checked. -/
def readOnce (sock : Int) (count : Nat) : Body σ Bytes := do
  match ← Proc.lift (sysRead sock count) with
  | none => Proc.exit .fault
  | some buf =>
      Proc.exitIf (buf.length = 0) .eof
      Proc.exitIf (buf.length ≠ count) .short
      return buf

/-- The stream ran dry or failed before a read was complete. -/
def stoppedAt {α : Type} (s : σ) (c : Conn) : Final Why σ Conn α :=
  ⟨.error (whyStopped (Arrivals.stop c.inc)), s, c.withInc (Arrivals.afterFault c.inc)⟩

@[simp] theorem andThen_stoppedAt {α β : Type} (s : σ) (c : Conn)
    (f : α → σ → Conn → Final Why σ Conn β) :
    (stoppedAt s c).andThen f = stoppedAt s c := rfl

theorem exec_sendBuf {c : Conn} (hc : c.Ready) (sock : Int) (buf : Bytes) (s : σ)
    (hlen : buf.length < 2 ^ 64) :
    execOn (sendBuf sock buf buf.length) s c = ⟨.ok (), s, c.push buf⟩ := by
  have hsz : CInt.toSizeT ((buf.length : Nat) : Int) = buf.length :=
    CInt.toSizeT_natCast hlen
  simp only [execOn, sendBuf, Proc.exec_bind, Proc.exec_lift, run_sysSend,
    Conn.send_ready hc, Final.andThen_ok, Proc.exec_exitIf, hsz, ne_eq, not_true_eq_false,
    if_false]

/-- Where `k` more bytes arrive these are what is stored, also when `k` is zero. -/
theorem run_getBufFromSock_whole {sock : Int} (hsock : 0 ≤ sock) {c : Conn}
    (hopen : c.isOpen = true) {n k : Nat} (hle : n + k ≤ (Arrivals.avail c.inc).length) :
    ∃ numRead, Prog.run Conn.handle (getBufFromSock sock false k) (c.skip n) =
      (⟨.ok, ((Arrivals.avail c.inc).drop n).take k, numRead⟩, c.skip (n + k)) := by
  rcases Nat.eq_zero_or_pos k with rfl | hpos
  · refine ⟨none, ?_⟩
    rw [getBufFromSock, if_neg (Int.not_lt.mpr hsock), if_neg (by omega),
      if_neg Bool.false_ne_true, if_pos Nat.cast_zero]
    rfl
  · have hav : Arrivals.avail (c.skip n).inc = (Arrivals.avail c.inc).drop n :=
      Arrivals.avail_skip (by omega)
    have hk : k ≤ (Arrivals.avail (c.skip n).inc).length := by
      rw [hav, List.length_drop]
      omega
    have hskip : Arrivals.skip k (c.skip n).inc = Arrivals.skip (n + k) c.inc :=
      Arrivals.skip_skip hle
    have hrun := run_getBufFromSock hsock hpos (c := c.skip n) hopen
    rw [Arrivals.readAll_whole hk, hav, hskip] at hrun
    exact ⟨_, hrun⟩

/-- Where fewer arrive all of them are, and the status tells why there were no more. -/
theorem run_getBufFromSock_short {sock : Int} (hsock : 0 ≤ sock) {c : Conn}
    (hopen : c.isOpen = true) {n k : Nat} (hn : n ≤ (Arrivals.avail c.inc).length)
    (hlt : (Arrivals.avail c.inc).length < n + k) :
    Prog.run Conn.handle (getBufFromSock sock false k) (c.skip n) =
      (⟨.bad (whyStopped (Arrivals.stop (c.skip n).inc)), (Arrivals.avail c.inc).drop n, none⟩,
        (c.skip n).withInc (Arrivals.afterFault (c.skip n).inc)) := by
  have hav : Arrivals.avail (c.skip n).inc = (Arrivals.avail c.inc).drop n :=
    Arrivals.avail_skip hn
  have hk : (Arrivals.avail (c.skip n).inc).length < k := by
    rw [hav, List.length_drop]
    omega
  have hrun := run_getBufFromSock hsock (by omega : 0 < k) (c := c.skip n) hopen
  rw [Arrivals.readAll_short hk, hav] at hrun
  rw [hrun]
  have hne := Arrivals.stop_ne_whole (c.skip n).inc
  cases hstop : Arrivals.stop (c.skip n).inc with
  | whole => exact absurd hstop hne
  | closed => rfl
  | fault => rfl

/-- Reading `k` bytes into a local buffer takes the next `k` bytes. -/
theorem exec_recvBuf {sock : Int} (hsock : 0 ≤ sock) {c : Conn} (hopen : c.isOpen = true)
    {n k : Nat} {buflen : Int} (hbuf : buflen = k)
    (hle : n + k ≤ (Arrivals.avail c.inc).length) (s : σ) :
    execOn (recvBuf sock buflen) s (c.skip n) =
      ⟨.ok (((Arrivals.avail c.inc).drop n).take k), s, c.skip (n + k)⟩ := by
  subst hbuf
  obtain ⟨numRead, hrun⟩ := run_getBufFromSock_whole hsock hopen hle
  rw [execOn, recvBuf, Proc.exec_lift_bind hrun]
  rfl

/-- When fewer than `k` bytes arrive the read fails. -/
theorem exec_recvBuf_short {sock : Int} (hsock : 0 ≤ sock) {c : Conn}
    (hopen : c.isOpen = true) {n k : Nat} {buflen : Int} (hbuf : buflen = k)
    (hn : n ≤ (Arrivals.avail c.inc).length) (hlt : (Arrivals.avail c.inc).length < n + k)
    (s : σ) : execOn (recvBuf sock buflen) s (c.skip n) = stoppedAt s (c.skip n) := by
  subst hbuf
  have hrun := run_getBufFromSock_short hsock hopen hn hlt
  rw [execOn, recvBuf, Proc.exec_lift_bind hrun]
  rfl

/-- Reading into the caller's memory stores exactly the bytes asked for. -/
theorem exec_recvInto {sock : Int} (hsock : 0 ≤ sock) {c : Conn} (hopen : c.isOpen = true)
    {n k : Nat} {buflen : Int} (hbuf : buflen = k)
    (hle : n + k ≤ (Arrivals.avail c.inc).length) (store : Bytes → σ → σ) (s : σ) :
    execOn (recvInto sock buflen store) s (c.skip n) =
      ⟨.ok (), store (((Arrivals.avail c.inc).drop n).take k) s, c.skip (n + k)⟩ := by
  subst hbuf
  obtain ⟨numRead, hrun⟩ := run_getBufFromSock_whole hsock hopen hle
  rw [execOn, recvInto, Proc.exec_lift_bind hrun]
  rfl

/-- When too few arrive, those that do are stored. -/
theorem exec_recvInto_short {sock : Int} (hsock : 0 ≤ sock) {c : Conn}
    (hopen : c.isOpen = true) {n k : Nat} {buflen : Int} (hbuf : buflen = k)
    (hn : n ≤ (Arrivals.avail c.inc).length) (hlt : (Arrivals.avail c.inc).length < n + k)
    (store : Bytes → σ → σ) (s : σ) :
    execOn (recvInto sock buflen store) s (c.skip n) =
      stoppedAt (store ((Arrivals.avail c.inc).drop n) s) (c.skip n) := by
  subst hbuf
  have hrun := run_getBufFromSock_short hsock hopen hn hlt
  rw [execOn, recvInto, Proc.exec_lift_bind hrun, Proc.exec_update_bind]
  rfl

theorem exec_readHdr {sock : Int} (hsock : 0 ≤ sock) {c : Conn} (hopen : c.isOpen = true)
    (hle : hdrLen ≤ (Arrivals.avail c.inc).length) (s : σ) :
    execOn (readHdr sock) s c =
      ⟨.ok (replyHdr c.inc), s, c.skip hdrLen⟩ := by
  have h := exec_recvBuf hsock hopen (n := 0) (k := hdrLen) rfl (by omega) s
  rw [Conn.skip_zero] at h
  rw [execOn, readHdr, Proc.exec_bind_ok h]
  simp [Phdr.ofBytes_take]

theorem exec_readHdr_short {sock : Int} (hsock : 0 ≤ sock) {c : Conn}
    (hopen : c.isOpen = true) (hlt : (Arrivals.avail c.inc).length < hdrLen) (s : σ) :
    execOn (readHdr sock) s c = stoppedAt s c := by
  have h := exec_recvBuf_short hsock hopen (n := 0) (k := hdrLen) rfl (by omega) (by omega) s
  rw [Conn.skip_zero] at h
  exact Proc.exec_bind_error h

/-- Nothing is read from a negative descriptor. -/
theorem exec_recvBuf_negative {sock : Int} (hsock : sock < 0) (buflen : Int) (s : σ) (c : Conn) :
    execOn (recvBuf sock buflen) s c = ⟨.error .argument, s, c⟩ := by
  have hrun : Prog.run Conn.handle (getBufFromSock sock false buflen) c =
      (⟨.bad .argument, [], none⟩, c) := by
    rw [getBufFromSock, if_pos hsock]
    rfl
  rw [execOn, recvBuf, Proc.exec_lift_bind hrun]
  rfl

/-- Nor from a closed one. -/
theorem exec_recvBuf_closed {sock : Int} (hsock : 0 ≤ sock) {c : Conn} (hclosed : c.isOpen = false)
    {n : Nat} (hpos : 0 < n) (s : σ) :
    execOn (recvBuf sock n) s c = ⟨.error .fault, s, c⟩ := by
  obtain ⟨k, rfl⟩ : ∃ k, n = k + 1 := ⟨n - 1, by omega⟩
  have hread : c.read (k + 1) = (none, c) := by
    rw [Conn.read, hclosed, if_neg Bool.false_ne_true]
  have hloop : Prog.run Conn.handle (recvLoop sock (k + 1) (k + 1) (k + 1) []) c =
      (⟨.bad .fault, [], none⟩, c) := by
    rw [recvLoop, Prog.run_bind, run_sysRead, hread]
    rfl
  have hrun : Prog.run Conn.handle (getBufFromSock sock false (k + 1 : Nat)) c =
      (⟨.bad .fault, [], none⟩, c) := by
    rw [getBufFromSock, if_neg (by omega), if_neg (by omega), if_neg Bool.false_ne_true,
      if_neg (by omega), Int.toNat_natCast, hloop]
  rw [execOn, recvBuf, Proc.exec_lift_bind hrun]
  rfl

/-- A header that was read is the one at the front of an open stream. -/
theorem of_exec_readHdr_ok {sock : Int} {c c' : Conn} {s s' : σ} {ph : Phdr}
    (hexec : execOn (readHdr sock) s c = ⟨.ok ph, s', c'⟩) :
    0 ≤ sock ∧ c.isOpen = true ∧ ph = replyHdr c.inc := by
  rcases Int.lt_or_le sock 0 with hneg | hsock
  · have hstop := exec_recvBuf_negative hneg hdrLen s c
    rw [execOn, readHdr, Proc.exec_bind_error hstop] at hexec
    cases hexec
  cases hopen : c.isOpen with
  | false =>
      have hstop := exec_recvBuf_closed hsock hopen (n := hdrLen) (by decide) s
      rw [execOn, readHdr, Proc.exec_bind_error hstop] at hexec
      cases hexec
  | true =>
      refine ⟨hsock, rfl, ?_⟩
      rcases Nat.lt_or_ge (Arrivals.avail c.inc).length hdrLen with hshort | hlong
      · rw [exec_readHdr_short hsock hopen hshort s] at hexec
        cases hexec
      · rw [exec_readHdr hsock hopen hlong s] at hexec
        cases hexec
        rfl

/-- Failures of the transport, as opposed to a reply that is not liked. -/
def Why.isTransport : Why → Prop
  | .eof | .fault | .short => True
  | _ => False

theorem isTransport_whyStopped (stop : Arrivals.Stop) : (whyStopped stop).isTransport := by
  cases stop <;> trivial

/-- A single read gets its bytes when one piece holds them. -/
theorem exec_readOnce {c : Conn} (hopen : c.isOpen = true) {n k : Nat} (hpos : 0 < k)
    (hn : n ≤ (Arrivals.avail c.inc).length)
    (hfront : k ≤ (Arrivals.front (Arrivals.skip n c.inc)).length) (sock : Int) (s : σ) :
    execOn (readOnce sock k) s (c.skip n) =
      ⟨.ok (((Arrivals.avail c.inc).drop n).take k), s, c.skip (n + k)⟩ := by
  have hav : Arrivals.avail (Arrivals.skip n c.inc) = (Arrivals.avail c.inc).drop n :=
    Arrivals.avail_skip hn
  have hle := Arrivals.length_front_le (Arrivals.skip n c.inc)
  rw [hav, List.length_drop] at hle
  have hskip : Arrivals.skip k (Arrivals.skip n c.inc) = Arrivals.skip (n + k) c.inc :=
    Arrivals.skip_skip (by omega)
  have hlen : (((Arrivals.avail c.inc).drop n).take k).length = k := by
    rw [List.length_take, List.length_drop]
    omega
  have hread : (c.skip n).read k =
      (some (((Arrivals.avail c.inc).drop n).take k), c.skip (n + k)) := by
    rw [Conn.read_open (by exact hopen), Conn.inc_skip, Arrivals.read_whole hpos hfront, hav, hskip]
    rfl
  rw [execOn, readOnce, Proc.exec_lift_bind ((run_sysRead sock k _).trans hread)]
  rw [Proc.exec_exitIf_neg (by omega), Proc.exec_exitIf_neg (not_not_intro hlen), Proc.exec_pure]

/-- Otherwise it fails in the transport. -/
theorem exec_readOnce_short {c : Conn} (hopen : c.isOpen = true) {k : Nat}
    (hfront : (Arrivals.front c.inc).length < k) (sock : Int) (s : σ) :
    ∃ why inc', execOn (readOnce sock k) s c = ⟨.error why, s, c.withInc inc'⟩ ∧
      why.isTransport := by
  rcases Nat.eq_zero_or_pos (Arrivals.front c.inc).length with h0 | hpos
  · rcases run_sysRead_none hopen h0 sock k with ⟨inc', hrun⟩ | ⟨inc', hrun⟩
    · refine ⟨.eof, inc', ?_, trivial⟩
      rw [execOn, readOnce, Proc.exec_lift_bind hrun]
      exact Proc.exec_exitIf_pos rfl
    · refine ⟨.fault, inc', ?_, trivial⟩
      rw [execOn, readOnce, Proc.exec_lift_bind hrun, Proc.exec_exit]
  · refine ⟨.short, Arrivals.skip (Arrivals.front c.inc).length c.inc, ?_, trivial⟩
    have hrun : Prog.run Conn.handle (sysRead sock k) c =
        (some (Arrivals.front c.inc), c.skip (Arrivals.front c.inc).length) := by
      rw [run_sysRead, Conn.read_open hopen, Arrivals.read_part hpos (Nat.le_of_lt hfront)]
      rfl
    rw [execOn, readOnce, Proc.exec_lift_bind hrun, Proc.exec_exitIf_neg (by omega)]
    exact Proc.exec_exitIf_pos (by omega)

end Steps

/-- The commands the client sends. -/
inductive Command where
  | shutdown
  | setSexp
  | eval
  | voidEval
  deriving DecidableEq, Repr

def Command.code : Command → Int32
  | .shutdown => cmdShutdown
  | .setSexp => cmdSetSexp
  | .eval => cmdEval
  | .voidEval => cmdVoidEval

def mkHdr (command : Command) (payloadLen : Int32) : Except Why Phdr :=
  if payloadLen.toInt < 0 then .error .argument
  else .ok { cmd := command.code, len := payloadLen, msgId := 0, res := 0 }

/-- Sizes above this cannot be allocated. -/
def ptrdiffMax : Nat := 2 ^ 63 - 1

end RserveClient
