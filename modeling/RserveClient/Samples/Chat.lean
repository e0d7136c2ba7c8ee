import RserveClient.Client.Socket
import RserveClient.Foundation.CInt
import RserveClient.Foundation.Transition

/-!
# The sample chat

`my_client.c` and `my_server.c`: the client writes a message whose first four bytes are its
length, and the server sends it back with the other bytes changed. The two run side by side
and take turns in any order; each `read` and `write` moves as many bytes as the network likes.

## Implementation notes

The loops of both ask for the whole message at every `read`, not for what is left of it. A
store outside a buffer is a state of its own, `wild`, and so is visible in a run.
-/

namespace RserveClient

open Transition
open LittleEndian (encode decode)

namespace Chat

/-- What becomes of a `read` or a `write`. -/
inductive Moved where
  | bytes (k : Nat)
  | closed
  | failed
  deriving DecidableEq

/-- Where a party is: what comes next, and the locals of its loop. -/
inductive Pc where
  | write (n : Int)
  | size
  | body (numToRead numRead : Int)
  | exited
  | wild
  deriving DecidableEq

structure Party where
  buf : Bytes
  pc : Pc
  deriving DecidableEq

/-- Both parties, the bytes under way, how many messages the client has still to send and what
its function returned for the others, `true` for 0. -/
structure State where
  client : Party
  left : Nat
  statuses : List Bool
  server : Party
  toServer : Bytes
  toClient : Bytes
  deriving DecidableEq

inductive Side where
  | client
  | server
  deriving DecidableEq

/-- What `read` returns, the bytes it stores and the bytes that are left. -/
def receive (q : Bytes) (gone : Bool) (count : Nat) : Moved → Option (Int × Bytes × Bytes)
  | .bytes k =>
      if 0 < k ∧ k ≤ count ∧ k ≤ q.length then some (k, q.take k, q.drop k) else none
  | .closed => if q = [] ∧ gone = true then some (0, [], []) else none
  | .failed => some (-1, [], q)

/-- What `write` returns and the bytes then under way. -/
def transmit (q buf : Bytes) : Moved → Option (Int × Bytes)
  | .bytes k => if k ≤ buf.length then some (k, q ++ buf.take k) else none
  | .closed => none
  | .failed => some (-1, q)

/-- The buffer after a store, which must lie inside it. -/
def storeAt (buf : Bytes) (off : Int) (data : Bytes) : Option Bytes :=
  if 0 ≤ off ∧ off + data.length ≤ buf.length then
    some (buf.take off.toNat ++ (data ++ buf.drop (off.toNat + data.length)))
  else none

/-- `((int *)buf)[0]` -/
def firstInt (buf : Bytes) : Int := CInt.toInt (decode (buf.take 4))

/-- Bytes 4 to `n - 1` are all `b`. -/
def bodyIs (b : UInt8) (n : Int) (buf : Bytes) : Bool := ((buf.take n.toNat).drop 4).all (· = b)

/-- The bytes 4 to `n - 1` become 2. -/
def answer (n : Int) (buf : Bytes) : Bytes :=
  buf.take 4 ++ (List.replicate (n.toNat - 4) 2 ++ buf.drop (max 4 n.toNat))

/-- What `main` makes of `sendbuf`: ones, and the length in front. -/
def sendbuf (n : Nat) : Bytes := overwrite (List.replicate n 1) (encode 4 n)

/-- `func` returns to the loop of `main`. -/
def clientReturn (n : Nat) (c : State) (buf : Bytes) (ok : Bool) : State :=
  { c with
    client := ⟨buf, if c.left ≤ 1 then .exited else .write n⟩
    left := c.left - 1
    statuses := c.statuses ++ [ok] }

/-- The head of the loop that reads the body, and the check after it. -/
def clientLoop (n : Nat) (c : State) (buf : Bytes) (numToRead numRead : Int) : State :=
  if numRead < numToRead then { c with client := ⟨buf, .body numToRead numRead⟩ }
  else clientReturn n c buf (bodyIs 2 numToRead buf)

def clientWild (c : State) : State := { c with client := ⟨c.client.buf, .wild⟩ }

def clientStep (n : Nat) (c : State) (m : Moved) : Option State :=
  let gone : Bool := c.server.pc = .exited
  match c.client.pc with
  | .write bufsz =>
      let size := firstInt (sendbuf n)
      if size ≤ 0 ∨ bufsz < size then some (clientReturn n c c.client.buf false)
      else do
        let r ← transmit c.toServer ((sendbuf n).take bufsz.toNat) m
        return { c with client := ⟨c.client.buf, .size⟩, toServer := r.2 }
  | .size => do
      let r ← receive c.toClient gone 4 m
      let c := { c with toClient := r.2.2 }
      match storeAt c.client.buf 0 r.2.1 with
      | none => return clientWild c
      | some buf => return clientLoop n c buf (firstInt buf) 4
  | .body numToRead numRead => do
      let r ← receive c.toClient gone numToRead.toNat m
      let c := { c with toClient := r.2.2 }
      match storeAt c.client.buf numRead r.2.1 with
      | none => return clientWild c
      | some buf => return clientLoop n c buf numToRead (numRead + r.1)
  | .exited => none
  | .wild => none

def serverAt (c : State) (buf : Bytes) (pc : Pc) : State := { c with server := ⟨buf, pc⟩ }

/-- The head of the loop that reads the body, and what follows the loop. -/
def serverLoop (c : State) (buf : Bytes) (numToRead numRead : Int) : State :=
  if numRead < numToRead then serverAt c buf (.body numToRead numRead)
  else if bodyIs 1 numToRead buf then
    serverAt c (answer numToRead buf) (.write numToRead)
  else serverAt c buf .exited

def serverStep (c : State) (m : Moved) : Option State :=
  let gone : Bool := c.client.pc = .exited
  match c.server.pc with
  | .size => do
      let r ← receive c.toServer gone 4 m
      let c := { c with toServer := r.2.2 }
      match storeAt c.server.buf 0 r.2.1 with
      | none => return serverAt c c.server.buf .wild
      | some buf =>
          let size := firstInt buf
          if size ≤ 0 ∨ buf.length < size then return serverAt c buf .exited
          else return serverLoop c buf size 4
  | .body numToRead numRead => do
      let r ← receive c.toServer gone numToRead.toNat m
      let c := { c with toServer := r.2.2 }
      if r.1 = 0 then return serverAt c c.server.buf .exited
      else
        match storeAt c.server.buf numRead r.2.1 with
        | none => return serverAt c c.server.buf .wild
        | some buf => return serverLoop c buf numToRead (numRead + r.1)
  | .write n => do
      let r ← transmit c.toClient (c.server.buf.take n.toNat) m
      if r.1 < 0 then return serverAt c c.server.buf .exited
      else return { serverAt c c.server.buf .size with toClient := r.2 }
  | .exited => none
  | .wild => none

def step (n : Nat) (c : State) : Side × Moved → Option State
  | (.client, m) => clientStep n c m
  | (.server, m) => serverStep c m

theorem step_client (n : Nat) (c : State) (m : Moved) :
    step n c (.client, m) = clientStep n c m := rfl

theorem step_server (n : Nat) (c : State) (m : Moved) :
    step n c (.server, m) = serverStep c m := rfl

/-- Both connected, with whatever `malloc` found in the buffers. -/
def start (n niters : Nat) (cbuf sbuf : Bytes) : State :=
  ⟨⟨cbuf, .write n⟩, niters, [], ⟨sbuf, .size⟩, [], []⟩

/-- No call fails, a `write` takes all it is given, and the four bytes of a length are read
at once. -/
def Pc.regular : Pc → Moved → Prop
  | .write n, m => m = .bytes n.toNat
  | .size, m => m = .bytes 4 ∨ m = .closed
  | .body _ _, m => m ≠ .failed
  | .exited, _ => True
  | .wild, _ => True

instance : (pc : Pc) → (m : Moved) → Decidable (pc.regular m)
  | .write n, m => inferInstanceAs (Decidable (m = .bytes n.toNat))
  | .size, m => inferInstanceAs (Decidable (m = .bytes 4 ∨ m = .closed))
  | .body _ _, m => inferInstanceAs (Decidable (m ≠ .failed))
  | .exited, _ => isTrue trivial
  | .wild, _ => isTrue trivial

def Regular (c : State) : Side × Moved → Prop
  | (.client, m) => c.client.pc.regular m
  | (.server, m) => c.server.pc.regular m

instance : (c : State) → (l : Side × Moved) → Decidable (Regular c l)
  | c, (.client, m) => inferInstanceAs (Decidable (c.client.pc.regular m))
  | c, (.server, m) => inferInstanceAs (Decidable (c.server.pc.regular m))

section Message

variable {n : Nat}

/-- A message and its answer: the length, and then the same byte everywhere. -/
def message (n : Nat) (b : UInt8) : Bytes := encode 4 n ++ List.replicate (n - 4) b

theorem length_message (hn : 4 ≤ n) (b : UInt8) : (message n b).length = n := by
  rw [message, List.length_append, LittleEndian.length_encode, List.length_replicate]
  omega

theorem sendbuf_eq (n : Nat) : sendbuf n = message n 1 := by
  rw [sendbuf, overwrite, List.drop_replicate, LittleEndian.length_encode, message]

/-- Any buffer that begins with the length is read as it. -/
theorem firstInt_eq (hn : n < 2 ^ 31) {buf : Bytes} (h : buf.take 4 = encode 4 n) :
    firstInt buf = n := by
  rw [firstInt, h, LittleEndian.decode_encode, Nat.mod_eq_of_lt (by omega),
    CInt.toInt_eq (by omega) (by omega)]

theorem take_message {k : Nat} (hk : k ≤ 4) (n : Nat) (b : UInt8) :
    (message n b).take k = (encode 4 n).take k := by
  rw [message, List.take_append_of_le_length]
  rwa [LittleEndian.length_encode]

theorem head_message (n : Nat) (b : UInt8) : (message n b).take 4 = encode 4 n := by
  rw [take_message (Nat.le_refl 4)]
  exact List.take_of_length_le (Nat.le_of_eq (LittleEndian.length_encode 4 n))

/-- A buffer that holds a message begins with its length. -/
theorem head_of_take (hn : 4 ≤ n) {b : UInt8} {buf : Bytes} (h : buf.take n = message n b) :
    buf.take 4 = encode 4 n := by
  have htake : buf.take 4 = (buf.take n).take 4 := by
    rw [List.take_take, Nat.min_eq_left hn]
  rw [htake, h, head_message]

/-- A message that is written whole is under way. -/
theorem transmit_message (hn : 4 ≤ n) (b : UInt8) :
    transmit [] (message n b) (.bytes n) = some ((n : Int), message n b) := by
  have hlen := length_message hn b
  rw [transmit, if_pos (Nat.le_of_eq hlen.symm), List.nil_append,
    List.take_of_length_le (Nat.le_of_eq hlen)]

theorem bodyIs_message {b : UInt8} {buf : Bytes} (h : buf.take n = message n b) :
    bodyIs b n buf = true := by
  rw [bodyIs, Int.toNat_natCast, h, message,
    List.drop_left' (LittleEndian.length_encode 4 n)]
  simp

theorem take_answer (hn : 4 ≤ n) {buf : Bytes} (h : buf.take 4 = encode 4 n) :
    (answer n buf).take n = message n 2 := by
  rw [answer, h, Int.toNat_natCast, ← List.append_assoc]
  exact List.take_left' (length_message hn 2)

theorem length_answer (hn : 4 ≤ n) {buf : Bytes} (hlen : n ≤ buf.length) :
    (answer n buf).length = buf.length := by
  simp only [answer, List.length_append, List.length_take, List.length_replicate,
    List.length_drop, Int.toNat_natCast]
  omega

/-- The next piece of a message is stored behind the pieces that came before it. -/
theorem storeAt_message (msg buf : Bytes) {r k : Nat} (hr : r + k ≤ msg.length)
    (hbuf : msg.length ≤ buf.length) (h : buf.take r = msg.take r) :
    ∃ buf', storeAt buf r ((msg.drop r).take k) = some buf' ∧ buf'.length = buf.length ∧
      buf'.take (r + k) = msg.take (r + k) := by
  have hk : ((msg.drop r).take k).length = k := by
    rw [List.length_take, List.length_drop]
    omega
  have hin : (0 : Int) ≤ r ∧ (r : Int) + ((msg.drop r).take k).length ≤ buf.length := by
    rw [hk]
    omega
  refine ⟨_, if_pos hin, ?_, ?_⟩
  · simp only [List.length_append, List.length_take, List.length_drop, Int.toNat_natCast]
    omega
  · rw [Int.toNat_natCast, h, ← List.append_assoc, ← List.take_add]
    refine List.take_left' ?_
    rw [List.length_take]
    omega

end Message

section Phases

variable (n szbuf niters : Nat)

/-- What the client and the server agree on throughout. -/
structure Fits (cbuf sbuf : Bytes) : Prop where
  client : cbuf.length = n
  server : sbuf.length = szbuf

/-- Where the two can be, with what is under way, and a bound on the steps until the client is
through: `left` messages after this one, `2 * n - 4` steps for each. -/
inductive Phase : State → Nat → Prop where
  | ready {cbuf sbuf : Bytes} {left k : Nat} (hfits : Fits n szbuf cbuf sbuf)
      (hk : k + (left + 1) = niters) :
      Phase ⟨⟨cbuf, .write n⟩, left + 1, List.replicate k true, ⟨sbuf, .size⟩, [], []⟩
        ((left + 1) * (2 * n - 4))
  | asked {cbuf sbuf : Bytes} {left k : Nat} (hfits : Fits n szbuf cbuf sbuf)
      (hk : k + (left + 1) = niters) :
      Phase ⟨⟨cbuf, .size⟩, left + 1, List.replicate k true, ⟨sbuf, .size⟩, message n 1, []⟩
        (left * (2 * n - 4) + (2 * n - 5))
  | hearing {cbuf sbuf : Bytes} {left k r : Nat} (hfits : Fits n szbuf cbuf sbuf)
      (hk : k + (left + 1) = niters) (hr : 4 ≤ r) (hrn : r < n)
      (hbuf : sbuf.take r = (message n 1).take r) :
      Phase ⟨⟨cbuf, .size⟩, left + 1, List.replicate k true, ⟨sbuf, .body n r⟩,
          (message n 1).drop r, []⟩
        (left * (2 * n - 4) + (n - 2 + (n - r)))
  | answering {cbuf sbuf : Bytes} {left k : Nat} (hfits : Fits n szbuf cbuf sbuf)
      (hk : k + (left + 1) = niters) (hbuf : sbuf.take n = message n 2) :
      Phase ⟨⟨cbuf, .size⟩, left + 1, List.replicate k true, ⟨sbuf, .write n⟩, [], []⟩
        (left * (2 * n - 4) + (n - 2))
  | answered {cbuf sbuf : Bytes} {left k : Nat} (hfits : Fits n szbuf cbuf sbuf)
      (hk : k + (left + 1) = niters) (hbuf : sbuf.take 4 = encode 4 n) :
      Phase ⟨⟨cbuf, .size⟩, left + 1, List.replicate k true, ⟨sbuf, .size⟩, [], message n 2⟩
        (left * (2 * n - 4) + (n - 3))
  | told {cbuf sbuf : Bytes} {left k r : Nat} (hfits : Fits n szbuf cbuf sbuf)
      (hk : k + (left + 1) = niters) (hr : 4 ≤ r) (hrn : r < n)
      (hbuf : cbuf.take r = (message n 2).take r) (hsbuf : sbuf.take 4 = encode 4 n) :
      Phase ⟨⟨cbuf, .body n r⟩, left + 1, List.replicate k true, ⟨sbuf, .size⟩, [],
          (message n 2).drop r⟩
        (left * (2 * n - 4) + (n - r))
  | ended {cbuf sbuf toClient : Bytes} {pc : Pc} (hfits : Fits n szbuf cbuf sbuf)
      (hbuf : sbuf.take 4 = encode 4 n)
      (hpc : pc = .size ∨ pc = .exited ∨ pc = .write n ∨ (pc = .body n 4 ∧ 4 < n)) :
      Phase ⟨⟨cbuf, .exited⟩, 0, List.replicate niters true, ⟨sbuf, pc⟩, [], toClient⟩ 0

variable {n szbuf niters}

theorem receive_cases {q : Bytes} {gone : Bool} {count : Nat} {m : Moved}
    {r : Int × Bytes × Bytes} (h : receive q gone count m = some r) (hm : m ≠ .failed) :
    (∃ k, m = .bytes k ∧ 0 < k ∧ k ≤ count ∧ k ≤ q.length ∧
        r = ((k : Int), q.take k, q.drop k)) ∨
      (m = .closed ∧ q = [] ∧ gone = true ∧ r = (0, [], [])) := by
  cases m with
  | bytes k =>
      rw [receive] at h
      split at h
      · rename_i hk
        exact Or.inl ⟨k, rfl, hk.1, hk.2.1, hk.2.2, (Option.some.inj h).symm⟩
      · cases h
  | closed =>
      rw [receive] at h
      split at h
      · rename_i hq
        exact Or.inr ⟨rfl, hq.1, hq.2, (Option.some.inj h).symm⟩
      · cases h
  | failed => exact absurd rfl hm

theorem receive_bytes {q : Bytes} {k count : Nat} (gone : Bool) (hpos : 0 < k) (hk : k ≤ count)
    (hq : k ≤ q.length) :
    receive q gone count (.bytes k) = some ((k : Int), q.take k, q.drop k) :=
  if_pos ⟨hpos, hk, hq⟩

/-- Nothing is read where nothing is under way and the other side is still there. -/
theorem receive_nil {count : Nat} {m : Moved} (hm : m ≠ .failed) :
    receive [] false count m = none := by
  cases hr : receive [] false count m with
  | none => rfl
  | some r =>
      rcases receive_cases hr hm with ⟨k, _, hpos, _, hk, _⟩ | ⟨_, _, hgone, _⟩
      · exact absurd hpos (Nat.not_lt.mpr hk)
      · cases hgone

theorem Pc.regular.ne_failed {m : Moved} (h : Pc.size.regular m) : m ≠ .failed := by
  rcases h with rfl | rfl
  · intro heq
    cases heq
  · intro heq
    cases heq

/-- Bytes are brought where some are under way. -/
theorem receive_some {q : Bytes} {gone : Bool} {count : Nat} {m : Moved}
    {r : Int × Bytes × Bytes} (h : receive q gone count m = some r) (hm : m ≠ .failed)
    (hq : 0 < q.length) :
    ∃ k, m = .bytes k ∧ 0 < k ∧ k ≤ count ∧ k ≤ q.length ∧ r = ((k : Int), q.take k, q.drop k) := by
  rcases receive_cases h hm with hbytes | ⟨_, hnil, _⟩
  · exact hbytes
  · rw [hnil, List.length_nil] at hq
    exact absurd hq (Nat.lt_irrefl 0)

/-- A length that is read is read at once. -/
theorem receive_size {q : Bytes} {gone : Bool} {m : Moved} {r : Int × Bytes × Bytes}
    (h : receive q gone 4 m = some r) (hreg : Pc.size.regular m) (hq : 0 < q.length) :
    r = (((4 : Nat) : Int), q.take 4, q.drop 4) := by
  obtain ⟨k, rfl, _, _, _, rfl⟩ := receive_some h hreg.ne_failed hq
  rcases hreg with heq | heq
  · rw [Moved.bytes.inj heq]
  · cases heq

/-- A client that waits for an answer has no step before it comes. -/
theorem clientStep_waiting {c : State} {m : Moved} (hpc : c.client.pc = .size)
    (hnone : c.toClient = []) (hthere : c.server.pc ≠ .exited) (hreg : Pc.size.regular m) :
    clientStep n c m = none := by
  rw [clientStep, hpc]
  dsimp only
  rw [hnone, decide_eq_false hthere, receive_nil hreg.ne_failed]
  rfl

/-- A server that waits for a message has no step before it comes. -/
theorem serverStep_waiting {c : State} {m : Moved} (hpc : c.server.pc = .size)
    (hnone : c.toServer = []) (hthere : c.client.pc ≠ .exited) (hreg : Pc.size.regular m) :
    serverStep c m = none := by
  rw [serverStep, hpc]
  dsimp only
  rw [hnone, decide_eq_false hthere, receive_nil hreg.ne_failed]
  rfl

/-- Where the client is after its loop has seen `r` bytes of the answer. -/
theorem phase_clientLoop {cbuf sbuf : Bytes} {left k r : Nat} (old : Bytes) (pc : Pc)
    (hfits : Fits n szbuf cbuf sbuf) (hk : k + (left + 1) = niters) (hr : 4 ≤ r) (hrn : r ≤ n)
    (hbuf : cbuf.take r = (message n 2).take r) (hsbuf : sbuf.take 4 = encode 4 n) :
    ∃ w ≤ left * (2 * n - 4) + (n - r), Phase n szbuf niters
      (clientLoop n ⟨⟨old, pc⟩, left + 1, List.replicate k true, ⟨sbuf, .size⟩, [],
        (message n 2).drop r⟩ cbuf n r) w := by
  have hn : 4 ≤ n := Nat.le_trans hr hrn
  rcases Nat.lt_or_eq_of_le hrn with hlt | rfl
  · rw [clientLoop, if_pos (by omega)]
    exact ⟨_, Nat.le_refl _, .told hfits hk hr hlt hbuf hsbuf⟩
  · have hlen := length_message hn 2
    have hall : cbuf.take r = message r 2 := by
      rw [hbuf]
      exact List.take_of_length_le (Nat.le_of_eq hlen)
    have hdrop : (message r 2).drop r = [] := List.drop_of_length_le (Nat.le_of_eq hlen)
    have hstatuses : List.replicate k true ++ [true] = List.replicate (k + 1) true :=
      List.replicate_succ'.symm
    rw [clientLoop, if_neg (Int.lt_irrefl _), bodyIs_message hall, clientReturn, hdrop]
    dsimp only
    rw [Nat.add_sub_cancel, hstatuses]
    cases left with
    | zero =>
        refine ⟨0, Nat.zero_le _, ?_⟩
        rw [if_pos (Nat.le_refl _), show k + 1 = niters from hk]
        exact .ended hfits hsbuf (Or.inl rfl)
    | succ left =>
        rw [if_neg (by omega)]
        exact ⟨_, Nat.le_add_right _ _, .ready hfits (by omega)⟩

/-- Where the server is after its loop has seen `r` bytes of the message. -/
theorem phase_serverLoop {cbuf sbuf : Bytes} {left k r : Nat} (old : Bytes) (pc : Pc)
    (hfits : Fits n szbuf cbuf sbuf) (hsz : n ≤ szbuf) (hk : k + (left + 1) = niters)
    (hr : 4 ≤ r) (hrn : r ≤ n) (hbuf : sbuf.take r = (message n 1).take r) :
    ∃ w ≤ left * (2 * n - 4) + (n - 2 + (n - r)), Phase n szbuf niters
      (serverLoop ⟨⟨cbuf, .size⟩, left + 1, List.replicate k true, ⟨old, pc⟩,
        (message n 1).drop r, []⟩ sbuf n r) w := by
  have hn : 4 ≤ n := Nat.le_trans hr hrn
  rcases Nat.lt_or_eq_of_le hrn with hlt | rfl
  · rw [serverLoop, if_pos (by omega)]
    exact ⟨_, Nat.le_refl _, .hearing hfits hk hr hlt hbuf⟩
  · have hlen := length_message hn 1
    have hall : sbuf.take r = message r 1 := by
      rw [hbuf]
      exact List.take_of_length_le (Nat.le_of_eq hlen)
    have hhead : sbuf.take 4 = encode 4 r := head_of_take hr hall
    have hdrop : (message r 1).drop r = [] := List.drop_of_length_le (Nat.le_of_eq hlen)
    have hroom : r ≤ sbuf.length := by
      rw [hfits.server]
      exact hsz
    rw [serverLoop, if_neg (Int.lt_irrefl _), if_pos (bodyIs_message hall), hdrop]
    refine ⟨_, ?_, .answering ⟨hfits.client, ?_⟩ hk (take_answer hn hhead)⟩
    · omega
    · rw [length_answer hn hroom, hfits.server]

/-- The first four bytes of a message are stored, and read as its length. -/
theorem storeAt_size {buf : Bytes} (hn : 4 ≤ n) (hlt : n < 2 ^ 31) (b : UInt8)
    (hbuf : n ≤ buf.length) :
    ∃ buf', storeAt buf 0 ((message n b).take 4) = some buf' ∧ buf'.length = buf.length ∧
      buf'.take 4 = (message n b).take 4 ∧ buf'.take 4 = encode 4 n ∧ firstInt buf' = n := by
  have hlen := length_message hn b
  obtain ⟨buf', hstore, hlen', htake⟩ := storeAt_message (message n b) buf
    (r := 0) (k := 4) (by omega) (by omega) rfl
  have hhead : buf'.take 4 = encode 4 n := htake.trans (head_message n b)
  exact ⟨buf', hstore, hlen', htake, hhead, firstInt_eq hlt hhead⟩

section ClientSteps

variable {cbuf sbuf : Bytes} {left k : Nat} {m : Moved} {c' : State}

/-- The client writes its message. -/
theorem client_ready (hn : 4 ≤ n) (hlt : n < 2 ^ 31) (hfits : Fits n szbuf cbuf sbuf)
    (hk : k + (left + 1) = niters) (hreg : (Pc.write n).regular m)
    (hstep : clientStep n ⟨⟨cbuf, .write n⟩, left + 1, List.replicate k true, ⟨sbuf, .size⟩,
      [], []⟩ m = some c') :
    ∃ w ≤ (left + 1) * (2 * n - 4) - 1, Phase n szbuf niters c' w := by
  have hm : m = .bytes (n : Int).toNat := hreg
  have hsize : firstInt (sendbuf n) = n := firstInt_eq hlt (sendbuf_eq n ▸ head_message n 1)
  have hall : (sendbuf n).take (n : Int).toNat = message n 1 := by
    rw [sendbuf_eq, Int.toNat_natCast]
    exact List.take_of_length_le (Nat.le_of_eq (length_message hn 1))
  rw [hm, clientStep] at hstep
  dsimp only at hstep
  rw [hsize, if_neg (by omega), hall, Int.toNat_natCast, transmit_message hn] at hstep
  obtain rfl := Option.some.inj hstep
  refine ⟨_, ?_, .asked hfits hk⟩
  rw [Nat.add_mul]
  omega

/-- The client reads the length of the answer. -/
theorem client_answered (hn : 4 ≤ n) (hlt : n < 2 ^ 31) (hfits : Fits n szbuf cbuf sbuf)
    (hk : k + (left + 1) = niters) (hbuf : sbuf.take 4 = encode 4 n)
    (hreg : Pc.size.regular m)
    (hstep : clientStep n ⟨⟨cbuf, .size⟩, left + 1, List.replicate k true, ⟨sbuf, .size⟩, [],
      message n 2⟩ m = some c') :
    ∃ w ≤ left * (2 * n - 4) + (n - 3) - 1, Phase n szbuf niters c' w := by
  have hlen := length_message hn 2
  rw [clientStep] at hstep
  dsimp only at hstep
  obtain ⟨r, hr, hstep⟩ := Option.bind_eq_some_iff.mp hstep
  obtain rfl := receive_size hr hreg (by omega)
  obtain ⟨buf', hstore, hlen', htake, _, hsize⟩ :=
    storeAt_size hn hlt 2 (Nat.le_of_eq hfits.client.symm)
  dsimp only at hstep
  rw [hstore] at hstep
  dsimp only at hstep
  rw [hsize] at hstep
  obtain rfl := Option.some.inj hstep
  obtain ⟨w, hw, hphase⟩ := phase_clientLoop cbuf .size
    ⟨hlen'.trans hfits.client, hfits.server⟩ hk (Nat.le_refl 4) hn htake hbuf
  exact ⟨w, by omega, hphase⟩

/-- The client reads more of the answer. -/
theorem client_told (hn : 4 ≤ n) {r : Nat} (hfits : Fits n szbuf cbuf sbuf)
    (hk : k + (left + 1) = niters) (hr : 4 ≤ r) (hrn : r < n)
    (hbuf : cbuf.take r = (message n 2).take r) (hsbuf : sbuf.take 4 = encode 4 n)
    (hreg : (Pc.body n r).regular m)
    (hstep : clientStep n ⟨⟨cbuf, .body n r⟩, left + 1, List.replicate k true, ⟨sbuf, .size⟩, [],
      (message n 2).drop r⟩ m = some c') :
    ∃ w ≤ left * (2 * n - 4) + (n - r) - 1, Phase n szbuf niters c' w := by
  have hlen := length_message hn 2
  have hrest : ((message n 2).drop r).length = n - r := by rw [List.length_drop, hlen]
  rw [clientStep] at hstep
  dsimp only at hstep
  obtain ⟨res, hres, hstep⟩ := Option.bind_eq_some_iff.mp hstep
  obtain ⟨j, rfl, hpos, hj, hq, rfl⟩ := receive_some hres hreg (by omega)
  obtain ⟨buf', hstore, hlen', htake⟩ := storeAt_message (message n 2) cbuf
    (r := r) (k := j) (by omega) (by rw [hlen, hfits.client]) hbuf
  dsimp only at hstep
  rw [hstore, List.drop_drop] at hstep
  obtain rfl := Option.some.inj hstep
  obtain ⟨w, hw, hphase⟩ := phase_clientLoop cbuf (.body n r)
    ⟨hlen'.trans hfits.client, hfits.server⟩ hk (by omega) (by omega) htake hsbuf
  exact ⟨w, by omega, hphase⟩

end ClientSteps

theorem phase_clientStep (hn : 4 ≤ n) (hlt : n < 2 ^ 31) {c c' : State} {w : Nat} {m : Moved}
    (h : Phase n szbuf niters c w) (hreg : c.client.pc.regular m)
    (hstep : clientStep n c m = some c') : ∃ w' ≤ w - 1, Phase n szbuf niters c' w' := by
  cases h with
  | ready hfits hk => exact client_ready hn hlt hfits hk hreg hstep
  | asked hfits hk =>
      rw [clientStep_waiting rfl rfl (by rintro ⟨⟩) hreg] at hstep
      cases hstep
  | hearing hfits hk hr hrn hbuf =>
      rw [clientStep_waiting rfl rfl (by rintro ⟨⟩) hreg] at hstep
      cases hstep
  | answering hfits hk hbuf =>
      rw [clientStep_waiting rfl rfl (by rintro ⟨⟩) hreg] at hstep
      cases hstep
  | answered hfits hk hbuf => exact client_answered hn hlt hfits hk hbuf hreg hstep
  | told hfits hk hr hrn hbuf hsbuf =>
      exact client_told hn hfits hk hr hrn hbuf hsbuf hreg hstep
  | ended hfits hbuf hpc => cases hstep

/-- Once the client is gone the server finds the old length in its buffer, and no body. -/
theorem phase_serverLoop_over {cbuf sbuf old toClient : Bytes} {pc : Pc}
    (hfits : Fits n szbuf cbuf sbuf) (hn : 4 ≤ n) (hsz : n ≤ szbuf)
    (hbuf : sbuf.take 4 = encode 4 n) :
    Phase n szbuf niters (serverLoop ⟨⟨cbuf, .exited⟩, 0, List.replicate niters true, ⟨old, pc⟩,
      [], toClient⟩ sbuf n 4) 0 := by
  rw [serverLoop]
  rcases Nat.lt_or_eq_of_le hn with hlt | rfl
  · rw [if_pos (by omega)]
    exact .ended hfits hbuf (Or.inr (Or.inr (Or.inr ⟨rfl, hlt⟩)))
  · have hnone : bodyIs 1 (4 : Nat) sbuf = true := by
      rw [bodyIs, Int.toNat_natCast, List.drop_take_self]
      rfl
    have hroom : 4 ≤ sbuf.length := by
      rw [hfits.server]
      exact hsz
    rw [if_neg (by decide), if_pos hnone]
    refine .ended ⟨hfits.client, ?_⟩ ?_ (Or.inr (Or.inr (Or.inl rfl)))
    · rw [length_answer (Nat.le_refl 4) hroom, hfits.server]
    · rw [take_answer (Nat.le_refl 4) hbuf, message]
      exact List.append_nil _

section ServerSteps

variable {cbuf sbuf : Bytes} {left k : Nat} {m : Moved} {c' : State}

/-- The server reads the length of the message. -/
theorem server_asked (hn : 4 ≤ n) (hsz : n ≤ szbuf) (hlt : n < 2 ^ 31)
    (hfits : Fits n szbuf cbuf sbuf) (hk : k + (left + 1) = niters) (hreg : Pc.size.regular m)
    (hstep : serverStep ⟨⟨cbuf, .size⟩, left + 1, List.replicate k true, ⟨sbuf, .size⟩,
      message n 1, []⟩ m = some c') :
    ∃ w ≤ left * (2 * n - 4) + (2 * n - 5) - 1, Phase n szbuf niters c' w := by
  have hlen := length_message hn 1
  rw [serverStep] at hstep
  dsimp only at hstep
  obtain ⟨r, hr, hstep⟩ := Option.bind_eq_some_iff.mp hstep
  obtain rfl := receive_size hr hreg (by omega)
  obtain ⟨buf', hstore, hlen', htake, _, hsize⟩ :=
    storeAt_size hn hlt 1 (show n ≤ sbuf.length by rw [hfits.server]; exact hsz)
  dsimp only at hstep
  rw [hstore] at hstep
  dsimp only at hstep
  rw [hsize, hlen', hfits.server, if_neg (by omega)] at hstep
  obtain rfl := Option.some.inj hstep
  obtain ⟨w, hw, hphase⟩ := phase_serverLoop sbuf .size
    ⟨hfits.client, hlen'.trans hfits.server⟩ hsz hk (Nat.le_refl 4) hn htake
  exact ⟨w, by omega, hphase⟩

/-- The server reads more of the message. -/
theorem server_hearing (hn : 4 ≤ n) (hsz : n ≤ szbuf) {r : Nat}
    (hfits : Fits n szbuf cbuf sbuf) (hk : k + (left + 1) = niters) (hr : 4 ≤ r) (hrn : r < n)
    (hbuf : sbuf.take r = (message n 1).take r) (hreg : (Pc.body n r).regular m)
    (hstep : serverStep ⟨⟨cbuf, .size⟩, left + 1, List.replicate k true, ⟨sbuf, .body n r⟩,
      (message n 1).drop r, []⟩ m = some c') :
    ∃ w ≤ left * (2 * n - 4) + (n - 2 + (n - r)) - 1, Phase n szbuf niters c' w := by
  have hlen := length_message hn 1
  have hrest : ((message n 1).drop r).length = n - r := by rw [List.length_drop, hlen]
  rw [serverStep] at hstep
  dsimp only at hstep
  obtain ⟨res, hres, hstep⟩ := Option.bind_eq_some_iff.mp hstep
  obtain ⟨j, rfl, hpos, hj, hq, rfl⟩ := receive_some hres hreg (by omega)
  obtain ⟨buf', hstore, hlen', htake⟩ := storeAt_message (message n 1) sbuf
    (r := r) (k := j) (by omega) (by rw [hlen, hfits.server]; exact hsz) hbuf
  dsimp only at hstep
  rw [if_neg (by omega), hstore, List.drop_drop] at hstep
  obtain rfl := Option.some.inj hstep
  obtain ⟨w, hw, hphase⟩ := phase_serverLoop sbuf (.body n r)
    ⟨hfits.client, hlen'.trans hfits.server⟩ hsz hk (by omega) (by omega) htake
  exact ⟨w, by omega, hphase⟩

/-- The server writes its answer. -/
theorem server_answering (hn : 4 ≤ n) (hfits : Fits n szbuf cbuf sbuf)
    (hk : k + (left + 1) = niters) (hbuf : sbuf.take n = message n 2)
    (hreg : (Pc.write n).regular m)
    (hstep : serverStep ⟨⟨cbuf, .size⟩, left + 1, List.replicate k true, ⟨sbuf, .write n⟩, [],
      []⟩ m = some c') :
    ∃ w ≤ left * (2 * n - 4) + (n - 2) - 1, Phase n szbuf niters c' w := by
  have hm : m = .bytes (n : Int).toNat := hreg
  rw [hm, serverStep] at hstep
  dsimp only at hstep
  rw [Int.toNat_natCast, hbuf, transmit_message hn] at hstep
  obtain ⟨r, hr, hstep⟩ := Option.bind_eq_some_iff.mp hstep
  obtain rfl := Option.some.inj hr
  dsimp only at hstep
  rw [if_neg (by omega)] at hstep
  obtain rfl := Option.some.inj hstep
  exact ⟨_, by omega, .answered hfits hk (head_of_take hn hbuf)⟩

/-- Once the client is gone the server goes on with what it still finds in its buffer, until
it meets the end of the stream. -/
theorem server_ended (hn : 4 ≤ n) (hsz : n ≤ szbuf) (hlt : n < 2 ^ 31) {toClient : Bytes} {pc : Pc}
    (hfits : Fits n szbuf cbuf sbuf) (hbuf : sbuf.take 4 = encode 4 n)
    (hpc : pc = .size ∨ pc = .exited ∨ pc = .write n ∨ (pc = .body n 4 ∧ 4 < n))
    (hreg : pc.regular m)
    (hstep : serverStep ⟨⟨cbuf, .exited⟩, 0, List.replicate niters true, ⟨sbuf, pc⟩, [],
      toClient⟩ m = some c') : Phase n szbuf niters c' 0 := by
  have hroom : n ≤ sbuf.length := by
    rw [hfits.server]
    exact hsz
  rw [serverStep] at hstep
  rcases hpc with rfl | rfl | rfl | ⟨rfl, hlt4⟩
  · dsimp only at hstep
    obtain ⟨r, hr, hstep⟩ := Option.bind_eq_some_iff.mp hstep
    rcases receive_cases hr hreg.ne_failed with ⟨j, _, hpos, _, hq, _⟩ | ⟨_, _, _, rfl⟩
    · exact absurd hpos (Nat.not_lt.mpr hq)
    · have hsame : storeAt sbuf 0 [] = some sbuf := if_pos ⟨Int.le_refl 0, by simp⟩
      dsimp only at hstep
      rw [hsame] at hstep
      dsimp only at hstep
      rw [firstInt_eq hlt hbuf, if_neg (by omega)] at hstep
      obtain rfl := Option.some.inj hstep
      exact phase_serverLoop_over hfits hn hsz hbuf
  · cases hstep
  · have hm : m = .bytes (n : Int).toNat := hreg
    dsimp only at hstep
    rw [hm, Int.toNat_natCast, transmit, if_pos (by rw [List.length_take]; omega)] at hstep
    obtain ⟨r, hr, hstep⟩ := Option.bind_eq_some_iff.mp hstep
    obtain rfl := Option.some.inj hr
    dsimp only at hstep
    rw [if_neg (by omega)] at hstep
    obtain rfl := Option.some.inj hstep
    exact .ended hfits hbuf (Or.inl rfl)
  · dsimp only at hstep
    obtain ⟨r, hr, hstep⟩ := Option.bind_eq_some_iff.mp hstep
    rcases receive_cases hr hreg with ⟨j, _, hpos, _, hq, _⟩ | ⟨_, _, _, rfl⟩
    · exact absurd hpos (Nat.not_lt.mpr hq)
    · obtain rfl := Option.some.inj hstep
      exact .ended hfits hbuf (Or.inr (Or.inl rfl))

end ServerSteps

theorem phase_serverStep (hn : 4 ≤ n) (hsz : n ≤ szbuf) (hlt : n < 2 ^ 31) {c c' : State}
    {w : Nat} {m : Moved} (h : Phase n szbuf niters c w) (hreg : c.server.pc.regular m)
    (hstep : serverStep c m = some c') : ∃ w' ≤ w - 1, Phase n szbuf niters c' w' := by
  cases h with
  | ready hfits hk =>
      rw [serverStep_waiting rfl rfl (by rintro ⟨⟩) hreg] at hstep
      cases hstep
  | asked hfits hk => exact server_asked hn hsz hlt hfits hk hreg hstep
  | hearing hfits hk hr hrn hbuf =>
      exact server_hearing hn hsz hfits hk hr hrn hbuf hreg hstep
  | answering hfits hk hbuf => exact server_answering hn hfits hk hbuf hreg hstep
  | answered hfits hk hbuf =>
      rw [serverStep_waiting rfl rfl (by rintro ⟨⟩) hreg] at hstep
      cases hstep
  | told hfits hk hr hrn hbuf hsbuf =>
      rw [serverStep_waiting rfl rfl (by rintro ⟨⟩) hreg] at hstep
      cases hstep
  | ended hfits hbuf hpc =>
      exact ⟨0, Nat.zero_le _, server_ended hn hsz hlt hfits hbuf hpc hreg hstep⟩

theorem phase_step (hn : 4 ≤ n) (hsz : n ≤ szbuf) (hlt : n < 2 ^ 31) {c c' : State} {w : Nat}
    {l : Side × Moved} (h : Phase n szbuf niters c w) (hreg : Regular c l)
    (hstep : step n c l = some c') : ∃ w' ≤ w - 1, Phase n szbuf niters c' w' := by
  obtain ⟨side, m⟩ := l
  cases side with
  | client => exact phase_clientStep hn hlt h hreg hstep
  | server => exact phase_serverStep hn hsz hlt h hreg hstep

/-- A read that the network can make is a step. -/
theorem isSome_clientStep {c : State} {m : Moved} {r : Int × Bytes × Bytes}
    (h : (c.client.pc = .size ∧ receive c.toClient (decide (c.server.pc = .exited)) 4 m = some r) ∨
      ∃ i j, c.client.pc = .body i j ∧
        receive c.toClient (decide (c.server.pc = .exited)) i.toNat m = some r) :
    (clientStep n c m).isSome = true := by
  rcases h with ⟨hpc, hr⟩ | ⟨i, j, hpc, hr⟩
  · rw [clientStep, hpc]
    dsimp only
    rw [hr]
    simp only [Option.bind_eq_bind, Option.bind_some]
    split <;> rfl
  · rw [clientStep, hpc]
    dsimp only
    rw [hr]
    simp only [Option.bind_eq_bind, Option.bind_some]
    split <;> rfl

theorem isSome_serverStep {c : State} {m : Moved} {r : Int × Bytes × Bytes}
    (h : (c.server.pc = .size ∧ receive c.toServer (decide (c.client.pc = .exited)) 4 m = some r) ∨
      ∃ i j, c.server.pc = .body i j ∧
        receive c.toServer (decide (c.client.pc = .exited)) i.toNat m = some r) :
    (serverStep c m).isSome = true := by
  rcases h with ⟨hpc, hr⟩ | ⟨i, j, hpc, hr⟩
  · rw [serverStep, hpc]
    dsimp only
    rw [hr]
    simp only [Option.bind_eq_bind, Option.bind_some]
    split
    · rfl
    · split <;> rfl
  · rw [serverStep, hpc]
    dsimp only
    rw [hr]
    simp only [Option.bind_eq_bind, Option.bind_some]
    split
    · rfl
    · split <;> rfl

/-- While the client has messages left one of the two can go on. -/
theorem phase_progress (hn : 4 ≤ n) {c : State} {w : Nat} (h : Phase n szbuf niters c w)
    (hleft : c.client.pc ≠ .exited) : ∃ l, Regular c l ∧ (step n c l).isSome = true := by
  have hlen := length_message hn
  cases h with
  | ready hfits hk =>
      refine ⟨(.client, .bytes n), rfl, ?_⟩
      have hsent : ((sendbuf n).take (n : Int).toNat).length = n := by
        rw [sendbuf_eq, List.length_take, hlen, Int.toNat_natCast, Nat.min_self]
      rw [step_client, clientStep]
      dsimp only
      split
      · rfl
      · rw [transmit, if_pos (Nat.le_of_eq hsent.symm)]
        rfl
  | asked hfits hk =>
      refine ⟨(.server, .bytes 4), Or.inl rfl, ?_⟩
      rw [step_server]
      refine isSome_serverStep (Or.inl ⟨rfl, receive_bytes _ (by decide) (Nat.le_refl 4) ?_⟩)
      rw [hlen]
      exact hn
  | @hearing cbuf sbuf left k r hfits hk hr hrn hbuf =>
      refine ⟨(.server, .bytes 1), by rintro ⟨⟩, ?_⟩
      rw [step_server]
      refine isSome_serverStep (Or.inr ⟨n, r, rfl, receive_bytes _ (by decide) (by omega) ?_⟩)
      rw [List.length_drop, hlen]
      omega
  | @answering cbuf sbuf left k hfits hk hbuf =>
      refine ⟨(.server, .bytes n), rfl, ?_⟩
      rw [step_server, serverStep]
      dsimp only
      rw [Int.toNat_natCast, hbuf, transmit, if_pos (Nat.le_of_eq (hlen 2).symm)]
      simp only [Option.bind_eq_bind, Option.bind_some]
      split <;> rfl
  | answered hfits hk hbuf =>
      refine ⟨(.client, .bytes 4), Or.inl rfl, ?_⟩
      rw [step_client]
      refine isSome_clientStep (Or.inl ⟨rfl, receive_bytes _ (by decide) (Nat.le_refl 4) ?_⟩)
      rw [hlen]
      exact hn
  | @told cbuf sbuf left k r hfits hk hr hrn hbuf hsbuf =>
      refine ⟨(.client, .bytes 1), by rintro ⟨⟩, ?_⟩
      rw [step_client]
      refine isSome_clientStep (Or.inr ⟨n, r, rfl, receive_bytes _ (by decide) (by omega) ?_⟩)
      rw [List.length_drop, hlen]
      omega
  | ended hfits hbuf hpc => exact absurd rfl hleft

/-- What holds in every phase. -/
theorem phase_facts (hn : 4 ≤ n) {c : State} {w : Nat} (h : Phase n szbuf niters c w) :
    c.client.pc ≠ .wild ∧ c.server.pc ≠ .wild ∧
      (c.server.pc = .exited → c.client.pc = .exited) ∧
      c.statuses = List.replicate (niters - c.left) true ∧ c.left ≤ niters ∧
      (c.client.pc = .exited ↔ c.left = 0) ∧ (w = 0 → c.left = 0) := by
  cases h with
  | ready hfits hk => simp; omega
  | asked hfits hk => simp; omega
  | hearing hfits hk hr hrn hbuf => simp; omega
  | answering hfits hk hbuf => simp; omega
  | answered hfits hk hbuf => simp; omega
  | told hfits hk hr hrn hbuf hsbuf => simp; omega
  | ended hfits hbuf hpc =>
      rcases hpc with rfl | rfl | rfl | ⟨rfl, _⟩ <;> simp

/-- In every order of steps and however the bytes are cut, as long as calls do not fail and the
four bytes of a length come together: neither party stores outside its buffer, every message
that is through was answered as the client expects, the server is there as long as the client
is, one of the two can always go on, and after so many steps the client is through. -/
theorem chat_completes {cbuf sbuf : Bytes} (hn : 4 ≤ n) (hsz : n ≤ sbuf.length)
    (hlt : n < 2 ^ 31) (hcbuf : cbuf.length = n) (hniters : 0 < niters)
    {steps : List (Side × Moved)} {c : State}
    (hall : AllowedAlong (step n) Regular (start n niters cbuf sbuf) steps)
    (hrun : runSteps (step n) (start n niters cbuf sbuf) steps = some c) :
    (c.client.pc ≠ .wild ∧ c.server.pc ≠ .wild) ∧
      c.statuses = List.replicate (niters - c.left) true ∧
      (c.server.pc = .exited → c.client.pc = .exited) ∧
      (c.client.pc ≠ .exited → ∃ l, Regular c l ∧ (step n c l).isSome = true) ∧
      (niters * (2 * n - 4) ≤ steps.length → c.client.pc = .exited ∧ c.left = 0) := by
  have hstart : Phase n sbuf.length niters (start n niters cbuf sbuf) (niters * (2 * n - 4)) := by
    obtain ⟨left, rfl⟩ := Nat.exists_eq_add_of_lt hniters
    rw [Nat.zero_add]
    exact .ready ⟨hcbuf, rfl⟩ (Nat.zero_add _)
  obtain ⟨w, hw, hphase⟩ := runSteps_bounded (fun h => phase_step hn hsz hlt h) hstart hall hrun
  obtain ⟨hclient, hserver, hgone, hstatuses, _, hexited, hzero⟩ := phase_facts hn hphase
  refine ⟨⟨hclient, hserver⟩, hstatuses, hgone, phase_progress hn hphase, fun hlong => ?_⟩
  have hleft : c.left = 0 := hzero (by omega)
  exact ⟨hexited.mpr hleft, hleft⟩

end Phases

/-- Two messages of five bytes, the first body read in one piece and the second answered
before the client reads. -/
def twoRounds : List (Side × Moved) :=
  [(.client, .bytes 5), (.server, .bytes 4), (.server, .bytes 1), (.server, .bytes 5),
    (.client, .bytes 4), (.client, .bytes 1), (.client, .bytes 5), (.server, .bytes 4),
    (.server, .bytes 1), (.server, .bytes 5), (.client, .bytes 4), (.client, .bytes 1)]

theorem twoRounds_regular :
    AllowedAlong (step 5) Regular (start 5 2 [0, 0, 0, 0, 0] [7, 7, 7, 7, 7, 7]) twoRounds :=
  allowedAlong_of_allowsAlong (by decide +kernel)

theorem chat_completes_twoRounds :
    ∃ c, runSteps (step 5) (start 5 2 [0, 0, 0, 0, 0] [7, 7, 7, 7, 7, 7]) twoRounds = some c ∧
      c.client.pc = .exited ∧ c.statuses = List.replicate 2 true := by
  have hsome : (runSteps (step 5) (start 5 2 [0, 0, 0, 0, 0] [7, 7, 7, 7, 7, 7])
      twoRounds).isSome = true := by decide +kernel
  obtain ⟨c, hc⟩ := Option.isSome_iff_exists.mp hsome
  obtain ⟨_, hstatuses, _, _, hdone⟩ := chat_completes (show 4 ≤ 5 by decide) (by decide)
    (by decide) rfl (by decide) twoRounds_regular hc
  obtain ⟨hexited, hleft⟩ := hdone (by decide)
  rw [hleft] at hstatuses
  exact ⟨c, hc, hexited, hstatuses⟩

end Chat

end RserveClient
