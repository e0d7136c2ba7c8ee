import RserveClient.Encoding.CanonicalReply
import RserveClient.Memory.OutputReads

/-!
# Single logicals

What `exists1`, `exists2`, `is_vector` and `get_bool` make of one and the same
reply packet, against the value of a logical vector with one element.
-/

namespace RserveClient

open Interaction Arrivals Framing
open LittleEndian (word)

/-- A whole packet with this header and payload is the next to arrive. -/
structure BringsPacket (hdr : Phdr) (payload : Bytes) (inc : List (Arrival UInt8)) : Prop where
  avail_eq : ∃ rest, avail inc = (packet hdr payload).bytes ++ rest
  len_eq : hdr.len.toInt = payload.length

namespace BringsPacket

variable {hdr : Phdr} {payload : Bytes} {inc : List (Arrival UInt8)}

theorem replyHdr_eq (h : BringsPacket hdr payload inc) : replyHdr inc = hdr := by
  obtain ⟨rest, hav⟩ := h.avail_eq
  rw [replyHdr, hav, packet, Frame.bytes, List.append_assoc, Phdr.ofBytes_bytes_append]

theorem drop_hdr (h : BringsPacket hdr payload inc) :
    ∃ rest, (avail inc).drop 16 = payload ++ rest := by
  obtain ⟨rest, hav⟩ := h.avail_eq
  refine ⟨rest, ?_⟩
  rw [hav, packet, Frame.bytes, List.append_assoc]
  exact List.drop_left' hdr.length_bytes

theorem le_length (h : BringsPacket hdr payload inc) :
    16 + payload.length ≤ (avail inc).length := by
  obtain ⟨rest, hav⟩ := h.avail_eq
  rw [hav, packet, Frame.bytes, List.length_append, List.length_append, hdr.length_bytes]
  exact Nat.le_add_right _ _

/-- The output that `exec_str` returns of it. -/
theorem execOut_eq (h : BringsPacket hdr payload inc) (v : OutVars) :
    execOut true inc v = ⟨some (payload.drop 8), payload.length - 8⟩ := by
  obtain ⟨rest, hdrop⟩ := h.drop_hdr
  have hlen : (replyHdr inc).len.toInt.toNat = payload.length := by
    rw [h.replyHdr_eq, h.len_eq, Int.toNat_natCast]
  have htake : ((avail inc).drop 24).take (payload.length - 8) = payload.drop 8 := by
    have hsplit : (avail inc).drop 24 = ((avail inc).drop 16).drop 8 := by
      rw [List.drop_drop]
    rw [hsplit, hdrop, List.drop_append, List.take_append_of_le_length (by simp)]
    exact List.take_of_length_le (by simp)
  rw [execOut, hlen, htake]
  rfl

/-- `exec_str` accepts it for its type words. -/
theorem execAccepted_iff (h : BringsPacket hdr payload inc) (xt : Int) :
    execAccepted true xt inc ↔ 8 ≤ payload.length ∧ typesAccepted xt payload := by
  obtain ⟨rest, hdrop⟩ := h.drop_hdr
  have hle := h.le_length
  have hcast : (8 : Int) ≤ payload.length ↔ 8 ≤ payload.length := by omega
  rw [execAccepted, h.replyHdr_eq, h.len_eq, hdrop, Int.toNat_natCast, hcast]
  by_cases h8 : 8 ≤ payload.length
  · rw [typesAccepted, LittleEndian.word_append _ _ 0 (by omega),
      LittleEndian.word_append _ _ 1 (by omega), ← typesAccepted]
    simp only [hle, and_true]
  · exact iff_of_false (fun hboth => h8 hboth.1) (fun hboth => h8 hboth.1)

end BringsPacket

/-- The functions that read a single logical. -/
inductive Decoder where
  | exists1
  | exists2
  | isVector
  | getBool
  deriving DecidableEq

namespace Decoder

/-- The expression they evaluate. -/
def cmd : Decoder → CStr → Except Why CStr
  | exists1 | exists2 => quotedCmd existsHead 26
  | isVector => quotedCmd isVectorHead 29
  | getBool => .ok

/-- The sockets they refuse. -/
def refuses : Decoder → Int → Prop
  | exists1, sock | exists2, sock | isVector, sock => sock < 0
  | getBool, sock => sock ≤ 0

instance : (f : Decoder) → (sock : Int) → Decidable (f.refuses sock)
  | exists1, sock | exists2, sock | isVector, sock => inferInstanceAs (Decidable (sock < 0))
  | getBool, sock => inferInstanceAs (Decidable (sock ≤ 0))

/-- How they read the output. -/
def readOut (past : UInt8) : Decoder → OutVars → Except Why Bool
  | exists1 | getBool => oneLogical
  | exists2 | isVector => fourthByte past

/-- The function itself: status and `*ptr_x`. -/
def prog (sock : Int) (past : UInt8) (name : CStr) (x : Bool) : Decoder → SysProg (Status × Bool)
  | exists1 => RserveClient.exists1 sock (some name) x
  | exists2 => RserveClient.exists2 sock past (some name) x
  | isVector => RserveClient.isVector sock past (some name) x
  | getBool => RserveClient.getBool sock (some name) x

theorem prog_eq (f : Decoder) (sock : Int) (past : UInt8) (name : CStr) (x : Bool) :
    f.prog sock past name x = finishLogical (do
      Proc.exitIf (f.refuses sock) .argument
      askLogical outputIsNull f.cmd (f.readOut past) sock (some name)) x := by
  cases f <;> rfl

/-- The expression can be built and sent. -/
def Asks (f : Decoder) (name : CStr) : Prop :=
  ∃ rcmd, f.cmd name = .ok rcmd ∧ requestFits rcmd

end Decoder

section Runs

variable {sock : Int} {past : UInt8} {name : CStr} {x : Bool} {c : Conn} {f : Decoder}
variable {hdr : Phdr} {payload : Bytes}

/-- The reply is refused by `exec_str`, or its type words are all there is. -/
def holdsNothing (payload : Bytes) : Prop :=
  ¬ typesAccepted xtArrayBool payload ∨ payload.length ≤ 8

instance (payload : Bytes) : Decidable (holdsNothing payload) :=
  inferInstanceAs (Decidable (_ ∨ _))

theorem run_execStr_packet (hsock : 0 ≤ sock) (hc : c.Ready) {s : CStr} (hfits : requestFits s)
    (h : BringsPacket hdr payload c.inc) (xt : Int) :
    if 8 ≤ payload.length ∧ typesAccepted xt payload then
      (Prog.run Conn.handle (execStr sock (some s) true xt ⟨none, 0⟩) c).1 =
        (.ok, ⟨some (payload.drop 8), payload.length - 8⟩)
    else OutputCleared (Prog.run Conn.handle (execStr sock (some s) true xt ⟨none, 0⟩) c).1 := by
  have hreq : execStrRequest (some s) true = some (requestBytes .eval s) := if_pos hfits
  have hbody := exec_execStrBody hsock hc hreq xt ⟨none, 0⟩
  rw [execStr, Proc.run_finish_of_exec hbody]
  by_cases hacc : 8 ≤ payload.length ∧ typesAccepted xt payload
  · have hreply := exec_execStrReply_ok (v := ⟨none, 0⟩) (c := c.push (requestBytes .eval s))
      hsock hc.isOpen ((h.execAccepted_iff xt).mpr hacc)
    rw [if_pos hacc, hreply, Conn.inc_push, h.execOut_eq]
    rfl
  · have hno : ¬ execAccepted true xt (c.push (requestBytes .eval s)).inc :=
      mt (h.execAccepted_iff xt).mp hacc
    obtain ⟨why, v', inc', hbad⟩ := exec_execStrReply_bad (v := ⟨none, 0⟩)
      (c := c.push (requestBytes .eval s)) hsock hc.isOpen hno
    have hout := execStrReply_output (c := c.push (requestBytes .eval s)) hsock hc.isOpen xt
    rw [if_neg hacc]
    rcases hout with ⟨hcode, _⟩ | hcleared
    · rw [hbad] at hcode
      exact absurd why.code_neg (by rw [show why.code = 0 from hcode]; decide)
    · exact hcleared

/-- A command that was sent and brought an output gives what is read out of it. -/
theorem answer_of_output (past : UInt8) (x : Bool) (hsock : ¬ f.refuses sock) {rcmd : CStr}
    (hcmd : f.cmd name = .ok rcmd) {v : OutVars} {out : Bytes} (hsome : v.output = some out)
    (hrun : (Prog.run Conn.handle (execStr sock (some rcmd) true xtArrayBool ⟨none, 0⟩) c).1 =
      (.ok, v)) :
    (Prog.run Conn.handle (f.prog sock past name x) c).1 =
      match f.readOut past v with
      | .ok b => (.ok, b)
      | .error why => (.bad why, x) := by
  have hnull : ¬ outputIsNull .ok v = true := by
    rw [outputIsNull, hsome]
    exact Bool.false_ne_true
  have hexec : Prog.run Conn.handle (execStr sock (some rcmd) true xtArrayBool ⟨none, 0⟩) c =
      ((.ok, v), _) := Prod.ext hrun rfl
  rw [f.prog_eq, finishLogical, Proc.run_finish, Proc.exec_exitIf_neg hsock]
  dsimp only [askLogical]
  rw [hcmd, Proc.exec_bind_ok (Proc.exec_ofExcept_ok _ _ _ _), Proc.exec_lift_bind hexec,
    Proc.exec_exitIf_neg hnull]
  cases f.readOut past v with
  | error why => rfl
  | ok b => rfl

theorem answer_of_cleared (hsock : ¬ f.refuses sock) {rcmd : CStr} (hcmd : f.cmd name = .ok rcmd)
    (hcleared : OutputCleared
      (Prog.run Conn.handle (execStr sock (some rcmd) true xtArrayBool ⟨none, 0⟩) c).1) :
    (Prog.run Conn.handle (f.prog sock past name x) c).1 = (.bad .reply, x) := by
  obtain ⟨_, hvars⟩ := hcleared
  have hnull : outputIsNull
      (Prog.run Conn.handle (execStr sock (some rcmd) true xtArrayBool ⟨none, 0⟩) c).1.1
      (Prog.run Conn.handle (execStr sock (some rcmd) true xtArrayBool ⟨none, 0⟩) c).1.2 =
        true := by
    rw [outputIsNull, hvars]
    rfl
  rw [f.prog_eq, finishLogical, Proc.run_finish, Proc.exec_exitIf_neg hsock]
  dsimp only [askLogical]
  rw [hcmd, Proc.exec_bind_ok (Proc.exec_ofExcept_ok _ _ _ _), Proc.exec_lift_bind rfl,
    Proc.exec_exitIf_pos hnull]
  rfl

theorem answer_of_refused (hsock : f.refuses sock) :
    (Prog.run Conn.handle (f.prog sock past name x) c).1 = (.bad .argument, x) := by
  rw [f.prog_eq, finishLogical, Proc.run_finish, Proc.exec_exitIf_pos hsock]
  rfl

end Runs

/-- The value of a reply that is a logical vector of one element, neither more nor less, which
is not `NA`. -/
def singleLogical (payload : Bytes) : Option Bool :=
  if payload.length = 16 ∧ word payload 0 = parWord 12 dtSexp ∧
      word payload 1 = parWord 8 xtArrayBool ∧ word payload 2 = 1 then
    match payload.drop 12 with
    | [0, _, _, _] => some false
    | [1, _, _, _] => some true
    | _ => none
  else none

/-- All four fail or all return the same value, and that exactly for a single logical with that
value. -/
structure DecodersAgree (payload : Bytes) (answer : Decoder → Status × Bool) : Prop where
  same : (∀ f, (answer f).1.code < 0) ∨ ∃ b, ∀ f, answer f = (.ok, b)
  exactly : ∀ f b, answer f = (.ok, b) ↔ singleLogical payload = some b

section Single

variable {payload : Bytes} {b : Bool}

/-- The bytes of a single logical. -/
theorem bytes_of_singleLogical (h : singleLogical payload = some b) :
    payload.length = 16 ∧ typesAccepted xtArrayBool payload ∧
      ∃ b5 b6 b7, payload.drop 8 = [1, 0, 0, 0, if b then 1 else 0, b5, b6, b7] := by
  rw [singleLogical] at h
  split at h
  · rename_i hwords
    obtain ⟨hlen, h0, h1, h2⟩ := hwords
    refine ⟨hlen, ⟨by rw [h0]; decide, fun _ => by rw [h1]; decide⟩, ?_⟩
    have hcount : (payload.drop 8).take 4 = [1, 0, 0, 0] := by
      rw [LittleEndian.take_eq_encode_word (i := 2) (by omega), h2]
      rfl
    have hout : payload.drop 8 = [1, 0, 0, 0] ++ payload.drop 12 := by
      have hsplit := List.take_append_drop 4 (payload.drop 8)
      rw [hcount, List.drop_drop] at hsplit
      exact hsplit.symm
    rw [hout]
    split at h
    · rename_i b5 b6 b7 hlast
      cases h
      rw [hlast]
      exact ⟨b5, b6, b7, rfl⟩
    · rename_i b5 b6 b7 hlast
      cases h
      rw [hlast]
      exact ⟨b5, b6, b7, rfl⟩
    · cases h
  · cases h

/-- All four rules read it off the output. -/
theorem readOut_of_singleLogical (h : singleLogical payload = some b) (past : UInt8)
    (f : Decoder) :
    f.readOut past ⟨some (payload.drop 8), payload.length - 8⟩ = .ok b := by
  obtain ⟨hlen, _, b5, b6, b7, hout⟩ := bytes_of_singleLogical h
  rw [hout, hlen]
  have hbit : (word [1, 0, 0, 0, if b then 1 else 0, b5, b6, b7] 1 &&& 1 ≠ 0) ↔ b = true := by
    have hword : word [1, 0, 0, 0, if b then 1 else 0, b5, b6, b7] 1 =
        (if b then (1 : UInt8) else 0).toNat +
          256 * (b5.toNat + 256 * (b6.toNat + 256 * (b7.toNat + 256 * 0))) := rfl
    rw [Nat.and_one_is_mod, hword]
    cases b with
    | false =>
        simp only [Bool.false_eq_true, if_false, UInt8.toNat_zero, iff_false, not_not, ne_eq]
        omega
    | true =>
        simp only [if_true, UInt8.toNat_one, iff_true, ne_eq]
        omega
  have hone : oneLogical ⟨some [1, 0, 0, 0, if b then 1 else 0, b5, b6, b7], 16 - 8⟩ =
      .ok (decide (word [1, 0, 0, 0, if b then 1 else 0, b5, b6, b7] 1 &&& 1 ≠ 0)) := rfl
  have hfourth : fourthByte past ⟨some [1, 0, 0, 0, if b then 1 else 0, b5, b6, b7], 16 - 8⟩ =
      .ok (decide ((if b then (1 : UInt8) else 0) ≠ 0)) := rfl
  have hvalue : decide (word [1, 0, 0, 0, if b then 1 else 0, b5, b6, b7] 1 &&& 1 ≠ 0) = b := by
    cases b with
    | false => exact decide_eq_false (by rw [hbit]; exact Bool.false_ne_true)
    | true => exact decide_eq_true (hbit.mpr rfl)
  have hvalue' : decide ((if b then (1 : UInt8) else 0) ≠ 0) = b := by
    cases b <;> rfl
  cases f with
  | exists1 => exact hone.trans (congrArg _ hvalue)
  | getBool => exact hone.trans (congrArg _ hvalue)
  | exists2 => exact hfourth.trans (congrArg _ hvalue')
  | isVector => exact hfourth.trans (congrArg _ hvalue')

theorem singleLogical_of_holdsNothing (h : holdsNothing payload) :
    singleLogical payload = none := by
  cases hsingle : singleLogical payload with
  | none => rfl
  | some b =>
      obtain ⟨hlen, htypes, _⟩ := bytes_of_singleLogical hsingle
      rcases h with hno | hshort
      · exact absurd htypes hno
      · omega

/-- Nothing is read out of an empty output. -/
theorem readOut_empty (f : Decoder) (past : UInt8) (out : Bytes) :
    f.readOut past ⟨some out, 0⟩ = .error .reply := by
  cases f <;> rfl

end Single

section Agree

variable {sock : Int} {name : CStr} {c : Conn} {hdr : Phdr} {payload : Bytes}

/-- Where the reply holds nothing every decoder fails. -/
theorem answer_of_holdsNothing (hsock : 0 ≤ sock) (hc : c.Ready) {f : Decoder}
    (hask : f.Asks name) (h : BringsPacket hdr payload c.inc) (hnothing : holdsNothing payload)
    (past : UInt8) (x : Bool) :
    (Prog.run Conn.handle (f.prog sock past name x) c).1.1.code < 0 := by
  by_cases hrefuses : f.refuses sock
  · rw [answer_of_refused hrefuses]
    exact Why.code_neg .argument
  obtain ⟨rcmd, hcmd, hfits⟩ := hask
  have hrun := run_execStr_packet hsock hc hfits h xtArrayBool
  by_cases hacc : 8 ≤ payload.length ∧ typesAccepted xtArrayBool payload
  · rw [if_pos hacc] at hrun
    have hlen : payload.length - 8 = 0 := by
      rcases hnothing with hno | hshort
      · exact absurd hacc.2 hno
      · omega
    rw [answer_of_output past x hrefuses hcmd rfl hrun, hlen, readOut_empty]
    exact Why.code_neg .reply
  · rw [if_neg hacc] at hrun
    rw [answer_of_cleared hrefuses hcmd hrun]
    exact Why.code_neg .reply

/-- Any other reply gets through `exec_str`. -/
theorem run_execStr_of_holds (hsock : 0 ≤ sock) (hc : c.Ready)
    (h : BringsPacket hdr payload c.inc) (hholds : ¬ holdsNothing payload) {rcmd : CStr}
    (hfits : requestFits rcmd) :
    (Prog.run Conn.handle (execStr sock (some rcmd) true xtArrayBool ⟨none, 0⟩) c).1 =
      (.ok, ⟨some (payload.drop 8), payload.length - 8⟩) := by
  rw [holdsNothing, not_or, not_not] at hholds
  have hrun := run_execStr_packet hsock hc hfits h xtArrayBool
  rwa [if_pos ⟨by omega, hholds.1⟩] at hrun

/-- Then `exists2` takes the byte at index 4 for a value, whatever the reply is. -/
theorem exists2_succeeds (hsock : 0 ≤ sock) (hc : c.Ready) (hask : Decoder.exists2.Asks name)
    (h : BringsPacket hdr payload c.inc) (hholds : ¬ holdsNothing payload) (past : UInt8)
    (x : Bool) :
    ∃ b, (Prog.run Conn.handle (Decoder.exists2.prog sock past name x) c).1 = (.ok, b) := by
  obtain ⟨rcmd, hcmd, hfits⟩ := hask
  have hrefuses : ¬ Decoder.exists2.refuses sock := Int.not_lt.mpr hsock
  have hanswer := answer_of_output past x hrefuses hcmd rfl
    (run_execStr_of_holds hsock hc h hholds hfits)
  rw [holdsNothing, not_or, not_not] at hholds
  have hlenOut : ¬ payload.length - 8 = 0 := by omega
  have hread : Decoder.exists2.readOut past ⟨some (payload.drop 8), payload.length - 8⟩ =
      .ok _ := if_neg hlenOut
  rw [hread] at hanswer
  exact ⟨_, hanswer⟩

/-- On a single logical all four succeed, but for socket 0. -/
theorem answer_of_singleLogical (hsock : 0 < sock) (hc : c.Ready) {f : Decoder}
    (hask : f.Asks name) (h : BringsPacket hdr payload c.inc) {b : Bool}
    (hsingle : singleLogical payload = some b) (past : UInt8) (x : Bool) :
    (Prog.run Conn.handle (f.prog sock past name x) c).1 = (.ok, b) := by
  have hholds : ¬ holdsNothing payload := by
    intro hnothing
    rw [singleLogical_of_holdsNothing hnothing] at hsingle
    cases hsingle
  have hrefuses : ¬ f.refuses sock := by
    cases f <;> simp only [Decoder.refuses] <;> omega
  obtain ⟨rcmd, hcmd, hfits⟩ := hask
  rw [answer_of_output past x hrefuses hcmd rfl
    (run_execStr_of_holds (Int.le_of_lt hsock) hc h hholds hfits),
    readOut_of_singleLogical hsingle]

/-- The decoders agree on a reply exactly if it holds nothing, or is a single logical and does
not come from socket 0. -/
theorem decoders_agree_iff (hsock : 0 ≤ sock) (hc : c.Ready) (hask : ∀ f, Decoder.Asks f name)
    (h : BringsPacket hdr payload c.inc) (past : UInt8) (x : Bool) :
    DecodersAgree payload (fun f => (Prog.run Conn.handle (f.prog sock past name x) c).1) ↔
      (holdsNothing payload ∨ ((singleLogical payload).isSome = true ∧ sock ≠ 0)) := by
  constructor
  · intro hagree
    refine or_iff_not_imp_left.mpr fun hholds => ?_
    obtain ⟨b, hexists2⟩ := exists2_succeeds hsock hc (hask .exists2) h hholds past x
    have hsingle := (hagree.exactly .exists2 b).mp hexists2
    refine ⟨by rw [hsingle]; rfl, ?_⟩
    intro hzero
    have hgetBool := (hagree.exactly .getBool b).mpr hsingle
    rw [answer_of_refused (f := .getBool) (Int.le_of_eq hzero)] at hgetBool
    cases hgetBool
  · rintro (hnothing | ⟨hsome, hne⟩)
    · have hfails := fun f => answer_of_holdsNothing hsock hc (hask f) h hnothing past x
      refine ⟨Or.inl hfails, fun f b => iff_of_false ?_ ?_⟩
      · intro hok
        have hneg := hfails f
        rw [hok] at hneg
        cases hneg
      · rw [singleLogical_of_holdsNothing hnothing]
        exact Option.some_ne_none b ∘ Eq.symm
    · obtain ⟨b, hsingle⟩ := Option.isSome_iff_exists.mp hsome
      have hpos : 0 < sock := by omega
      have hall := fun f : Decoder => answer_of_singleLogical hpos hc (hask f) h hsingle past x
      refine ⟨Or.inr ⟨b, hall⟩, fun f b' => ?_⟩
      rw [hall f, hsingle]
      simp only [Prod.mk.injEq, true_and, Option.some.injEq]

end Agree

theorem asks_nameX (f : Decoder) : f.Asks nameX := by
  have hexists : quotedCmd existsHead 26 nameX = .ok existsX := by
    rw [quotedCmd, if_neg (by decide)]
    rfl
  have hisVector : quotedCmd isVectorHead 29 nameX =
      .ok (isVectorBuilder.format.paste nameX) := by
    rw [quotedCmd, if_neg (by decide)]
    rfl
  cases f with
  | exists1 => exact ⟨_, hexists, by decide⟩
  | exists2 => exact ⟨_, hexists, by decide⟩
  | isVector => exact ⟨_, hisVector, by decide⟩
  | getBool => exact ⟨_, rfl, by decide⟩

/-- The payload of a reply with one logical. -/
def logicalPayload (x : UInt8) : Bytes :=
  LittleEndian.encode 4 (parWord 12 dtSexp) ++
    (LittleEndian.encode 4 (parWord 8 xtArrayBool) ++ [1, 0, 0, 0, x, 255, 255, 255])

def logicalHdr : Phdr := ⟨respOk, 16, 0, 0⟩

def bringLogical (x : UInt8) : List (Arrival UInt8) :=
  pushBack (packet logicalHdr (logicalPayload x)).bytes []

theorem decoders_agree_iff_true :
    DecodersAgree (logicalPayload 1) (fun f =>
        (Prog.run Conn.handle (f.prog 3 0 nameX false) (Conn.fresh (bringLogical 1))).1) ↔
      (holdsNothing (logicalPayload 1) ∨
        ((singleLogical (logicalPayload 1)).isSome = true ∧ (3 : Int) ≠ 0)) :=
  decoders_agree_iff (c := Conn.fresh (bringLogical 1)) (by decide) ⟨rfl, rfl⟩ asks_nameX
    (show BringsPacket logicalHdr (logicalPayload 1) _ from ⟨⟨[], by decide⟩, by decide⟩) 0 false

/-- `NA` is `FALSE` for two of them and `TRUE` for the others. -/
theorem na_told_apart :
    (Prog.run Conn.handle (exists1 3 (some nameX) true) (Conn.fresh (bringLogical 2))).1 =
      (.ok, false) ∧
    (Prog.run Conn.handle (getBool 3 (some nameX) true) (Conn.fresh (bringLogical 2))).1 =
      (.ok, false) ∧
    (Prog.run Conn.handle (exists2 3 0 (some nameX) false) (Conn.fresh (bringLogical 2))).1 =
      (.ok, true) ∧
    (Prog.run Conn.handle (isVector 3 0 (some nameX) false) (Conn.fresh (bringLogical 2))).1 =
      (.ok, true) ∧
    ¬ DecodersAgree (logicalPayload 2) (fun f =>
      (Prog.run Conn.handle (f.prog 3 0 nameX true) (Conn.fresh (bringLogical 2))).1) := by
  refine ⟨by decide, by decide, by decide, by decide, ?_⟩
  intro hagree
  have hna : singleLogical (logicalPayload 2) = some false :=
    (hagree.exactly .exists1 false).mp (by decide)
  cases hna

end RserveClient
