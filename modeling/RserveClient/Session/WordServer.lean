import RserveClient.Foundation.RText
import RserveClient.Session.RServer

/-!
# A server with nothing but a workspace

The least that follows the rules: it tells the commands apart by the characters in them that
are not part of a name, and its replies come with the header first and the payload in one
piece.
-/

namespace RserveClient

open Interaction Arrivals Framing RText

/-- A reply whose header comes first and whose payload comes in one piece. -/
def inTwoPieces (reply : Bytes) : List (Arrival UInt8) :=
  pushBack (reply.take hdrLen) (pushBack (reply.drop hdrLen) [])

theorem delivers_inTwoPieces {reply : Bytes} (hlen : hdrLen ≤ reply.length) :
    Delivers reply (inTwoPieces reply) := by
  have hhead : (reply.take hdrLen).length = hdrLen := by
    rw [List.length_take, Nat.min_eq_left hlen]
  have hskip : skip hdrLen (inTwoPieces reply) = pushBack (reply.drop hdrLen) [] := by
    rw [inTwoPieces, skip_pushBack, if_pos (Nat.le_of_eq hhead.symm), List.drop_take_self,
      pushBack_nil]
  refine ⟨clean_nil.pushBack.pushBack, ?_, ?_⟩
  · rw [inTwoPieces, elems_pushBack, elems_pushBack, elems, List.append_nil,
      List.take_append_drop]
  · rw [hskip, front_pushBack, List.length_drop]
    exact Nat.min_le_right _ _

/-- The vector that a type code and bytes stand for. -/
def numericOf (v : Stored) : Option Numeric :=
  if h : v.xt = xtArrayDouble ∧ 8 ∣ v.elems.length ∧ v.elems.length < 2 ^ 24 then
    some ⟨.F8, v.elems, isNumeric_F8, h.2.1, h.2.2⟩
  else if h : v.xt = xtArrayInt ∧ 4 ∣ v.elems.length ∧ v.elems.length < 2 ^ 24 then
    some ⟨.I4, v.elems, isNumeric_I4, h.2.1, h.2.2⟩
  else none

theorem numericOf_stored (v : Numeric) : numericOf ⟨v.q.xt, v.data⟩ = some v := by
  obtain ⟨q, data, hnum, hwhole, hfits⟩ := v
  rcases hnum with rfl | rfl
  · exact dif_pos ⟨rfl, hwhole, hfits⟩
  · rw [numericOf, dif_neg (by rintro ⟨hxt, _⟩; cases hxt)]
    exact dif_pos ⟨rfl, hwhole, hfits⟩

def replyOf : Option Stored → Bytes
  | some v => (vecReply 0 v.xt v.elems).bytes
  | none => bareReply respErr

/-- What is not part of a name. -/
def marks (text : Bytes) : Bytes := text.filter fun b => !isNameByte b

namespace CmdFormat

def marks (f : CmdFormat) : Bytes :=
  RserveClient.marks f.head.bytes ++ RserveClient.marks f.tail.bytes

/-- The name that was pasted. -/
def nameIn (f : CmdFormat) (text : Bytes) : Bytes :=
  (text.drop f.head.bytes.length).takeWhile isNameByte

end CmdFormat

/-- A name of the least length and at most R's limit. -/
def IsWord (n : CStr) : Prop :=
  n.bytes ≠ [] ∧ n.bytes.length ≤ 10000 ∧ ∀ b ∈ n.bytes, isNameByte b = true

instance (n : CStr) : Decidable (IsWord n) := inferInstanceAs (Decidable (_ ∧ _ ∧ _))

theorem IsWord.marks_eq {n : CStr} (hn : IsWord n) : marks n.bytes = [] := by
  rw [marks, List.filter_eq_nil_iff]
  intro b hb
  rw [hn.2.2 b hb]
  decide

theorem IsWord.marks_paste {n : CStr} (hn : IsWord n) (f : CmdFormat) :
    marks (f.paste n).bytes = f.marks := by
  have hname := hn.marks_eq
  rw [marks] at hname
  rw [CmdFormat.paste, marks, List.filter_append, List.filter_append, hname, List.nil_append]
  rfl

theorem IsWord.nameIn_paste {n : CStr} (hn : IsWord n) {f : CmdFormat}
    (htail : f.tail.bytes.takeWhile isNameByte = []) :
    f.nameIn (f.paste n).bytes = n.bytes := by
  rw [CmdFormat.nameIn, CmdFormat.paste, List.drop_left,
    List.takeWhile_append_of_pos hn.2.2, htail, List.append_nil]

theorem IsWord.dropWhile_assign {n : CStr} (hn : IsWord n) (x : Bool) :
    ((setBoolBuilder x).format.paste n).bytes.dropWhile isNameByte =
      (setBoolBuilder x).format.tail.bytes := by
  change (n.bytes ++ (setBoolBuilder x).format.tail.bytes).dropWhile isNameByte = _
  rw [List.dropWhile_append_of_pos hn.2.2]
  cases x <;> rfl

def evaluateText (ws : Workspace) (text : Bytes) : Workspace × Option Stored :=
  if marks text = [] then (ws, (ws text).bind Value.stored)
  else if marks text = existsBuilder.format.marks then
    (ws, some ⟨xtArrayBool, logicalContent (ws (existsBuilder.format.nameIn text)).isSome⟩)
  else if marks text = getVecLenBuilder.format.marks then
    match ws (getVecLenBuilder.format.nameIn text) with
    | some (.vector v) => (ws, some (lengthStored v.count))
    | _ => (ws, none)
  else if text.dropWhile isNameByte = (setBoolBuilder true).format.tail.bytes then
    (Function.update ws (text.takeWhile isNameByte) (some (.logical true)),
      some ⟨xtArrayBool, logicalContent true⟩)
  else if text.dropWhile isNameByte = (setBoolBuilder false).format.tail.bytes then
    (Function.update ws (text.takeWhile isNameByte) (some (.logical false)),
      some ⟨xtArrayBool, logicalContent false⟩)
  else (ws, none)

def setOf (payload : Bytes) : Option (Bytes × Numeric) := do
  let r ← decodeSet payload
  let v ← numericOf r.2
  return (r.1, v)

def answerText (ws : Workspace) (request : Bytes) : Workspace × List (Arrival UInt8) :=
  if (Phdr.ofBytes request).cmd = cmdSetSexp then
    match setOf (request.drop hdrLen) with
    | some (name, v) =>
        (Function.update ws name (some (.vector v)), inTwoPieces (bareReply respOk))
    | none => (ws, inTwoPieces (bareReply respErr))
  else
    match decodeName (request.drop hdrLen) with
    | some text =>
        if (Phdr.ofBytes request).cmd = cmdVoidEval then
          ((evaluateText ws text).1, inTwoPieces (bareReply respOk))
        else ((evaluateText ws text).1, inTwoPieces (replyOf (evaluateText ws text).2))
    | none => (ws, inTwoPieces (bareReply respErr))

def wordServer : RServer Workspace where
  answer := answerText
  workspace := id
  IsName := IsWord

instance (n : CStr) : Decidable (wordServer.IsName n) := inferInstanceAs (Decidable (IsWord n))

/-- A packet is taken apart again. -/
theorem parts_of_packet {f : Frame UInt8} (hf : packetFormat.Valid f) :
    Phdr.ofBytes f.bytes = Phdr.ofBytes f.head ∧ f.bytes.drop hdrLen = f.body := by
  have hhead := hf.take_bytes []
  have hbody := hf.drop_bytes []
  rw [List.append_nil] at hhead hbody
  rw [List.append_nil] at hbody
  refine ⟨?_, hbody⟩
  rw [← Phdr.ofBytes_take]
  exact congrArg Phdr.ofBytes hhead

theorem hdrLen_le_bareReply (cmd : Int32) : hdrLen ≤ (bareReply cmd).length :=
  Nat.le_of_eq (Phdr.length_bytes _).symm

theorem evaluates_of_evaluateText {ws ws' : Workspace} {text : Bytes} {v : Stored}
    (h : evaluateText ws text = (ws', some v)) : wordServer.Evaluates ws text ws' v := by
  intro f hf
  obtain ⟨hhead, hbody⟩ := parts_of_packet hf.valid
  have hans : wordServer.answer ws f.bytes =
      (ws', inTwoPieces (vecReply 0 v.xt v.elems).bytes) := by
    change answerText ws f.bytes = _
    rw [answerText, hhead, hf.cmd, hbody, hf.text]
    dsimp only
    rw [if_neg (by decide), if_neg (by decide), h, replyOf]
  rw [hans]
  refine ⟨rfl, 0, delivers_inTwoPieces ?_⟩
  rw [length_vecReply, hdrLen]
  omega

theorem wordServer_rules : wordServer.Rules where
  short n hn := ⟨hn.1, hn.2.1⟩
  set s name v f hf := by
    obtain ⟨hhead, hbody⟩ := parts_of_packet hf.valid
    have hset : setOf f.body = some (name, v) := by
      rw [setOf, hf.set]
      change (numericOf _).bind _ = _
      rw [numericOf_stored]
      rfl
    have hans : wordServer.answer s f.bytes =
        (Function.update s name (some (.vector v)), inTwoPieces (bareReply respOk)) := by
      change answerText s f.bytes = _
      rw [answerText, hhead, hf.cmd, if_pos rfl, hbody, hset]
    rw [hans]
    exact ⟨rfl, respOk, delivers_inTwoPieces (hdrLen_le_bareReply _)⟩
  name s n v stored hn hbound hstored := by
    apply evaluates_of_evaluateText
    change s n.bytes = some v at hbound
    rw [evaluateText, if_pos hn.marks_eq, hbound, Option.bind_some, hstored]
    rfl
  existsName s n hn := by
    apply evaluates_of_evaluateText
    rw [evaluateText, hn.marks_paste, if_neg (by decide), if_pos rfl, hn.nameIn_paste rfl]
    rfl
  length s n v hn hbound := by
    apply evaluates_of_evaluateText
    change s n.bytes = some _ at hbound
    rw [evaluateText, hn.marks_paste, if_neg (by decide), if_neg (by decide), if_pos rfl,
      hn.nameIn_paste rfl, hbound]
    rfl
  assign s n x hn := by
    apply evaluates_of_evaluateText
    have hname : ((setBoolBuilder x).format.paste n).bytes.takeWhile isNameByte = n.bytes := by
      have h := hn.nameIn_paste (f := (setBoolBuilder x).format) (by cases x <;> rfl)
      exact h
    have hrest := hn.dropWhile_assign x
    rw [evaluateText, hn.marks_paste, hname, hrest]
    cases x
    · rw [if_neg (by decide), if_neg (by decide), if_neg (by decide), if_neg (by decide),
        if_pos rfl]
      rfl
    · rw [if_neg (by decide), if_neg (by decide), if_neg (by decide), if_pos rfl]
      rfl

def fiveInts : Numeric := ⟨.I4, List.replicate 20 7, isNumeric_I4, by decide, by decide⟩

end RserveClient
