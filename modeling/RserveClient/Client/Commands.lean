import RserveClient.Client.Predicates
import RserveClient.Foundation.Peek

/-!
# Commands about one variable

The functions that paste a name into an R command with `sprintf` and evaluate
it: `get_vec_len`, `n_df` behind `ncols_df` and `nrows_df`, `chk_R_class` and
`set_bool`. How they and the predicates read the output of `exec_str` is kept
as programs that look at its bytes.

## Implementation notes

`get_vec_len` is the function of `get_vec.c`, which is what the library is built
from. Names that a function hands to `strlen` or `sprintf` unchecked are
strings; `NULL` is not modelled there. A command longer than the buffer it is
written to overruns that buffer; here it is evaluated all the same.
-/

namespace RserveClient

open Interaction Peek

/-- A `sprintf` format with one `%s`. -/
structure CmdFormat where
  head : CStr
  tail : CStr

/-- The text that `sprintf` makes of a name. -/
def CmdFormat.paste (f : CmdFormat) (name : CStr) : CStr :=
  ⟨f.head.bytes ++ (name.bytes ++ f.tail.bytes), by
    simp only [List.mem_append, not_or]
    exact ⟨f.head.nulFree, name.nulFree, f.tail.nulFree⟩⟩

/-- Where a command is written: an array, or a block of `strlen(name) + slack` bytes, a number
kept in an `int`. -/
inductive CmdBuffer where
  | array (size : Nat)
  | block (slack : Nat)

/-- What `malloc` is asked for. -/
def blockSize (name : CStr) (slack : Nat) : Nat :=
  CInt.toSizeT (CInt.toInt (name.bytes.length + slack : Nat))

/-- The size of the buffer, unless `malloc` fails. -/
def CmdBuffer.size : CmdBuffer → CStr → Option Nat
  | .array size, _ => some size
  | .block slack, name =>
      if ptrdiffMax < blockSize name slack then none else some (blockSize name slack)

structure CmdBuilder where
  format : CmdFormat
  buffer : CmdBuffer

def CmdBuilder.build (b : CmdBuilder) (name : CStr) : Except Why CStr :=
  match b.buffer.size name with
  | none => .error .memory
  | some _ => .ok (b.format.paste name)

/-- `")` -/
def quoteTail : CStr := ⟨[34, 41], by decide⟩

/-- `)` -/
def callTail : CStr := ⟨[41], by decide⟩

/-- `exists1` and `exists2` -/
def existsBuilder : CmdBuilder := ⟨⟨existsHead, quoteTail⟩, .block 26⟩

def isVectorBuilder : CmdBuilder := ⟨⟨isVectorHead, quoteTail⟩, .block 29⟩

/-- `length(%s)` in a block of `strlen(name) + 16` bytes -/
def getVecLenBuilder : CmdBuilder :=
  ⟨⟨⟨[108, 101, 110, 103, 116, 104, 40], by decide⟩, callTail⟩, .block 16⟩

/-- `class(%s)` in an array of 1024 bytes -/
def chkRClassBuilder : CmdBuilder :=
  ⟨⟨⟨[99, 108, 97, 115, 115, 40], by decide⟩, callTail⟩, .array 1024⟩

/-- The functions that `n_df` is called with. -/
inductive DfFn where
  | length
  | nrow
  deriving DecidableEq

/-- `length(` and `nrow(` -/
def DfFn.head : DfFn → CStr
  | .length => ⟨[108, 101, 110, 103, 116, 104, 40], by decide⟩
  | .nrow => ⟨[110, 114, 111, 119, 40], by decide⟩

/-- `%s(%s)` in an array of 1024 bytes -/
def nDfBuilder (fn : DfFn) : CmdBuilder := ⟨⟨fn.head, callTail⟩, .array 1024⟩

theorem nul_notMem_nil : (0 : UInt8) ∉ ([] : Bytes) := List.not_mem_nil

/-- `%s <- TRUE ` or `%s <- FALSE `, in a block sized for the latter -/
def setBoolBuilder (x : Bool) : CmdBuilder where
  format :=
    { head := ⟨[], nul_notMem_nil⟩
      tail :=
        if x then ⟨[32, 60, 45, 32, 84, 82, 85, 69, 32], by decide⟩
        else ⟨[32, 60, 45, 32, 70, 65, 76, 83, 69, 32], by decide⟩ }
  buffer := .block 26

theorem CmdBuilder.build_eq_error {b : CmdBuilder} {name : CStr}
    (h : b.buffer.size name = none) : b.build name = .error .memory := by
  rw [CmdBuilder.build, h]

theorem CmdBuilder.build_eq_ok {b : CmdBuilder} {name : CStr} {size : Nat}
    (h : b.buffer.size name = some size) : b.build name = .ok (b.format.paste name) := by
  rw [CmdBuilder.build, h]

/-- The quoted commands of the predicates are built in the same way. -/
theorem quotedCmd_eq_build (head : CStr) (slack : Nat) :
    quotedCmd head slack = CmdBuilder.build ⟨⟨head, quoteTail⟩, .block slack⟩ := by
  funext name
  rw [quotedCmd, ← blockSize]
  by_cases hmem : ptrdiffMax < blockSize name slack
  · rw [if_pos hmem, CmdBuilder.build_eq_error]
    rw [CmdBuffer.size, if_pos hmem]
  · have hsize : (CmdBuffer.block slack).size name = some (blockSize name slack) := by
      rw [CmdBuffer.size, if_neg hmem]
    rw [if_neg hmem, CmdBuilder.build_eq_ok (b := ⟨⟨head, quoteTail⟩, .block slack⟩) hsize]
    rfl

/-- What a program sees in the block that `exec_str` left. -/
def OutVars.look {α : Type} (v : OutVars) (past : Nat → UInt8) (p : BufProg α) : α :=
  Peek.look (v.output.getD []) past p

/-- `exists1` and `get_bool`: eight bytes, a count of one in the first of them, and the low
bit of the second word. -/
def peekOneLogical (lenOut : Nat) : BufProg (Except Why Bool) :=
  if lenOut ≠ 8 then return .error .reply
  else do
    let numElements ← byteAt 0
    if numElements ≠ 1 then return .error .reply
    else do
      let word ← bytesAt 4 4
      return .ok (LittleEndian.decode word &&& 1 ≠ 0)

/-- `exists2` and `is_vector`: the byte at index 4. -/
def peekFourthByte (lenOut : Nat) : BufProg (Except Why Bool) :=
  if lenOut = 0 then return .error .reply
  else do
    let x ← byteAt 4
    return .ok (x ≠ 0)

/-- `get_vec_len` and `n_df`: the first `int`. -/
def peekInt (lenOut : Nat) : BufProg (Except Why Int) :=
  if lenOut = 0 then return .error .reply
  else do
    let bytes ← bytesAt 0 4
    return .ok (CInt.toInt (LittleEndian.decode bytes))

/-- `chk_R_class`: `strcmp` with the class. -/
def peekClass (cls : CStr) (lenOut : Nat) : BufProg (Except Why Bool) :=
  if lenOut = 0 then return .error .reply
  else do
    let same ← strEq cls.bytes 0
    return .ok same

/-- The predicates see what these programs see. -/
theorem fourthByte_eq_look (past : Nat → UInt8) (v : OutVars) :
    fourthByte (past 4) v = v.look past (peekFourthByte v.lenOut) := by
  rw [fourthByte, OutVars.look, peekFourthByte]
  split
  · rfl
  · rw [look_bind, look_byteAt, look_pure]

theorem oneLogical_eq_look {v : OutVars} {payload : Bytes} (hout : v.output = some payload)
    (hlen : payload.length = v.lenOut) (past : Nat → UInt8) :
    oneLogical v = v.look past (peekOneLogical v.lenOut) := by
  rw [oneLogical, OutVars.look, peekOneLogical, hout, Option.getD_some]
  by_cases h8 : v.lenOut ≠ 8
  · rw [if_pos h8, if_pos h8]
    rfl
  · rw [if_neg h8, if_neg h8, look_bind, look_byteAt]
    rw [not_not] at h8
    obtain ⟨b, bs, rfl⟩ := List.exists_cons_of_length_pos (show 0 < payload.length by omega)
    have hsecond : look (b :: bs) past (bytesAt 4 4) = ((b :: bs).drop 4).take 4 :=
      look_bytesAt (by omega)
    simp only [List.head?_cons, List.getElem?_cons_zero, Option.getD_some, ne_eq,
      Option.some.injEq]
    by_cases hcount : b = 1
    · rw [if_neg (not_not_intro hcount), if_neg (not_not_intro hcount), look_bind, hsecond,
        look_pure]
      rfl
    · rw [if_pos hcount, if_pos hcount, look_pure]

section Functions

variable {σ : Type}

/-- Evaluate a command, with `cBYE` on the status and a test for an output that is missing or
empty, and look at the output. -/
def askOutput {α : Type} (sock : Int) (rcmd : Except Why CStr) (xt : Int) (past : Nat → UInt8)
    (peek : Nat → BufProg (Except Why α)) : Body σ α := do
  let rcmd ← Proc.ofExcept rcmd
  let (status, v) ← Proc.lift (execStr sock (some rcmd) true xt ⟨none, 0⟩)
  cBye status
  Proc.exitIf (v.output = none) .reply
  Proc.ofExcept (v.look past (peek v.lenOut))

/-- The caller sees the status and `*ptr_n`. -/
def getVecLen (past : Nat → UInt8) (sock : Int) (name : CStr) (n : Int) :
    SysProg (Status × Int) :=
  Proc.finish (do
    let m ← askOutput sock (getVecLenBuilder.build name) xtArrayInt past peekInt
    Proc.update fun _ => m) n fun exit n => (Status.ofExit exit, n)

/-- What `n_df` returns where it fails. -/
def noCount : Nat := 0xFFFFFFFF

def nDf (past : Nat → UInt8) (fn : DfFn) (sock : Int) (name : CStr) : SysProg Nat :=
  Proc.finish (do
    Proc.exitIf (sock < 0) .argument
    let itmp ← askOutput sock ((nDfBuilder fn).build name) xtArrayInt past peekInt
    Proc.exitIf (itmp < 0) .reply
    return itmp.toNat) () fun exit _ => match exit with
      | .ok n => n
      | .error _ => noCount

def ncolsDf (past : Nat → UInt8) : Int → CStr → SysProg Nat := nDf past .length

def nrowsDf (past : Nat → UInt8) : Int → CStr → SysProg Nat := nDf past .nrow

def chkRClass (past : Nat → UInt8) (sock : Int) (name cls : Option CStr) : SysProg Bool :=
  Proc.finish (do
    Proc.exitIf (sock ≤ 0) .argument
    match name, cls with
    | some name, some cls =>
        askOutput sock (chkRClassBuilder.build name) xtArrayStr past (peekClass cls)
    | _, _ => Proc.exit .argument) () fun exit _ => match exit with
      | .ok same => same
      | .error _ => false

/-- No type is asked for, and what comes back is freed unread. -/
def setBool (sock : Int) (name : CStr) (x : Bool) : SysProg Status :=
  Proc.finish (do
    let rcmd ← Proc.ofExcept ((setBoolBuilder x).build name)
    let (status, _) ← Proc.lift (execStr sock (some rcmd) true (-1) ⟨none, 0⟩)
    cBye status) () fun exit _ => Status.ofExit exit

end Functions

end RserveClient
