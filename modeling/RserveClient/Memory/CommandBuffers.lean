import RserveClient.Client.Commands

/-!
# The buffers of the commands

Every function that pastes a name into a command writes it with `sprintf` into
an array or a block of its own. Whether the text and its terminator fit depends
on the length of the name.
-/

namespace RserveClient

/-- The functions that build a command with `sprintf`. -/
inductive CommandFn where
  | chkRClass
  | nDf (fn : DfFn)
  | exists1
  | exists2
  | isVector
  | setBool (x : Bool)
  | getVecLen

namespace CommandFn

def builder : CommandFn → CmdBuilder
  | chkRClass => chkRClassBuilder
  | nDf fn => nDfBuilder fn
  | exists1 | exists2 => existsBuilder
  | isVector => isVectorBuilder
  | setBool x => setBoolBuilder x
  | getVecLen => getVecLenBuilder

end CommandFn

namespace CmdBuilder

/-- What `sprintf` writes besides the name: the rest of the text and the terminator. -/
def overhead (b : CmdBuilder) : Nat := b.format.head.bytes.length + b.format.tail.bytes.length + 1

/-- What `sprintf` writes is at most the size of the buffer, where there is one. -/
def Fits (b : CmdBuilder) (name : CStr) : Prop :=
  ∀ size, b.buffer.size name = some size → (b.format.paste name).bytes.length + 1 ≤ size

/-- The array is large enough for the name; or the size of the block does not wrap as an
`int`, or wraps to a negative one, which `malloc` refuses. -/
def Roomy (b : CmdBuilder) (name : CStr) : Prop :=
  match b.buffer with
  | .array size => name.bytes.length + b.overhead ≤ size
  | .block slack =>
      name.bytes.length + slack < 2 ^ 31 ∨ 2 ^ 31 ≤ (name.bytes.length + slack) % 2 ^ 32

theorem length_paste (b : CmdBuilder) (name : CStr) :
    (b.format.paste name).bytes.length + 1 = name.bytes.length + b.overhead := by
  simp only [CmdFormat.paste, List.length_append, overhead]
  omega

/-- The size of a block: none where the sum is negative as an `int`. -/
theorem size_block (slack : Nat) (name : CStr) :
    (CmdBuffer.block slack).size name =
      if (name.bytes.length + slack) % 2 ^ 32 < 2 ^ 31 then
        some ((name.bytes.length + slack) % 2 ^ 32)
      else none := by
  rw [CmdBuffer.size]
  have hsize : blockSize name slack =
      if (name.bytes.length + slack) % 2 ^ 32 < 2 ^ 31 then
        (name.bytes.length + slack) % 2 ^ 32
      else 2 ^ 64 - 2 ^ 32 + (name.bytes.length + slack) % 2 ^ 32 := by
    unfold blockSize CInt.toSizeT CInt.toInt
    split <;> omega
  have hmax : ptrdiffMax = 2 ^ 63 - 1 := rfl
  by_cases hwrap : (name.bytes.length + slack) % 2 ^ 32 < 2 ^ 31
  · rw [if_pos hwrap] at hsize ⊢
    rw [if_neg (by omega), hsize]
  · rw [if_neg hwrap] at hsize ⊢
    rw [if_pos (by omega)]

/-- A builder whose slack covers the rest of the text fits exactly where it is roomy. -/
theorem fits_iff_roomy {b : CmdBuilder}
    (hslack : ∀ slack, b.buffer = .block slack → b.overhead ≤ slack ∧ slack < 2 ^ 32)
    (name : CStr) : b.Fits name ↔ b.Roomy name := by
  rw [Fits, b.length_paste, Roomy]
  cases hbuffer : b.buffer with
  | array size =>
      constructor
      · intro hfits
        exact hfits size rfl
      · intro hroomy size' hsize
        cases hsize
        exact hroomy
  | block slack =>
      obtain ⟨hover, hlt⟩ := hslack slack hbuffer
      have hpos : 0 < b.overhead := Nat.succ_pos _
      rw [size_block]
      dsimp only
      split
      · simp only [Option.some.injEq, forall_eq']
        omega
      · refine iff_of_true ?_ (Or.inr (by omega))
        intro size hsize
        cases hsize

end CmdBuilder

section Arrays

variable {name : CStr}

/-- An array has room for what the rest of the command leaves. -/
theorem CmdBuilder.roomy_array_iff {b : CmdBuilder} {size : Nat} (hb : b.buffer = .array size) :
    b.Roomy name ↔ name.bytes.length + b.overhead ≤ size := by
  rw [CmdBuilder.Roomy, hb]

theorem roomy_chkRClass_iff :
    CommandFn.chkRClass.builder.Roomy name ↔ name.bytes.length ≤ 1016 := by
  have hover : chkRClassBuilder.overhead = 8 := rfl
  rw [CommandFn.builder, CmdBuilder.roomy_array_iff rfl, hover]
  omega

theorem roomy_nDf_length_iff :
    (CommandFn.nDf .length).builder.Roomy name ↔ name.bytes.length ≤ 1015 := by
  have hover : (nDfBuilder .length).overhead = 9 := rfl
  rw [CommandFn.builder, CmdBuilder.roomy_array_iff rfl, hover]
  omega

theorem roomy_nDf_nrow_iff :
    (CommandFn.nDf .nrow).builder.Roomy name ↔ name.bytes.length ≤ 1017 := by
  have hover : (nDfBuilder .nrow).overhead = 7 := rfl
  rw [CommandFn.builder, CmdBuilder.roomy_array_iff rfl, hover]
  omega

end Arrays

/-- Every command fits its buffer exactly where the array has room for the name, or where the
size of the block does not wrap to a small one. -/
theorem commands_fit_iff (f : CommandFn) (name : CStr) :
    f.builder.Fits name ↔ f.builder.Roomy name := by
  apply CmdBuilder.fits_iff_roomy
  intro slack hbuffer
  cases f with
  | chkRClass => cases hbuffer
  | nDf fn => cases hbuffer
  | exists1 =>
      cases hbuffer
      decide
  | exists2 =>
      cases hbuffer
      decide
  | isVector =>
      cases hbuffer
      decide
  | setBool x =>
      cases hbuffer
      cases x <;> decide
  | getVecLen =>
      cases hbuffer
      decide

/-- A name of 1017 bytes. -/
def longName : CStr := ⟨List.replicate 1017 97, by
  rw [List.mem_replicate]
  decide⟩

/-- Its command takes one byte more than the array of `chk_R_class` has. -/
theorem chkRClass_overruns :
    (CommandFn.chkRClass.builder.format.paste longName).bytes.length + 1 = 1025 ∧
      CommandFn.chkRClass.builder.buffer.size longName = some 1024 ∧
      ¬ CommandFn.chkRClass.builder.Fits longName := by
  have hlen : (CommandFn.chkRClass.builder.format.paste longName).bytes.length + 1 = 1025 := by
    rw [CmdBuilder.length_paste, longName, List.length_replicate]
    rfl
  refine ⟨hlen, rfl, ?_⟩
  intro hfits
  have hle := hfits 1024 rfl
  omega

end RserveClient
