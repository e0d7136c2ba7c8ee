import RserveClient.Client.Socket

/-!
# The command that makes a data frame

`mk_df_str` prints the call of `data.frame` that makes a frame of the columns. One loop
computes the size of the buffer, and a second prints the names.

## Implementation notes

An array of strings is its value at every index. The function jumps to a label it does
not have; the jump is modelled as a return of `NULL`. A `NULL` string that is printed and
a failed `malloc`, which is not looked at, end the program: both are `fault`. A text longer
than its buffer is given as it is, next to the size.
-/

namespace RserveClient

/-- What `mk_df_str` comes to. -/
inductive DfStr where
  | null
  | fault
  | built (size : Int) (text : Bytes)
  deriving DecidableEq

/-- `rsdf <- data.frame(` -/
def dfHead : Bytes :=
  [114, 115, 100, 102, 32, 60, 45, 32, 100, 97, 116, 97, 46, 102, 114, 97, 109, 101, 40]

/-- `XX`, the type of a column that is left out -/
def dfSkip : CStr := ⟨[88, 88], by decide⟩

/-- `, ` -/
def dfSep : Bytes := [44, 32]

/-- The first loop, over the indices still to come. A length is added to an `int`. -/
def dfSize (colNames colTypes : Nat → Option CStr) : List Nat → Int → Option Int
  | [], len => some len
  | i :: is, len =>
      match colTypes i with
      | none => none
      | some ty =>
          if ty = dfSkip then dfSize colNames colTypes is len
          else
            match colNames i with
            | none => none
            | some name =>
                dfSize colNames colTypes is (CInt.toInt (len + (name.bytes.length + 4 : Nat)))

/-- The second loop. -/
def dfNames (colNames : Nat → Option CStr) : List Nat → Bytes → Option Bytes
  | [], buf => some buf
  | i :: is, buf =>
      match colNames i with
      | none => none
      | some name => dfNames colNames is ((if 0 < i then buf ++ dfSep else buf) ++ name.bytes)

def mkDfStr (colNames colTypes : Option (Nat → Option CStr)) (ncols : Int32) : DfStr :=
  match colNames, colTypes with
  | some colNames, some colTypes =>
      if ncols.toInt < 1 then .null
      else
        let cols := List.range ncols.toInt.toNat
        match dfSize colNames colTypes cols (dfHead.length + 32 : Nat) with
        | none => .null
        | some len =>
            if ptrdiffMax < CInt.toSizeT len then .fault
            else
              match dfNames colNames cols dfHead with
              | none => .fault
              | some text => .built len (text ++ [41])
  | _, _ => .null

section Loops

variable (names types : Nat → CStr)

/-- Whether a column goes into the frame. -/
def dfKeeps (i : Nat) : Bool := types i ≠ dfSkip

/-- The names of the given columns. -/
def dfColumns (is : List Nat) : List Bytes := is.map fun i => (names i).bytes

theorem dfColumns_cons (i : Nat) (is : List Nat) :
    dfColumns names (i :: is) = (names i).bytes :: dfColumns names is := rfl

/-- The room the first loop leaves for the given columns. -/
def dfRoom (is : List Nat) : Nat := (is.map fun i => (names i).bytes.length + 4).sum

/-- The size is the room for the kept columns, kept in an `int` all the way. -/
theorem dfSize_eq (is : List Nat) {len : Int} (hlen : CInt.toInt len = len) :
    dfSize (fun i => some (names i)) (fun i => some (types i)) is len =
      some (CInt.toInt (len + dfRoom names (is.filter (dfKeeps types)))) := by
  induction is generalizing len with
  | nil => simp [dfSize, dfRoom, hlen]
  | cons i is ih =>
      rw [dfSize]
      dsimp only
      by_cases hskip : types i = dfSkip
      · rw [if_pos hskip, ih hlen, List.filter_cons_of_neg (by simp [dfKeeps, hskip])]
      · rw [if_neg hskip, ih (CInt.toInt_toInt _),
          List.filter_cons_of_pos (by simpa [dfKeeps] using hskip), CInt.toInt_toInt_add]
        simp only [dfRoom, List.map_cons, List.sum_cons]
        congr 2
        push_cast
        omega

theorem dfNames_pos {is : List Nat} (hpos : ∀ i ∈ is, 0 < i) (buf : Bytes) :
    dfNames (fun i => some (names i)) is buf =
      some (buf ++ (dfColumns names is).flatMap fun name => dfSep ++ name) := by
  induction is generalizing buf with
  | nil => simp [dfNames, dfColumns]
  | cons i is ih =>
      rw [dfNames]
      dsimp only
      rw [if_pos (hpos i List.mem_cons_self), ih fun j hj => hpos j (List.mem_cons_of_mem _ hj)]
      simp only [dfColumns, List.map_cons, List.flatMap_cons, List.append_assoc]

/-- A separated list is its first element and then every other behind a separator. -/
theorem intercalate_cons {α : Type} (sep a : List α) (as : List (List α)) :
    sep.intercalate (a :: as) = a ++ as.flatMap fun b => sep ++ b := by
  induction as generalizing a with
  | nil => simp
  | cons b as ih =>
      rw [List.intercalate_cons_cons, ih, List.flatMap_cons]
      simp only [List.append_assoc]

/-- The text holds the names of all columns, whatever their types. -/
theorem dfNames_range (n : Nat) (buf : Bytes) :
    dfNames (fun i => some (names i)) (List.range (n + 1)) buf =
      some (buf ++ dfSep.intercalate (dfColumns names (List.range (n + 1)))) := by
  have htail : ∀ i ∈ (List.range n).map Nat.succ, 0 < i := by
    intro i hi
    obtain ⟨j, _, rfl⟩ := List.mem_map.mp hi
    exact Nat.succ_pos j
  rw [List.range_succ_eq_map, dfNames]
  dsimp only
  rw [if_neg (Nat.lt_irrefl 0), dfNames_pos names htail, dfColumns_cons, intercalate_cons,
    List.append_assoc]

/-- The size counted for the kept columns of the first `n`, before it is cut to an `int`. -/
def dfCount (n : Nat) : Nat := 51 + dfRoom names ((List.range n).filter (dfKeeps types))

theorem mkDfStr_eq {ncols : Int32} {n : Nat} (hn : ncols.toInt = (n + 1 : Nat)) :
    mkDfStr (some fun i => some (names i)) (some fun i => some (types i)) ncols =
      if ptrdiffMax < CInt.toSizeT (CInt.toInt (dfCount names types (n + 1))) then .fault
      else .built (CInt.toInt (dfCount names types (n + 1)))
        (dfHead ++ dfSep.intercalate (dfColumns names (List.range (n + 1))) ++ [41]) := by
  have hstart : CInt.toInt (dfHead.length + 32 : Nat) = (dfHead.length + 32 : Nat) := by decide
  have hsum : ((dfHead.length + 32 : Nat) : Int) +
      dfRoom names ((List.range (n + 1)).filter (dfKeeps types)) = dfCount names types (n + 1) := by
    rw [dfCount, Nat.cast_add]
    rfl
  rw [mkDfStr]
  dsimp only
  rw [if_neg (by omega), hn, Int.toNat_natCast, dfSize_eq names types _ hstart, hsum,
    dfNames_range]

end Loops

end RserveClient
