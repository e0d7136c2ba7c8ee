import Mathlib.Tactic.Common

/-!
# Calls in R

The part of R that a program needs which evaluates one call: names, string
constants in double quotes, and a call of a function of one argument, in a
global environment.

## Implementation notes

The table of escapes is a parameter; of it only this is used, that an escape
takes more bytes than what it stands for. A text that is not such a call has no
value here: neither operators nor nested calls are read, and of the functions
only `exists` and `is.vector` are known.
-/

namespace RText

/-- What may follow a backslash in a string constant, and what it stands for. -/
structure Escapes where
  read : List UInt8 → Option (List UInt8 × List UInt8)
  shorter : ∀ {bs out rest}, read bs = some (out, rest) →
    ∃ used, bs = used ++ rest ∧ out.length ≤ used.length

/-- `\n`, `\t`, `\"` and `\\`. -/
def someEscapes : Escapes where
  read
    | 110 :: rest => some ([10], rest)
    | 116 :: rest => some ([9], rest)
    | 34 :: rest => some ([34], rest)
    | 92 :: rest => some ([92], rest)
    | _ => none
  shorter := by
    intro bs out rest h
    split at h
    · cases h
      exact ⟨[110], rfl, Nat.le_refl _⟩
    · cases h
      exact ⟨[116], rfl, Nat.le_refl _⟩
    · cases h
      exact ⟨[34], rfl, Nat.le_refl _⟩
    · cases h
      exact ⟨[92], rfl, Nat.le_refl _⟩
    · cases h

inductive Token where
  | name (bytes : List UInt8)
  | string (bytes : List UInt8)
  | lparen
  | rparen
  | comma
  deriving DecidableEq, Repr

/-- Letters and the dot. -/
def isNameStart (b : UInt8) : Bool := (65 ≤ b && b ≤ 90) || (97 ≤ b && b ≤ 122) || b == 46

/-- Letters, digits, the dot and the underscore. -/
def isNameByte (b : UInt8) : Bool := isNameStart b || (48 ≤ b && b ≤ 57) || b == 95

def isBlank (b : UInt8) : Bool := b == 32 || b == 9 || b == 10 || b == 13

section Lexer

variable (e : Escapes)

/-- The value of a string constant after its opening quote, and what follows the closing one. -/
def stringToken : Nat → List UInt8 → Option (List UInt8 × List UInt8)
  | 0, _ => none
  | _ + 1, [] => none
  | fuel + 1, b :: bs =>
      if b = 34 then some ([], bs)
      else if b = 92 then
        match e.read bs with
        | none => none
        | some (out, rest) =>
            (stringToken fuel rest).map fun r => (out ++ r.1, r.2)
      else (stringToken fuel bs).map fun r => (b :: r.1, r.2)

/-- The tokens of a text; blanks and comments are passed over. -/
def lex : Nat → List UInt8 → Option (List Token)
  | _, [] => some []
  | 0, _ :: _ => none
  | fuel + 1, b :: bs =>
      if isBlank b then lex fuel bs
      else if b = 35 then lex fuel (bs.dropWhile (· ≠ 10))
      else if b = 40 then (lex fuel bs).map (.lparen :: ·)
      else if b = 41 then (lex fuel bs).map (.rparen :: ·)
      else if b = 44 then (lex fuel bs).map (.comma :: ·)
      else if b = 34 then
        match stringToken e (bs.length + 1) bs with
        | none => none
        | some (s, rest) => (lex fuel rest).map (.string s :: ·)
      else if isNameStart b then
        (lex fuel (bs.dropWhile isNameByte)).map (.name (b :: bs.takeWhile isNameByte) :: ·)
      else none

end Lexer

/-- An argument: a variable or a string constant. -/
inductive Arg where
  | name (bytes : List UInt8)
  | string (bytes : List UInt8)
  deriving DecidableEq, Repr

structure Call where
  fn : List UInt8
  args : List Arg
  deriving DecidableEq, Repr

def Token.toArg : Token → Option Arg
  | .name bytes => some (.name bytes)
  | .string bytes => some (.string bytes)
  | _ => none

/-- The arguments up to the closing bracket, with which the text ends. -/
def parseArgs : List Token → Option (List Arg)
  | [t, .rparen] => t.toArg.map ([·])
  | t :: .comma :: ts =>
      match t.toArg with
      | none => none
      | some arg => (parseArgs ts).map (arg :: ·)
  | _ => none

/-- A text that is a single call. -/
def parseCall (e : Escapes) (text : List UInt8) : Option Call :=
  match lex e text.length text with
  | some (.name fn :: .lparen :: ts) => (parseArgs ts).map (Call.mk fn)
  | _ => none

/-- Objects, as far as the two functions tell them apart. -/
inductive Obj where
  | string (bytes : List UInt8)
  | logical (x : Bool)
  | other (vector : Bool)
  deriving DecidableEq, Repr

/-- Strings and logicals are vectors of one element. -/
def Obj.isVector : Obj → Bool
  | string _ | logical _ => true
  | other vector => vector

/-- The variables of the global environment. -/
abbrev Env := List UInt8 → Option Obj

def Arg.value (env : Env) : Arg → Option Obj
  | name bytes => env bytes
  | string bytes => some (.string bytes)

/-- `exists` -/
def existsFn : List UInt8 := [101, 120, 105, 115, 116, 115]

/-- `is.vector` -/
def isVectorFn : List UInt8 := [105, 115, 46, 118, 101, 99, 116, 111, 114]

/-- `exists(s)` tests whether a variable of that name is bound, `is.vector(e)` tests the value
of its argument. -/
def Call.value (env : Env) (call : Call) : Option Obj :=
  match call.args with
  | [arg] =>
      if call.fn = existsFn then
        match arg.value env with
        | some (.string bytes) => some (.logical (env bytes).isSome)
        | _ => none
      else if call.fn = isVectorFn then (arg.value env).map fun obj => .logical obj.isVector
      else none
  | _ => none

/-- The value of a text that is a single call. -/
def value (e : Escapes) (env : Env) (text : List UInt8) : Option Obj :=
  (parseCall e text).bind (Call.value env)

/-- Neither a double quote nor a backslash. -/
def plain (bs : List UInt8) : Prop := 34 ∉ bs ∧ 92 ∉ bs

instance (bs : List UInt8) : Decidable (plain bs) := inferInstanceAs (Decidable (_ ∧ _))

section Strings

variable {e : Escapes}

/-- A plain body is its own value. -/
theorem stringToken_plain {body : List UInt8} (h : plain body) (rest : List UInt8) {fuel : Nat}
    (hfuel : body.length < fuel) : stringToken e fuel (body ++ 34 :: rest) = some (body, rest) := by
  induction body generalizing fuel with
  | nil =>
      obtain ⟨k, rfl⟩ : ∃ k, fuel = k + 1 := ⟨fuel - 1, by omega⟩
      rw [List.nil_append, stringToken, if_pos rfl]
  | cons b body ih =>
      obtain ⟨k, rfl⟩ : ∃ k, fuel = k + 1 := ⟨fuel - 1, by omega⟩
      have hquote : b ≠ 34 := fun h34 => h.1 (h34 ▸ List.mem_cons_self)
      have hslash : b ≠ 92 := fun h92 => h.2 (h92 ▸ List.mem_cons_self)
      have hbody : plain body :=
        ⟨fun hmem => h.1 (List.mem_cons_of_mem b hmem),
          fun hmem => h.2 (List.mem_cons_of_mem b hmem)⟩
      rw [List.length_cons] at hfuel
      rw [List.cons_append, stringToken, if_neg hquote, if_neg hslash, ih hbody (by omega)]
      rfl

/-- A constant takes at least as many bytes as its value has, and as many only if its body is
plain. -/
theorem stringToken_body {fuel : Nat} {bs s rest : List UInt8}
    (h : stringToken e fuel bs = some (s, rest)) :
    ∃ body, bs = body ++ 34 :: rest ∧ s.length ≤ body.length ∧
      (s.length = body.length → s = body ∧ plain body) := by
  induction fuel generalizing bs s with
  | zero => cases h
  | succ fuel ih =>
      cases bs with
      | nil => cases h
      | cons b bs =>
          rw [stringToken] at h
          by_cases hquote : b = 34
          · rw [if_pos hquote] at h
            cases h
            exact ⟨[], by rw [hquote, List.nil_append], Nat.le_refl _,
              fun _ => ⟨rfl, List.not_mem_nil, List.not_mem_nil⟩⟩
          rw [if_neg hquote] at h
          by_cases hslash : b = 92
          · rw [if_pos hslash] at h
            cases hread : e.read bs with
            | none =>
                rw [hread] at h
                cases h
            | some r =>
                obtain ⟨out, rest'⟩ := r
                rw [hread] at h
                obtain ⟨⟨s', rest''⟩, htail, heq⟩ := Option.map_eq_some_iff.mp h
                cases heq
                obtain ⟨used, rfl, hused⟩ := e.shorter hread
                obtain ⟨body, rfl, hle, _⟩ := ih htail
                -- the backslash itself stands for nothing
                refine ⟨b :: (used ++ body), ?_, ?_, ?_⟩
                · rw [List.cons_append, List.append_assoc]
                · simp only [List.length_append, List.length_cons]
                  omega
                · intro heq
                  simp only [List.length_append, List.length_cons] at heq
                  omega
          · rw [if_neg hslash] at h
            obtain ⟨⟨s', rest''⟩, htail, heq⟩ := Option.map_eq_some_iff.mp h
            cases heq
            obtain ⟨body, rfl, hle, hplain⟩ := ih htail
            refine ⟨b :: body, rfl, Nat.succ_le_succ hle, ?_⟩
            intro heq
            obtain ⟨rfl, h34, h92⟩ := hplain (Nat.succ.inj heq)
            refine ⟨rfl, ?_, ?_⟩
            · exact List.not_mem_cons_of_ne_of_not_mem (Ne.symm hquote) h34
            · exact List.not_mem_cons_of_ne_of_not_mem (Ne.symm hslash) h92

end Strings

/-- The name between double quotes, as the argument of a function. -/
def quotedCall (fn name : List UInt8) : List UInt8 := fn ++ 40 :: 34 :: (name ++ [34, 41])

section Quoted

variable {e : Escapes} {fn name : List UInt8}

/-- The first three tokens, after which the constant has been read. -/
theorem lex_quoted (hfn : fn = existsFn ∨ fn = isVectorFn) (fuel : Nat) (bs : List UInt8) :
    lex e (fuel + 3) (fn ++ 40 :: 34 :: bs) =
      (stringToken e (bs.length + 1) bs).bind fun r =>
        (lex e fuel r.2).map fun ts => .name fn :: .lparen :: .string r.1 :: ts := by
  have hname : lex e (fuel + 3) (fn ++ 40 :: 34 :: bs) =
      (lex e (fuel + 2) (40 :: 34 :: bs)).map (.name fn :: ·) := by
    rcases hfn with rfl | rfl <;> rfl
  have hparen : lex e (fuel + 2) (40 :: 34 :: bs) =
      (lex e (fuel + 1) (34 :: bs)).map (.lparen :: ·) := rfl
  have hstring : lex e (fuel + 1) (34 :: bs) =
      match stringToken e (bs.length + 1) bs with
      | none => none
      | some (s, rest) => (lex e fuel rest).map (.string s :: ·) := rfl
  rw [hname, hparen, hstring]
  cases stringToken e (bs.length + 1) bs with
  | none => rfl
  | some r => simp only [Option.map_map, Option.bind_some, Function.comp_def]

theorem parseCall_quoted (e : Escapes) (name : List UInt8) (hfn : fn = existsFn ∨ fn = isVectorFn) :
    ∃ fuel, 0 < fuel ∧ parseCall e (quotedCall fn name) =
      (stringToken e (name.length + 3) (name ++ [34, 41])).bind fun r =>
        (lex e fuel r.2).bind fun ts => (parseArgs (.string r.1 :: ts)).map (Call.mk fn) := by
  have hpos : 1 ≤ fn.length := by
    rcases hfn with rfl | rfl <;> decide
  refine ⟨fn.length - 1 + name.length + 2, by omega, ?_⟩
  have hlen : (quotedCall fn name).length = fn.length - 1 + name.length + 2 + 3 := by
    simp only [quotedCall, List.length_append, List.length_cons, List.length_nil]
    omega
  have hbody : (name ++ [34, 41]).length + 1 = name.length + 3 := by
    simp only [List.length_append, List.length_cons, List.length_nil]
  rw [parseCall, hlen, quotedCall, lex_quoted hfn, hbody]
  cases stringToken e (name.length + 3) (name ++ [34, 41]) with
  | none => rfl
  | some r =>
      simp only [Option.bind_some]
      cases lex e (fn.length - 1 + name.length + 2) r.2 with
      | none => rfl
      | some ts => rfl

/-- A plain name is the argument. -/
theorem parseCall_plain (hfn : fn = existsFn ∨ fn = isVectorFn) (h : plain name) :
    parseCall e (quotedCall fn name) = some ⟨fn, [.string name]⟩ := by
  obtain ⟨fuel, hfuel, hparse⟩ := parseCall_quoted e name hfn
  have htoken : stringToken e (name.length + 3) (name ++ [34, 41]) = some (name, [41]) :=
    stringToken_plain h [41] (by omega)
  have hclose : lex e fuel [41] = some [.rparen] := by
    obtain ⟨k, rfl⟩ : ∃ k, fuel = k + 1 := ⟨fuel - 1, by omega⟩
    cases k <;> rfl
  rw [hparse, htoken, Option.bind_some, hclose]
  rfl

/-- The first token is the first argument. -/
theorem head_parseArgs {s : List UInt8} {ts : List Token} {arg : Arg}
    (h : parseArgs (.string s :: ts) = some [arg]) : arg = .string s := by
  unfold parseArgs at h
  split at h
  · rename_i heq
    obtain ⟨rfl, _⟩ := List.cons_eq_cons.mp heq
    cases h
    rfl
  · rename_i heq
    obtain ⟨rfl, _⟩ := List.cons_eq_cons.mp heq
    obtain ⟨args, _, hargs⟩ := Option.map_eq_some_iff.mp h
    exact (List.cons_eq_cons.mp hargs).1.symm
  · cases h

/-- If there is a single argument it is a constant, and the name only if that is plain. -/
theorem of_parseCall_quoted (hfn : fn = existsFn ∨ fn = isVectorFn) {call : Call} {arg : Arg}
    (h : parseCall e (quotedCall fn name) = some call) (harg : call.args = [arg]) :
    call.fn = fn ∧ ∃ s, arg = .string s ∧ (s = name → plain name) := by
  obtain ⟨fuel, _, hparse⟩ := parseCall_quoted e name hfn
  rw [hparse] at h
  obtain ⟨⟨s, rest⟩, htoken, h⟩ := Option.bind_eq_some_iff.mp h
  obtain ⟨ts, _, h⟩ := Option.bind_eq_some_iff.mp h
  obtain ⟨args, hargs, rfl⟩ := Option.map_eq_some_iff.mp h
  obtain rfl : args = [arg] := harg
  refine ⟨rfl, s, head_parseArgs hargs, ?_⟩
  rintro rfl
  obtain ⟨body, hbody, hle, hplain⟩ := stringToken_body htoken
  have hrest : rest ≠ [] := by
    rintro rfl
    have hlast := congrArg List.getLast? hbody
    simp at hlast
  have hpos := List.length_pos_iff.mpr hrest
  have hlen := congrArg List.length hbody
  simp only [List.length_append, List.length_cons, List.length_nil] at hlen
  obtain ⟨rfl, hs⟩ := hplain (by omega)
  exact hs

/-- Whether the object bound to a name is a vector. -/
def vectorBound (env : Env) (name : List UInt8) : Bool :=
  match env name with
  | some obj => obj.isVector
  | none => false

/-- Only one name is bound. -/
def only (name : List UInt8) (obj : Obj) : Env := fun bytes =>
  if bytes = name then some obj else none

/-- `exists` of a pasted name asks for that name, in every environment, exactly if the name is
plain. -/
theorem value_existsCall_iff :
    (∀ env, value e env (quotedCall existsFn name) = some (.logical (env name).isSome)) ↔
      plain name := by
  constructor
  · intro hvalue
    -- where nothing else is bound the answer is yes for no other name
    have honly := hvalue (only name (.logical true))
    obtain ⟨call, hparse, hcall⟩ := Option.bind_eq_some_iff.mp honly
    rw [Call.value] at hcall
    split at hcall
    · rename_i arg harg
      obtain ⟨hfn, s, rfl, hs⟩ := of_parseCall_quoted (Or.inl rfl) hparse harg
      apply hs
      by_contra hne
      have hname : only name (.logical true) name = some (.logical true) := if_pos rfl
      have hother : only name (.logical true) s = none := if_neg hne
      simp [hfn, Arg.value, hname, hother] at hcall
    · cases hcall
  · intro hplain env
    rw [value, parseCall_plain (Or.inl rfl) hplain, Option.bind_some, Call.value]
    exact if_pos rfl

/-- `is.vector` of a pasted name has no value or the value `TRUE`: it asks about the constant. -/
theorem value_isVectorCall {env : Env} {obj : Obj}
    (h : value e env (quotedCall isVectorFn name) = some obj) : obj = .logical true := by
  obtain ⟨call, hparse, hcall⟩ := Option.bind_eq_some_iff.mp h
  rw [Call.value] at hcall
  split at hcall
  · rename_i arg harg
    obtain ⟨hfn, s, rfl, _⟩ := of_parseCall_quoted (Or.inr rfl) hparse harg
    rw [if_neg (by rw [hfn]; decide), if_pos hfn] at hcall
    exact (Option.some.inj hcall).symm
  · cases hcall

/-- So for no name is it the right answer in every environment. -/
theorem value_isVectorCall_ne (e : Escapes) (name : List UInt8) :
    ¬ ∀ env, value e env (quotedCall isVectorFn name) = some (.logical (vectorBound env name)) := by
  intro hvalue
  have hobj := value_isVectorCall (hvalue (only name (.other false)))
  simp [vectorBound, only, Obj.isVector] at hobj

end Quoted

end RText
