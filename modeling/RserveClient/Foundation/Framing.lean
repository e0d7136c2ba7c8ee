import Mathlib.Data.List.TakeDrop
import Mathlib.Tactic.Common

/-!
# Length-prefixed framing

A frame is a header of fixed size followed by a body whose length the header
tells. A stream has at most one reading as a list of frames, and the reader
below finds it.
-/

namespace Framing

variable {α : Type}

/-- How a header announces its body. -/
structure Format (α : Type) where
  size : Nat
  size_pos : 0 < size
  bodyLen : List α → Nat

structure Frame (α : Type) where
  head : List α
  body : List α
  deriving DecidableEq, Repr

def Frame.bytes (f : Frame α) : List α := f.head ++ f.body

/-- The header has the right size and announces exactly the body. -/
def Format.Valid (F : Format α) (f : Frame α) : Prop :=
  f.head.length = F.size ∧ F.bodyLen f.head = f.body.length

/-- Read frames until the stream is used up; `fuel` bounds their number. -/
def Format.parseUpTo (F : Format α) : Nat → List α → Option (List (Frame α))
  | _, [] => some []
  | 0, _ :: _ => none
  | fuel + 1, a :: as =>
      let head := (a :: as).take F.size
      let rest := (a :: as).drop F.size
      if (a :: as).length < F.size ∨ rest.length < F.bodyLen head then none
      else
        (F.parseUpTo fuel (rest.drop (F.bodyLen head))).map
          (⟨head, rest.take (F.bodyLen head)⟩ :: ·)

/-- Read a whole stream as frames. -/
def Format.parse (F : Format α) (s : List α) : Option (List (Frame α)) :=
  F.parseUpTo s.length s

theorem Format.Valid.length_bytes {F : Format α} {f : Frame α} (h : F.Valid f) :
    f.bytes.length = F.size + f.body.length := by
  rw [Frame.bytes, List.length_append, h.1]

/-- The header of a valid frame is found again in front of any rest. -/
theorem Format.Valid.take_bytes {F : Format α} {f : Frame α} (h : F.Valid f)
    (rest : List α) : (f.bytes ++ rest).take F.size = f.head := by
  rw [Frame.bytes, List.append_assoc, ← h.1, List.take_left]

theorem Format.Valid.drop_bytes {F : Format α} {f : Frame α} (h : F.Valid f)
    (rest : List α) : (f.bytes ++ rest).drop F.size = f.body ++ rest := by
  rw [Frame.bytes, List.append_assoc, ← h.1, List.drop_left]

/-- Two readings of a stream begin with the same frame. -/
theorem Format.Valid.append_inj {F : Format α} {f g : Frame α} (hf : F.Valid f) (hg : F.Valid g)
    {r r' : List α} (h : f.bytes ++ r = g.bytes ++ r') : f = g ∧ r = r' := by
  have hhead : f.head = g.head := by
    rw [← hf.take_bytes r, h, hg.take_bytes]
  have hrest : f.body ++ r = g.body ++ r' := by
    rw [← hf.drop_bytes r, h, hg.drop_bytes]
  have hlen : f.body.length = g.body.length := by
    rw [← hf.2, hhead, hg.2]
  obtain ⟨hbody, hr⟩ := List.append_inj hrest hlen
  refine ⟨?_, hr⟩
  cases f
  cases g
  rw [Frame.mk.injEq]
  exact ⟨hhead, hbody⟩

/-- A stream that begins with a valid frame is read as that frame and the rest. -/
theorem Format.parseUpTo_frame {F : Format α} {f : Frame α} (h : F.Valid f)
    (fuel : Nat) (rest : List α) :
    F.parseUpTo (fuel + 1) (f.bytes ++ rest) =
      (F.parseUpTo fuel rest).map (f :: ·) := by
  have hlen := h.length_bytes
  have hpos := F.size_pos
  cases hs : f.bytes ++ rest with
  | nil =>
      have hz := congrArg List.length hs
      simp only [List.length_append, hlen, List.length_nil] at hz
      omega
  | cons a as =>
      rw [parseUpTo, ← hs, h.take_bytes, h.drop_bytes, h.2]
      have hfits : ¬ ((f.bytes ++ rest).length < F.size ∨
          (f.body ++ rest).length < f.body.length) := by
        simp only [List.length_append, hlen]
        omega
      rw [if_neg hfits, List.drop_left, List.take_left]

/-- Frames written one after another are read back in order. -/
theorem Format.parse_flatMap {F : Format α} {fs : List (Frame α)}
    (h : ∀ f ∈ fs, F.Valid f) : F.parse (fs.flatMap Frame.bytes) = some fs := by
  have hfuel : ∀ fuel, (fs.flatMap Frame.bytes).length ≤ fuel →
      F.parseUpTo fuel (fs.flatMap Frame.bytes) = some fs := by
    induction fs with
    | nil =>
        intro fuel _
        cases fuel <;> rfl
    | cons f fs ih =>
        intro fuel hle
        have hf := h f List.mem_cons_self
        have hpos := F.size_pos
        rw [List.flatMap_cons, List.length_append, hf.length_bytes] at hle
        obtain ⟨fuel, rfl⟩ : ∃ k, fuel = k + 1 := ⟨fuel - 1, by omega⟩
        rw [List.flatMap_cons, parseUpTo_frame hf,
          ih (fun g hg => h g (List.mem_cons_of_mem f hg)) fuel (by omega)]
        rfl
  exact hfuel _ (Nat.le_refl _)

/-- What is read consists of valid frames and makes up the stream. -/
theorem Format.parseUpTo_sound {F : Format α} {fuel : Nat} {s : List α}
    {fs : List (Frame α)} (h : F.parseUpTo fuel s = some fs) :
    (∀ f ∈ fs, F.Valid f) ∧ fs.flatMap Frame.bytes = s := by
  induction fuel generalizing s fs with
  | zero =>
      cases s with
      | nil =>
          obtain rfl : [] = fs := by simpa [parseUpTo] using h
          simp
      | cons a as => simp [parseUpTo] at h
  | succ fuel ih =>
      cases s with
      | nil =>
          obtain rfl : [] = fs := by simpa [parseUpTo] using h
          simp
      | cons a as =>
          rw [parseUpTo] at h
          split at h
          · cases h
          · rename_i hfits
            obtain ⟨gs, hgs, rfl⟩ := Option.map_eq_some_iff.mp h
            obtain ⟨hvalid, hbytes⟩ := ih hgs
            have hhead : ((a :: as).take F.size).length = F.size := by
              rw [List.length_take]
              omega
            have hbody : F.bodyLen ((a :: as).take F.size) =
                (((a :: as).drop F.size).take
                  (F.bodyLen ((a :: as).take F.size))).length := by
              rw [List.length_take]
              omega
            constructor
            · intro f hf
              rcases List.mem_cons.mp hf with rfl | hf
              · exact ⟨hhead, hbody⟩
              · exact hvalid f hf
            · rw [List.flatMap_cons, hbytes, Frame.bytes, List.append_assoc,
                List.take_append_drop, List.take_append_drop]

/-- A stream is read as `fs` exactly when it is made up of `fs`, all valid. -/
theorem Format.parse_eq_some_iff {F : Format α} {s : List α} {fs : List (Frame α)} :
    F.parse s = some fs ↔ (∀ f ∈ fs, F.Valid f) ∧ fs.flatMap Frame.bytes = s := by
  constructor
  · exact fun h => parseUpTo_sound h
  · rintro ⟨hvalid, rfl⟩
    exact parse_flatMap hvalid

/-- A frame is added to what has been read. -/
theorem Format.parse_append_frame {F : Format α} {s : List α} {fs : List (Frame α)} {f : Frame α}
    (hs : F.parse s = some fs) (hf : F.Valid f) : F.parse (s ++ f.bytes) = some (fs ++ [f]) := by
  obtain ⟨hvalid, rfl⟩ := parse_eq_some_iff.mp hs
  apply parse_eq_some_iff.mpr
  constructor
  · intro g hg
    rcases List.mem_append.mp hg with hg | hg
    · exact hvalid g hg
    · rw [List.mem_singleton.mp hg]
      exact hf
  · rw [List.flatMap_append, List.flatMap_singleton]

/-- Two readings of a stream agree on the frames that both have. -/
theorem Format.flatMap_append_inj {F : Format α} {fs gs : List (Frame α)} {r : List α}
    (hfs : ∀ f ∈ fs, F.Valid f) (hgs : ∀ g ∈ gs, F.Valid g)
    (h : fs.flatMap Frame.bytes ++ r = gs.flatMap Frame.bytes) :
    ∃ rs : List (Frame α), (∀ g ∈ rs, F.Valid g) ∧ r = rs.flatMap Frame.bytes := by
  induction fs generalizing gs with
  | nil => exact ⟨gs, hgs, h⟩
  | cons f fs ih =>
      have hf := hfs f List.mem_cons_self
      cases gs with
      | nil =>
          have hlen := congrArg List.length h
          have hpos := F.size_pos
          simp only [List.flatMap_cons, List.length_append, hf.length_bytes, List.flatMap_nil,
            List.length_nil] at hlen
          omega
      | cons g gs =>
          rw [List.flatMap_cons, List.flatMap_cons, List.append_assoc] at h
          obtain ⟨_, hrest⟩ := hf.append_inj (hgs g List.mem_cons_self) h
          exact ih (fun f' hmem => hfs f' (List.mem_cons_of_mem f hmem))
            (fun g' hmem => hgs g' (List.mem_cons_of_mem g hmem)) hrest

/-- A frame that breaks off leaves a stream that is no list of frames. -/
theorem Format.parse_append_cut {F : Format α} {s part : List α} {fs : List (Frame α)}
    {f : Frame α} (hs : F.parse s = some fs) (hf : F.Valid f) (hpart : part <+: f.bytes)
    (hsome : part ≠ []) (hcut : part ≠ f.bytes) : F.parse (s ++ part) = none := by
  by_contra hparsed
  obtain ⟨gs, hgs⟩ := Option.ne_none_iff_exists'.mp hparsed
  obtain ⟨hvalid, rfl⟩ := parse_eq_some_iff.mp hs
  obtain ⟨hgvalid, hbytes⟩ := parse_eq_some_iff.mp hgs
  obtain ⟨rs, hrs, rfl⟩ := flatMap_append_inj hvalid hgvalid hbytes.symm
  cases rs with
  | nil => exact hsome rfl
  | cons g gs =>
      obtain ⟨rest, hrest⟩ := hpart
      rw [List.flatMap_cons, List.append_assoc, ← List.append_nil f.bytes] at hrest
      -- the part begins with a frame, so it is all of the frame that was cut
      obtain ⟨rfl, hnil⟩ := (hrs g List.mem_cons_self).append_inj hf hrest
      rw [List.append_eq_nil_iff] at hnil
      rw [List.flatMap_cons, hnil.1, List.append_nil] at hcut
      exact hcut rfl

end Framing
