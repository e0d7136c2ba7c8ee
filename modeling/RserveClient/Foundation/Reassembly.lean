import RserveClient.Foundation.Framing

/-!
# Answering frames as they are completed

The receiving end of a framed stream. It collects what comes until a frame is complete,
answers the frame and starts again, so it does not matter in which pieces the stream comes.
-/

namespace Framing

variable {α σ ε : Type}

namespace Format

variable (F : Format α)

/-- The bytes collected are a header and the body it announces. -/
def Complete (bs : List α) : Prop :=
  F.size ≤ bs.length ∧ bs.length = F.size + F.bodyLen (bs.take F.size)

instance (bs : List α) : Decidable (F.Complete bs) := inferInstanceAs (Decidable (_ ∧ _))

/-- One more element comes to what has been collected; the second component is the answer. -/
def feed (answer : σ → List α → σ × List ε) (st : List α × σ) (a : α) :
    (List α × σ) × List ε :=
  let bs := st.1 ++ [a]
  if F.Complete bs then (([], (answer st.2 bs).1), (answer st.2 bs).2) else ((bs, st.2), [])

def feedAll (answer : σ → List α → σ × List ε) : List α × σ → List α → (List α × σ) × List ε
  | st, [] => (st, [])
  | st, a :: as =>
      let r := F.feed answer st a
      let rest := feedAll answer r.1 as
      (rest.1, r.2 ++ rest.2)

variable {F} {answer : σ → List α → σ × List ε}

/-- In one piece or in two. -/
theorem feedAll_append (st : List α × σ) (as bs : List α) :
    F.feedAll answer st (as ++ bs) =
      ((F.feedAll answer (F.feedAll answer st as).1 bs).1,
        (F.feedAll answer st as).2 ++ (F.feedAll answer (F.feedAll answer st as).1 bs).2) := by
  induction as generalizing st with
  | nil => rfl
  | cons a as ih =>
      rw [List.cons_append, feedAll, feedAll, ih]
      dsimp only
      rw [List.append_assoc]

/-- A beginning of a valid frame is complete only if it is all of it. -/
theorem Valid.eq_of_complete {f : Frame α} (hf : F.Valid f) {as bs : List α}
    (hsplit : as ++ bs = f.bytes) (has : F.Complete as) : bs = [] := by
  obtain ⟨hsize, hlen⟩ := has
  have htotal := hf.length_bytes
  have hhead : as.take F.size = f.head := by
    have htake := hf.take_bytes []
    rw [List.append_nil, ← hsplit, List.take_append_of_le_length hsize] at htake
    exact htake
  rw [hhead, hf.2] at hlen
  rw [← hsplit, List.length_append] at htotal
  exact List.eq_nil_of_length_eq_zero (by omega)

theorem Valid.complete {f : Frame α} (hf : F.Valid f) : F.Complete f.bytes := by
  have hlen := hf.length_bytes
  have htake := hf.take_bytes []
  rw [List.append_nil] at htake
  refine ⟨by omega, ?_⟩
  rw [htake, hf.2]
  exact hlen

/-- A frame is answered when its last byte has come, and nothing is left of it. -/
theorem feedAll_frame {f : Frame α} (hf : F.Valid f) (s : σ) :
    F.feedAll answer ([], s) f.bytes = (([], (answer s f.bytes).1), (answer s f.bytes).2) := by
  suffices hrest : ∀ as bs, as ++ bs = f.bytes → bs ≠ [] →
      F.feedAll answer (as, s) bs = (([], (answer s f.bytes).1), (answer s f.bytes).2) by
    refine hrest [] f.bytes (List.nil_append _) fun hnil => ?_
    have hlen := hf.length_bytes
    have hpos := F.size_pos
    rw [hnil, List.length_nil] at hlen
    omega
  intro as bs hsplit hne
  induction bs generalizing as with
  | nil => exact absurd rfl hne
  | cons b bs ih =>
      have hsplit' : (as ++ [b]) ++ bs = f.bytes := by
        rw [List.append_assoc]
        exact hsplit
      rw [feedAll, feed]
      cases bs with
      | nil =>
          rw [List.append_nil] at hsplit'
          rw [hsplit', if_pos hf.complete, feedAll, List.append_nil]
      | cons b' bs =>
          have hnot : ¬ F.Complete (as ++ [b]) := fun hcomplete => by
            cases hf.eq_of_complete hsplit' hcomplete
          rw [if_neg hnot, ih (as ++ [b]) hsplit' (List.cons_ne_nil b' bs)]
          rfl

end Format

end Framing
