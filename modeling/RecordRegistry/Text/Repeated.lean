import RecordRegistry.Text

/-!
# Repeated texts

Texts are read one after the other. A text that has been read before is repeated, however often it
comes again.
-/

namespace RecordRegistry.Text

/-- The texts that have been read, and those of them that have been read more than once. No list
holds a text twice. -/
structure Sightings where
  seen : List Text
  repeated : List Text
deriving DecidableEq, Repr

namespace Sightings

/-- Reads one more text. -/
def read (sightings : Sightings) (text : Text) : Sightings where
  seen := sightings.seen.insert text
  repeated :=
    if text ∈ sightings.seen then sightings.repeated.insert text else sightings.repeated

/-- Reads texts from the first to the last. -/
def ofTexts (texts : List Text) : Sightings := texts.foldl read ⟨[], []⟩

/-- What sightings say of the texts that have been read. -/
structure Tells (sightings : Sightings) (texts : List Text) : Prop where
  seen (text : Text) : text ∈ sightings.seen ↔ text ∈ texts
  repeated (text : Text) : text ∈ sightings.repeated ↔ 2 ≤ texts.count text
  nodup : sightings.repeated.Nodup

variable {sightings : Sightings} {texts : List Text}

theorem Tells.read (h : sightings.Tells texts) (text : Text) :
    (sightings.read text).Tells (texts ++ [text]) where
  seen other := by
    rw [Sightings.read, List.mem_insert_iff, h.seen, List.mem_append, List.mem_singleton, or_comm]
  repeated other := by
    have hmem : text ∈ texts ↔ 1 ≤ texts.count text := List.one_le_count_iff.symm
    rw [Sightings.read, List.count_append, List.count_singleton]
    by_cases hseen : text ∈ sightings.seen
    · have hread := hmem.mp ((h.seen text).mp hseen)
      rw [if_pos hseen, List.mem_insert_iff, h.repeated]
      by_cases hother : other = text
      · subst hother
        simp only [true_or, beq_self_eq_true, ↓reduceIte, true_iff]
        omega
      · simp [hother, Ne.symm hother]
    · have hunread : ¬ 1 ≤ texts.count text := fun hcount =>
        hseen ((h.seen text).mpr (hmem.mpr hcount))
      rw [if_neg hseen, h.repeated]
      by_cases hother : other = text
      · subst hother
        simp only [beq_self_eq_true, ↓reduceIte]
        omega
      · simp [Ne.symm hother]
  nodup := by
    rw [Sightings.read]
    split
    · by_cases hagain : text ∈ sightings.repeated
      · rw [List.insert_of_mem hagain]
        exact h.nodup
      · rw [List.insert_of_not_mem hagain]
        exact List.nodup_cons.mpr ⟨hagain, h.nodup⟩
    · exact h.nodup

theorem Tells.foldl (h : sightings.Tells texts) (more : List Text) :
    (more.foldl Sightings.read sightings).Tells (texts ++ more) := by
  induction more generalizing sightings texts with
  | nil => rwa [List.append_nil]
  | cons text more ih =>
    rw [List.append_cons]
    exact ih (h.read text)

theorem tells_start : Tells ⟨[], []⟩ [] := ⟨by simp, by simp, List.nodup_nil⟩

theorem tells_ofTexts (texts : List Text) : (ofTexts texts).Tells texts :=
  tells_start.foldl texts

/-- No text is repeated when all texts are distinct. -/
theorem repeated_ofTexts_eq_nil_iff : (ofTexts texts).repeated = [] ↔ texts.Nodup := by
  simp only [List.eq_nil_iff_forall_not_mem, (tells_ofTexts texts).repeated, List.nodup_iff_count]
  exact forall_congr' fun text => by omega

end Sightings

end RecordRegistry.Text
