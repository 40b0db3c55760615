import AccountVault.Setting.Key

/-!
# Segments

No character of a segment is a dot, so that the segments of a text that is put together with a dot are
those of its two parts (`Key.segments_append_dot`), and a segment is its own only one
(`Key.segments_of_isSegment`).  A key is accepted if it is not too long and every segment of it is one
(`Key.check_eq_ok_iff_isSegment`); then what stands behind a dot in it is an accepted key too.
-/

namespace AccountVault

namespace Key

variable {a b s : List Char} {key rest : String} {limit : Nat}

theorem not_isSegmentChar_dot : isSegmentChar '.' = false := by
  rw [isSegmentChar, Text.not_isAlphanumeric_dot]
  decide

theorem isSegment_iff : isSegment s = true ↔ s ≠ [] ∧ ∀ c ∈ s, isSegmentChar c = true := by
  simp [isSegment]

theorem dot_not_mem_of_isSegment (h : isSegment s = true) : '.' ∉ s := by
  intro hdot
  have hchar := (isSegment_iff.1 h).2 '.' hdot
  rw [not_isSegmentChar_dot] at hchar
  exact absurd hchar (by decide)

theorem segments_ne_nil (s : List Char) : segments s ≠ [] := by
  cases s with
  | nil => simp [segments]
  | cons c s =>
    unfold segments
    split
    · simp
    · split <;> simp

/-- A character other than a dot joins the first segment. -/
theorem segments_cons {c : Char} (hc : c ≠ '.') :
    ∃ t ts, segments s = t :: ts ∧ segments (c :: s) = (c :: t) :: ts := by
  obtain ⟨t, ts, hs⟩ := List.exists_cons_of_ne_nil (segments_ne_nil s)
  refine ⟨t, ts, hs, ?_⟩
  rw [segments, if_neg hc, hs]

theorem segments_append_dot (a b : List Char) :
    segments (a ++ '.' :: b) = segments a ++ segments b := by
  induction a with
  | nil => simp [segments]
  | cons c a ih =>
    by_cases hc : c = '.'
    · simp [segments, hc, ih]
    · obtain ⟨t, ts, ha, hca⟩ := segments_cons (s := a) hc
      obtain ⟨t', ts', hab, hcab⟩ := segments_cons (s := a ++ '.' :: b) hc
      rw [ih, ha, List.cons_append, List.cons.injEq] at hab
      obtain ⟨rfl, rfl⟩ := hab
      rw [List.cons_append, hcab, hca, List.cons_append]

theorem segments_of_dot_not_mem (h : '.' ∉ s) : segments s = [s] := by
  induction s with
  | nil => rfl
  | cons c s ih =>
    rw [List.mem_cons, not_or] at h
    obtain ⟨t, ts, hs, hcs⟩ := segments_cons (s := s) (Ne.symm h.1)
    rw [ih h.2, List.cons.injEq] at hs
    obtain ⟨rfl, rfl⟩ := hs
    exact hcs

theorem segments_of_isSegment (h : isSegment s = true) : segments s = [s] :=
  segments_of_dot_not_mem (dot_not_mem_of_isSegment h)

/-- A text that begins with a segment and a dot has that segment first. -/
theorem segments_isSegment_dot (h : isSegment s = true) (b : List Char) :
    segments (s ++ '.' :: b) = s :: segments b := by
  rw [segments_append_dot, segments_of_isSegment h]
  rfl

/-! ### Accepted keys -/

/-- The empty text has an empty segment, so that it needs no rule of its own. -/
theorem check_eq_ok_iff_isSegment : check key limit = .ok () ↔
    key.utf8ByteSize ≤ limit ∧ ∀ s ∈ segments key.toList, isSegment s = true := by
  rw [check_eq_ok_iff]
  unfold fault?
  split
  · next hempty =>
    subst hempty
    simp [segments, isSegment]
  · split
    · next hlong =>
      have hnot : ¬ key.utf8ByteSize ≤ limit := by omega
      simp [hnot]
    · next hshort =>
      have hle : key.utf8ByteSize ≤ limit := by omega
      rw [segmentFault?_eq_none_iff]
      simp [hle]

theorem ne_empty_of_check (h : check key limit = .ok ()) : key ≠ "" := by
  rintro rfl
  exact absurd ((check_eq_ok_iff_isSegment.1 h).2 [] (by simp [segments])) (by simp [isSegment])

/-- What stands behind a dot of an accepted key is an accepted key. -/
theorem check_of_append_dot (h : check key limit = .ok ())
    (hkey : key.toList = a ++ '.' :: rest.toList) : check rest limit = .ok () := by
  obtain ⟨hlen, hall⟩ := check_eq_ok_iff_isSegment.1 h
  refine check_eq_ok_iff_isSegment.2 ⟨?_, fun s hs => hall s ?_⟩
  · have hsplit : key = String.ofList (a ++ ['.']) ++ rest := by
      apply String.ext
      simp [hkey]
    rw [hsplit, String.utf8ByteSize_append] at hlen
    omega
  · rw [hkey, segments_append_dot]
    exact List.mem_append_right _ hs

end Key

end AccountVault
