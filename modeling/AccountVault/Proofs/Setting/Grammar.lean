import AccountVault.Proofs.Scope.SignIn

/-!
# The grammar of keys

A key is one or more segments joined by single dots (`Key.Dotted`).  What is accepted is what is so written
and short enough, and whether a text that is put together with a dot is accepted depends on its two parts
and on its length alone; so it is with the keys under the lead of some credentials, whose method and
mechanism have to be keys without a dot.  Main statement: `keys_are_dotted_segments`.
-/

namespace AccountVault

namespace Key

/-- One or more letters, digits, `_` and `-`. -/
structure Segment (s : List Char) : Prop where
  ne_nil : s ≠ []
  chars : ∀ c ∈ s, Text.isAlphanumeric c = true ∨ c = '_' ∨ c = '-'

/-- One or more segments joined by single dots. -/
inductive Dotted : List Char → Prop
  | segment {s : List Char} (h : Segment s) : Dotted s
  | cons {s rest : List Char} (h : Segment s) (hrest : Dotted rest) : Dotted (s ++ '.' :: rest)

/-- A key that is accepted where no limit is set to its length. -/
def Accepted (key : String) : Prop := ∃ limit, check key limit = .ok ()

variable {s t a b : List Char} {ts : List (List Char)} {key : String} {limit : Nat}

theorem isSegment_iff_segment : isSegment s = true ↔ Segment s := by
  have hchar : ∀ c, isSegmentChar c = true ↔ Text.isAlphanumeric c = true ∨ c = '_' ∨ c = '-' := by
    intro c
    simp [isSegmentChar, or_assoc]
  rw [isSegment_iff]
  simp only [hchar]
  exact ⟨fun h => ⟨h.1, h.2⟩, fun h => ⟨h.ne_nil, h.chars⟩⟩

/-! ### Splitting is the inverse of joining -/

/-- The first segment is the whole text, or a dot and the other segments come after it. -/
theorem exists_of_segments_eq_cons (h : segments s = t :: ts) :
    (s = t ∧ ts = []) ∨ ∃ rest, s = t ++ '.' :: rest ∧ segments rest = ts := by
  induction s generalizing t with
  | nil =>
    cases h
    exact .inl ⟨rfl, rfl⟩
  | cons c s ih =>
    by_cases hc : c = '.'
    · subst c
      rw [segments, if_pos rfl] at h
      cases h
      exact .inr ⟨s, rfl, rfl⟩
    · obtain ⟨t', ts', hs, hcs⟩ := segments_cons (s := s) hc
      rw [hcs] at h
      cases h
      rcases ih hs with ⟨rfl, hts⟩ | ⟨rest, rfl, hrest⟩
      · exact .inl ⟨rfl, hts⟩
      · exact .inr ⟨rest, rfl, hrest⟩

theorem dotted_of_segments (hts : segments s = ts) (h : ∀ t ∈ ts, isSegment t = true) : Dotted s := by
  induction ts generalizing s with
  | nil => exact absurd hts (segments_ne_nil s)
  | cons t ts ih =>
    have ht : Segment t := isSegment_iff_segment.1 (h t List.mem_cons_self)
    rcases exists_of_segments_eq_cons hts with ⟨rfl, -⟩ | ⟨rest, rfl, hrest⟩
    · exact .segment ht
    · exact .cons ht (ih hrest fun u hu => h u (List.mem_cons_of_mem t hu))

theorem Dotted.isSegment_of_mem (h : Dotted s) : ∀ t ∈ segments s, isSegment t = true := by
  induction h with
  | segment hs =>
    have hs := isSegment_iff_segment.2 hs
    rw [segments_of_isSegment hs]
    exact fun t ht => List.mem_singleton.1 ht ▸ hs
  | cons hs _ ih =>
    have hs := isSegment_iff_segment.2 hs
    rw [segments_isSegment_dot hs]
    exact List.forall_mem_cons.2 ⟨hs, ih⟩

theorem dotted_iff : Dotted s ↔ ∀ t ∈ segments s, isSegment t = true :=
  ⟨Dotted.isSegment_of_mem, dotted_of_segments rfl⟩

theorem dotted_append_dot_iff : Dotted (a ++ '.' :: b) ↔ Dotted a ∧ Dotted b := by
  rw [dotted_iff, dotted_iff, dotted_iff, segments_append_dot, List.forall_mem_append]

/-! ### What is accepted -/

theorem check_eq_ok_iff_dotted :
    check key limit = .ok () ↔ key.utf8ByteSize ≤ limit ∧ Dotted key.toList := by
  rw [check_eq_ok_iff_isSegment, dotted_iff]

theorem accepted_iff_dotted : Accepted key ↔ Dotted key.toList := by
  constructor
  · rintro ⟨limit, h⟩
    exact (check_eq_ok_iff_dotted.1 h).2
  · exact fun h => ⟨key.utf8ByteSize, check_eq_ok_iff_dotted.2 ⟨Nat.le_refl _, h⟩⟩

theorem check_eq_ok_iff_accepted :
    check key limit = .ok () ↔ Accepted key ∧ key.utf8ByteSize ≤ limit := by
  rw [check_eq_ok_iff_dotted, accepted_iff_dotted, and_comm]

theorem accepted_append_dot_iff {a b : String} :
    Accepted (a ++ "." ++ b) ↔ Accepted a ∧ Accepted b := by
  have hsplit : (a ++ "." ++ b).toList = a.toList ++ '.' :: b.toList := by simp
  rw [accepted_iff_dotted, accepted_iff_dotted, accepted_iff_dotted, hsplit, dotted_append_dot_iff]

/-- A single segment is an accepted key without a dot. -/
theorem isSegment_iff_accepted :
    isSegment key.toList = true ↔ Accepted key ∧ '.' ∉ key.toList := by
  rw [accepted_iff_dotted, dotted_iff]
  constructor
  · intro h
    rw [segments_of_isSegment h]
    exact ⟨fun t ht => List.mem_singleton.1 ht ▸ h, dot_not_mem_of_isSegment h⟩
  · rintro ⟨hall, hdot⟩
    rw [segments_of_dot_not_mem hdot] at hall
    exact hall key.toList (List.mem_singleton.2 rfl)

end Key

namespace Credentials

variable {c : Credentials} {name : String} {limit : Nat}

theorem exists_make_iff {id : Int64} {method mechanism : String} :
    (∃ c, make id method mechanism = .ok c) ↔
      (0 ≤ id.toInt ∧ id.toInt < UInt32.size) ∧ (Key.Accepted method ∧ '.' ∉ method.toList) ∧
        Key.Accepted mechanism ∧ '.' ∉ mechanism.toList := by
  simp only [make_eq_ok_iff, Key.isSegment_iff_accepted]
  exact ⟨fun ⟨_, hid, hmethod, hmechanism, _⟩ => ⟨hid, hmethod, hmechanism⟩,
    fun ⟨hid, hmethod, hmechanism⟩ => ⟨_, hid, hmethod, hmechanism, rfl⟩⟩

/-- A key under the lead is accepted exactly if the name after the lead is. -/
theorem Named.accepted_append_lead_iff (h : c.Named) :
    Key.Accepted (c.lead ++ name) ↔ Key.Accepted name := by
  have hauth : Key.isSegment "auth".toList = true := by decide +kernel
  rw [Key.accepted_iff_dotted, Key.accepted_iff_dotted, Key.dotted_iff, Key.dotted_iff,
    String.toList_append, h.segments_append_lead]
  simp only [List.forall_mem_cons, hauth, h.method, h.mechanism, true_and]

end Credentials

/-- A key is accepted exactly if it is short enough, in bytes, and made of segments joined by single dots.
So a text that is put together with a dot is accepted exactly if both parts are, whatever their length, and
the whole is short enough.  The methods and mechanisms that credentials are made with are the keys without a
dot, and what follows the lead of such credentials makes an accepted key exactly if it is one and as much
shorter as the lead is long. -/
theorem keys_are_dotted_segments :
    (∀ key limit, Key.check key limit = .ok () ↔ key.utf8ByteSize ≤ limit ∧ Key.Dotted key.toList) ∧
    (∀ a b limit, Key.check (a ++ "." ++ b) limit = .ok () ↔
      Key.Accepted a ∧ Key.Accepted b ∧ (a ++ "." ++ b).utf8ByteSize ≤ limit) ∧
    (∀ s : String, Key.isSegment s.toList = true ↔ Key.Accepted s ∧ '.' ∉ s.toList) ∧
    (∀ id method mechanism, (∃ c, Credentials.make id method mechanism = .ok c) ↔
      (0 ≤ id.toInt ∧ id.toInt < UInt32.size) ∧ (Key.Accepted method ∧ '.' ∉ method.toList) ∧
        Key.Accepted mechanism ∧ '.' ∉ mechanism.toList) ∧
    ∀ id method mechanism c, Credentials.make id method mechanism = .ok c →
      c.lead = "auth." ++ method ++ "." ++ mechanism ++ "." ∧
      ∀ name limit, Key.check (c.lead ++ name) limit = .ok () ↔
        Key.Accepted name ∧ c.lead.utf8ByteSize + name.utf8ByteSize ≤ limit := by
  refine ⟨fun _ _ => Key.check_eq_ok_iff_dotted, fun a b limit => ?_,
    fun _ => Key.isSegment_iff_accepted, fun _ _ _ => Credentials.exists_make_iff,
    fun id method mechanism c hc => ⟨?_, fun name limit => ?_⟩⟩
  · rw [Key.check_eq_ok_iff_accepted, Key.accepted_append_dot_iff, and_assoc]
  · obtain ⟨-, -, -, rfl⟩ := Credentials.make_eq_ok_iff.1 hc
    rfl
  · rw [Key.check_eq_ok_iff_accepted, (Credentials.named_of_make hc).accepted_append_lead_iff,
      String.utf8ByteSize_append]

/-- A name of two segments with an umlaut, which takes two bytes, under a lead of 15 bytes. -/
theorem keys_are_dotted_segments_of_umlaut :
    ∃ c, Credentials.make 0 "oauth2" "web" = .ok c ∧ Key.Accepted "süd.id" ∧
      c.lead.utf8ByteSize + "süd.id".utf8ByteSize = 23 ∧
      Key.check (c.lead ++ "süd.id") 23 = .ok () ∧ ¬ Key.check (c.lead ++ "süd.id") 22 = .ok () := by
  have hmake : Credentials.make 0 "oauth2" "web" = .ok { id := 0, method := "oauth2", mechanism := "web" } :=
    Credentials.make_eq_ok_iff.2 ⟨by decide, by decide +kernel, by decide +kernel, rfl⟩
  have hname : Key.Accepted "süd.id" := ⟨7, by decide +kernel⟩
  have hkey := ((keys_are_dotted_segments.2.2.2.2 0 "oauth2" "web" _ hmake).2 "süd.id")
  have hsize : ({ id := 0, method := "oauth2", mechanism := "web" } : Credentials).lead.utf8ByteSize +
      "süd.id".utf8ByteSize = 23 := by decide +kernel
  exact ⟨_, hmake, hname, hsize, (hkey 23).2 ⟨hname, Nat.le_of_eq hsize⟩,
    fun h => absurd ((hkey 22).1 h).2 (by rw [hsize]; decide)⟩

end AccountVault
