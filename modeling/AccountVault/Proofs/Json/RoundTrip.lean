import AccountVault.Proofs.Json.Tokens

/-!
# Compact text is read back

Whatever value is written, reading its text gives that value again and leaves what follows.  The
induction is on the value; the readers of items and members get it for the values inside.  The fuel
only has to reach the length of the text.  Main statement: `parse_print`.
-/

namespace AccountVault.Json

/-- Reading the text of a value gives the value. -/
def Reads (j : Json) : Prop :=
  ∀ fuel rest, (print j).length ≤ fuel → EndsNumber rest → value fuel (print j ++ rest) = some (j, rest)

/-- A byte that blanks are not skipped over and no list is closed by. -/
def Starts (b : UInt8) : Prop :=
  ¬ (b = 0x20 ∨ b = 0x09 ∨ b = 0x0a ∨ b = 0x0d) ∧ b ≠ ascii ']'

theorem skipBlanks_of_starts {b : UInt8} (h : Starts b) (t : Bytes) :
    skipBlanks (b :: t) = b :: t := by
  rw [skipBlanks, if_neg h.1]

theorem starts_of_isDigit {b : UInt8} (h : isDigit b = true) : Starts b := by
  simp only [isDigit, Bool.and_eq_true, decide_eq_true_eq, UInt8.le_iff_toNat_le] at h
  constructor
  · rintro (rfl | rfl | rfl | rfl) <;> exact absurd h (by decide)
  · rintro rfl
    exact absurd h (by decide)

theorem endsNumber_nil : EndsNumber [] := fun _ _ h => by simp at h

theorem endsNumber_cons {b : UInt8} (h : isDigit b = false ∧ b ≠ ascii '.' ∧ b ≠ ascii 'e' ∧
    b ≠ ascii 'E') (t : Bytes) : EndsNumber (b :: t) := by
  rintro c u ⟨⟩
  exact h

/-- The digits of a number start with a digit. -/
theorem digits_cons (n : Nat) :
    ∃ b t, (Nat.toDigits 10 n).map ascii = b :: t ∧ isDigit b = true := by
  obtain ⟨c, cs, hc⟩ := List.exists_cons_of_ne_nil (Nat.toDigits_ne_nil (n := n) (b := 10))
  refine ⟨ascii c, cs.map ascii, by rw [hc]; rfl, isDigit_ascii_of_mem (n := n) ?_⟩
  rw [hc]
  exact List.mem_cons_self

theorem print_cons (j : Json) : ∃ b t, print j = b :: t ∧ Starts b := by
  cases j with
  | null => exact ⟨_, _, rfl, by decide, by decide⟩
  | boolean b => cases b <;> exact ⟨_, _, rfl, by decide, by decide⟩
  | number n =>
    cases n with
    | integral negative n =>
      cases negative with
      | true => exact ⟨ascii '-', _, rfl, by decide, by decide⟩
      | false =>
        obtain ⟨b, t, h, hb⟩ := digits_cons n
        exact ⟨b, t, h, starts_of_isDigit hb⟩
    | fractional => exact ⟨_, _, rfl, by decide, by decide⟩
  | string s => cases s <;> exact ⟨ascii '"', _, rfl, by decide, by decide⟩
  | array items => exact ⟨ascii '[', _, rfl, by decide, by decide⟩
  | object members => exact ⟨ascii '{', _, rfl, by decide, by decide⟩

/-! ### One value -/

theorem reads_null : Reads null := by
  intro fuel rest hf _
  cases fuel with
  | zero => exact absurd hf (by decide)
  | succ fuel => rfl

theorem reads_boolean (b : Bool) : Reads (boolean b) := by
  intro fuel rest hf _
  cases fuel with
  | zero => cases b <;> exact absurd hf (by decide)
  | succ fuel => cases b <;> rfl

theorem value_digit {b : UInt8} (hb : isDigit b = true) (fuel : Nat) (t : Bytes) :
    value (fuel + 1) (b :: t) = (numberBody false (b :: t)).map fun r => (number r.1, r.2) := by
  have hne : ∀ c : Char, isDigit (ascii c) = false → b ≠ ascii c := by
    rintro c hc rfl
    exact absurd hb (by simp [hc])
  rw [value, skipBlanks_of_starts (starts_of_isDigit hb)]
  simp [hb, hne 'n' (by decide), hne 't' (by decide), hne 'f' (by decide), hne '"' (by decide),
    hne '-' (by decide)]

theorem reads_number (n : Number) : Reads (number n) := by
  intro fuel rest hf hr
  cases fuel with
  | zero =>
    obtain ⟨b, t, hbt, -⟩ := print_cons (number n)
    rw [hbt] at hf
    exact absurd hf (Nat.not_succ_le_zero _)
  | succ fuel =>
    cases n with
    | integral negative n =>
      have hbody := numberBody_toDigits negative n hr
      cases negative with
      | true =>
        show value (fuel + 1) (ascii '-' :: (Nat.toDigits 10 n).map ascii ++ rest) = _
        rw [List.cons_append, value, skipBlanks_of_starts (by exact ⟨by decide, by decide⟩)]
        simp [hbody, show ascii '-' ≠ ascii 'n' by decide, show ascii '-' ≠ ascii 't' by decide,
          show ascii '-' ≠ ascii 'f' by decide, show ascii '-' ≠ ascii '"' by decide]
      | false =>
        obtain ⟨b, t, hbt, hb⟩ := digits_cons n
        show value (fuel + 1) ((Nat.toDigits 10 n).map ascii ++ rest) = _
        rw [hbt] at hbody ⊢
        rw [List.cons_append, value_digit hb, ← List.cons_append, hbody]
        rfl
    | fractional =>
      show value (fuel + 1) (ascii '0' :: (ascii '.' :: ascii '0' :: rest)) = _
      rw [value_digit (by decide)]
      have hbody := numberBody_fractional hr
      rw [show printNumber .fractional ++ rest = ascii '0' :: ascii '.' :: ascii '0' :: rest from rfl]
        at hbody
      rw [hbody]
      rfl

theorem reads_string (s : Option String) : Reads (string s) := by
  intro fuel rest hf _
  obtain ⟨body, hs, hbody⟩ := stringBody_printString s rest
  have hp : print (string s) = ascii '"' :: body := hs
  rw [hp] at hf ⊢
  cases fuel with
  | zero => simp at hf
  | succ fuel =>
    rw [List.cons_append, value, skipBlanks_of_starts (by exact ⟨by decide, by decide⟩)]
    simp [hbody, show ascii '"' ≠ ascii 'n' by decide, show ascii '"' ≠ ascii 't' by decide,
      show ascii '"' ≠ ascii 'f' by decide]

/-! ### Items and members -/

theorem endsNumber_comma (t : Bytes) : EndsNumber (ascii ',' :: t) :=
  endsNumber_cons (by decide) t

theorem commaSeparated_cons_cons (x y : Bytes) (l : List Bytes) :
    commaSeparated (x :: y :: l) = x ++ ascii ',' :: commaSeparated (y :: l) := rfl

/-- One or more items are read up to the bracket that closes them. -/
theorem items_print {v : Json} {vs : List Json} (h : ∀ w ∈ v :: vs, Reads w) (fuel : Nat)
    (rest : Bytes) (hf : (commaSeparated (printItems (v :: vs))).length < fuel) :
    items fuel (commaSeparated (printItems (v :: vs)) ++ ascii ']' :: rest) =
      some (v :: vs, rest) := by
  induction vs generalizing v fuel with
  | nil =>
    cases fuel with
    | zero => exact absurd hf (Nat.not_lt_zero _)
    | succ fuel =>
      have hv := h v List.mem_cons_self fuel (ascii ']' :: rest) (Nat.lt_succ_iff.1 hf)
        (endsNumber_cons (by decide) rest)
      show items (fuel + 1) (print v ++ ascii ']' :: rest) = _
      rw [items, hv]
      simp [skipBlanks, show ¬ (ascii ']' = 32 ∨ ascii ']' = 9 ∨ ascii ']' = 10 ∨ ascii ']' = 13)
        by decide]
  | cons w vs ih =>
    cases fuel with
    | zero => exact absurd hf (Nat.not_lt_zero _)
    | succ fuel =>
      simp only [printItems, commaSeparated_cons_cons, List.length_append, List.length_cons] at hf ⊢
      obtain ⟨b, t, hb, -⟩ := print_cons v
      have hpos : 0 < (print v).length := by rw [hb]; exact Nat.succ_pos _
      have hv := h v List.mem_cons_self fuel
        (ascii ',' :: (commaSeparated (printItems (w :: vs)) ++ ascii ']' :: rest)) (by omega)
        (endsNumber_comma _)
      have hrest := ih (fun x hx => h x (List.mem_cons_of_mem _ hx)) fuel
        (by simp only [printItems]; omega)
      rw [List.append_assoc, List.cons_append, items]
      simp only [printItems] at hv hrest
      rw [hv]
      simp [skipBlanks, hrest, show ¬ (ascii ',' = 32 ∨ ascii ',' = 9 ∨ ascii ',' = 10 ∨
        ascii ',' = 13) by decide, show ascii ',' ≠ ascii ']' by decide]

theorem items_cons (v : Json) (vs : List Json) :
    ∃ b t, commaSeparated (printItems (v :: vs)) = b :: t ∧ Starts b := by
  obtain ⟨b, t, hb, hs⟩ := print_cons v
  cases vs with
  | nil => exact ⟨b, t, hb, hs⟩
  | cons w vs => exact ⟨b, _, by rw [printItems, printItems, commaSeparated, hb]; rfl, hs⟩

theorem members_cons (m : Option String × Json) (ms : List (Option String × Json)) :
    ∃ t, commaSeparated (printMembers (m :: ms)) = ascii '"' :: t := by
  obtain ⟨body, hbody, -⟩ := stringBody_printString m.1 []
  cases ms with
  | nil => exact ⟨_, by rw [printMembers, printMembers, commaSeparated, hbody]; rfl⟩
  | cons n ms => exact ⟨_, by rw [printMembers, printMembers, commaSeparated, hbody]; rfl⟩

theorem reads_array {vs : List Json} (h : ∀ v ∈ vs, Reads v) : Reads (array vs) := by
  intro fuel rest hf _
  have hp : print (array vs) ++ rest =
      ascii '[' :: (commaSeparated (printItems vs) ++ ascii ']' :: rest) := by
    simp [print]
  have hlen : (print (array vs)).length = (commaSeparated (printItems vs)).length + 2 := by
    simp [print]
  cases fuel with
  | zero => omega
  | succ fuel =>
    rw [hp, value, skipBlanks_of_starts (by exact ⟨by decide, by decide⟩)]
    simp only [show ascii '[' ≠ ascii 'n' by decide, show ascii '[' ≠ ascii 't' by decide,
      show ascii '[' ≠ ascii 'f' by decide, show ascii '[' ≠ ascii '"' by decide,
      show ascii '[' ≠ ascii '-' by decide, show isDigit (ascii '[') = false by decide,
      Bool.false_eq_true, if_true, if_false]
    cases vs with
    | nil => rfl
    | cons v vs =>
      obtain ⟨b, t, hb, hs⟩ := items_cons v vs
      have hread := items_print h fuel rest (by omega)
      rw [hb, List.cons_append] at hread ⊢
      rw [skipBlanks_of_starts hs]
      simp [hs.2, hread]

/-- The text of a member up to its value. -/
theorem members_step {fuel : Nat} {v : Json} (hv : Reads v) (name : Option String) (rest : Bytes)
    (hf : (print v).length ≤ fuel) (hr : EndsNumber rest) :
    members (fuel + 1) (printString name ++ ascii ':' :: print v ++ rest) =
      match skipBlanks rest with
      | [] => none
      | b :: s =>
        if b = ascii '}' then some ([(name, v)], s)
        else if b = ascii ',' then (members fuel s).map fun r => ((name, v) :: r.1, r.2)
        else none := by
  obtain ⟨body, hbody, hread⟩ := stringBody_printString name (ascii ':' :: (print v ++ rest))
  rw [hbody, List.cons_append, List.cons_append, members,
    skipBlanks_of_starts (by exact ⟨by decide, by decide⟩)]
  simp only [ne_eq, not_true_eq_false, if_false, List.append_assoc, List.cons_append, hread]
  rw [skipBlanks_of_starts (by exact ⟨by decide, by decide⟩)]
  cases hs : skipBlanks rest <;> simp only [not_true_eq_false, if_false, hv fuel rest hf hr, hs]

/-- One or more members are read up to the brace that closes them. -/
theorem members_print {m : Option String × Json} {ms : List (Option String × Json)}
    (h : ∀ x ∈ m :: ms, Reads x.2) (fuel : Nat) (rest : Bytes)
    (hf : (commaSeparated (printMembers (m :: ms))).length < fuel) :
    members fuel (commaSeparated (printMembers (m :: ms)) ++ ascii '}' :: rest) =
      some (m :: ms, rest) := by
  obtain ⟨name, v⟩ := m
  have hv : Reads v := h (name, v) List.mem_cons_self
  induction ms generalizing name v fuel with
  | nil =>
    cases fuel with
    | zero => exact absurd hf (Nat.not_lt_zero _)
    | succ fuel =>
      simp only [printMembers, commaSeparated, List.length_append, List.length_cons] at hf ⊢
      rw [members_step hv name _ (by omega) (endsNumber_cons (by decide) rest),
        skipBlanks_of_starts (by exact ⟨by decide, by decide⟩)]
      simp
  | cons m ms ih =>
    cases fuel with
    | zero => exact absurd hf (Nat.not_lt_zero _)
    | succ fuel =>
      obtain ⟨other, w⟩ := m
      have hw : Reads w := h (other, w) (List.mem_cons_of_mem _ List.mem_cons_self)
      simp only [printMembers, commaSeparated_cons_cons, List.length_append, List.length_cons] at hf
      have hrest := ih fuel other w (fun x hx => h x (List.mem_cons_of_mem _ hx))
        (by simp only [printMembers]; omega) hw
      simp only [printMembers] at hrest ⊢
      rw [commaSeparated_cons_cons, List.append_assoc, List.cons_append,
        members_step hv name _ (by omega) (endsNumber_comma _),
        skipBlanks_of_starts (by exact ⟨by decide, by decide⟩)]
      simp [hrest, show ascii ',' ≠ ascii '}' by decide]

theorem reads_object {ms : List (Option String × Json)} (h : ∀ m ∈ ms, Reads m.2) :
    Reads (object ms) := by
  intro fuel rest hf _
  have hp : print (object ms) ++ rest =
      ascii '{' :: (commaSeparated (printMembers ms) ++ ascii '}' :: rest) := by
    simp [print]
  have hlen : (print (object ms)).length = (commaSeparated (printMembers ms)).length + 2 := by
    simp [print]
  cases fuel with
  | zero => omega
  | succ fuel =>
    rw [hp, value, skipBlanks_of_starts (by exact ⟨by decide, by decide⟩)]
    simp only [show ascii '{' ≠ ascii 'n' by decide, show ascii '{' ≠ ascii 't' by decide,
      show ascii '{' ≠ ascii 'f' by decide, show ascii '{' ≠ ascii '"' by decide,
      show ascii '{' ≠ ascii '-' by decide, show isDigit (ascii '{') = false by decide,
      show ascii '{' ≠ ascii '[' by decide, Bool.false_eq_true, if_true, if_false]
    cases ms with
    | nil => rfl
    | cons m ms =>
      obtain ⟨t, ht⟩ := members_cons m ms
      have hread := members_print h fuel rest (by omega)
      rw [ht, List.cons_append] at hread ⊢
      rw [skipBlanks_of_starts (by exact ⟨by decide, by decide⟩)]
      simp [hread, show ascii '"' ≠ ascii '}' by decide]

mutual

theorem reads : ∀ j : Json, Reads j
  | null => reads_null
  | boolean b => reads_boolean b
  | number n => reads_number n
  | string s => reads_string s
  | array vs => reads_array (reads_items vs)
  | object ms => reads_object (reads_members ms)

theorem reads_items : ∀ vs : List Json, ∀ v ∈ vs, Reads v
  | [] => fun _ h => absurd h List.not_mem_nil
  | v :: vs => List.forall_mem_cons.2 ⟨reads v, reads_items vs⟩

theorem reads_members : ∀ ms : List (Option String × Json), ∀ m ∈ ms, Reads m.2
  | [] => fun _ h => absurd h List.not_mem_nil
  | (_, v) :: ms => List.forall_mem_cons.2 ⟨reads v, reads_members ms⟩

end

/-- Reading the compact text of a value gives the value, whatever it is. -/
theorem parse_print (j : Json) : parse (print j) = some j := by
  have h := reads j (2 * (print j).length + 1) [] (by omega) endsNumber_nil
  rw [List.append_nil] at h
  simp [parse, h, skipBlanks]

end AccountVault.Json
