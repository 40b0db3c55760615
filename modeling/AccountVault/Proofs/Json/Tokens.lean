import AccountVault.Json.Reader
import Mathlib.Tactic.SplitIfs

/-!
# Tokens of JSON text

Strings and numbers are read as they were written.  Each lemma leaves open what follows: a string
ends at its quote, a number where no digit, fraction or exponent goes on.  Main statements:
`stringBody_printString` and `numberBody_printNumber`.
-/

namespace AccountVault

namespace Text

theorem loop_toList (b : ByteArray) (start : Nat) (done : Bytes) :
    ByteArray.toList.loop b start done = done.reverse ++ b.data.toList.drop start := by
  fun_induction ByteArray.toList.loop with
  | case1 n seen hn ih =>
    have hlt : n < b.data.toList.length := by simpa using hn
    have hhead : b.get! n = b.data.toList[n] := by
      rw [Array.getElem_toList]
      exact getElem!_pos b.data n (by simpa using hn)
    rw [ih, List.drop_eq_getElem_cons hlt, hhead, List.reverse_cons, List.append_assoc]
    rfl
  | case2 n seen hn =>
    rw [List.drop_eq_nil_of_le (by simpa using hn), List.append_nil]

/-- Text comes back from its bytes. -/
@[simp] theorem decodeUtf8?_utf8 (s : String) : decodeUtf8? (utf8 s) = some s := by
  have hlist : utf8 s = s.toUTF8.data.toList := by
    simp [utf8, ByteArray.toList, loop_toList]
  have hbytes : (⟨(utf8 s).toArray⟩ : ByteArray) = s.toByteArray := by
    rw [hlist]
    rfl
  unfold decodeUtf8? String.fromUTF8?
  rw [hbytes, dif_pos s.isValidUTF8]
  rfl

end Text

namespace Json

/-! ### Strings -/

theorem pieces_plain {b : UInt8} (hq : b ≠ ascii '"') (hb : b ≠ ascii '\\') (hc : ¬ b < 0x20)
    (t : Bytes) : pieces (b :: t) = (pieces t).map fun r => (.bytes [b] :: r.1, r.2) := by
  rw [pieces.eq_def]
  simp [hq, hb, hc]

theorem pieces_short {e b : UInt8} (hu : e ≠ ascii 'u') (h : shortEscape? e = some b) (t : Bytes) :
    pieces (ascii '\\' :: e :: t) = (pieces t).map fun r => (.bytes [b] :: r.1, r.2) := by
  rw [pieces.eq_def]
  simp [hu, h, show ascii '\\' ≠ ascii '"' by decide, show ¬ ascii '\\' < 0x20 by decide]

theorem control_point : ∀ n : Fin 32,
    hex4? [ascii '0', ascii '0', hexDigit (UInt8.ofNat n / 16), hexDigit (UInt8.ofNat n % 16)] =
      some (n.val, []) ∧ encodePoint? n.val = some [UInt8.ofNat n] := by
  decide +kernel

theorem pieces_control {b : UInt8} (hb : b < 0x20) (t : Bytes) :
    pieces ([ascii '\\', ascii 'u', ascii '0', ascii '0', hexDigit (b / 16), hexDigit (b % 16)] ++ t)
      = (pieces t).map fun r => (.bytes [b] :: r.1, r.2) := by
  have hn : b.toNat < 32 := by simpa [UInt8.lt_iff_toNat_lt] using hb
  have hof : UInt8.ofNat b.toNat = b := UInt8.ofNat_toNat
  obtain ⟨hhex, hpoint⟩ := control_point ⟨b.toNat, hn⟩
  simp only [hof] at hhex hpoint
  have hhigh : ¬ (0xd800 ≤ b.toNat ∧ b.toNat < 0xdc00) := by omega
  have hlow : ¬ (0xdc00 ≤ b.toNat ∧ b.toNat < 0xe000) := by omega
  rw [List.cons_append, List.cons_append, pieces.eq_def]
  simp [hhex, hpoint, hhigh, hlow, show ascii '\\' ≠ ascii '"' by decide,
    show ¬ ascii '\\' < 0x20 by decide]

/-- A written byte is read as one piece. -/
theorem pieces_escapeByte (b : UInt8) (t : Bytes) :
    pieces (escapeByte b ++ t) = (pieces t).map fun r => (.bytes [b] :: r.1, r.2) := by
  have hshort : ∀ {e : UInt8}, e ≠ ascii 'u' → shortEscape? e = some b →
      pieces ([ascii '\\', e] ++ t) = (pieces t).map fun r => (.bytes [b] :: r.1, r.2) :=
    fun hu h => pieces_short hu h t
  unfold escapeByte
  split_ifs with hq hb h8 h9 ha hc hd h20
  · exact hshort (by decide) (by rw [hq]; decide)
  · exact hshort (by decide) (by rw [hb]; decide)
  · exact hshort (by decide) (by rw [h8]; decide)
  · exact hshort (by decide) (by rw [h9]; decide)
  · exact hshort (by decide) (by rw [ha]; decide)
  · exact hshort (by decide) (by rw [hc]; decide)
  · exact hshort (by decide) (by rw [hd]; decide)
  · exact pieces_control h20 t
  · exact pieces_plain hq hb h20 t

theorem pieces_quote (rest : Bytes) : pieces (ascii '"' :: rest) = some ([], rest) := by
  rw [pieces.eq_def]
  simp

/-- The surrogate that stands for what is not text. -/
theorem pieces_surrogate (rest : Bytes) :
    pieces (['\\', 'u', 'd', '8', '0', '0', '"'].map ascii ++ rest) =
      some ([.high 0xd800], rest) := by
  have hhex : hex4? [ascii 'd', ascii '8', ascii '0', ascii '0'] = some (0xd800, []) := by
    decide +kernel
  rw [List.map_cons, List.map_cons, List.cons_append, List.cons_append, pieces.eq_def]
  simp [hhex, pieces_quote, show ascii '\\' ≠ ascii '"' by decide,
    show ¬ ascii '\\' < 0x20 by decide]

theorem pieces_escape (bs rest : Bytes) :
    pieces (bs.flatMap escapeByte ++ ascii '"' :: rest) =
      some (bs.map fun b => .bytes [b], rest) := by
  induction bs with
  | nil => exact pieces_quote rest
  | cons b bs ih =>
    rw [List.flatMap_cons, List.append_assoc, pieces_escapeByte, ih]
    rfl

theorem joinPieces_bytes (bs : Bytes) : joinPieces (bs.map fun b => .bytes [b]) = some bs := by
  induction bs with
  | nil => rfl
  | cons b bs ih => simp [joinPieces, ih]

/-- A written string is read back, up to its closing quote. -/
theorem stringBody_printString (s : Option String) (rest : Bytes) :
    ∃ body, printString s = ascii '"' :: body ∧ stringBody (body ++ rest) = some (s, rest) := by
  cases s with
  | none =>
    refine ⟨_, rfl, ?_⟩
    show stringBody (['\\', 'u', 'd', '8', '0', '0', '"'].map ascii ++ rest) = some (none, rest)
    rw [stringBody, pieces_surrogate]
    rfl
  | some s =>
    refine ⟨(Text.utf8 s).flatMap escapeByte ++ [ascii '"'], rfl, ?_⟩
    rw [List.append_assoc, List.singleton_append, stringBody, pieces_escape]
    simp [joinPieces_bytes]

/-! ### Numbers -/

/-- What follows does not go on with a number. -/
def EndsNumber (rest : Bytes) : Prop :=
  ∀ b t, rest = b :: t → isDigit b = false ∧ b ≠ ascii '.' ∧ b ≠ ascii 'e' ∧ b ≠ ascii 'E'

theorem ascii_of_isDigit {c : Char} (h : c.isDigit = true) :
    isDigit (ascii c) = true ∧ (ascii c).toNat = c.toNat := by
  have hc : 48 ≤ c.toNat ∧ c.toNat ≤ 57 := by
    rw [Char.isDigit, Bool.and_eq_true, decide_eq_true_eq, decide_eq_true_eq] at h
    exact ⟨UInt32.le_iff_toNat_le.1 h.1, UInt32.le_iff_toNat_le.1 h.2⟩
  have hn : (ascii c).toNat = c.toNat := by
    simp [ascii]
    omega
  refine ⟨?_, hn⟩
  simp [isDigit, UInt8.le_iff_toNat_le, hn, hc]

theorem isDigit_ascii_of_mem {n : Nat} {b : UInt8} (hb : b ∈ (Nat.toDigits 10 n).map ascii) :
    isDigit b = true := by
  obtain ⟨c, hc, rfl⟩ := List.mem_map.1 hb
  exact (ascii_of_isDigit (Nat.isDigit_of_mem_toDigits (by decide) (by decide) hc)).1

theorem digitsValue_toDigits (n : Nat) : digitsValue ((Nat.toDigits 10 n).map ascii) = n := by
  have key : ∀ (cs : List Char) (k : Nat), (∀ c ∈ cs, c.isDigit = true) →
      (cs.map ascii).foldl (fun n d => n * 10 + (d.toNat - 0x30)) k = Nat.ofDigitChars 10 cs k := by
    intro cs
    induction cs with
    | nil => exact fun _ _ => rfl
    | cons c cs ih =>
      intro k h
      have hc := (ascii_of_isDigit (h c List.mem_cons_self)).2
      rw [List.map_cons, List.foldl_cons, ih _ fun d hd => h d (List.mem_cons_of_mem _ hd), hc,
        Nat.mul_comm]
      rfl
  rw [digitsValue, key _ 0 fun c hc => Nat.isDigit_of_mem_toDigits (by decide) (by decide) hc]
  exact Nat.ofDigitChars_toDigits (by decide) (by decide)

/-- Only zero is written with a zero in front. -/
theorem head?_toDigits_zero {n : Nat} (h : (Nat.toDigits 10 n).head? = some '0') : n = 0 := by
  induction n using Nat.strongRecOn with
  | ind n ih =>
    by_cases hn : n < 10
    · rw [Nat.toDigits_of_lt_base hn, List.head?_cons, Option.some.injEq] at h
      have : ∀ m < 10, Nat.digitChar m = '0' → m = 0 := by decide
      exact this n hn h
    · rw [Nat.toDigits_of_base_le (by decide) (by omega), List.head?_append,
        List.head?_eq_some_head Nat.toDigits_ne_nil, Option.some_or] at h
      have := ih (n / 10) (by omega) (by rw [List.head?_eq_some_head Nat.toDigits_ne_nil]; exact h)
      omega

theorem eq_zero_of_ascii {c : Char} (hd : c.isDigit = true) (h : ascii c = 0x30) : c = '0' := by
  have := (ascii_of_isDigit hd).2
  rw [h] at this
  exact Char.toNat_inj.1 this.symm

theorem takeWhile_digits {ds rest : Bytes} (hd : ∀ b ∈ ds, isDigit b = true)
    (hr : EndsNumber rest) :
    (ds ++ rest).takeWhile isDigit = ds ∧ (ds ++ rest).dropWhile isDigit = rest := by
  rw [List.takeWhile_append_of_pos hd, List.dropWhile_append_of_pos hd]
  cases rest with
  | nil => simp
  | cons b t => simp [(hr b t rfl).1]

theorem fraction?_of_ends {rest : Bytes} (hr : EndsNumber rest) :
    fraction? rest = some (false, rest) := by
  cases rest with
  | nil => rfl
  | cons b t => simp [fraction?, (hr b t rfl).2.1]

theorem exponent?_of_ends {rest : Bytes} (hr : EndsNumber rest) :
    exponent? rest = some (false, rest) := by
  cases rest with
  | nil => rfl
  | cons b t =>
    obtain ⟨-, -, he, hE⟩ := hr b t rfl
    simp [exponent?, he, hE]

/-- The digits of a number are read back. -/
theorem numberBody_toDigits (negative : Bool) (n : Nat) {rest : Bytes} (hr : EndsNumber rest) :
    numberBody negative ((Nat.toDigits 10 n).map ascii ++ rest) =
      some (.integral negative n, rest) := by
  obtain ⟨htake, hdrop⟩ := takeWhile_digits (fun _ hb => isDigit_ascii_of_mem (n := n) hb) hr
  have hlead : ¬ (((Nat.toDigits 10 n).map ascii).head? = some 0x30 ∧
      ((Nat.toDigits 10 n).map ascii).length ≠ 1) := by
    rintro ⟨hhead, hlen⟩
    rw [List.head?_map, Option.map_eq_some_iff] at hhead
    obtain ⟨c, hc, hz⟩ := hhead
    have hd := Nat.isDigit_of_mem_toDigits (by decide) (by decide) (List.mem_of_mem_head? hc)
    rw [eq_zero_of_ascii hd hz] at hc
    rw [head?_toDigits_zero hc] at hlen
    exact hlen rfl
  have hne : ((Nat.toDigits 10 n).map ascii).isEmpty = false := by
    simp [Nat.toDigits_ne_nil]
  unfold numberBody
  simp only [htake, hdrop, hne, Bool.false_eq_true, false_or]
  rw [if_neg hlead, fraction?_of_ends hr]
  simp [exponent?_of_ends hr, digitsValue_toDigits]

theorem numberBody_fractional {rest : Bytes} (hr : EndsNumber rest) :
    numberBody false (printNumber .fractional ++ rest) = some (.fractional, rest) := by
  have h0 : isDigit (ascii '0') = true := by decide
  have hdot : isDigit (ascii '.') = false := by decide
  have hzero : ∀ b ∈ [ascii '0'], isDigit b = true := by simpa using h0
  obtain ⟨htake, hdrop⟩ := takeWhile_digits hzero hr
  rw [List.singleton_append] at htake hdrop
  have hfrac : fraction? (ascii '.' :: ascii '0' :: rest) = some (true, rest) := by
    simp [fraction?, htake, hdrop]
  show numberBody false (ascii '0' :: ascii '.' :: ascii '0' :: rest) = _
  unfold numberBody
  simp only [List.takeWhile_cons, List.dropWhile_cons, h0, hdot]
  simp [hfrac, exponent?_of_ends hr]

end Json

end AccountVault
