import AccountVault.Word

/-!
# Decimal text

Unsigned numbers in decimal.  `readNat?` takes one or more ASCII digits, `readUnsigned?` allows a
plus sign in front, and `readId?` keeps to 64 bits.  Main statement: what `Nat.repr` writes is read
back.
-/

namespace AccountVault.Text

/-- The number written by one or more ASCII digits; leading zeros are allowed. -/
def readNat? (s : List Char) : Option Nat :=
  if s ≠ [] ∧ s.all Char.isDigit = true then some (Nat.ofDigitChars 10 s 0) else none

/-- A number with an optional plus sign in front. -/
def readUnsigned? : List Char → Option Nat
  | '+' :: s => readNat? s
  | s => readNat? s

/-- A number that fits in 64 bits. -/
def readId? (s : List Char) : Option UInt64 :=
  (readUnsigned? s).bind Word.nat64?

theorem readNat?_toDigits (n : Nat) : readNat? (Nat.toDigits 10 n) = some n := by
  have hd : (Nat.toDigits 10 n).all Char.isDigit = true := by
    rw [List.all_eq_true]
    exact fun c hc => Nat.isDigit_of_mem_toDigits (by decide) (by decide) hc
  have hne : Nat.toDigits 10 n ≠ [] := Nat.toDigits_ne_nil
  simp [readNat?, hd, hne, Nat.ofDigitChars_toDigits]

theorem readUnsigned?_eq_readNat? {s : List Char} (h : s.head? ≠ some '+') :
    readUnsigned? s = readNat? s := by
  unfold readUnsigned?
  split
  · simp at h
  · rfl

theorem readUnsigned?_toDigits (n : Nat) : readUnsigned? (Nat.toDigits 10 n) = some n := by
  rw [readUnsigned?_eq_readNat?, readNat?_toDigits]
  intro h
  have hmem : '+' ∈ Nat.toDigits 10 n := List.mem_of_mem_head? h
  exact absurd (Nat.isDigit_of_mem_toDigits (by decide) (by decide) hmem) (by decide)

theorem readId?_toDigits (n : UInt64) : readId? (Nat.toDigits 10 n.toNat) = some n := by
  simp [readId?, readUnsigned?_toDigits]

end AccountVault.Text
