/-!
# Words

Whole numbers as words of fixed width, where they fit.  Main statements: a word's number fits, and gives
the word back.
-/

namespace AccountVault.Word

/-- The signed word of 32 bits that holds a number. -/
def int32? (n : Int) : Option Int32 :=
  if Int32.minValue.toInt ≤ n ∧ n ≤ Int32.maxValue.toInt then some (.ofInt n) else none

/-- The signed word of 64 bits that holds a number. -/
def int64? (n : Int) : Option Int64 :=
  if Int64.minValue.toInt ≤ n ∧ n ≤ Int64.maxValue.toInt then some (.ofInt n) else none

/-- The unsigned word of 64 bits that holds a number. -/
def nat64? (n : Nat) : Option UInt64 := if n < UInt64.size then some (.ofNat n) else none

@[simp] theorem int32?_toInt (w : Int32) : int32? w.toInt = some w := by
  rw [int32?, if_pos ⟨w.minValue_le_toInt, w.toInt_le⟩, Int32.ofInt_toInt]

@[simp] theorem int64?_toInt (w : Int64) : int64? w.toInt = some w := by
  rw [int64?, if_pos ⟨w.minValue_le_toInt, w.toInt_le⟩, Int64.ofInt_toInt]

@[simp] theorem nat64?_toNat (w : UInt64) : nat64? w.toNat = some w := by
  simp [nat64?, w.toNat_lt]

end AccountVault.Word
