import SheetCipher.Overrun

/-!
# Word — arithmetic in 64-bit words

Amounts, shifts and computed rows are signed words, positions and row numbers
unsigned ones. Arithmetic is checked unless it says otherwise: a result that its
word can hold is exact (`exists_ofInt`), any other one is an overrun
(`ofInt_eq_error`). Wrapping arithmetic goes on with what the last 64 bits of a
result stand for.
-/

namespace SheetCipher.Word

/-- How many unsigned words there are. -/
def count : Nat := 0x10000000000000000

def largest : Nat := 0x7fffffffffffffff

/-- Whether an integer is a signed word. -/
def fits (n : Int) : Bool := -0x8000000000000000 ≤ n && n < 0x8000000000000000

/-- What becomes of a result that its word cannot hold. -/
inductive Arithmetic where
  /-- It is reported. -/
  | checked
  /-- It is taken modulo the number of words. -/
  | wrapping
deriving DecidableEq, Repr

/-- An integer as a signed word, or the report that it is none. -/
def ofInt (overrun : Overrun) (n : Int) (arithmetic : Arithmetic := .checked) :
    Except Overrun Int64 :=
  if fits n ∨ arithmetic = .wrapping then .ok (Int64.ofInt n) else .error overrun

def add (a b : Int64) (arithmetic : Arithmetic := .checked) : Except Overrun Int64 :=
  ofInt .sum (a.toInt + b.toInt) arithmetic

def sub (a b : Int64) (arithmetic : Arithmetic := .checked) : Except Overrun Int64 :=
  ofInt .difference (a.toInt - b.toInt) arithmetic

/-- A word with the other sign, as a product with -1. -/
def neg (a : Int64) : Except Overrun Int64 := ofInt .product (-a.toInt)

theorem fits_iff {n : Int} :
    fits n = true ↔ -0x8000000000000000 ≤ n ∧ n < 0x8000000000000000 := by
  simp only [fits, Bool.and_eq_true, decide_eq_true_eq]

/-- A number that is a word is the same in either arithmetic. -/
theorem exists_ofInt (overrun : Overrun) {n : Int} (h : fits n = true)
    (arithmetic : Arithmetic := .checked) :
    ∃ c, ofInt overrun n arithmetic = .ok c ∧ c.toInt = n := by
  refine ⟨Int64.ofInt n, if_pos (.inl h), ?_⟩
  rw [fits_iff] at h
  exact Int64.toInt_ofInt_of_le h.1 h.2

theorem ofInt_eq_error {overrun : Overrun} {n : Int} (h : ¬ fits n = true) :
    ofInt overrun n = .error overrun :=
  if_neg (by simp [h])

theorem ofInt_wrapping (overrun : Overrun) (n : Int) :
    ofInt overrun n .wrapping = .ok (Int64.ofInt n) :=
  if_pos (.inr rfl)

/-- Behind the largest word the least one follows. -/
theorem toInt_ofInt_of_ge {n : Int} (h : 0x8000000000000000 ≤ n) (h' : n < 0x18000000000000000) :
    (Int64.ofInt n).toInt = n - count := by
  rw [Int64.toInt_ofInt, Int.bmod_eq_emod]
  simp only [Int64.size, count]
  split <;> omega

end SheetCipher.Word
