/-!
# Lengths in bytes

Limits on texts are given in bytes of UTF-8.  `fit limit text` is the part of a
text that fits a limit, cut between characters: `byteLength_fit_le` bounds it,
and `fit_isPrefix` and `fit_maximal` say that it is the longest such beginning.
-/

namespace SqlScribe.Text

/-- The length of a text in UTF-8. -/
def byteLength : List Char → Nat
  | [] => 0
  | c :: rest => c.utf8Size + byteLength rest

@[simp]
theorem byteLength_nil : byteLength [] = 0 := rfl

@[simp]
theorem byteLength_cons (c : Char) (rest : List Char) :
    byteLength (c :: rest) = c.utf8Size + byteLength rest := rfl

@[simp]
theorem byteLength_append (left right : List Char) :
    byteLength (left ++ right) = byteLength left + byteLength right := by
  induction left with
  | nil => simp
  | cons c rest step => simp [step, Nat.add_assoc]

/-- The longest beginning of a text that has at most `limit` bytes. -/
def fit : Nat → List Char → List Char
  | _, [] => []
  | limit, c :: rest =>
      if c.utf8Size ≤ limit then c :: fit (limit - c.utf8Size) rest else []

theorem byteLength_fit_le (limit : Nat) (text : List Char) :
    byteLength (fit limit text) ≤ limit := by
  induction text generalizing limit with
  | nil => simp [fit]
  | cons c rest step =>
      by_cases h : c.utf8Size ≤ limit
      · have bound := step (limit - c.utf8Size)
        simp only [fit, h, if_true, byteLength_cons]
        omega
      · simp [fit, h]

theorem fit_isPrefix (limit : Nat) (text : List Char) : fit limit text <+: text := by
  induction text generalizing limit with
  | nil => simp [fit]
  | cons c rest step =>
      by_cases h : c.utf8Size ≤ limit
      · simpa [fit, h] using step (limit - c.utf8Size)
      · simp [fit, h]

/-- Every beginning of the text within the limit is a beginning of `fit`. -/
theorem fit_maximal
    (limit : Nat) (text start : List Char)
    (begins : start <+: text) (within : byteLength start ≤ limit) :
    start <+: fit limit text := by
  induction text generalizing limit start with
  | nil => simpa [fit] using begins
  | cons c rest step =>
      cases start with
      | nil => simp
      | cons d tail =>
          rw [List.cons_prefix_cons] at begins
          obtain ⟨rfl, tailBegins⟩ := begins
          rw [byteLength_cons] at within
          have fits : d.utf8Size ≤ limit := by omega
          simp only [fit, fits, if_true, List.cons_prefix_cons, true_and]
          exact step (limit - d.utf8Size) tail tailBegins (by omega)

end SqlScribe.Text
