import Mathlib.Data.List.Nodup
import Mathlib.Data.List.Perm.Subperm
import SqlScribe.AliasScope

/-!
# Fresh aliases

A generated alias determines its depth's number, so among one more candidate
than there are taken names one is free.  `allocate_not_taken` concludes that an
alias is never handed out for a name that is in use.

Numbers are not skipped without need: the aliases below the next number of a
depth are all taken.  A scope keeps this, which is `Filled`, so no number is
larger than the count of the names in use.
-/

namespace SqlScribe

theorem decimal_injective {m n : Nat} (same : Nat.toDigits 10 m = Nat.toDigits 10 n) : m = n := by
  rw [← Nat.ofDigitChars_ten_toDigits (n := m), same, Nat.ofDigitChars_ten_toDigits]

/-- How the alias with this number at this depth is written. -/
def aliasText (depth number : Nat) : String :=
  "sq" ++ toString depth ++ "_" ++ toString number

theorem generatedAlias_eq (depth number : Nat) :
    generatedAlias depth number = aliasText depth number :=
  rfl

/-- Different numbers at one depth have different aliases. -/
theorem generatedAlias_injective (depth : Nat) : Function.Injective (generatedAlias depth) := by
  intro m n same
  rw [generatedAlias, generatedAlias, ← String.toList_inj] at same
  simp only [String.toList_append, List.append_cancel_left_eq, Nat.toString_eq_ofList_toDigits,
    String.toList_ofList] at same
  exact decimal_injective same

namespace AliasScope

/-- The candidates are passed over only while they are taken. -/
theorem firstFree_spec {taken : List String} {depth candidates number : Nat}
    (found : generatedAlias depth (firstFree taken depth candidates number) ∈ taken) :
    ∀ passed ≤ candidates, generatedAlias depth (number + passed) ∈ taken := by
  induction candidates generalizing number with
  | zero =>
      intro passed bound
      obtain rfl : passed = 0 := by omega
      exact found
  | succ candidates step =>
      simp only [firstFree, List.contains_iff_mem] at found
      split at found
      · rename_i present
        intro passed bound
        cases passed with
        | zero => exact present
        | succ passed =>
            have later := step found passed (by omega)
            rwa [show number + 1 + passed = number + (passed + 1) by omega] at later
      · rename_i absent
        exact absurd found absent

/-- There are no more successive numbers with taken aliases than there are taken names. -/
theorem count_le_of_taken {taken : List String} {count : Nat} (depth start : Nat)
    (passed : ∀ offset < count, generatedAlias depth (start + offset) ∈ taken) :
    count ≤ taken.length := by
  let candidates := (List.range count).map fun offset => generatedAlias depth (start + offset)
  have distinct : candidates.Nodup := by
    refine List.nodup_range.map fun first second same => ?_
    have numbers := generatedAlias_injective depth same
    omega
  have known : candidates ⊆ taken := by
    intro name member
    rcases List.mem_map.1 member with ⟨offset, bound, rfl⟩
    exact passed offset (List.mem_range.1 bound)
  simpa [candidates] using (distinct.subperm known).length_le

/-- One more candidate than there are taken names cannot all be taken. -/
theorem freeNumber_not_taken (scope : AliasScope) (depth : Nat) :
    generatedAlias depth (scope.freeNumber depth) ∉ scope.taken := by
  intro found
  have passed := firstFree_spec found
  have fewer : scope.taken.length + 1 ≤ scope.taken.length :=
    count_le_of_taken depth _ fun offset bound => passed offset (Nat.le_of_lt_succ bound)
  omega

/-- An alias that is handed out was not in use. -/
theorem allocate_not_taken (scope : AliasScope) (depth : Nat) :
    (scope.allocate depth).1 ∉ scope.taken :=
  freeNumber_not_taken scope depth

@[simp]
theorem taken_reserve (scope : AliasScope) (name : String) :
    (scope.reserve name).taken = name :: scope.taken := rfl

/-- Reserving names one after another takes exactly those names in addition. -/
theorem mem_taken_foldl_reserve {names : List String} {scope : AliasScope} {name : String} :
    name ∈ (names.foldl reserve scope).taken ↔ name ∈ names ∨ name ∈ scope.taken := by
  induction names generalizing scope with
  | nil => simp
  | cons first rest step => simp [step, or_left_comm, or_assoc]

theorem length_taken_foldl_reserve {names : List String} {scope : AliasScope} :
    (names.foldl reserve scope).taken.length = scope.taken.length + names.length := by
  induction names generalizing scope with
  | nil => rfl
  | cons first rest step =>
      rw [List.foldl_cons, step, taken_reserve, List.length_cons, List.length_cons]
      omega

/-! ## How far the numbers go -/

/-- The search passes over taken candidates only. -/
theorem taken_of_lt_firstFree {taken : List String} {depth candidates start number : Nat}
    (passed : start ≤ number) (found : number < firstFree taken depth candidates start) :
    generatedAlias depth number ∈ taken := by
  induction candidates generalizing start with
  | zero => exact absurd found (Nat.not_lt.2 passed)
  | succ candidates step =>
      simp only [firstFree, List.contains_iff_mem] at found
      split at found
      · rename_i present
        rcases Nat.eq_or_lt_of_le passed with rfl | later
        · exact present
        · exact step later found
      · exact absurd found (Nat.not_lt.2 passed)

/-- All aliases below the next number of their depth are taken. -/
def Filled (scope : AliasScope) : Prop :=
  ∀ depth, ∀ number < scope.nextNumber depth, generatedAlias depth number ∈ scope.taken

theorem filled_empty : Filled empty := fun _ number below => absurd below (Nat.not_lt_zero number)

namespace Filled

variable {scope : AliasScope}

theorem reserve (filled : scope.Filled) (name : String) : (scope.reserve name).Filled :=
  fun depth number below => List.mem_cons_of_mem _ (filled depth number below)

theorem foldl_reserve (filled : scope.Filled) (names : List String) :
    (names.foldl AliasScope.reserve scope).Filled := by
  induction names generalizing scope with
  | nil => exact filled
  | cons first rest step => exact step (filled.reserve first)

theorem taken_of_lt {depth number : Nat} (filled : scope.Filled)
    (below : number < scope.freeNumber depth) : generatedAlias depth number ∈ scope.taken := by
  rcases Nat.lt_or_ge number (scope.nextNumber depth) with tried | later
  · exact filled depth number tried
  · exact taken_of_lt_firstFree later below

/-- The number of a new alias is at most the count of the names in use. -/
theorem freeNumber_le (filled : scope.Filled) (depth : Nat) :
    scope.freeNumber depth ≤ scope.taken.length := by
  refine count_le_of_taken depth 0 fun offset below => ?_
  rw [Nat.zero_add]
  exact filled.taken_of_lt below

theorem allocate (filled : scope.Filled) (depth : Nat) : (scope.allocate depth).2.Filled := by
  intro other number below
  by_cases own : depth = other
  · subst own
    have next : (scope.allocate depth).2.nextNumber depth = scope.freeNumber depth + 1 := by
      simp [AliasScope.allocate, nextNumber]
    rw [next] at below
    rcases Nat.eq_or_lt_of_le (Nat.le_of_lt_succ below) with rfl | earlier
    · exact List.mem_cons_self
    · exact List.mem_cons_of_mem _ (filled.taken_of_lt earlier)
  · have next : (scope.allocate depth).2.nextNumber other = scope.nextNumber other := by
      simp [AliasScope.allocate, nextNumber, own]
    rw [next] at below
    exact List.mem_cons_of_mem _ (filled other number below)

end Filled

end AliasScope

end SqlScribe
