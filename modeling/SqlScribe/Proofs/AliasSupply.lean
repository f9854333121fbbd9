import SqlScribe.Proofs.AliasScope

/-!
# What a scope hands out over a run of calls

A scope tries one number after the other and does not know how many names stand
in its way.  `search?` is this search with a number of rounds, and fails where
it runs out of them.  `search?_freeNumber` says that it never does if there are
more rounds than names in use, whatever number it begins with.

A run reserves names and hands out aliases at several depths, in any order.
`Recorded` says of a scope that it comes from calls with these names: one more
call keeps this, and so does a run.  What is new about the next alias can
therefore be told by the names of the calls before it.
-/

namespace SqlScribe.AliasScope

/-! ## The search -/

section Search

variable {taken : List String} {depth number found rounds : Nat}

/-- The first free number from `number` on, if it is found within the rounds. -/
def search? (taken : List String) (depth : Nat) : (rounds number : Nat) → Option Nat
  | 0, _ => none
  | rounds + 1, number =>
      if taken.contains (generatedAlias depth number) then search? taken depth rounds (number + 1)
      else some number

/-- The search passes over taken aliases only, and ends at the first free one. -/
theorem search?_eq_some :
    search? taken depth rounds number = some found ↔
      number ≤ found ∧ found < number + rounds ∧ generatedAlias depth found ∉ taken ∧
        ∀ passed, number ≤ passed → passed < found → generatedAlias depth passed ∈ taken := by
  induction rounds generalizing number with
  | zero =>
      constructor
      · intro impossible
        cases impossible
      · rintro ⟨start, bound, -, -⟩
        omega
  | succ rounds step =>
      rw [search?]
      simp only [List.contains_iff_mem]
      split
      · rename_i present
        rw [step]
        constructor
        · rintro ⟨start, bound, free, passed⟩
          refine ⟨by omega, by omega, free, fun other later below => ?_⟩
          rcases Nat.eq_or_lt_of_le later with rfl | beyond
          · exact present
          · exact passed other beyond below
        · rintro ⟨start, bound, free, passed⟩
          have different : number ≠ found := by
            rintro rfl
            exact free present
          exact ⟨by omega, by omega, free,
            fun other later below => passed other (by omega) below⟩
      · rename_i absent
        rw [Option.some_inj]
        constructor
        · rintro rfl
          exact ⟨Nat.le_refl _, by omega, absent, fun other later below => by omega⟩
        · rintro ⟨start, -, -, passed⟩
          rcases Nat.eq_or_lt_of_le start with same | beyond
          · exact same
          · exact absurd (passed number (Nat.le_refl _) beyond) absent

theorem le_firstFree (taken : List String) (depth candidates number : Nat) :
    number ≤ firstFree taken depth candidates number := by
  induction candidates generalizing number with
  | zero => exact Nat.le_refl _
  | succ candidates step =>
      rw [firstFree]
      split
      · exact Nat.le_of_succ_le (step (number + 1))
      · exact Nat.le_refl _

theorem nextNumber_le_freeNumber (scope : AliasScope) (depth : Nat) :
    scope.nextNumber depth ≤ scope.freeNumber depth :=
  le_firstFree _ _ _ _

/-- More rounds than there are names in use suffice. -/
theorem search?_freeNumber {scope : AliasScope} (enough : scope.taken.length < rounds) :
    search? scope.taken depth rounds (scope.nextNumber depth) = some (scope.freeNumber depth) := by
  have start := scope.nextNumber_le_freeNumber depth
  have passed : ∀ number, scope.nextNumber depth ≤ number → number < scope.freeNumber depth →
      generatedAlias depth number ∈ scope.taken :=
    fun _ later below => taken_of_lt_firstFree later below
  have tried : scope.freeNumber depth - scope.nextNumber depth ≤ scope.taken.length :=
    count_le_of_taken depth (scope.nextNumber depth) fun offset below =>
      passed _ (Nat.le_add_right _ _) (by omega)
  exact search?_eq_some.2 ⟨start, by omega, scope.freeNumber_not_taken depth, passed⟩

end Search

/-! ## Calls -/

/-- A call that puts a name in use. -/
inductive Use where
  | reserve (name : String)
  | allocate (depth : Nat)
deriving DecidableEq, Repr

/-- The name that a call puts in use, and the scope after it. -/
def perform (scope : AliasScope) : Use → String × AliasScope
  | .reserve name => (name, scope.reserve name)
  | .allocate depth => scope.allocate depth

/-- The calls one after another, each with the name that it put in use, and the scope after them. -/
def run (scope : AliasScope) : List Use → List (Use × String) × AliasScope
  | [] => ([], scope)
  | use :: rest =>
      let (name, next) := scope.perform use
      let (others, last) := next.run rest
      ((use, name) :: others, last)

variable {history : List (Use × String)} {scope : AliasScope}

/-- The scope comes from these calls, each of which put its name in use. -/
structure Recorded (history : List (Use × String)) (scope : AliasScope) : Prop where
  taken : scope.taken = (history.map Prod.snd).reverse
  filled : scope.Filled
  reserved : ∀ given name, (.reserve given, name) ∈ history → name = given
  allocated : ∀ depth name, (.allocate depth, name) ∈ history →
    ∃ number < scope.nextNumber depth, name = aliasText depth number

theorem recorded_empty : Recorded [] empty where
  taken := rfl
  filled := filled_empty
  reserved := by simp
  allocated := by simp

theorem nextNumber_allocate_self (scope : AliasScope) (depth : Nat) :
    (scope.allocate depth).2.nextNumber depth = scope.freeNumber depth + 1 := by
  simp [allocate, nextNumber]

theorem nextNumber_allocate_of_ne (scope : AliasScope) {depth other : Nat}
    (different : depth ≠ other) :
    (scope.allocate depth).2.nextNumber other = scope.nextNumber other := by
  simp [allocate, nextNumber, different]

theorem nextNumber_le_perform (scope : AliasScope) (use : Use) (depth : Nat) :
    scope.nextNumber depth ≤ (scope.perform use).2.nextNumber depth := by
  cases use with
  | reserve name => exact Nat.le_refl _
  | allocate other =>
      rw [perform]
      by_cases same : other = depth
      · subst same
        rw [nextNumber_allocate_self]
        exact Nat.le_succ_of_le (scope.nextNumber_le_freeNumber other)
      · exact Nat.le_of_eq (nextNumber_allocate_of_ne scope same).symm

/-- One more call puts one more name in use. -/
theorem Recorded.perform (recorded : Recorded history scope) (use : Use) :
    Recorded (history ++ [(use, (scope.perform use).1)]) (scope.perform use).2 where
  taken := by
    rw [List.map_append, List.reverse_append, ← recorded.taken]
    cases use <;> rfl
  filled := by
    cases use with
    | reserve name => exact recorded.filled.reserve name
    | allocate depth => exact recorded.filled.allocate depth
  reserved := by
    intro given name member
    rcases List.mem_append.1 member with earlier | last
    · exact recorded.reserved given name earlier
    · cases List.mem_singleton.1 last
      rfl
  allocated := by
    intro depth name member
    rcases List.mem_append.1 member with earlier | last
    · rcases recorded.allocated depth name earlier with ⟨number, below, rfl⟩
      exact ⟨number, Nat.lt_of_lt_of_le below (scope.nextNumber_le_perform use depth), rfl⟩
    · cases List.mem_singleton.1 last
      refine ⟨scope.freeNumber depth, ?_, rfl⟩
      rw [AliasScope.perform, nextNumber_allocate_self]
      exact Nat.lt_succ_self _

/-- A run goes on recording the names of its calls. -/
theorem Recorded.run (recorded : Recorded history scope) (uses : List Use) :
    Recorded (history ++ (scope.run uses).1) (scope.run uses).2 := by
  induction uses generalizing history scope with
  | nil => rwa [AliasScope.run, List.append_nil]
  | cons use rest step =>
      have later := step (recorded.perform use)
      rwa [List.append_assoc] at later

theorem calls_run (scope : AliasScope) (uses : List Use) :
    (scope.run uses).1.map Prod.fst = uses := by
  induction uses generalizing scope with
  | nil => rfl
  | cons use rest step => exact congrArg (use :: ·) (step (scope.perform use).2)

/-! ## The next alias -/

/-- After these calls, the scope hands out the alias with this number at this depth. -/
structure HandsOut
    (scope : AliasScope) (history : List (Use × String)) (depth number : Nat) : Prop where
  /-- The search ends, as soon as it may try more candidates than there were calls. -/
  ends : ∀ rounds, history.length < rounds →
    search? scope.taken depth rounds (scope.nextNumber depth) = some number
  returned : (scope.allocate depth).1 = aliasText depth number
  fresh : ∀ use name, (use, name) ∈ history → name ≠ aliasText depth number
  skipped : ∀ smaller < number, ∃ use, (use, aliasText depth smaller) ∈ history
  larger : ∀ name, (.allocate depth, name) ∈ history →
    ∃ smaller < number, name = aliasText depth smaller

theorem Recorded.mem_taken (recorded : Recorded history scope) {name : String} :
    name ∈ scope.taken ↔ ∃ use, (use, name) ∈ history := by
  rw [recorded.taken]
  simp

theorem Recorded.handsOut (recorded : Recorded history scope) (depth : Nat) :
    scope.HandsOut history depth (scope.freeNumber depth) where
  ends := by
    intro rounds enough
    refine search?_freeNumber ?_
    rwa [recorded.taken, List.length_reverse, List.length_map]
  returned := rfl
  fresh := by
    rintro use name member rfl
    exact scope.freeNumber_not_taken depth (recorded.mem_taken.2 ⟨use, member⟩)
  skipped _ below := recorded.mem_taken.1 (recorded.filled.taken_of_lt below)
  larger := by
    intro name member
    rcases recorded.allocated depth name member with ⟨number, below, rfl⟩
    exact ⟨number, Nat.lt_of_lt_of_le below (scope.nextNumber_le_freeNumber depth), rfl⟩

/--
After any calls to a new scope, exactly the names that they reserved or were
given are taken.  At every depth the search for the next alias ends.  The alias
is different from all these names, its number is larger than that of every
alias that was handed out at this depth, and each smaller number belongs to a
name that is in use.
-/
theorem aliases_handed_out_fresh (uses : List Use) :
    (empty.run uses).1.map Prod.fst = uses ∧
      (∀ given name, (.reserve given, name) ∈ (empty.run uses).1 → name = given) ∧
      (∀ name, (empty.run uses).2.isTaken name ↔ ∃ use, (use, name) ∈ (empty.run uses).1) ∧
      ∀ depth, ∃ number, (empty.run uses).2.HandsOut (empty.run uses).1 depth number := by
  have recorded : Recorded (empty.run uses).1 (empty.run uses).2 := recorded_empty.run uses
  refine ⟨calls_run empty uses, recorded.reserved, fun name => ?_,
    fun depth => ⟨_, recorded.handsOut depth⟩⟩
  rw [isTaken, List.contains_iff_mem]
  exact recorded.mem_taken

/-- Names of the form of an alias are passed over, and each depth has numbers of its own. -/
example :
    (empty.run [.reserve "sq1_0", .allocate 1, .reserve "sq1_2", .allocate 2, .allocate 1]).1.map
        Prod.snd =
      ["sq1_0", "sq1_1", "sq1_2", "sq2_0", "sq1_3"] := by
  cbv

end SqlScribe.AliasScope
