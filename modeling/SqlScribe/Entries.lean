/-!
# Ordered entries

Documents, rows and column lists are all lists of named values whose order can
be seen in the output.  Writing to a name that is present replaces the value
where it stands; a new name goes to the end.

`keys_put` says what a write does to the names and `get?_put` what it does to
the values; `nodup_keys_put` is the invariant that follows.
-/

namespace SqlScribe

/-- Named values in the order in which the names were first written. -/
abbrev Entries (α : Type) := List (String × α)

namespace Entries

variable {α : Type}

def keys (entries : Entries α) : List String := entries.map Prod.fst

/-- The value of the first entry with this name. -/
def get? (entries : Entries α) (name : String) : Option α :=
  (entries.find? fun entry => entry.1 == name).map Prod.snd

/-- Writes a value: in place if the name is present, at the end otherwise. -/
def put (name : String) (value : α) : Entries α → Entries α
  | [] => [(name, value)]
  | (other, old) :: rest =>
      if other = name then (name, value) :: rest
      else (other, old) :: put name value rest

@[simp]
theorem keys_nil : keys ([] : Entries α) = [] := rfl

@[simp]
theorem keys_cons (entry : String × α) (rest : Entries α) :
    keys (entry :: rest) = entry.1 :: keys rest := rfl

/-- A write leaves the names as they are, or adds one at the end. -/
theorem keys_put (name : String) (value : α) (entries : Entries α) :
    keys (put name value entries) =
      if name ∈ keys entries then keys entries else keys entries ++ [name] := by
  induction entries with
  | nil => simp [put, keys]
  | cons entry rest step =>
      obtain ⟨other, old⟩ := entry
      by_cases same : other = name
      · simp [put, keys, same]
      · have different : name ≠ other := fun h => same h.symm
        by_cases present : name ∈ keys rest
        · simp [put, same, step, present]
        · simp [put, same, step, present, different]

theorem nodup_keys_put
    (name : String) (value : α) {entries : Entries α}
    (distinct : (keys entries).Nodup) :
    (keys (put name value entries)).Nodup := by
  rw [keys_put]
  split
  · exact distinct
  · rename_i absent
    rw [List.nodup_append]
    refine ⟨distinct, by simp, ?_⟩
    intro key member last inLast
    rw [List.mem_singleton] at inLast
    intro equal
    exact absent (inLast ▸ equal ▸ member)

/-- Reading after a write: the written value at its name, the old value elsewhere. -/
theorem get?_put (name other : String) (value : α) (entries : Entries α) :
    get? (put name value entries) other =
      if name = other then some value else get? entries other := by
  induction entries with
  | nil => by_cases h : name = other <;> simp [put, get?, h]
  | cons entry rest step =>
      obtain ⟨key, old⟩ := entry
      unfold get? at step ⊢
      by_cases same : key = name
      · by_cases h : name = other <;> simp [put, same, h]
      · by_cases h : key = other
        · subst h
          have different : name ≠ key := fun equal => same equal.symm
          simp [put, same, different]
        · simp [put, same, h, step]

theorem get?_eq_none {entries : Entries α} {name : String} :
    get? entries name = none ↔ name ∉ keys entries := by
  simp only [get?, keys, Option.map_eq_none_iff, List.find?_eq_none, beq_iff_eq, List.mem_map,
    not_exists, not_and]

theorem mem_of_get? {entries : Entries α} {name : String} {value : α}
    (found : get? entries name = some value) : (name, value) ∈ entries := by
  rcases Option.map_eq_some_iff.1 found with ⟨⟨other, _⟩, entry, rfl⟩
  have same : other = name := by simpa using List.find?_some entry
  exact same ▸ List.mem_of_find?_eq_some entry

end Entries

end SqlScribe
