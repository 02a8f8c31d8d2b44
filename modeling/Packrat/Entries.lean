namespace Packrat

/-!
# Entries under keys

A table is a list of entries, each a key with its value.  A new key comes last, and a key that is
there already keeps its place.
-/

/-- Values under keys. -/
abbrev Entries (α : Type) := List (String × α)

namespace Entries

variable {α : Type}

/-- Put a value under a key, in place of an earlier one. -/
def put (key : String) (value : α) : Entries α -> Entries α
  | [] => [(key, value)]
  | (other, old) :: rest =>
    if key == other then (other, value) :: rest else (other, old) :: put key value rest

def remove (key : String) (entries : Entries α) : Entries α :=
  entries.filter fun (other, _) => key != other

theorem lookup_put (key other : String) (value : α) (entries : Entries α) :
    (put key value entries).lookup other =
      if other == key then some value else entries.lookup other := by
  induction entries with
  | nil => cases same : other == key <;> simp [put, List.lookup_cons, same]
  | cons entry rest found =>
    obtain ⟨name, old⟩ := entry
    by_cases here : key = name
    · subst here
      cases same : other == key <;> simp [put, List.lookup_cons, same]
    · cases there : other == name
      · simp [put, List.lookup_cons, here, there, found]
      · have apart : (other == key) = false :=
          beq_eq_false_iff_ne.mpr fun same => here (same.symm.trans (eq_of_beq there))
        simp [put, List.lookup_cons, here, there, apart]

theorem lookup_remove (key other : String) (entries : Entries α) :
    (remove key entries).lookup other = if other == key then none else entries.lookup other := by
  induction entries with
  | nil => simp [remove]
  | cons entry rest found =>
    obtain ⟨name, old⟩ := entry
    unfold remove at found
    by_cases here : key = name
    · subst here
      cases same : other == key <;> simp [remove, List.lookup_cons, same, found]
    · cases there : other == name
      · simp [remove, List.lookup_cons, here, there, found]
      · have apart : (other == key) = false :=
          beq_eq_false_iff_ne.mpr fun same => here (same.symm.trans (eq_of_beq there))
        simp [remove, List.lookup_cons, here, there, apart]

end Entries
end Packrat
