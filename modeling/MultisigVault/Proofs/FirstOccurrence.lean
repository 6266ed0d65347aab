import Mathlib.Data.List.Dedup
import Mathlib.Data.List.Induction
import Mathlib.Data.List.Nodup

/-!
# First occurrences

Keys are listed once and in the order in which they first occur.  Adding a key at
the end changes the list only if the key is new.  The place of a key is that of its
first occurrence.
-/

namespace MultisigVault.FirstOccurrence

variable {Key : Type} [DecidableEq Key]

theorem nodup_eraseDups (keys : List Key) : keys.eraseDups.Nodup := by
  induction hlength : keys.length using Nat.strongRecOn generalizing keys with
  | ind length ih =>
      cases keys with
      | nil => simp
      | cons key rest =>
          rw [List.eraseDups_cons, List.nodup_cons]
          constructor
          · simp [List.mem_eraseDups]
          · have hshorter : (rest.filter fun other => !other == key).length < length := by
              have hle := List.length_filter_le (fun other => !other == key) rest
              simp only [List.length_cons] at hlength
              omega
            exact ih _ hshorter _ rfl

/-- A key added at the end is listed only if it is new. -/
theorem eraseDups_concat (keys : List Key) (key : Key) :
    (keys ++ [key]).eraseDups =
      if key ∈ keys then keys.eraseDups else keys.eraseDups ++ [key] := by
  rw [List.eraseDups_append]
  by_cases hkey : key ∈ keys
  · simp [hkey, List.removeAll]
  · simp [hkey, List.removeAll, List.eraseDups_cons]

/-- Leaving out repetitions does not change which key is the first of its kind. -/
theorem find?_eraseDups (keys : List Key) (select : Key → Bool) :
    keys.eraseDups.find? select = keys.find? select := by
  induction keys using List.reverseRecOn with
  | nil => simp
  | append_singleton keys key ih =>
      rw [eraseDups_concat, List.find?_append]
      split
      · next hlisted =>
          rw [ih]
          cases hfound : keys.find? select with
          | some earlier => rfl
          | none =>
              have hother : ¬select key = true := List.find?_eq_none.mp hfound key hlisted
              rw [Option.none_or, List.find?_singleton, if_neg hother]
      · rw [List.find?_append, ih]

/-- Looking for the place of a key finds it exactly where the key is listed. -/
theorem idxOf?_eq_some_iff {keys : List Key} {key : Key} {place : Nat} :
    keys.idxOf? key = some place ↔ key ∈ keys ∧ keys.idxOf key = place := by
  by_cases hlisted : key ∈ keys
  · have hplace : keys.idxOf? key = some (keys.idxOf key) := by
      rw [List.idxOf?_eq_some_iff]
      have hlt := List.idxOf_lt_length_of_mem hlisted
      refine ⟨hlt, List.getElem_idxOf hlt, ?_⟩
      intro other hother
      simpa using List.not_of_lt_findIdx hother
    simp [hplace, hlisted]
  · simp [List.idxOf?_eq_none_iff.mpr hlisted, hlisted]

end MultisigVault.FirstOccurrence
