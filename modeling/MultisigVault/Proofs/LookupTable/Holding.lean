import Mathlib.Tactic.ByContra
import MultisigVault.LookupTable
import MultisigVault.Proofs.FirstOccurrence

/-!
# Which table holds an address

A table names an address by the index of its first occurrence, as far as that fits
one byte.  Among several tables the first holder of an address is the one that
counts, and there is at most one.
-/

namespace MultisigVault

namespace LookupTable

/-- The one-byte index of the first occurrence of an address. -/
def index (table : LookupTable) (key : Address) : Byte :=
  UInt8.ofNat (table.addresses.idxOf key)

/-- The given addresses that the table holds. -/
def held (table : LookupTable) (keys : List Address) : List Address :=
  keys.filter fun key => key ∈ table.addresses

/-- Whether the first occurrence of every given address that the table holds has
a one-byte index. -/
def Reaches (table : LookupTable) (keys : List Address) : Prop :=
  ∀ key ∈ keys, key ∈ table.addresses → table.addresses.idxOf key < 256

instance (table : LookupTable) (keys : List Address) : Decidable (table.Reaches keys) :=
  inferInstanceAs (Decidable (∀ key ∈ keys, _))

theorem position?_of_mem {table : LookupTable} {key : Address} (hheld : key ∈ table.addresses) :
    table.position? key = some (table.addresses.idxOf key) := by
  rw [position?, FirstOccurrence.idxOf?_eq_some_iff]
  exact ⟨hheld, rfl⟩

theorem position?_of_not_mem {table : LookupTable} {key : Address}
    (hheld : key ∉ table.addresses) : table.position? key = none := by
  rw [position?, List.idxOf?_eq_none_iff]
  exact hheld

/-- Reading the table at the index of an address gives the address back. -/
theorem get?_index {table : LookupTable} {key : Address} (hheld : key ∈ table.addresses)
    (hreach : table.addresses.idxOf key < 256) : table.get? (table.index key) = some key := by
  rw [get?, index, UInt8.toNat_ofNat_of_lt' hreach,
    List.getElem?_eq_getElem (List.idxOf_lt_length_of_mem hheld), List.getElem_idxOf]

/-! ## First holders -/

/-- Whether none of the tables holds an address. -/
def NoneHolds (tables : List LookupTable) (key : Address) : Prop :=
  ∀ table ∈ tables, key ∉ table.addresses

instance (tables : List LookupTable) (key : Address) : Decidable (NoneHolds tables key) :=
  inferInstanceAs (Decidable (∀ table ∈ tables, _))

/-- Whether the table at a place in the order is the first that holds an address. -/
structure FirstHolder (tables : List LookupTable) (place : Nat) (table : LookupTable)
    (key : Address) : Prop where
  at_place : tables[place]? = some table
  holds : key ∈ table.addresses
  first : NoneHolds (tables.take place) key

section

variable {tables rest : List LookupTable} {head table : LookupTable} {place : Nat}
  {key : Address}

@[simp]
theorem noneHolds_nil (key : Address) : NoneHolds [] key :=
  List.forall_mem_nil _

@[simp]
theorem noneHolds_cons :
    NoneHolds (head :: rest) key ↔ key ∉ head.addresses ∧ NoneHolds rest key :=
  List.forall_mem_cons

theorem firstHolder_cons_zero :
    FirstHolder (head :: rest) 0 table key ↔ head = table ∧ key ∈ table.addresses := by
  constructor
  · intro hfirst
    exact ⟨Option.some.inj hfirst.at_place, hfirst.holds⟩
  · intro hhead
    exact ⟨congrArg some hhead.1, hhead.2, noneHolds_nil key⟩

theorem firstHolder_cons_succ :
    FirstHolder (head :: rest) (place + 1) table key ↔
      key ∉ head.addresses ∧ FirstHolder rest place table key := by
  constructor
  · intro hfirst
    have hnone := noneHolds_cons.mp hfirst.first
    exact ⟨hnone.1, hfirst.at_place, hfirst.holds, hnone.2⟩
  · intro hrest
    have hnone := noneHolds_cons.mpr ⟨hrest.1, hrest.2.first⟩
    exact ⟨hrest.2.at_place, hrest.2.holds, hnone⟩

/-- An address that some table holds has a first holder. -/
theorem exists_firstHolder (hheld : ¬NoneHolds tables key) :
    ∃ place table, FirstHolder tables place table key := by
  induction tables with
  | nil => exact absurd (noneHolds_nil key) hheld
  | cons head rest ih =>
      by_cases hhead : key ∈ head.addresses
      · exact ⟨0, head, firstHolder_cons_zero.mpr ⟨rfl, hhead⟩⟩
      · have hrest : ¬NoneHolds rest key := fun hnone => hheld (noneHolds_cons.mpr ⟨hhead, hnone⟩)
        obtain ⟨place, table, hfirst⟩ := ih hrest
        exact ⟨place + 1, table, firstHolder_cons_succ.mpr ⟨hhead, hfirst⟩⟩

theorem FirstHolder.not_noneHolds (hfirst : FirstHolder tables place table key) :
    ¬NoneHolds tables key := by
  intro hnone
  exact hnone table (List.mem_of_getElem? hfirst.at_place) hfirst.holds

/-- No other place comes before the first holder of an address. -/
theorem FirstHolder.place_le {holder : LookupTable} {other : Nat}
    (hfirst : FirstHolder tables place table key) (hother : tables[other]? = some holder)
    (hholds : key ∈ holder.addresses) : place ≤ other := by
  by_contra hbefore
  have htake : (tables.take place)[other]? = some holder := by
    rw [List.getElem?_take_of_lt (Nat.lt_of_not_le hbefore), hother]
  exact hfirst.first holder (List.mem_of_getElem? htake) hholds

theorem FirstHolder.unique {holder : LookupTable} {other : Nat}
    (hfirst : FirstHolder tables place table key)
    (hother : FirstHolder tables other holder key) : place = other := by
  apply Nat.le_antisymm
  · exact hfirst.place_le hother.at_place hother.holds
  · exact hother.place_le hfirst.at_place hfirst.holds

end

end LookupTable

end MultisigVault
