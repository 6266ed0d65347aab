import MultisigVault.LookupTable
import MultisigVault.Proofs.Outcome

/-!
# Lookup tables as account data

The data of a table account is its metadata and then entries of 32 bytes.  It is read as a
table exactly when the last entry is complete, and then the addresses of the table are the
entries in order, whatever the metadata is.  So an address is found at the first entry that
is equal to it, and bytes that make up the address across two entries, or in the metadata,
are not found.
-/

namespace MultisigVault.LookupTable

open Outcome

/-! ## Splitting -/

/-- An address comes off the front of the bytes. -/
theorem splitAddresses_append (address : Address) (rest : Bytes) :
    splitAddresses (address.bytes ++ rest) = (splitAddresses rest).map (address :: ·) := by
  obtain ⟨bytes, hlength⟩ := address
  cases bytes with
  | nil => cases hlength
  | cons head tail =>
      have htail : tail.length = 31 := Nat.succ.inj hlength
      have htake : (tail ++ rest).take 31 = tail := by
        rw [← htail, List.take_left]
      have hdrop : (tail ++ rest).drop 31 = rest := by
        rw [← htail, List.drop_left]
      rw [List.cons_append, splitAddresses]
      simp only [htake, hdrop, htail, dite_true]
      cases splitAddresses rest <;> rfl

/-- Addresses written without gaps are read back. -/
theorem splitAddresses_flatMap (addresses : List Address) :
    splitAddresses (addresses.flatMap Address.bytes) = .ok addresses := by
  induction addresses with
  | nil =>
      rw [List.flatMap_nil, splitAddresses]
  | cons address rest ih =>
      rw [List.flatMap_cons, splitAddresses_append, ih]
      rfl

/-- Bytes are split into the addresses that make them up when written without gaps. -/
theorem splitAddresses_eq_ok_iff {bytes : Bytes} {addresses : List Address} :
    splitAddresses bytes = .ok addresses ↔ addresses.flatMap Address.bytes = bytes := by
  constructor
  · intro hsplit
    fun_induction splitAddresses bytes generalizing addresses with
    | case1 =>
        cases hsplit
        rfl
    | case2 head tail hlength ih =>
        obtain ⟨rest, hrest, hcons⟩ := bind_eq_ok_iff.mp hsplit
        cases hcons
        rw [List.flatMap_cons, ih hrest, List.cons_append, List.take_append_drop]
    | case3 head tail hlength => cases hsplit
  · rintro rfl
    exact splitAddresses_flatMap addresses

/-- Bytes are not split exactly when some are left over behind the last whole address. -/
theorem splitAddresses_eq_error_iff {bytes : Bytes} {error : LookupTableError} :
    splitAddresses bytes = .error error ↔ error = .partialAddress ∧ ¬32 ∣ bytes.length := by
  fun_induction splitAddresses bytes with
  | case1 => simp
  | case2 head tail hlength ih =>
      -- Splitting off a whole address takes 32 bytes away, and fails only on what is left.
      have hrest : 32 ∣ (tail.drop 31).length ↔ 32 ∣ (head :: tail).length := by
        rw [List.length_take] at hlength
        rw [List.length_drop, List.length_cons]
        omega
      simp only [bind_eq_error_iff, pure_eq_ok, reduceCtorEq, and_false, exists_false, or_false]
      rw [ih, hrest]
  | case3 head tail hlength =>
      have hpartial : ¬32 ∣ (head :: tail).length := by
        rw [List.length_take] at hlength
        rw [List.length_cons]
        omega
      rw [Except.error.injEq, eq_comm, and_iff_left hpartial]

theorem splitAddresses_succeeds_iff {bytes : Bytes} :
    (∃ addresses, splitAddresses bytes = .ok addresses) ↔ 32 ∣ bytes.length := by
  constructor
  · rintro ⟨addresses, hsplit⟩
    by_contra hpartial
    cases hsplit.symm.trans (splitAddresses_eq_error_iff.mpr ⟨rfl, hpartial⟩)
  · intro hwhole
    cases hsplit : splitAddresses bytes with
    | ok addresses => exact ⟨addresses, rfl⟩
    | error error => exact absurd hwhole (splitAddresses_eq_error_iff.mp hsplit).2

/-! ## Reading account data -/

section

variable {key : Address} {data : Bytes} {table : LookupTable}

theorem ofAccountData_eq_ok_iff :
    ofAccountData key data = .ok table ↔
      56 ≤ data.length ∧ table.key = key ∧
        table.addresses.flatMap Address.bytes = data.drop 56 := by
  rw [ofAccountData, guard_eq_ok_iff, map_eq_ok_iff, Nat.not_lt, metadataSize]
  apply and_congr_right
  intro _
  simp only [splitAddresses_eq_ok_iff]
  constructor
  · rintro ⟨addresses, hread, rfl⟩
    exact ⟨rfl, hread⟩
  · rintro ⟨rfl, hread⟩
    exact ⟨table.addresses, hread, rfl⟩

theorem ofAccountData_eq_error_iff {error : LookupTableError} :
    ofAccountData key data = .error error ↔
      (error = .metadataTooShort ∧ data.length < 56) ∨
        (error = .partialAddress ∧ 56 ≤ data.length ∧ ¬32 ∣ data.length - 56) := by
  rw [ofAccountData, metadataSize]
  split
  · next hshort =>
      rw [Except.error.injEq, eq_comm]
      simp only [hshort, and_true, Nat.not_le.mpr hshort, false_and, and_false, or_false]
  · next hlong =>
      rw [map_eq_error_iff, splitAddresses_eq_error_iff, List.length_drop]
      simp only [hlong, and_false, Nat.not_lt.mp hlong, true_and, false_or]

theorem ofAccountData_succeeds_iff :
    (∃ table, ofAccountData key data = .ok table) ↔
      56 ≤ data.length ∧ 32 ∣ data.length - 56 := by
  rw [← List.length_drop, ← splitAddresses_succeeds_iff]
  constructor
  · rintro ⟨table, hread⟩
    obtain ⟨hlong, -, haddresses⟩ := ofAccountData_eq_ok_iff.mp hread
    exact ⟨hlong, table.addresses, splitAddresses_eq_ok_iff.mpr haddresses⟩
  · rintro ⟨hlong, addresses, hsplit⟩
    have haddresses := splitAddresses_eq_ok_iff.mp hsplit
    exact ⟨⟨key, addresses⟩, ofAccountData_eq_ok_iff.mpr ⟨hlong, rfl, haddresses⟩⟩

end

/-- Account data with some metadata in front of the addresses is read as the table of
these addresses. -/
theorem ofAccountData_append {metadata : Bytes} (hmetadata : metadata.length = metadataSize)
    (key : Address) (addresses : List Address) :
    ofAccountData key (metadata ++ addresses.flatMap Address.bytes) = .ok ⟨key, addresses⟩ := by
  rw [metadataSize] at hmetadata
  rw [ofAccountData_eq_ok_iff, List.length_append, hmetadata, List.drop_left' hmetadata]
  exact ⟨Nat.le_add_right 56 _, rfl, rfl⟩

/-! ## Entries -/

/-- The bytes at a place behind the metadata: 32 of them, or fewer where the data ends. -/
def entry (data : Bytes) (place : Nat) : Bytes :=
  (data.drop (56 + 32 * place)).take 32

/-- Of bytes without gaps, those at a place are the address that is listed there. -/
theorem take_drop_flatMap_eq_iff {addresses : List Address} {place : Nat} {address : Address} :
    ((addresses.flatMap Address.bytes).drop (32 * place)).take 32 = address.bytes ↔
      addresses[place]? = some address := by
  induction addresses generalizing place with
  | nil =>
      have hbytes : [] ≠ address.bytes := by
        intro hempty
        cases hempty ▸ address.length_bytes
      simp [hbytes]
  | cons head rest ih =>
      rw [List.flatMap_cons]
      cases place with
      | zero =>
          rw [Nat.mul_zero, List.drop_zero, List.take_left' head.length_bytes,
            List.getElem?_cons_zero, Option.some.injEq, Address.ext_iff]
      | succ place =>
          rw [Nat.mul_succ, Nat.add_comm, ← List.drop_drop, List.drop_left' head.length_bytes,
            List.getElem?_cons_succ, ih]

/-- The addresses of a table are the entries of the data it was read from. -/
theorem entry_eq_iff {key address : Address} {data : Bytes} {table : LookupTable} {place : Nat}
    (hread : ofAccountData key data = .ok table) :
    entry data place = address.bytes ↔ table.addresses[place]? = some address := by
  obtain ⟨-, -, haddresses⟩ := ofAccountData_eq_ok_iff.mp hread
  rw [entry, ← List.drop_drop, ← haddresses, take_drop_flatMap_eq_iff]

/-- An address is found at a place exactly when it is listed there and nowhere before. -/
theorem position?_eq_some_iff {table : LookupTable} {address : Address} {place : Nat} :
    table.position? address = some place ↔
      table.addresses[place]? = some address ∧
        ∀ earlier < place, table.addresses[earlier]? ≠ some address := by
  simp only [position?, List.idxOf?_eq_some_iff, ne_eq, List.getElem?_eq_some_iff]
  constructor
  · rintro ⟨hlt, hplace, hfirst⟩
    refine ⟨⟨hlt, hplace⟩, ?_⟩
    rintro earlier hearlier ⟨_, hsame⟩
    exact hfirst earlier hearlier hsame
  · rintro ⟨⟨hlt, hplace⟩, hfirst⟩
    exact ⟨hlt, hplace, fun earlier hearlier hsame => hfirst earlier hearlier ⟨_, hsame⟩⟩

/-- An address that is found within reach of a one-byte index is read at that index. -/
theorem get?_of_position? {table : LookupTable} {address : Address} {place : Nat}
    (hplace : table.position? address = some place) (hreach : place < 256) :
    table.get? (UInt8.ofNat place) = some address := by
  rw [get?, UInt8.toNat_ofNat_of_lt' hreach]
  exact (position?_eq_some_iff.mp hplace).1

/-- Account data is read as a table exactly when it holds the metadata and then whole
addresses, which are those of the table; other data is refused as too short for the metadata
or else for its last address.  The place at which the table has an address is that of the
first entry equal to it, and its index leads back to the address. -/
theorem account_data_read_exactly (key : Address) (data : Bytes) :
    ((∃ table, ofAccountData key data = .ok table) ↔
      56 ≤ data.length ∧ 32 ∣ data.length - 56) ∧
    (∀ table, ofAccountData key data = .ok table ↔
      56 ≤ data.length ∧ table.key = key ∧
        table.addresses.flatMap Address.bytes = data.drop 56) ∧
    (ofAccountData key data = .error .metadataTooShort ↔ data.length < 56) ∧
    (ofAccountData key data = .error .partialAddress ↔
      56 ≤ data.length ∧ ¬32 ∣ data.length - 56) ∧
    ∀ table, ofAccountData key data = .ok table → ∀ address place,
      (table.position? address = some place ↔
        entry data place = address.bytes ∧
          ∀ earlier < place, entry data earlier ≠ address.bytes) ∧
      (table.position? address = some place → place < 256 →
        table.get? (UInt8.ofNat place) = some address) := by
  refine ⟨ofAccountData_succeeds_iff, fun _ => ofAccountData_eq_ok_iff, ?_, ?_, ?_⟩
  · rw [ofAccountData_eq_error_iff]
    simp
  · rw [ofAccountData_eq_error_iff]
    simp
  · intro table hread address place
    refine ⟨?_, get?_of_position?⟩
    rw [position?_eq_some_iff]
    simp only [ne_eq, entry_eq_iff hread]

/-- Two entries that hold the address across their border, and behind them the address
twice.  It stands in the metadata as well, right in front of the first entry. -/
theorem account_data_read_exactly_across_entries :
    let half (byte : Byte) : Bytes := List.replicate 16 byte
    let address : Address := ⟨half 1 ++ half 2, by decide⟩
    let first : Address := ⟨half 0 ++ half 1, by decide⟩
    let second : Address := ⟨half 2 ++ half 3, by decide⟩
    let metadata : Bytes := List.replicate 24 9 ++ address.bytes
    let data : Bytes := metadata ++ [first, second, address, address].flatMap Address.bytes
    let table : LookupTable := ⟨.uniform 8, [first, second, address, address]⟩
    ofAccountData (.uniform 8) data = .ok table ∧ (data.drop 72).take 32 = address.bytes ∧
      table.position? address = some 2 ∧ table.get? 2 = some address ∧
      ofAccountData (.uniform 8) (data ++ [7]) = .error .partialAddress ∧
      ofAccountData (.uniform 8) metadata.dropLast = .error .metadataTooShort := by
  intro half address first second metadata data table
  obtain ⟨-, hok, -, -, hfound⟩ := account_data_read_exactly (.uniform 8) data
  have hread : ofAccountData (.uniform 8) data = .ok table := (hok table).mpr (by decide +kernel)
  obtain ⟨hplace, hget⟩ := hfound table hread address 2
  have hposition : table.position? address = some 2 := hplace.mpr (by decide)
  obtain ⟨-, -, -, hpartial, -⟩ := account_data_read_exactly (.uniform 8) (data ++ [7])
  obtain ⟨-, -, hshort, -, -⟩ := account_data_read_exactly (.uniform 8) metadata.dropLast
  exact ⟨hread, by decide, hposition, hget hposition (by decide),
    hpartial.mpr (by decide +kernel), hshort.mpr (by decide)⟩

end MultisigVault.LookupTable
