import MultisigVault.Address

/-!
# Address lookup tables

A lookup table is an account that stores addresses, so that a message can name
one of them by a single byte.  The account data holds 56 bytes of metadata and
then the addresses without gaps.
-/

namespace MultisigVault

structure LookupTable where
  key : Address
  addresses : List Address
deriving DecidableEq, Repr

/-- Account data that is no lookup table. -/
inductive LookupTableError where
  /-- The data ends within the metadata. -/
  | metadataTooShort
  /-- The last address is incomplete. -/
  | partialAddress
deriving DecidableEq, Repr

def LookupTableError.message : LookupTableError → String
  | .metadataTooShort => "lookup table account data is shorter than its metadata"
  | .partialAddress => "lookup table account data has a trailing partial address"

namespace LookupTable

/-- Number of bytes in front of the addresses. -/
def metadataSize : Nat := 56

/-- Splits bytes into addresses, unless some bytes are left over. -/
def splitAddresses : Bytes → Except LookupTableError (List Address)
  | [] => .ok []
  | head :: tail =>
      if hlength : (tail.take 31).length = 31 then do
        let rest ← splitAddresses (tail.drop 31)
        return ⟨head :: tail.take 31, by simp [hlength]⟩ :: rest
      else
        .error .partialAddress
termination_by bytes => bytes.length
decreasing_by
  simp only [List.length_drop, List.length_cons]
  omega

/-- Reads the table stored in the data of the account `key`. -/
def ofAccountData (key : Address) (data : Bytes) : Except LookupTableError LookupTable :=
  if data.length < metadataSize then
    .error .metadataTooShort
  else
    (splitAddresses (data.drop metadataSize)).map fun addresses => ⟨key, addresses⟩

/-- Index of the first occurrence of an address in the table. -/
def position? (table : LookupTable) (address : Address) : Option Nat :=
  table.addresses.idxOf? address

/-- Address at an index, if the table is that long. -/
def get? (table : LookupTable) (index : Byte) : Option Address :=
  table.addresses[index.toNat]?

end LookupTable

/-- Addresses that a message takes from lookup tables, in the order in which they
are numbered. -/
structure LoadedAddresses where
  writable : List Address
  readonly : List Address
deriving DecidableEq, Repr

namespace LoadedAddresses

/-- Joins the addresses of several lookups, all writable ones first. -/
def concat (groups : List LoadedAddresses) : LoadedAddresses :=
  ⟨groups.flatMap writable, groups.flatMap readonly⟩

def length (loaded : LoadedAddresses) : Nat :=
  loaded.writable.length + loaded.readonly.length

def isEmpty (loaded : LoadedAddresses) : Bool :=
  loaded.writable.isEmpty && loaded.readonly.isEmpty

/-- All addresses, the writable ones first. -/
def toList (loaded : LoadedAddresses) : List Address :=
  loaded.writable ++ loaded.readonly

end LoadedAddresses

end MultisigVault
