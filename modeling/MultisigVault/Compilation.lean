import MultisigVault.Roster

/-!
# Compiling instructions into a message

The roster of the instructions is offered to the lookup tables one after the
other; a key that several tables hold goes to the first of them.  What is left
becomes the static keys, and every reference is replaced by the position of its
address in the combined list.
-/

namespace MultisigVault

namespace Roster

/-- Offers the roster to the tables in order.  Returns the lookups, the addresses
each of them loads, and what remains of the roster. -/
def extractAll (roster : Roster) : List LookupTable →
    Except CompileError (List (TableLookup × LoadedAddresses) × Roster)
  | [] => .ok ([], roster)
  | table :: rest => do
      let (extracted, roster) ← roster.extract table
      let (lookups, roster) ← roster.extractAll rest
      return (extracted.toList ++ lookups, roster)

end Roster

namespace CompiledInstruction

/-- The addresses of the combined list with their positions, last position first:
where an address stands twice, the later position hides the earlier one. -/
def positions (keys : List Address) : List (Address × Nat) :=
  keys.zipIdx.reverse

/-- The position of an address in the combined list, as one byte. -/
def indexIn (keys : List Address) (key : Address) : Except CompileError Byte :=
  match (positions keys).lookup key with
  | some index => .ok (UInt8.ofNat index)
  | none => .error (.unknownKey key)

/-- Replaces the addresses of an instruction by their positions. -/
def ofInstruction (keys : List Address) (instruction : Instruction) :
    Except CompileError CompiledInstruction := do
  let accountIndexes ← instruction.accounts.mapM fun account => indexIn keys account.address
  let programIndex ← indexIn keys instruction.program
  return ⟨programIndex, accountIndexes, instruction.data⟩

end CompiledInstruction

namespace Message

/-- Compiles instructions into a message that `vault` executes. -/
def compile (vault : Address) (instructions : List Instruction) (tables : List LookupTable) :
    Except CompileError Message := do
  let (extracted, roster) ← (Roster.ofInstructions vault instructions).extractAll tables
  let (header, staticKeys) ← roster.layout
  let loaded := LoadedAddresses.concat (extracted.map Prod.snd)
  if capacity < staticKeys.length + loaded.length then
    throw .tooManyKeys
  let instructions ←
    instructions.mapM (CompiledInstruction.ofInstruction (staticKeys ++ loaded.toList))
  let writableNonSigners ← Roster.byteSize
    (staticKeys.length - header.signers.toNat - header.readonlyNonSigners.toNat)
  return {
    signers := header.signers
    writableSigners := UInt8.ofNat (header.signers.toNat - header.readonlySigners.toNat)
    writableNonSigners := writableNonSigners
    staticKeys := staticKeys
    instructions := instructions
    lookups := extracted.map Prod.fst }

end Message

end MultisigVault
