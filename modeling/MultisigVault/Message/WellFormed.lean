import MultisigVault.Message.Basic

/-!
# Well-formed messages

A message read from storage is used only when its counts describe its static
keys and every index names an address.  The first rule that fails is reported.
-/

namespace MultisigVault

inductive FormError where
  | indexOutOfBounds
  | valueOutOfBounds
  | duplicateAccount
deriving DecidableEq, Repr

def FormError.message : FormError → String
  | .indexOutOfBounds => "index out of bounds"
  | .valueOutOfBounds => "value out of bounds"
  | .duplicateAccount => "duplicate accounts detected"

/-- Whether all indexes of an instruction are below `count`. -/
def CompiledInstruction.isWithin (instruction : CompiledInstruction) (count : Nat) : Bool :=
  instruction.programIndex.toNat < count &&
    instruction.accountIndexes.all fun index => index.toNat < count

namespace Message

/-- The first rule of a well-formed message that this one breaks. -/
def checkForm (message : Message) : Except FormError Unit :=
  if message.signers < message.writableSigners then
    .error .valueOutOfBounds
  else if message.staticKeys.length <
      message.signers.toNat + message.writableNonSigners.toNat then
    .error .valueOutOfBounds
  else if ¬message.staticKeys.Nodup then
    .error .duplicateAccount
  else if capacity < message.keyCount then
    .error .valueOutOfBounds
  else if !message.instructions.all (·.isWithin message.keyCount) then
    .error .indexOutOfBounds
  else
    .ok ()

end Message

end MultisigVault
