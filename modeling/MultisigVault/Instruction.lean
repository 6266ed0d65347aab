import MultisigVault.Wire.Codec

/-!
# Instructions

An instruction calls a program with a list of accounts and some data.  Each
account is named together with the privileges that the call needs.

Instructions have a plain wire form of their own, with four-byte counts.  It is
not the form in which a message stores them.
-/

namespace MultisigVault

/-- An account of an instruction and the privileges the instruction needs on it. -/
structure AccountMeta where
  address : Address
  isSigner : Bool
  isWritable : Bool
deriving DecidableEq, Repr

namespace AccountMeta

def writable (address : Address) (isSigner : Bool) : AccountMeta :=
  ⟨address, isSigner, true⟩

def readonly (address : Address) (isSigner : Bool) : AccountMeta :=
  ⟨address, isSigner, false⟩

def codec : Wire.Codec AccountMeta :=
  (Wire.Codec.address.pair (Wire.Codec.bool.pair Wire.Codec.bool)).via
    (fun fields => ⟨fields.1, fields.2.1, fields.2.2⟩)
    (fun account => (account.address, account.isSigner, account.isWritable))

end AccountMeta

structure Instruction where
  program : Address
  accounts : List AccountMeta
  data : Bytes
deriving DecidableEq, Repr

namespace Instruction

def codec : Wire.Codec Instruction :=
  (Wire.Codec.address.pair
      ((Wire.Codec.counted 4 AccountMeta.codec).pair (Wire.Codec.counted 4 Wire.Codec.byte))).via
    (fun fields => ⟨fields.1, fields.2.1, fields.2.2⟩)
    (fun instruction => (instruction.program, instruction.accounts, instruction.data))

end Instruction

end MultisigVault
