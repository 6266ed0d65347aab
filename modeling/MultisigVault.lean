import MultisigVault.Main
import MultisigVault.Proofs.CommandLine.Agreement
import MultisigVault.Proofs.CommandLine.Composition
import MultisigVault.Proofs.Compilation.AskedPrivileges
import MultisigVault.Proofs.Compilation.Exclusivity
import MultisigVault.Proofs.Compilation.Identity
import MultisigVault.Proofs.Compilation.Limits
import MultisigVault.Proofs.Compilation.RedundantTables
import MultisigVault.Proofs.Compilation.Renaming
import MultisigVault.Proofs.Compilation.StaticLayout
import MultisigVault.Proofs.Compilation.Storability
import MultisigVault.Proofs.Compilation.StoredSize
import MultisigVault.Proofs.Compilation.TableOrder
import MultisigVault.Proofs.Derivation.LargestBump
import MultisigVault.Proofs.Derivation.Separation
import MultisigVault.Proofs.Execution.Interchange
import MultisigVault.Proofs.Execution.Recompiling
import MultisigVault.Proofs.Execution.Retrying
import MultisigVault.Proofs.Instruction.PlainForm
import MultisigVault.Proofs.Message.Blocks
import MultisigVault.Proofs.Message.Boundaries
import MultisigVault.Proofs.Message.LengthLimits
import MultisigVault.Proofs.Resolution.FirstProblem
import MultisigVault.Proofs.Resolution.Growth
import MultisigVault.Proofs.Resolution.IndexOrder
import MultisigVault.Proofs.Resolution.Privileges
import MultisigVault.Proofs.Resolution.Signatures
import MultisigVault.Proofs.Roster.Session
import MultisigVault.Proofs.Wire.Nesting
