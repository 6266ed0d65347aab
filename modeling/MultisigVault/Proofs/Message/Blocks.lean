import MultisigVault.Proofs.Message.Form
import MultisigVault.Proofs.Message.StoredForm

/-!
# The four blocks of static keys

A message stores how many keys sign, how many of these are writable and how many others
are.  The sizes of the two readonly blocks are what remains, by subtractions that stop at
zero.  The form check enforces just the two rules under which nothing is cut off: then the
four sizes make up the static keys, and the flags of a place are those of its block.
-/

namespace MultisigVault.Message

/-- The number of static keys with the given privileges, as a message tells it. -/
def blockSize (message : Message) : (isSigner isWritable : Bool) → Nat
  | true, true => message.writableSigners.toNat
  | true, false => message.readonlySigners
  | false, true => message.writableNonSigners.toNat
  | false, false => message.readonlyNonSigners

/-- The first place of a block, which is behind all blocks before it. -/
def blockStart (message : Message) : (isSigner isWritable : Bool) → Nat
  | true, true => 0
  | true, false => message.blockSize true true
  | false, true => message.blockSize true true + message.blockSize true false
  | false, false =>
      message.blockSize true true + message.blockSize true false + message.blockSize false true

/-- The places of the static keys with the given privileges. -/
def blockPlaces (message : Message) (isSigner isWritable : Bool) : List Nat :=
  List.range' (message.blockStart isSigner isWritable) (message.blockSize isSigner isWritable)

/-- Whether the sizes that a message stores, those that follow from them, and the flags of
each place describe one division of the static keys into four blocks. -/
structure DescribesBlocks (message : Message) : Prop where
  places : List.range message.staticKeys.length =
    message.blockPlaces true true ++ message.blockPlaces true false ++
      message.blockPlaces false true ++ message.blockPlaces false false
  sizes : message.blockSize true true + message.blockSize true false +
    message.blockSize false true + message.blockSize false false = message.staticKeys.length
  signer_iff : ∀ index, message.isSignerIndex index = true ↔
    index ∈ message.blockPlaces true true ∨ index ∈ message.blockPlaces true false
  writable_iff : ∀ index, message.isWritableIndex index = true ↔
    index ∈ message.blockPlaces true true ∨ index ∈ message.blockPlaces false true
  past_end : ∀ index, message.staticKeys.length ≤ index →
    message.isSignerIndex index = false ∧ message.isWritableIndex index = false

section

variable {message : Message}

theorem mem_blockPlaces_iff {isSigner isWritable : Bool} {index : Nat} :
    index ∈ message.blockPlaces isSigner isWritable ↔
      message.blockStart isSigner isWritable ≤ index ∧
        index < message.blockStart isSigner isWritable + message.blockSize isSigner isWritable :=
  List.mem_range'_1

/-- The rules on the stored sizes hold exactly when no subtraction cuts anything off. -/
theorem sum_blockSizes_eq_iff :
    message.blockSize true true + message.blockSize true false +
        message.blockSize false true + message.blockSize false false =
      message.staticKeys.length ↔
    message.writableSigners.toNat ≤ message.signers.toNat ∧
      message.signers.toNat + message.writableNonSigners.toNat ≤ message.staticKeys.length := by
  simp only [blockSize, readonlySigners, readonlyNonSigners]
  omega

/-- Blocks that make up the static keys do so one after the other. -/
theorem range_eq_blockPlaces
    (hsizes : message.blockSize true true + message.blockSize true false +
      message.blockSize false true + message.blockSize false false =
        message.staticKeys.length) :
    List.range message.staticKeys.length =
      message.blockPlaces true true ++ message.blockPlaces true false ++
        message.blockPlaces false true ++ message.blockPlaces false false := by
  have hjoin (first second : Nat) :
      List.range' 0 first ++ List.range' first second = List.range' 0 (first + second) := by
    rw [← List.range'_append_1, Nat.zero_add]
  simp only [blockPlaces, blockStart, hjoin, hsizes, List.range_eq_range']

/-- The rules on the stored sizes are all that the description of the blocks needs, and
it needs both. -/
theorem describesBlocks_iff :
    message.DescribesBlocks ↔
      message.writableSigners.toNat ≤ message.signers.toNat ∧
        message.signers.toNat + message.writableNonSigners.toNat ≤
          message.staticKeys.length := by
  constructor
  · intro hblocks
    exact sum_blockSizes_eq_iff.mp hblocks.sizes
  · intro hrules
    have hsizes := sum_blockSizes_eq_iff.mpr hrules
    obtain ⟨hsigners, hcounts⟩ := hrules
    exact
      { places := range_eq_blockPlaces hsizes
        sizes := hsizes
        signer_iff := by
          intro index
          simp only [mem_blockPlaces_iff, blockStart, blockSize, readonlySigners, isSignerIndex,
            decide_eq_true_eq]
          omega
        writable_iff := by
          intro index
          simp only [mem_blockPlaces_iff, blockStart, blockSize, readonlySigners,
            isWritableIndex, Bool.and_eq_true, Bool.or_eq_true, decide_eq_true_eq]
          omega
        past_end := by
          intro index hpast
          simp only [isSignerIndex, isWritableIndex, Bool.and_eq_false_iff, decide_eq_false_iff_not]
          omega }

end

/-- In a well-formed message, and so in every message that is loaded, the sizes describe
the static keys exactly: the places of the keys are four consecutive blocks of the stored
and the derived sizes, the flags of a place tell its block, and no place past the keys has
a flag. -/
theorem checkForm_describes_blocks :
    (∀ message : Message, message.checkForm = .ok () → message.DescribesBlocks) ∧
    ∀ (bytes : Bytes) (message : Message), load bytes = .ok message → message.DescribesBlocks := by
  have hform (message : Message) (hchecked : message.checkForm = .ok ()) :
      message.DescribesBlocks := by
    have hrules := checkForm_eq_ok_iff.mp hchecked
    exact describesBlocks_iff.mpr ⟨hrules.writableSigners_le, hrules.counts_le⟩
  refine ⟨hform, ?_⟩
  intro bytes message hload
  exact hform message (load_eq_ok_iff.mp hload).2

/-- Six keys, of which the first three sign and the first and the fourth are writable.  The
sizes describe them also if an instruction has too many accounts for the message to be
stored, so that it is never loaded. -/
theorem checkForm_describes_blocks_six_keys :
    let message : Message :=
      ⟨3, 1, 1, [.uniform 1, .uniform 2, .uniform 3, .uniform 4, .uniform 5, .uniform 6], [], []⟩
    let bytes : Bytes :=
      [3, 1, 1, 6] ++ [1, 2, 3, 4, 5, 6].flatMap (List.replicate 32) ++ [0, 0]
    let unstorable : Message :=
      { message with instructions := [⟨0, List.replicate 256 5, []⟩] }
    load bytes = .ok message ∧ message.DescribesBlocks ∧
      message.blockPlaces true true = [0] ∧ message.blockPlaces true false = [1, 2] ∧
      message.blockPlaces false true = [3] ∧ message.blockPlaces false false = [4, 5] ∧
      unstorable.checkForm = .ok () ∧ unstorable.DescribesBlocks := by
  intro message bytes unstorable
  have hload : load bytes = .ok message := by decide +kernel
  have hform : unstorable.checkForm = .ok () := by decide +kernel
  exact ⟨hload, checkForm_describes_blocks.2 bytes message hload, rfl, rfl, rfl, rfl, hform,
    checkForm_describes_blocks.1 unstorable hform⟩

end MultisigVault.Message
