import MultisigVault.Proofs.CommandLine.Printing
import MultisigVault.Proofs.Outcome

/-!
# What deriving prints

Deriving goes through the steps of the configuration one by one.  The addresses it prints
are those that the configuration itself has for its vault and its transaction.
-/

namespace MultisigVault

open Outcome

theorem DerivationScheme.length_of_ephemeralSigners {scheme : DerivationScheme}
    {transaction program : Address} {count : Byte} {signers : List Address}
    (hsigners : scheme.ephemeralSigners transaction count program = .ok signers) :
    signers.length = count.toNat := by
  rw [ephemeralSigners, mapM_eq_ok_iff] at hsigners
  rw [← hsigners.length_eq, List.length_range]

theorem Config.transaction_eq_ok_iff {config : Config} {index : UInt64} {address : Address} :
    config.transaction index = .ok address ↔
      ∃ multisig, config.requireMultisig = .ok multisig ∧
        (DerivationScheme.standard.transaction multisig index config.program).map Prod.fst =
          .ok address := by
  simp only [transaction, bind_eq_ok_iff, mapError_eq_ok_iff, map_eq_ok_iff, Prod.exists,
    pure_eq_ok, Except.ok.injEq]

namespace CommandLine

variable {config : Config} {options : DeriveOptions} {derived : DerivedAddresses}

/-- The configured vault is printed, and with the index of a transaction this transaction
and its signers are. -/
theorem derive_cases (hderive : derive config options = .ok derived) :
    config.vault = .ok derived.vault ∧
      ((options.transactionIndex = none ∧ derived.transaction = none ∧
          derived.ephemeralSigners = []) ∨
        ∃ index transaction, options.transactionIndex = some index ∧
          derived.transaction = some transaction ∧
          config.transaction index = .ok transaction ∧
          DerivationScheme.standard.ephemeralSigners transaction options.ephemeralSigners
            config.program = .ok derived.ephemeralSigners) := by
  rw [derive] at hderive
  obtain ⟨multisig, hmultisig, hderive⟩ := bind_eq_ok_iff.mp hderive
  obtain ⟨transaction, htransaction, hderive⟩ := bind_eq_ok_iff.mp hderive
  cases hindex : options.transactionIndex with
  | none =>
      rw [hindex] at htransaction
      cases htransaction
      obtain ⟨signers, hsigners, hderive⟩ := bind_eq_ok_iff.mp hderive
      obtain ⟨vault, hvault, hderive⟩ := bind_eq_ok_iff.mp hderive
      cases hsigners
      cases hderive
      exact ⟨mapError_eq_ok_iff.mp hvault, .inl ⟨rfl, rfl, rfl⟩⟩
  | some index =>
      rw [hindex] at htransaction
      obtain ⟨address, haddress, hpure⟩ := bind_eq_ok_iff.mp htransaction
      cases hpure
      obtain ⟨signers, hsigners, hderive⟩ := bind_eq_ok_iff.mp hderive
      obtain ⟨vault, hvault, hderive⟩ := bind_eq_ok_iff.mp hderive
      cases hderive
      have hstored : config.transaction index = .ok address :=
        Config.transaction_eq_ok_iff.mpr
          ⟨multisig, mapError_eq_ok_iff.mp hmultisig, mapError_eq_ok_iff.mp haddress⟩
      exact ⟨mapError_eq_ok_iff.mp hvault,
        .inr ⟨index, address, rfl, rfl, hstored, mapError_eq_ok_iff.mp hsigners⟩⟩

theorem run_derive_eq_ok_iff {files : Files} {settings : Settings} {output : String} :
    run files ⟨settings, .derive options⟩ = .ok output ↔
      ∃ config derived, settings.configuration files = .ok config ∧
        derive config options = .ok derived ∧ output = written derived.toJson := by
  simp only [run, bind_eq_ok_iff, pure_eq_ok, Except.ok.injEq]
  constructor
  · rintro ⟨config, hconfig, derived, hderive, rfl⟩
    exact ⟨config, derived, hconfig, hderive, rfl⟩
  · rintro ⟨config, derived, hconfig, hderive, rfl⟩
    exact ⟨config, hconfig, derived, hderive, rfl⟩

end CommandLine

end MultisigVault
