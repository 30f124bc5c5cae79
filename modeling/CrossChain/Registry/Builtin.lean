import CrossChain.Registry.Basic
/-! The chains that are known from the start. -/
namespace CrossChain.Registry

def builtinChains : List Chain :=
  [⟨5009297550715157269, .evm, "ethereum-mainnet", false⟩,
    ⟨4949039107694359620, .evm, "ethereum-mainnet-arbitrum-1", false⟩,
    ⟨3734403246176062136, .evm, "ethereum-mainnet-optimism-1", false⟩,
    ⟨15971525489660198786, .evm, "ethereum-mainnet-base-1", false⟩,
    ⟨6433500567565415381, .evm, "avalanche-mainnet", false⟩,
    ⟨11344663589394136015, .evm, "binance_smart_chain-mainnet", false⟩,
    ⟨4051577828743386545, .evm, "polygon-mainnet", false⟩,
    ⟨16015286601757825753, .evm, "ethereum-testnet-sepolia", true⟩,
    ⟨3478487238524512106, .evm, "ethereum-testnet-sepolia-arbitrum-1", true⟩,
    ⟨10344971235874465080, .evm, "ethereum-testnet-sepolia-base-1", true⟩,
    ⟨14767482510784806043, .evm, "avalanche-testnet-fuji", true⟩,
    ⟨124615329519749607, .svm, "solana-mainnet", false⟩,
    ⟨16423721717087811551, .svm, "solana-devnet", true⟩,
    ⟨4741433654826277614, .aptos, "aptos-mainnet", false⟩,
    ⟨743186221051783445, .aptos, "aptos-testnet", true⟩,
    ⟨17529533435026248318, .sui, "sui-mainnet", false⟩,
    ⟨9762610643973837292, .sui, "sui-testnet", true⟩,
    ⟨16448340667252469081, .ton, "ton-mainnet", false⟩,
    ⟨1399300952838017768, .ton, "ton-testnet", true⟩]

theorem builtinChains_valid : Valid builtinChains where
  names_nonempty := by decide
  selectors_nodup := by decide
  names_nodup := by decide

def builtin : Registry :=
  ⟨builtinChains, .ofChains builtinChains, builtinChains_valid,
    Indexes.points_ofChains builtinChains_valid⟩

end CrossChain.Registry
