import CrossChain.Proofs.Codec.Abi
import CrossChain.Proofs.Codec.Decoder
/-! What the ABI decoders take. Each reads the value that the bytes in front of it were written
from, as long as every length fits a word; the distances in between are only passed over. -/
namespace CrossChain.Abi.Decoder

open CrossChain.Decoder (Reads)

theorem reads_natural {n : Nat} (h : n < 2 ^ 256) : Reads natural (word n) n := by
  have hpow : 2 ^ 256 = 256 ^ 32 := by norm_num
  have hread := (CrossChain.Decoder.reads_take (length_word n)).bind_pure Bytes.toNatBE
  rwa [word, Bytes.toNatBE_ofNatBE, Nat.mod_eq_of_lt (hpow ▸ h)] at hread

theorem reads_uint {bits n : Nat} (h : n < 2 ^ bits) (hbits : bits ≤ 256) :
    Reads (uint bits) (word n) n := by
  have hword : n < 2 ^ 256 := h.trans_le (Nat.pow_le_pow_right two_pos hbits)
  have hcheck : Reads (if n < 1 <<< bits then pure n else CrossChain.Decoder.fail) [] n := by
    rw [if_pos (by rwa [Nat.one_shiftLeft])]
    exact Reads.pure n
  have hread : Reads (uint bits) (word n ++ []) n := (reads_natural hword).bind hcheck
  rwa [List.append_nil] at hread

theorem reads_bool (b : Bool) : Reads bool (Abi.bool b) b := by
  cases b
  · exact (reads_natural (by decide : 0 < 2 ^ 256)).bind (Reads.pure false)
  · exact (reads_natural (by decide : 1 < 2 ^ 256)).bind (Reads.pure true)

/-- Distances are passed over, whatever they say. -/
theorem reads_offsets {count : Nat} {bs : Bytes} (h : bs.length = 32 * count) :
    Reads (offsets count) bs () :=
  (CrossChain.Decoder.reads_take h).bind_pure fun _ => ()

theorem reads_bytes {bs : Bytes} (h : bs.length < 2 ^ 256) : Reads bytes (Abi.bytes bs) bs :=
  (reads_natural h).bind <| (CrossChain.Decoder.reads_take rfl).bind <|
    (CrossChain.Decoder.reads_take (List.length_replicate ..)).bind_pure fun _ => bs

theorem reads_words {ws : List Bytes32} (h : ws.length < 2 ^ 256) :
    Reads words (Abi.words ws) ws := by
  rw [words_eq]
  exact (reads_natural h).bind (CrossChain.Decoder.reads_words ws)

/-- Items are written one behind the other, so no distance is needed to find them. -/
theorem reads_bytesList {items : List Bytes}
    (h : items.length < 2 ^ 256 ∧ ∀ bs ∈ items, bs.length < 2 ^ 256) :
    Reads bytesList (Abi.bytesList items) items := by
  have hoffsets : ∀ offset, Reads (offsets items.length)
      (heads offset (items.map fun bs => .dynamic (Abi.bytes bs))) () := fun offset =>
    reads_offsets (by rw [length_heads, headsLength_dynamic])
  have hitems : Reads (bytes.many items.length) (items.flatMap Abi.bytes) items := by
    rw [List.flatMap_def]
    apply CrossChain.Decoder.reads_many
    rw [List.forall₂_map_right_iff, List.forall₂_same]
    exact fun bs hbs => reads_bytes (h.2 bs hbs)
  rw [Abi.bytesList, array, List.length_map, tuple, tails_dynamic]
  exact (reads_natural h.1).bind ((hoffsets _).bind hitems)

end CrossChain.Abi.Decoder
