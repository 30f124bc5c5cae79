import CrossChain.Abi
import CrossChain.Address.Basic
import CrossChain.Address.Text
import CrossChain.Address.Ton
import CrossChain.Ascending
import CrossChain.Batch
import CrossChain.Bcs.Cursor
import CrossChain.Bcs.Item
import CrossChain.Bcs.Reader
import CrossChain.Bcs.Writer
import CrossChain.Borsh
import CrossChain.Bytes
import CrossChain.Bytes.Lemmas
import CrossChain.Crc16
import CrossChain.Decimal.Shortest
import CrossChain.Decoder
import CrossChain.Error
import CrossChain.Event.Basic
import CrossChain.Event.Reader
import CrossChain.ExtraArgs.Basic
import CrossChain.ExtraArgs.Body
import CrossChain.ExtraArgs.Codec
import CrossChain.ExtraArgs.Request
import CrossChain.Family
import CrossChain.Hashed
import CrossChain.Json.Loose
import CrossChain.Json.Record
import CrossChain.Json.Source
import CrossChain.Json.Value
import CrossChain.Keccak
import CrossChain.Lane
import CrossChain.Leaf.Content
import CrossChain.Leaf.Hash
import CrossChain.Leaf.Layout
import CrossChain.Leaf.Scheme
import CrossChain.Merkle.Multiproof
import CrossChain.Merkle.Tree
import CrossChain.Message.Basic
import CrossChain.Message.OfEvent
import CrossChain.Proofs.Address.Burst
import CrossChain.Proofs.Address.Corrupted
import CrossChain.Proofs.Address.Display
import CrossChain.Proofs.Address.Family
import CrossChain.Proofs.Address.Friendly
import CrossChain.Proofs.Address.Spelling
import CrossChain.Proofs.Ascending
import CrossChain.Proofs.Batch.Completeness
import CrossChain.Proofs.Batch.Order
import CrossChain.Proofs.Batch.Selection
import CrossChain.Proofs.Batch.Soundness
import CrossChain.Proofs.Batch.Targets
import CrossChain.Proofs.Codec.Abi
import CrossChain.Proofs.Codec.AbiDecoder
import CrossChain.Proofs.Codec.AbiTuple
import CrossChain.Proofs.Codec.Bcs
import CrossChain.Proofs.Codec.BcsCanonical
import CrossChain.Proofs.Codec.BcsLength
import CrossChain.Proofs.Codec.BcsPosition
import CrossChain.Proofs.Codec.Decoder
import CrossChain.Proofs.Codec.Fixed
import CrossChain.Proofs.Crc16
import CrossChain.Proofs.Event.Restated
import CrossChain.Proofs.ExtraArgs.AbiBody
import CrossChain.Proofs.ExtraArgs.Bodies
import CrossChain.Proofs.ExtraArgs.Disjoint
import CrossChain.Proofs.ExtraArgs.Distances
import CrossChain.Proofs.ExtraArgs.EvmSolanaOrigin
import CrossChain.Proofs.ExtraArgs.Exclusive
import CrossChain.Proofs.ExtraArgs.Image
import CrossChain.Proofs.ExtraArgs.MoveOrigin
import CrossChain.Proofs.ExtraArgs.RequestedGas
import CrossChain.Proofs.ExtraArgs.Supplied
import CrossChain.Proofs.ExtraArgs.TokenReceiver
import CrossChain.Proofs.Hashing
import CrossChain.Proofs.Json.Integer
import CrossChain.Proofs.Json.Record
import CrossChain.Proofs.Json.Spelling
import CrossChain.Proofs.Json.Width
import CrossChain.Proofs.Leaf.Binding
import CrossChain.Proofs.Leaf.Commitment
import CrossChain.Proofs.Leaf.Failure
import CrossChain.Proofs.Leaf.Injective
import CrossChain.Proofs.Leaf.Preimage
import CrossChain.Proofs.Leaf.Totality
import CrossChain.Proofs.Leaf.Views
import CrossChain.Proofs.Merkle.Acceptance
import CrossChain.Proofs.Merkle.Climb
import CrossChain.Proofs.Merkle.Completeness
import CrossChain.Proofs.Merkle.Derivation
import CrossChain.Proofs.Merkle.Inclusion
import CrossChain.Proofs.Merkle.Path
import CrossChain.Proofs.Merkle.Prefix
import CrossChain.Proofs.Merkle.Root
import CrossChain.Proofs.Message.Canonical
import CrossChain.Proofs.Message.Hashable
import CrossChain.Proofs.Message.Presentation
import CrossChain.Proofs.Registry.Layering
import CrossChain.Proofs.Registry.Lookup
import CrossChain.Proofs.Text.Base58
import CrossChain.Proofs.Text.Base64
import CrossChain.Proofs.Text.Hex
import CrossChain.Proofs.Text.Numeral
import CrossChain.Proofs.Text.Plain
import CrossChain.Proofs.Text.Sextets
import CrossChain.Registry.Basic
import CrossChain.Registry.Builtin
import CrossChain.Registry.Environment
import CrossChain.Registry.Index
import CrossChain.Registry.Text
import CrossChain.Text.Base58
import CrossChain.Text.Base64
import CrossChain.Text.Blank
import CrossChain.Text.Hex
import CrossChain.Text.Numeral
import CrossChain.Text.Position
import CrossChain.Text.Printable
import CrossChain.Text.Quoted
import CrossChain.Version
