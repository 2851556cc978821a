import BlobVault.Backend.Folder
import BlobVault.Backend.Rig
import BlobVault.Backend.Shelf
import BlobVault.Backend.Storage
import BlobVault.Bytes
import BlobVault.Catalog.Documents
import BlobVault.Catalog.Record
import BlobVault.Catalog.Store
import BlobVault.Cipher.Aes
import BlobVault.Cipher.Counter
import BlobVault.Clock
import BlobVault.Codec
import BlobVault.Config
import BlobVault.DataKey
import BlobVault.Digest.Crc32
import BlobVault.Digest.Sha256
import BlobVault.Document.Content
import BlobVault.Document.Shape
import BlobVault.Entropy
import BlobVault.Fault
import BlobVault.Files.Tree
import BlobVault.Files.Upload
import BlobVault.Gzip.Deflate
import BlobVault.Gzip.Format
import BlobVault.Gzip.Huffman
import BlobVault.Gzip.Inflate
import BlobVault.Gzip.Member
import BlobVault.Gzip.Parse
import BlobVault.Json.Cursor
import BlobVault.Json.Fault
import BlobVault.Json.Read
import BlobVault.Json.Token
import BlobVault.Json.Write
import BlobVault.KeyRing
import BlobVault.Keys.Der
import BlobVault.Keys.Generate
import BlobVault.Keys.Key
import BlobVault.Keys.Oaep
import BlobVault.Keys.Pem
import BlobVault.Number.Binary64
import BlobVault.Number.Duration
import BlobVault.Number.Modular
import BlobVault.Number.Shortest
import BlobVault.OrderedMap
import BlobVault.Proofs.Catalog.Bookkeeping
import BlobVault.Proofs.Catalog.Commits
import BlobVault.Proofs.Catalog.Confirmations
import BlobVault.Proofs.Catalog.Descriptor
import BlobVault.Proofs.Catalog.Records
import BlobVault.Proofs.Catalog.RefText
import BlobVault.Proofs.Cipher.Counter
import BlobVault.Proofs.Codec.Decoding
import BlobVault.Proofs.Codec.RoundTrip
import BlobVault.Proofs.Codec.Threshold
import BlobVault.Proofs.Config.Startup
import BlobVault.Proofs.Digest.Crc32
import BlobVault.Proofs.Digest.Remainder
import BlobVault.Proofs.Digest.Sha256
import BlobVault.Proofs.Files.Upload
import BlobVault.Proofs.Gzip.FixedCode
import BlobVault.Proofs.History
import BlobVault.Proofs.Json.Objects
import BlobVault.Proofs.Keys.Recall
import BlobVault.Proofs.Keys.Recency
import BlobVault.Proofs.Keys.Resolution
import BlobVault.Proofs.Keys.Revocation
import BlobVault.Proofs.Keys.Ring
import BlobVault.Proofs.Keys.Sharing
import BlobVault.Proofs.Keys.Wrapping
import BlobVault.Proofs.Number.Modular
import BlobVault.Proofs.Number.Rounding
import BlobVault.Proofs.OrderedMap
import BlobVault.Proofs.Replication.Accounting
import BlobVault.Proofs.Replication.Batch
import BlobVault.Proofs.Replication.Cancellation
import BlobVault.Proofs.Replication.Discovery
import BlobVault.Proofs.Replication.Draining
import BlobVault.Proofs.Replication.Interleaving
import BlobVault.Proofs.Replication.Start
import BlobVault.Proofs.Scrub.Ascent
import BlobVault.Proofs.Scrub.Checkpoints
import BlobVault.Proofs.Scrub.Control
import BlobVault.Proofs.Scrub.Coverage
import BlobVault.Proofs.Scrub.Pass
import BlobVault.Proofs.Scrub.Progress
import BlobVault.Proofs.Scrub.Replies
import BlobVault.Proofs.Scrub.Report
import BlobVault.Proofs.Scrub.Resumption
import BlobVault.Proofs.Scrub.Steps
import BlobVault.Proofs.Scrub.Table
import BlobVault.Proofs.Simulation.Upkeep
import BlobVault.Proofs.Storage.Confinement
import BlobVault.Proofs.Storage.Denotation
import BlobVault.Proofs.Storage.Descriptors
import BlobVault.Proofs.Storage.Effects
import BlobVault.Proofs.Storage.Likeness
import BlobVault.Proofs.Storage.Objects
import BlobVault.Proofs.Storage.Publishing
import BlobVault.Proofs.Storage.Service
import BlobVault.Proofs.Storage.Stamping
import BlobVault.Proofs.Stream.Content
import BlobVault.Proofs.Stream.Reading
import BlobVault.Proofs.Stream.Schedule
import BlobVault.Proofs.Stream.Verifying
import BlobVault.Proofs.Text.Hex
import BlobVault.Proofs.Text.Uuid
import BlobVault.Proofs.Vault.Agreement
import BlobVault.Proofs.Vault.Configured
import BlobVault.Proofs.Vault.CopyAtomicity
import BlobVault.Proofs.Vault.Copying
import BlobVault.Proofs.Vault.Corruption
import BlobVault.Proofs.Vault.Filing
import BlobVault.Proofs.Vault.Identity
import BlobVault.Proofs.Vault.Keystream
import BlobVault.Proofs.Vault.Mounting
import BlobVault.Proofs.Vault.Objects
import BlobVault.Proofs.Vault.Preparation
import BlobVault.Proofs.Vault.Reached
import BlobVault.Proofs.Vault.Rotation
import BlobVault.Proofs.Vault.Secrets
import BlobVault.Proofs.Vault.Selection
import BlobVault.Proofs.Vault.Transfer
import BlobVault.Proofs.Vault.Verification
import BlobVault.Proofs.Vault.Write
import BlobVault.Proofs.Vault.WriteAtomicity
import BlobVault.Proofs.Vault.WriteRace
import BlobVault.Proofs.Yaml.Shapes
import BlobVault.Ref
import BlobVault.Replication.Discovery
import BlobVault.Replication.Run
import BlobVault.Scrub.Controller
import BlobVault.Scrub.Report
import BlobVault.Scrub.Scan
import BlobVault.Settings
import BlobVault.Simulation.Basic
import BlobVault.Simulation.Request
import BlobVault.Simulation.Wait
import BlobVault.Stream
import BlobVault.Text.Base64
import BlobVault.Text.Hex
import BlobVault.Text.Quoted
import BlobVault.Text.Utf8
import BlobVault.Text.Visible
import BlobVault.Timestamp
import BlobVault.Uuid
import BlobVault.Vault.Basic
import BlobVault.Vault.Mounting
import BlobVault.Vault.Transfer
import BlobVault.Vault.Write
import BlobVault.Verified
import BlobVault.Yaml.Cursor
import BlobVault.Yaml.Node
import BlobVault.Yaml.Read
import BlobVault.Yaml.Scalar
import BlobVault.Yaml.Token
import BlobVault.Yaml.Typed
import BlobVault.Yaml.Write
