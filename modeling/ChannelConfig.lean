import ChannelConfig.Bytes
import ChannelConfig.Channel.Build
import ChannelConfig.Channel.Creation
import ChannelConfig.Channel.Orderer
import ChannelConfig.Channel.Organization
import ChannelConfig.Crypto.Der
import ChannelConfig.Crypto.Ecdsa
import ChannelConfig.Crypto.P256
import ChannelConfig.Crypto.PrivateKey
import ChannelConfig.Crypto.Sha256
import ChannelConfig.Datum
import ChannelConfig.Disk.Tree
import ChannelConfig.Disk.View
import ChannelConfig.Duration
import ChannelConfig.Error
import ChannelConfig.Json
import ChannelConfig.Ledger.Block
import ChannelConfig.Ledger.Envelope
import ChannelConfig.Ledger.Genesis
import ChannelConfig.Ledger.Signer
import ChannelConfig.Ledger.Transaction
import ChannelConfig.Main
import ChannelConfig.MessageKind
import ChannelConfig.Msp.Directory
import ChannelConfig.Msp.Material
import ChannelConfig.Msp.Message
import ChannelConfig.NameMap
import ChannelConfig.Path
import ChannelConfig.Pem.Sections
import ChannelConfig.Policy.Access
import ChannelConfig.Policy.Expression
import ChannelConfig.Policy.Message
import ChannelConfig.Policy.Principal
import ChannelConfig.Policy.Render
import ChannelConfig.Policy.Rule
import ChannelConfig.Policy.Token
import ChannelConfig.Profile.Basic
import ChannelConfig.Profile.Policies
import ChannelConfig.Profile.Read
import ChannelConfig.Profile.Resolve
import ChannelConfig.Program.Arguments
import ChannelConfig.Program.Run
import ChannelConfig.Program.Snapshot
import ChannelConfig.Proofs.Channel.Build
import ChannelConfig.Proofs.Channel.Changes
import ChannelConfig.Proofs.Channel.Contents
import ChannelConfig.Proofs.Channel.Copies
import ChannelConfig.Proofs.Channel.Creation
import ChannelConfig.Proofs.Channel.CreationUpdate
import ChannelConfig.Proofs.Channel.Influence
import ChannelConfig.Proofs.Channel.Layout
import ChannelConfig.Proofs.Channel.ReadBack
import ChannelConfig.Proofs.Channel.Sections
import ChannelConfig.Proofs.Channel.Valid
import ChannelConfig.Proofs.Disk.Lawful
import ChannelConfig.Proofs.Duration
import ChannelConfig.Proofs.Json
import ChannelConfig.Proofs.Ledger.Genesis
import ChannelConfig.Proofs.Ledger.Opening
import ChannelConfig.Proofs.Ledger.SignedBytes
import ChannelConfig.Proofs.Ledger.Signing
import ChannelConfig.Proofs.Ledger.Transaction
import ChannelConfig.Proofs.Msp.Directory
import ChannelConfig.Proofs.Msp.Material
import ChannelConfig.Proofs.NameMap
import ChannelConfig.Proofs.Policy.Acceptance
import ChannelConfig.Proofs.Policy.Build
import ChannelConfig.Proofs.Policy.Canonical
import ChannelConfig.Proofs.Policy.Expression
import ChannelConfig.Proofs.Policy.Grammar
import ChannelConfig.Proofs.Policy.Numbering
import ChannelConfig.Proofs.Policy.Principal
import ChannelConfig.Proofs.Policy.ReadBack
import ChannelConfig.Proofs.Policy.Recompile
import ChannelConfig.Proofs.Policy.Render
import ChannelConfig.Proofs.Policy.Restates
import ChannelConfig.Proofs.Policy.Rule
import ChannelConfig.Proofs.Policy.Spelling
import ChannelConfig.Proofs.Policy.Token
import ChannelConfig.Proofs.Profile.Rebase
import ChannelConfig.Proofs.Profile.References
import ChannelConfig.Proofs.Profile.Resolve
import ChannelConfig.Proofs.Program.Arguments
import ChannelConfig.Proofs.Program.Run
import ChannelConfig.Proofs.Program.Snapshot
import ChannelConfig.Proofs.Result
import ChannelConfig.Proofs.Text
import ChannelConfig.Proofs.Tree.Apply
import ChannelConfig.Proofs.Tree.Content
import ChannelConfig.Proofs.Tree.Delta
import ChannelConfig.Proofs.Tree.Depth
import ChannelConfig.Proofs.Tree.Distinguish
import ChannelConfig.Proofs.Tree.Group
import ChannelConfig.Proofs.Tree.Inspect
import ChannelConfig.Proofs.Tree.Mention
import ChannelConfig.Proofs.Tree.VersionBlind
import ChannelConfig.Proofs.Tree.Versions
import ChannelConfig.Proofs.Tree.Wire
import ChannelConfig.Proofs.Value.Names
import ChannelConfig.Proofs.Value.Standard
import ChannelConfig.Proofs.Wire.Depth
import ChannelConfig.Proofs.Wire.Field
import ChannelConfig.Proofs.Wire.Flat
import ChannelConfig.Proofs.Wire.Growth
import ChannelConfig.Proofs.Wire.Kinds
import ChannelConfig.Proofs.Wire.Message
import ChannelConfig.Proofs.Wire.Record
import ChannelConfig.Proofs.Wire.Settle
import ChannelConfig.Text.Alphanumeric
import ChannelConfig.Text.Base64
import ChannelConfig.Text.Binary64
import ChannelConfig.Toml.Document
import ChannelConfig.Toml.Scalar
import ChannelConfig.Toml.Table
import ChannelConfig.Toml.Text
import ChannelConfig.Tree.Config
import ChannelConfig.Tree.Diff
import ChannelConfig.Tree.Edit
import ChannelConfig.Tree.Group
import ChannelConfig.Tree.Inspect
import ChannelConfig.Value.Message
import ChannelConfig.Value.Standard
import ChannelConfig.Wire.Format
import ChannelConfig.Wire.Record
import ChannelConfig.Wire.Varint
