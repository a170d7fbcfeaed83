import ColumnVault.Cli.Run
import ColumnVault.Key.Directory
import ColumnVault.Main
import ColumnVault.Packing.Settings
import ColumnVault.Proofs.Bytes.Hex
import ColumnVault.Proofs.Cli.Arguments
import ColumnVault.Proofs.Cli.Calls
import ColumnVault.Proofs.Cli.Endings
import ColumnVault.Proofs.Cli.Leftovers
import ColumnVault.Proofs.Cli.RoundTrip
import ColumnVault.Proofs.Envelope.Binding
import ColumnVault.Proofs.Envelope.Grammar
import ColumnVault.Proofs.Key.InsertionOrder
import ColumnVault.Proofs.Key.Listing
import ColumnVault.Proofs.Key.Mirror
import ColumnVault.Proofs.Key.Openable
import ColumnVault.Proofs.Key.Permanence
import ColumnVault.Proofs.Key.Reload
import ColumnVault.Proofs.Key.Ring
import ColumnVault.Proofs.Packing.Decision
import ColumnVault.Proofs.Packing.Unpacking
import ColumnVault.Proofs.Search.Gates
import ColumnVault.Proofs.Search.Meaning
import ColumnVault.Proofs.Search.NormalForms
import ColumnVault.Proofs.Text.ByteOrder
import ColumnVault.Proofs.Vault.Authentication
import ColumnVault.Proofs.Vault.Closing
import ColumnVault.Proofs.Vault.Construction
import ColumnVault.Proofs.Vault.Digests
import ColumnVault.Proofs.Vault.HeaderIntegrity
import ColumnVault.Proofs.Vault.Migration
import ColumnVault.Proofs.Vault.Missing
import ColumnVault.Proofs.Vault.Nonces
import ColumnVault.Proofs.Vault.Rotation
import ColumnVault.Proofs.Vault.Shapes
import ColumnVault.Search.Condition
import ColumnVault.Vault.Handles
import ColumnVault.Vault.Rotation
