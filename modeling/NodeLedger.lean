import NodeLedger.Address.Search
import NodeLedger.Policy.Reconcile
import NodeLedger.Text.UpperCase
import NodeLedger.Text.Utf8
import NodeLedger.Json.Printer
import NodeLedger.Json.Reader
import NodeLedger.FileTree.Layout
import NodeLedger.Settings
import NodeLedger.Ledger.Update
import NodeLedger.Ledger.Credentials
import NodeLedger.Lookup
import NodeLedger.Cloud.Ec2.Groups
import NodeLedger.Provisioning
import NodeLedger.Cloud.Rehearsal
import NodeLedger.Command.Run
import NodeLedger.Main
import NodeLedger.Proofs.Address.V4
import NodeLedger.Proofs.Address.V6
import NodeLedger.Proofs.Address.Canonical
import NodeLedger.Proofs.Address.Host
import NodeLedger.Proofs.Policy.Application
import NodeLedger.Proofs.Policy.Pass
import NodeLedger.Proofs.Policy.FixedPoint
import NodeLedger.Proofs.Policy.Grants
import NodeLedger.Proofs.Policy.Runs
import NodeLedger.Proofs.Policy.Resumption
import NodeLedger.Proofs.Policy.Settling
import NodeLedger.Proofs.Json.Escape
import NodeLedger.Proofs.Json.Scalar
import NodeLedger.Proofs.Json.Layout
import NodeLedger.Proofs.Json.Document
import NodeLedger.Proofs.Json.Halves
import NodeLedger.Proofs.Json.Limits
import NodeLedger.Proofs.FileTree.Frame
import NodeLedger.Proofs.FileTree.Replace
import NodeLedger.Proofs.FileTree.Beside
import NodeLedger.Proofs.FileTree.Naming
import NodeLedger.Proofs.FileTree.OneEntry
import NodeLedger.Proofs.FileTree.Links
import NodeLedger.Proofs.Ledger.Entries
import NodeLedger.Proofs.Ledger.Storage
import NodeLedger.Proofs.Ledger.Refinement
import NodeLedger.Proofs.Ledger.Place
import NodeLedger.Proofs.Ledger.Kept
import NodeLedger.Proofs.Ledger.AllOrNothing
import NodeLedger.Proofs.Cloud.Ec2.Grants
import NodeLedger.Proofs.Cloud.Ec2.Observed
import NodeLedger.Proofs.Cloud.Ec2.Authorization
import NodeLedger.Proofs.Cloud.Ec2.Region
import NodeLedger.Proofs.Cloud.Ec2.Compliance
import NodeLedger.Proofs.Cloud.Ec2.Rounds
import NodeLedger.Proofs.Cloud.Files
import NodeLedger.Proofs.Cloud.Deletions
import NodeLedger.Proofs.Cloud.Nsg.Removal
import NodeLedger.Proofs.Provisioning.Ensure
import NodeLedger.Proofs.Provisioning.Privilege
import NodeLedger.Proofs.Provisioning.Recorded
import NodeLedger.Proofs.Provisioning.Credentials
import NodeLedger.Proofs.Provisioning.Unmanaged
import NodeLedger.Proofs.Provisioning.Teardown
import NodeLedger.Proofs.Provisioning.Accounts
import NodeLedger.Proofs.Provisioning.Retried
import NodeLedger.Proofs.Provisioning.LifeCycle
import NodeLedger.Proofs.Text.Visible
import NodeLedger.Proofs.Command.Shell
import NodeLedger.Proofs.Ledger.Contract
import NodeLedger.Proofs.Provisioning.Contract
import NodeLedger.Proofs.Command.Show
import NodeLedger.Proofs.Ledger.Repeats
import NodeLedger.Proofs.Policy.PortSets
import NodeLedger.Proofs.Cloud.Ec2.RoundTrip
import NodeLedger.Proofs.Cloud.Ec2.Extension
import NodeLedger.Proofs.Provisioning.Answer
import NodeLedger.Proofs.Policy.Relevance
import NodeLedger.Proofs.Address.Spelling
import NodeLedger.Proofs.Policy.Spelling
import NodeLedger.Proofs.Provisioning.Names
import NodeLedger.Proofs.Address.Search
import NodeLedger.Proofs.Ledger.Multisets
import NodeLedger.Proofs.Json.Lines
import NodeLedger.Proofs.Policy.Draft
import NodeLedger.Proofs.Command.Plan
