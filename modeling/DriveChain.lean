import DriveChain.Account.Document
import DriveChain.CommandLine
import DriveChain.Json.Printer
import DriveChain.Listener
import DriveChain.Main
import DriveChain.Page.Pool
import DriveChain.Transaction.Aggregate
import DriveChain.Transaction.Field
import DriveChain.Transaction.Signing
import DriveChain.Proofs.Octets
import DriveChain.Proofs.Reader
import DriveChain.Proofs.HeaderBytes
import DriveChain.Proofs.PayloadBytes
import DriveChain.Proofs.TransactionBytes
import DriveChain.Proofs.Canonical
import DriveChain.Proofs.Fields
import DriveChain.Proofs.HeaderDocument
import DriveChain.Proofs.PayloadDocument
import DriveChain.Proofs.TransactionDocument
import DriveChain.Proofs.WireForms
import DriveChain.Proofs.Aggregate
import DriveChain.Proofs.AggregateBytes
import DriveChain.Proofs.Signing
import DriveChain.Proofs.Cosigning
import DriveChain.Proofs.SignedContent
import DriveChain.Proofs.Size
import DriveChain.Proofs.DrivePage
import DriveChain.Proofs.Listening
import DriveChain.Proofs.ReaderFaults
import DriveChain.Proofs.Dispatch
import DriveChain.Proofs.Overflow
import DriveChain.Proofs.Base32
import DriveChain.Proofs.Address
import DriveChain.Proofs.Accounts
import DriveChain.Proofs.AddressText
import DriveChain.Proofs.AssetIds
import DriveChain.Proofs.Embedding
import DriveChain.Proofs.NamespaceNames
import DriveChain.Proofs.Refusals
import DriveChain.Proofs.OpenLoops
import DriveChain.Proofs.Pushing
import DriveChain.Proofs.HashInput
import DriveChain.Proofs.HexText
import DriveChain.Proofs.Recasing
import DriveChain.Proofs.RecasedRecords
import DriveChain.Proofs.RecasedTransactions
import DriveChain.Proofs.RecasedDrives
import DriveChain.Proofs.RecordMembers
import DriveChain.Proofs.SortedKeys
import DriveChain.Proofs.DriveListing
import DriveChain.Proofs.DriveRecord
import DriveChain.Proofs.Deadlines
import DriveChain.Proofs.ReaderCalls
import DriveChain.Proofs.FieldsInARow
