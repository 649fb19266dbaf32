import WebhookRelay.Alert
import WebhookRelay.Alert.Raising
import WebhookRelay.Audit.Error
import WebhookRelay.Audit.Record
import WebhookRelay.Audit.Trail
import WebhookRelay.Call
import WebhookRelay.CommandLine
import WebhookRelay.CommandLine.Arguments
import WebhookRelay.CommandLine.Environment
import WebhookRelay.Config.EnvFile
import WebhookRelay.Config.Error
import WebhookRelay.Config.FileFormat
import WebhookRelay.Config.Loading
import WebhookRelay.Config.Overlay
import WebhookRelay.Config.Settings
import WebhookRelay.Config.Validation
import WebhookRelay.Crypto.Der
import WebhookRelay.Crypto.Ecdsa
import WebhookRelay.Crypto.P256
import WebhookRelay.Crypto.Sha256
import WebhookRelay.DeadLetter
import WebhookRelay.DeadLetter.Handling
import WebhookRelay.Delivery.Sender
import WebhookRelay.Event
import WebhookRelay.Event.Store
import WebhookRelay.Http.Endpoint
import WebhookRelay.Http.Exchange
import WebhookRelay.Job
import WebhookRelay.Job.Backoff
import WebhookRelay.Job.Error
import WebhookRelay.Job.Store
import WebhookRelay.Json.Number
import WebhookRelay.Json.Record
import WebhookRelay.Json.Render
import WebhookRelay.Json.Text
import WebhookRelay.Json.Value
import WebhookRelay.Key.Cache
import WebhookRelay.Key.Jwk
import WebhookRelay.Key.Signer
import WebhookRelay.Key.Source
import WebhookRelay.Key.VerifyingKey
import WebhookRelay.Log.Filter
import WebhookRelay.Log.Line
import WebhookRelay.Log.Settings
import WebhookRelay.Main
import WebhookRelay.Marking
import WebhookRelay.Number.Binary64
import WebhookRelay.Number.Decimal
import WebhookRelay.Number.Shortest
import WebhookRelay.Processor
import WebhookRelay.Program
import WebhookRelay.Receipt
import WebhookRelay.Receiver
import WebhookRelay.Service
import WebhookRelay.Signature.Error
import WebhookRelay.Signature.Header
import WebhookRelay.Store.Directory
import WebhookRelay.Store.Error
import WebhookRelay.Store.ExpiringSet
import WebhookRelay.Text.Base64Url
import WebhookRelay.Text.Blank
import WebhookRelay.Text.Bytes
import WebhookRelay.Text.CaseTable
import WebhookRelay.Text.Hex
import WebhookRelay.Text.LowerCase
import WebhookRelay.Text.Split
import WebhookRelay.Time.Calendar
import WebhookRelay.Time.Duration
import WebhookRelay.Time.Rfc3339
import WebhookRelay.Time.Timestamp
import WebhookRelay.Toml
import WebhookRelay.Toml.DateTime
import WebhookRelay.Toml.Quoted
import WebhookRelay.Toml.Scalar
import WebhookRelay.Toml.Statement
import WebhookRelay.Toml.Tree
import WebhookRelay.Url
import WebhookRelay.Url.Error
import WebhookRelay.Url.Host
import WebhookRelay.Url.Percent
import WebhookRelay.Url.Punycode
import WebhookRelay.Uuid
import WebhookRelay.Verifier
import WebhookRelay.Worker
import WebhookRelay.World
import WebhookRelay.Proofs.Effects
import WebhookRelay.Proofs.Scene
import WebhookRelay.Proofs.Contract
import WebhookRelay.Proofs.Courses
import WebhookRelay.Proofs.Provenance
import WebhookRelay.Proofs.Ingestion
import WebhookRelay.Proofs.Upkeep
import WebhookRelay.Proofs.Acknowledgement
import WebhookRelay.Proofs.Authenticity
import WebhookRelay.Proofs.Overlap
import WebhookRelay.Proofs.Order
import WebhookRelay.Proofs.Sequence
import WebhookRelay.Proofs.Recovery
import WebhookRelay.Proofs.Marks
import WebhookRelay.Proofs.SingleUse
import WebhookRelay.Proofs.DeadLetters
import WebhookRelay.Proofs.Turns
import WebhookRelay.Proofs.Repertoire
import WebhookRelay.Proofs.Attempts
import WebhookRelay.Proofs.Lifecycle
import WebhookRelay.Proofs.Reliable
import WebhookRelay.Proofs.Chronicle
import WebhookRelay.Proofs.Endings
import WebhookRelay.Proofs.Outcomes
import WebhookRelay.Proofs.Deliveries
import WebhookRelay.Proofs.Conservation
import WebhookRelay.Proofs.KeyDesk
import WebhookRelay.Proofs.KeySteps
import WebhookRelay.Proofs.CurrentKeys
import WebhookRelay.Proofs.SingleFlight
import WebhookRelay.Proofs.Rejections
import WebhookRelay.Proofs.Substitution
import WebhookRelay.Proofs.Captures
import WebhookRelay.Proofs.Alarms
import WebhookRelay.Proofs.Replays
import WebhookRelay.Proofs.Repetition
import WebhookRelay.Proofs.Vouching
import WebhookRelay.Proofs.Resending
import WebhookRelay.Proofs.Construction
import WebhookRelay.Proofs.Enqueueing
import WebhookRelay.Proofs.Deliverability
import WebhookRelay.Proofs.Numerals
import WebhookRelay.Proofs.Days
import WebhookRelay.Proofs.WrittenTimes
import WebhookRelay.Proofs.WrittenIds
import WebhookRelay.Proofs.Members
import WebhookRelay.Proofs.Formats
import WebhookRelay.Proofs.WrittenStrings
import WebhookRelay.Proofs.WrittenValues
import WebhookRelay.Proofs.TextParts
import WebhookRelay.Proofs.AuditFiles
import WebhookRelay.Proofs.Parts
import WebhookRelay.Proofs.Batches
import WebhookRelay.Proofs.Retries
import WebhookRelay.Proofs.Draining
import WebhookRelay.Proofs.Expiry
import WebhookRelay.Proofs.Memory
import WebhookRelay.Proofs.Changes
import WebhookRelay.Proofs.Reordering
import WebhookRelay.Proofs.Commuting
import WebhookRelay.Proofs.Ticks
import WebhookRelay.Proofs.Schedule
import WebhookRelay.Proofs.Deduplication
import WebhookRelay.Proofs.Liveness
import WebhookRelay.Proofs.Verdicts
import WebhookRelay.Proofs.Rollback
import WebhookRelay.Proofs.WrittenBytes
import WebhookRelay.Proofs.WrittenIntegers
import WebhookRelay.Proofs.Headers
import WebhookRelay.Proofs.Overrides
import WebhookRelay.Proofs.ForcedFetches
import WebhookRelay.Proofs.Delays
import WebhookRelay.Proofs.VariableOrder
import WebhookRelay.Proofs.TimedMap
import WebhookRelay.Proofs.MarkModes
import WebhookRelay.Proofs.LargeNumbers
import WebhookRelay.Proofs.IntegerMembers
import WebhookRelay.Proofs.NumericIds
import WebhookRelay.Proofs.SignedMessages
import WebhookRelay.Proofs.PublishedKeys
