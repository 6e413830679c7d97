import PullThrough.Bytes
import PullThrough.Cache.Blobs
import PullThrough.Cache.Flights
import PullThrough.Cache.Manifests
import PullThrough.Config.Basic
import PullThrough.Config.Datum
import PullThrough.Config.Reader
import PullThrough.Credentials
import PullThrough.Decimal.Double
import PullThrough.Digest
import PullThrough.Disk.Basic
import PullThrough.Disk.Path
import PullThrough.Failure
import PullThrough.Gateway.Basic
import PullThrough.Gateway.Challenge
import PullThrough.Gateway.Phase
import PullThrough.Gateway.Rejection
import PullThrough.Gateway.Scope
import PullThrough.Gateway.Start
import PullThrough.Hmac
import PullThrough.Http.Message
import PullThrough.Http.Route
import PullThrough.Http.Server
import PullThrough.Http.Status
import PullThrough.Http.Target
import PullThrough.Job.Basic
import PullThrough.Job.Pool
import PullThrough.Job.World
import PullThrough.Json.Attempt
import PullThrough.Json.Basic
import PullThrough.Json.Printer
import PullThrough.Json.Reader
import PullThrough.Main
import PullThrough.Name
import PullThrough.Origin.Client
import PullThrough.Origin.Message
import PullThrough.Proofs.Cache.Cleanup
import PullThrough.Proofs.Cache.Concurrency
import PullThrough.Proofs.Cache.Confinement
import PullThrough.Proofs.Cache.Counting
import PullThrough.Proofs.Cache.Damage
import PullThrough.Proofs.Cache.Download
import PullThrough.Proofs.Cache.Effects
import PullThrough.Proofs.Cache.Failures
import PullThrough.Proofs.Cache.Flights
import PullThrough.Proofs.Cache.Maps
import PullThrough.Proofs.Cache.Mirrors
import PullThrough.Proofs.Cache.Outages
import PullThrough.Proofs.Cache.Pinning
import PullThrough.Proofs.Cache.Resolution
import PullThrough.Proofs.Cache.Singleflight
import PullThrough.Proofs.Disk.Faults
import PullThrough.Proofs.Disk.Listing
import PullThrough.Proofs.Disk.Location
import PullThrough.Proofs.Disk.Steps
import PullThrough.Proofs.Disk.Views
import PullThrough.Proofs.Gateway.Acceptance
import PullThrough.Proofs.Gateway.Access
import PullThrough.Proofs.Gateway.Checkpoint
import PullThrough.Proofs.Gateway.Failures
import PullThrough.Proofs.Gateway.Integrity
import PullThrough.Proofs.Gateway.Isolation
import PullThrough.Proofs.Gateway.Mirrors
import PullThrough.Proofs.Gateway.Provenance
import PullThrough.Proofs.Http.Heads
import PullThrough.Proofs.Http.Paths
import PullThrough.Proofs.Http.Routing
import PullThrough.Proofs.Job.Amid
import PullThrough.Proofs.Job.Among
import PullThrough.Proofs.Job.Does
import PullThrough.Proofs.Job.Flawless
import PullThrough.Proofs.Job.Holding
import PullThrough.Proofs.Job.Pairs
import PullThrough.Proofs.Job.Smooth
import PullThrough.Proofs.Job.Traces
import PullThrough.Proofs.Json.Documents
import PullThrough.Proofs.Json.Scalars
import PullThrough.Proofs.Name.Chars
import PullThrough.Proofs.Name.Parts
import PullThrough.Proofs.Origin.Addresses
import PullThrough.Proofs.Origin.Calls
import PullThrough.Proofs.Origin.Failures
import PullThrough.Proofs.Origin.Taxonomy
import PullThrough.Proofs.Store.Changes
import PullThrough.Proofs.Store.Cleanup
import PullThrough.Proofs.Store.Confinement
import PullThrough.Proofs.Store.Damage
import PullThrough.Proofs.Store.Ingest
import PullThrough.Proofs.Store.Keys
import PullThrough.Proofs.Store.Layout
import PullThrough.Proofs.Store.Mirrors
import PullThrough.Proofs.Store.Places
import PullThrough.Proofs.Store.Reading
import PullThrough.Proofs.Store.Records
import PullThrough.Proofs.Store.Separation
import PullThrough.Proofs.Store.Sharing
import PullThrough.Proofs.Store.Stats
import PullThrough.Proofs.Store.Success
import PullThrough.Proofs.Store.Writing
import PullThrough.Proofs.Text.Base64
import PullThrough.Proofs.Text.Credentials
import PullThrough.Proofs.Text.Marks
import PullThrough.Proofs.Time.Rfc3339
import PullThrough.Proofs.Token.Configured
import PullThrough.Proofs.Token.Lifetimes
import PullThrough.Proofs.Token.Signer
import PullThrough.Proofs.Token.Verdicts
import PullThrough.Sha256
import PullThrough.Store.Blobs
import PullThrough.Store.Layout
import PullThrough.Store.Manifests
import PullThrough.Store.Record
import PullThrough.Store.Scratch
import PullThrough.Store.Stats
import PullThrough.Text.Base64
import PullThrough.Text.Blank
import PullThrough.Text.Form
import PullThrough.Text.Hex
import PullThrough.Text.Printable
import PullThrough.Text.Quoted
import PullThrough.Text.Split
import PullThrough.Time.Instant
import PullThrough.Time.Rfc3339
import PullThrough.Token.Claims
import PullThrough.Token.Header
import PullThrough.Token.Restrictions
import PullThrough.Token.Signer
import PullThrough.Toml.Document
import PullThrough.Toml.Scalars
import PullThrough.Toml.Strings
