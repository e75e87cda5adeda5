import SharedSync.Words
import SharedSync.Text
import SharedSync.Limits
import SharedSync.Errors
import SharedSync.Files
import SharedSync.System
import SharedSync.Object.Handle
import SharedSync.Object.Status
import SharedSync.Object.Attributes
import SharedSync.Wire.Frame
import SharedSync.Wire.Messages
import SharedSync.Config
import SharedSync.Config.Document
import SharedSync.Errors.SyncError
import SharedSync.Futex
import SharedSync.Event
import SharedSync.Stream
import SharedSync.Directory
import SharedSync.HandleCache
import SharedSync.Pool
import SharedSync.Gate
import SharedSync.Authority
import SharedSync.Authority.Client
import SharedSync.Authority.Server
import SharedSync.Authority.Link
import SharedSync.Authority.Memory
import SharedSync.Context
import SharedSync.Machine
import SharedSync.Threads
import SharedSync.Threads.FirstTouch
import SharedSync.Threads.Publication
import SharedSync.Threads.Decision
import SharedSync.Proofs.Directory.Elements
import SharedSync.Proofs.HandleCache.Records
import SharedSync.Proofs.Files.Words
import SharedSync.Proofs.Object.Indices
import SharedSync.Proofs.Pool.Blocks
import SharedSync.Proofs.Registry.Numbering
import SharedSync.Proofs.Registry.Creation
import SharedSync.Proofs.Context.Runtimes
import SharedSync.Proofs.Context.Calls
import SharedSync.Proofs.World.Run
import SharedSync.Proofs.World.Binding
import SharedSync.Proofs.World.Lookup
import SharedSync.Proofs.World.Words
import SharedSync.Proofs.Text.Utf16
import SharedSync.Proofs.Wire.RoundTrip
import SharedSync.Proofs.Stream.Delivery
import SharedSync.Proofs.Authority.Exchange
import SharedSync.Proofs.Authority.Session
import SharedSync.Proofs.Stream.Fronts
import SharedSync.Proofs.Authority.History
import SharedSync.Proofs.Serving.Connections
import SharedSync.Proofs.Authority.Reached
import SharedSync.Proofs.Serving.Attribution
import SharedSync.Proofs.Serving.Interleavings
import SharedSync.Proofs.Wire.Verdicts
import SharedSync.Proofs.Wire.Limits
import SharedSync.Proofs.Wire.Spellings
import SharedSync.Proofs.Serving.Transcripts
import SharedSync.Proofs.HandleCache.FirstWriter
import SharedSync.Proofs.Context.Openings
import SharedSync.Proofs.Threads.PublishedOnce
import SharedSync.Proofs.Threads.OneWinner
import SharedSync.Proofs.Pool.Requests
import SharedSync.Proofs.Registry.Failures
import SharedSync.Proofs.Authority.BackingFile
import SharedSync.Proofs.Context.Requests
import SharedSync.Proofs.Text.Surrogates
import SharedSync.Proofs.Wire.Grammar
import SharedSync.Proofs.Wire.Room
import SharedSync.Proofs.Authority.Writing
import SharedSync.Proofs.Context.Sending
import SharedSync.Proofs.Text.Utf8
import SharedSync.Proofs.Config.Switch
import SharedSync.Proofs.Directory.FlatArray
import SharedSync.Proofs.Pool.Layout
import SharedSync.Proofs.Wire.Replies
import SharedSync.Proofs.Words.Series
import SharedSync.Proofs.Context.Statuses
