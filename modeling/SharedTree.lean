import SharedTree.Backlog
import SharedTree.Client.Basic
import SharedTree.Client.Link
import SharedTree.Duration
import SharedTree.Operation
import SharedTree.Path
import SharedTree.Server.Basic
import SharedTree.Service.Basic
import SharedTree.Service.Request
import SharedTree.Session.Sending
import SharedTree.Table
import SharedTree.Tree.Basic
import SharedTree.Tree.Delivery
import SharedTree.Tree.Probe
import SharedTree.UuidPool
import SharedTree.Wire.Assembler
import SharedTree.Wire.Frame
import SharedTree.Wire.Stream
import SharedTree.Proofs.Operation
import SharedTree.Proofs.Path
import SharedTree.Proofs.Path.Grammar
import SharedTree.Proofs.Table
import SharedTree.Proofs.Tree.Operations
import SharedTree.Proofs.Tree.Links
import SharedTree.Proofs.Tree.Alike
import SharedTree.Proofs.Tree.Steps
import SharedTree.Proofs.Tree.Uuids
import SharedTree.Proofs.Tree.Custody
import SharedTree.Proofs.Tree.Requests
import SharedTree.Proofs.Tree.FlatStore
import SharedTree.Proofs.Tree.Entries
import SharedTree.Proofs.Tree.Refinement
import SharedTree.Proofs.Tree.Quiet
import SharedTree.Proofs.Tree.HighWater
import SharedTree.Proofs.Tree.Values
import SharedTree.Proofs.Tree.Conduct
import SharedTree.Proofs.Tree.Nesting
import SharedTree.Proofs.Wire.Codec
import SharedTree.Proofs.Wire.Frame
import SharedTree.Proofs.Wire.Canonical
import SharedTree.Proofs.Wire.Cut
import SharedTree.Proofs.Wire.Stream
import SharedTree.Proofs.Wire.Assembler
import SharedTree.Proofs.Wire.Assembler.Resting
import SharedTree.Proofs.Wire.Assembler.Timeouts
import SharedTree.Proofs.Wire.Buffered
import SharedTree.Proofs.Wire.Buffered.Rounds
import SharedTree.Proofs.Wire.Buffered.Running
import SharedTree.Proofs.Wire.Buffered.Residue
import SharedTree.Proofs.Backlog
import SharedTree.Proofs.Backlog.Sharing
import SharedTree.Proofs.Session
import SharedTree.Proofs.Places
import SharedTree.Proofs.Client.Directory
import SharedTree.Proofs.Client.Hearing
import SharedTree.Proofs.Client.Mirror
import SharedTree.Proofs.Client.Paths
import SharedTree.Proofs.Service.Effects
import SharedTree.Proofs.Service.Handling
import SharedTree.Proofs.Service.Carried
import SharedTree.Proofs.Service.Events
import SharedTree.Proofs.Service.Run
import SharedTree.Proofs.Service.Mirror
import SharedTree.Proofs.Service.Settling
import SharedTree.Proofs.Service.Calls
import SharedTree.Proofs.Service.Fate
import SharedTree.Proofs.Service.Departed
import SharedTree.Proofs.Service.Delivery
import SharedTree.Proofs.Service.Turns
import SharedTree.Proofs.Service.Limits
import SharedTree.Proofs.Service.Oversized
import SharedTree.Proofs.Service.Rejected
import SharedTree.Proofs.Service.Watching
import SharedTree.Proofs.Service.Updates
import SharedTree.Proofs.Service.Balance
import SharedTree.Proofs.Service.Addressed
import SharedTree.Proofs.Service.Streams
import SharedTree.Proofs.Client.Run
import SharedTree.Proofs.Client.Transactions
import SharedTree.Proofs.Client.Drawing
import SharedTree.Proofs.Client.Endings
import SharedTree.Proofs.Client.Correlation
import SharedTree.Proofs.Client.Lookups
import SharedTree.Proofs.Session.Writing
import SharedTree.Proofs.Session.Torn
import SharedTree.Proofs.Service.Conversation
import SharedTree.Proofs.Service.Echoes
import SharedTree.Proofs.Service.InOrder
import SharedTree.Proofs.Session.Flowing
import SharedTree.Proofs.Service.Serving
import SharedTree.Proofs.Service.Engaged
import SharedTree.Proofs.Server.Attending
import SharedTree.Proofs.Server.Streaming
import SharedTree.Proofs.Service.Visiting
import SharedTree.Proofs.Service.Isolation
import SharedTree.Proofs.Service.Admission
import SharedTree.Proofs.Service.Answering
