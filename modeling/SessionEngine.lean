import SessionEngine.Bench
import SessionEngine.Connection
import SessionEngine.Main
import SessionEngine.Proofs.BlockPool
import SessionEngine.Proofs.Connection.Exchange
import SessionEngine.Proofs.Files.Directory
import SessionEngine.Proofs.Files.Disk
import SessionEngine.Proofs.Frame.Front
import SessionEngine.Proofs.ReceiveBuffer.Queue
import SessionEngine.Proofs.SendPool.Chunks
import SessionEngine.Proofs.SendPool.Held
import SessionEngine.Proofs.SendPool.Live
import SessionEngine.Proofs.Session.Frames
import SessionEngine.Proofs.Session.Hooks
import SessionEngine.Proofs.Session.Reading
import SessionEngine.Proofs.Session.Segmentation
import SessionEngine.Proofs.Session.Stream
import SessionEngine.Proofs.Session.Transcript
import SessionEngine.Proofs.Server.Routing
import SessionEngine.Proofs.Text.Cutting
import SessionEngine.Proofs.Stress.Message
import SessionEngine.Proofs.SendPool.Written
import SessionEngine.Proofs.Packet.RoundTrip
import SessionEngine.Proofs.Connection.Streams
import SessionEngine.Proofs.Stress.Run
import SessionEngine.Proofs.Table
import SessionEngine.Proofs.Text.Utf8
import SessionEngine.Proofs.Transfer.Acting
import SessionEngine.Proofs.Transfer.Answers
import SessionEngine.Proofs.Transfer.Ascending
import SessionEngine.Proofs.Transfer.Book
import SessionEngine.Proofs.Transfer.Carrier
import SessionEngine.Proofs.Transfer.Changes
import SessionEngine.Proofs.Transfer.Completeness
import SessionEngine.Proofs.Transfer.Counters
import SessionEngine.Proofs.Transfer.Cutting
import SessionEngine.Proofs.Transfer.Delivery
import SessionEngine.Proofs.Transfer.Directions
import SessionEngine.Proofs.Transfer.EndToEnd
import SessionEngine.Proofs.Transfer.Entering
import SessionEngine.Proofs.Transfer.Inbox
import SessionEngine.Proofs.Transfer.Lifetime
import SessionEngine.Proofs.Transfer.Lookups
import SessionEngine.Proofs.Transfer.Message
import SessionEngine.Proofs.Transfer.Moving
import SessionEngine.Proofs.Transfer.Operations
import SessionEngine.Proofs.Transfer.Overlay
import SessionEngine.Proofs.Transfer.Refusals
import SessionEngine.Proofs.Transfer.Reports
import SessionEngine.Proofs.Transfer.Shipment
import SessionEngine.Proofs.Transfer.Shuffling
import SessionEngine.Proofs.Transfer.Start
import SessionEngine.Proofs.Transfer.Storing
import SessionEngine.SendPool
import SessionEngine.Session.GatherWrite
import SessionEngine.Session.SendQueue
import SessionEngine.Proofs.SendQueue.Flushing
import SessionEngine.Proofs.Files.Outside
import SessionEngine.Proofs.Files.Tree
import SessionEngine.Proofs.Service.Changes
import SessionEngine.Proofs.Service.Registered
import SessionEngine.Proofs.Service.Registering
import SessionEngine.Proofs.Session.Calls
import SessionEngine.Proofs.Session.Consuming
import SessionEngine.Proofs.Transfer.Confinement
import SessionEngine.Proofs.Transfer.Streaming
import SessionEngine.Proofs.ReceiveBuffer.Regions
import SessionEngine.Proofs.SendPool.Allocation
import SessionEngine.Proofs.SendPool.Conservation
import SessionEngine.Proofs.BlockPool.Holdings
import SessionEngine.Proofs.Session.Gathering
import SessionEngine.Proofs.Stress.Measuring
import SessionEngine.Proofs.Stress.Outcomes
import SessionEngine.Proofs.Chat.Conversation
import SessionEngine.Proofs.Config.Precedence
import SessionEngine.Proofs.Stress.Summary
import SessionEngine.Proofs.Text.Boundaries
import SessionEngine.Proofs.Transfer.Sharing
