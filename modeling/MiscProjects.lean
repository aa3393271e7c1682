import MiscProjects.Library.Runs
import MiscProjects.Library.Mailbox
import MiscProjects.Library.Memory
import MiscProjects.Library.SwapRemove
import MiscProjects.Library.LinkedList
import MiscProjects.Library.SinglyLinked
import MiscProjects.Library.Pairing
import MiscProjects.Library.Threads
import MiscProjects.Library.Tally
import MiscProjects.Nfp.Wdf
import MiscProjects.Nfp.FileContext
import MiscProjects.Nfp.Attempt
import MiscProjects.Nfp.FileRun
import MiscProjects.Nfp.Requests
import MiscProjects.Nfp.Subscription
import MiscProjects.Nfp.QueueAccounting
import MiscProjects.Nfp.Delivery
import MiscProjects.Nfp.EventCredits
import MiscProjects.Nfp.Publishing
import MiscProjects.Nfp.Disabling
import MiscProjects.Nfp.Silence
import MiscProjects.Nfp.Naming
import MiscProjects.Library.CircularList
import MiscProjects.Nfp.Membership
import MiscProjects.Nfp.Matching
import MiscProjects.Nfp.Grammar
import MiscProjects.Nfp.MessageBuilding
import MiscProjects.NfpConnections.Driver
import MiscProjects.NfpConnections.Tokens
import MiscProjects.NfpConnections.Owners
import MiscProjects.NfpConnections.Deadlock
import MiscProjects.NfpConnections.Events
import MiscProjects.NfpConnections.Uses
import MiscProjects.NfpConnections.Lifetime
import MiscProjects.Library.Resources
import MiscProjects.Library.Loops
import MiscProjects.NfpConnections.Ownership
import MiscProjects.NfpConnections.ReleasedOnce
import MiscProjects.NfpConnections.Proximity
import MiscProjects.Iocp.Server
import MiscProjects.Iocp.OrderedEcho
import MiscProjects.Iocp.Draining
import MiscProjects.Iocp.Lifetime
import MiscProjects.Iocp.FailedSend
import MiscProjects.IocpServer.Server
import MiscProjects.IocpServer.Ownership
import MiscProjects.IocpServer.Transfer
import MiscProjects.IocpServer.Objects
import MiscProjects.IocpServer.Steps
import MiscProjects.IocpServer.Release
import MiscProjects.IocpServer.Echoing
import MiscProjects.IocpServer.Throttle
import MiscProjects.IocpServer.PendingAccepts
import MiscProjects.IocpServer.Reposts
import MiscProjects.IocpClient.Client
import MiscProjects.IocpClient.Release
import MiscProjects.IocpClient.Sends
import MiscProjects.NameService.Marshall
import MiscProjects.NameService.Marshalled
import MiscProjects.NameService.Rebuilding
import MiscProjects.NameService.RoundTrip
import MiscProjects.NameService.ClassInfos
import MiscProjects.NameService.Registry
import MiscProjects.NameService.Enumeration
import MiscProjects.NameService.Integrity
import MiscProjects.NameService.Durability
import MiscProjects.NameService.Isolation
import MiscProjects.NameService.Provider
import MiscProjects.NameService.Framing
import MiscProjects.NameService.Directory
import MiscProjects.NameService.ServiceTable
import MiscProjects.NameService.Bounds
import MiscProjects.NameService.Received
import MiscProjects.NameService.RequestLoop
import MiscProjects.NameService.Hostile
import MiscProjects.NameService.BrokenRequests
import MiscProjects.Lsp.Contexts
import MiscProjects.Lsp.Lifetime
import MiscProjects.Lsp.Steps
import MiscProjects.Lsp.Operations
import MiscProjects.Lsp.Counts
import MiscProjects.Lsp.Outstanding
import MiscProjects.Lsp.Completion
import MiscProjects.Lsp.Programs
import MiscProjects.Lsp.EntryPoints
import MiscProjects.Lsp.ReferenceBalance
import MiscProjects.Lsp.LockBalance
import MiscProjects.Lsp.SocketList
import MiscProjects.Bm25.Index
import MiscProjects.Bm25.Consistency
import MiscProjects.Bm25.OrderIndependence
import MiscProjects.Tal.Input
import MiscProjects.Tal.Align
import MiscProjects.Tal.Expansion
import MiscProjects.Tal.Content
import MiscProjects.Tal.Width
import MiscProjects.Installer.Catalog
import MiscProjects.Installer.Undo
import MiscProjects.Installer.Order
import MiscProjects.Installer.Cleanup
import MiscProjects.Installer.ChainLaw
import MiscProjects.Echo.PendingData
import MiscProjects.Echo.Blocking
import MiscProjects.Echo.Datagrams
import MiscProjects.Echo.EventArray
import MiscProjects.Echo.Closing
import MiscProjects.Overlapped.EventTable
import MiscProjects.Overlapped.Operations
import MiscProjects.Library.Tiling
import MiscProjects.Library.OnesComplement
import MiscProjects.RawUdp.Headers
import MiscProjects.RawUdp.Fragmentation
import MiscProjects.RawUdp.Checksum
import MiscProjects.RawUdp.Ipv4
import MiscProjects.RawUdp.UdpChecksum
import MiscProjects.RawUdp.Rounds
import MiscProjects.RawUdp.CommandLine
import MiscProjects.Tracert.HopLoop
import MiscProjects.EventPorts.Echo
import MiscProjects.Lsp.Pool
import MiscProjects.Lsp.Bytes
import MiscProjects.Lsp.Providers
import MiscProjects.Lsp.Startup
import MiscProjects.Lsp.NewSockets
import MiscProjects.Lsp.Selection
import MiscProjects.Lsp.OverlappedResult
import MiscProjects.Lsp.Restart
import MiscProjects.Lsp.Select
import MiscProjects.HttpBridge.Stream
import MiscProjects.Library.NetworkOrder
import MiscProjects.Library.TopK
import MiscProjects.Rcvall.Parser
import MiscProjects.Rcvall.Bounds
import MiscProjects.Rcvall.Igmp
import MiscProjects.TcpServer.IPv6EndPoint
import MiscProjects.Tal.Trailer
import MiscProjects.Tal.Lines
import MiscProjects.Tal.MaxWidth
import MiscProjects.Bm25.Ranking
import MiscProjects.Lsp.Extensions
import MiscProjects.Lsp.ExtensionQueries
import MiscProjects.Lsp.AsyncRouting
import MiscProjects.Library.LinkedQueue
import MiscProjects.Library.Simulation
import MiscProjects.Library.Blocks
import MiscProjects.Lsp.Blocking
import MiscProjects.Lsp.CopiedBuffers
import MiscProjects.Lsp.WorkQueue
import MiscProjects.Echo.PendingQueue
import MiscProjects.NfpConnections.Handshake
import MiscProjects.Tal.WorkBuffer
import MiscProjects.Tal.Bounds
import MiscProjects.Malloc.TreeBins
