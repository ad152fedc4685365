import LibEvRpc.Proofs.HashRing
import LibEvRpc.Proofs.RingContents
import LibEvRpc.Proofs.MessageSequence
import LibEvRpc.Proofs.Segmentation
import LibEvRpc.Proofs.Processor
import LibEvRpc.Proofs.ResponsePrefix
import LibEvRpc.Proofs.VoteCompleteness
import LibEvRpc.Proofs.Confirmation
import LibEvRpc.Proofs.VoteSoundness
import LibEvRpc.Proofs.ElectionRuns
import LibEvRpc.Center.Descriptors
import LibEvRpc.Proofs.Routing
import LibEvRpc.Proofs.DescriptorOwnership
import LibEvRpc.Proofs.DispatchOrder
import LibEvRpc.Proofs.TimerPool
import LibEvRpc.Proofs.TimerWheel
import LibEvRpc.Proofs.RingRuns
import LibEvRpc.Proofs.RingAgreement
import LibEvRpc.Proofs.CenterThreads
import LibEvRpc.Proofs.WorkerRestart
import LibEvRpc.Proofs.ThreadPool
import LibEvRpc.Proofs.ClientHeartbeat
import LibEvRpc.Proofs.AsyncCalls
import LibEvRpc.Proofs.CenterRing
import LibEvRpc.Proofs.Inquiry
import LibEvRpc.Proofs.Quorum
import LibEvRpc.Proofs.ReceivedBlocks
import LibEvRpc.Proofs.SingleMessage
import LibEvRpc.Proofs.RegisterWalk
import LibEvRpc.Proofs.ShardHashes
import LibEvRpc.Proofs.BufCrawler
import LibEvRpc.Proofs.ClientWalk
import LibEvRpc.Proofs.ReporterThread
import LibEvRpc.Proofs.ReaderMode
import LibEvRpc.Proofs.RemoteCall
import LibEvRpc.Proofs.TcpConnect
import LibEvRpc.Proofs.ConnectionLoop
import LibEvRpc.Proofs.PipeWrites
import LibEvRpc.Proofs.RequestItems
import LibEvRpc.Proofs.AsyncThreads
import LibEvRpc.Proofs.ThreadRestart
import LibEvRpc.Proofs.HashDifferences
import LibEvRpc.Proofs.LinkedQueues
import LibEvRpc.Proofs.ItemBatches
import LibEvRpc.Proofs.PeerConnections
import LibEvRpc.Proofs.Encoding
import LibEvRpc.Proofs.Transport
import LibEvRpc.Proofs.System
import LibEvRpc.Proofs.IniDump
import LibEvRpc.Proofs.IniNumber
import LibEvRpc.Proofs.Registration
import LibEvRpc.Proofs.Heartbeats
import LibEvRpc.Proofs.ServerProcess
