import PcdProject.Core.Transition
import PcdProject.Core.StableQueue
import PcdProject.Core.QueuePairing
import PcdProject.Core.Slots
import PcdProject.Core.Census
import PcdProject.Core.CLayout
import PcdProject.Core.StructStores
import PcdProject.Core.CBuffer
import PcdProject.Core.CText
import PcdProject.Core.CFormat
import PcdProject.Core.BinaryFloat
import PcdProject.Core.ShellWords
import PcdProject.Core.Ring
import PcdProject.Core.OrderedMap
import PcdProject.Core.FilePath
import PcdProject.Core.LockProgram
import PcdProject.Protocol.Messages
import PcdProject.Protocol.Requests
import PcdProject.Protocol.Replies
import PcdProject.Protocol.ReplyStructs
import PcdProject.Server.JobQueue
import PcdProject.Server.QueueArrays
import PcdProject.Server.LogQueue
import PcdProject.Server.State
import PcdProject.Server.UdpMessage
import PcdProject.Server.Decoding
import PcdProject.Server.JobPaths
import PcdProject.Server.ClientThread
import PcdProject.Server.UploadThread
import PcdProject.Server.ProcessingThread
import PcdProject.Server.DownloadThread
import PcdProject.Server.System
import PcdProject.Server.ClientTable
import PcdProject.Server.UploadGate
import PcdProject.Server.Admission
import PcdProject.Server.JobTable
import PcdProject.Server.ReadyJobs
import PcdProject.Server.JobLedger
import PcdProject.Server.JobAnswers
import PcdProject.Server.PendingArray
import PcdProject.Server.ProcessingPass
import PcdProject.Server.ExecutedCommand
import PcdProject.Server.RunOnce
import PcdProject.Server.Acknowledgement
import PcdProject.Server.Registration
import PcdProject.Server.QueueListing
import PcdProject.Server.AdminCommand
import PcdProject.Server.ClientIdText
import PcdProject.Server.AdminEffects
import PcdProject.Server.AdminArguments
import PcdProject.Server.ClientListing
import PcdProject.Server.LogAppend
import PcdProject.Server.AdminConsole
import PcdProject.Server.LogStream
import PcdProject.Server.Draining
import PcdProject.Server.UploadTurn
import PcdProject.Server.Traffic
import PcdProject.Server.FileCounter
import PcdProject.Server.WorkingDirectory
import PcdProject.Server.Isolation
import PcdProject.Server.Clock
import PcdProject.Server.Heartbeats
import PcdProject.Server.Wakeup
import PcdProject.Server.Mutexes
import PcdProject.Client.Transfers
import PcdProject.Client.SubmitJob
import PcdProject.Client.FfmpegCommands
import PcdProject.Client.JobOutcome
import PcdProject.Client.SendLoop
import PcdProject.Client.PyClient
import PcdProject.Client.AdminClient
import PcdProject.Network.World
import PcdProject.Network.UploadPairing
import PcdProject.Network.DownloadPairing
import PcdProject.Network.DownloadMoves
import PcdProject.Network.DownloadTurns
import PcdProject.Network.RequestAgreement
import PcdProject.Network.PyAgreement
import PcdProject.Network.WholeUpload
import PcdProject.Network.UploadReceive
import PcdProject.Network.PyUpload
import PcdProject.Network.PyReceivers
import PcdProject.Network.PyIdle
import PcdProject.Network.WholeDownload
import PcdProject.Network.RoundTrip
import PcdProject.Network.MenuCommand
import PcdProject.Network.JobReports
import PcdProject.Network.IdExchange
import PcdProject.Network.Terminators
import PcdProject.Network.MessageFields
import PcdProject.Network.AdminSession
import PcdProject.Network.LogMode
