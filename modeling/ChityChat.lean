import ChityChat.ServerHtShape
import ChityChat.ServerHtInsert
import ChityChat.ServerHtDelete
import ChityChat.ByteMemory
import ChityChat.ServerWebsocket
import ChityChat.WebsocketFrame
import ChityChat.ServerEvents
import ChityChat.WebsocketStream
import ChityChat.UserFile
import ChityChat.UserFileAgree
import ChityChat.UserEntries
import ChityChat.SingleLogin
import ChityChat.RingBuffer
import ChityChat.DbResult
import ChityChat.DbPipeline
import ChityChat.DbPipelineOrder
import ChityChat.ResultLifetime
import ChityChat.GroupRead
import ChityChat.PrivateGroups
import ChityChat.PrivacyLeak
import ChityChat.WriteStatements
import ChityChat.WriteCommands
import ChityChat.WriteAuthorised
import ChityChat.WriteRuns
import ChityChat.WriteWorkers
import ChityChat.WriteAuthorisation
import ChityChat.OverflowDelete
import ChityChat.CString
import ChityChat.ServerHttp
import ChityChat.HttpBlock
import ChityChat.HttpBody
import ChityChat.HttpLengths
import ChityChat.ServerHandleHttp
import ChityChat.HttpTotal
import ChityChat.GetConfinement
import ChityChat.PasswordLogin
import ChityChat.UsernameLogin
import ChityChat.MsgAttachments
import ChityChat.UnlinkConfinement
import ChityChat.ServerDescriptors
import ChityChat.ClientTable
import ChityChat.DescriptorReuse
import ChityChat.ListeningSocket
import ChityChat.LoggedInUser
import ChityChat.GroupBroadcast
import ChityChat.JoinGroup
import ChityChat.GroupMessage
import ChityChat.GroupDeletion
import ChityChat.InviteCodes
import ChityChat.ResultReading
import ChityChat.UploadTokens
import ChityChat.EventOwnership
import ChityChat.Callbacks
import ChityChat.ErrorReplies
import ChityChat.FreedClients
import ChityChat.WebsocketSend
import ChityChat.CoalescedFrames
import ChityChat.ShutdownLoop
import ChityChat.UpgradeHandshake
import ChityChat.AttachmentUploads
import ChityChat.IssuedIds
import ChityChat.SessionTimers
import ChityChat.HistoryPaging
import ChityChat.BadRequests
import ChityChat.ReferencesExact
import ChityChat.PipelineRing
import ChityChat.PipelineFifo
import ChityChat.ChainDelivery
import ChityChat.ServerHtEntries
import ChityChat.RefusedLogin
import ChityChat.ServerHtOrder
import ChityChat.ServerHtZero
import ChityChat.NewEvent
import ChityChat.ServerTimers
import ChityChat.TimerFailure
import ChityChat.TokenDeletion
import ChityChat.UploadBody
import ChityChat.PendingBody
import ChityChat.AttachmentOrder
import ChityChat.AttachmentDeletion
import ChityChat.HeaderList
import ChityChat.DecimalText
import ChityChat.HttpResponse
import ChityChat.CanonicalFrame
import ChityChat.FrameSizes
import ChityChat.TokenizerRange
import ChityChat.ServerHtAnyKey
import ChityChat.ZeroKey
import ChityChat.CommandDispatch
import ChityChat.FixedFields
import ChityChat.UserRows
import ChityChat.UserFields
import ChityChat.StoredContent
import ChityChat.ListReplies
import ChityChat.HexDecoding
import ChityChat.StringPieces
import ChityChat.AttachmentPreviews
import ChityChat.RehashWalk
import ChityChat.LoadBounds
import ChityChat.SessionResume
import ChityChat.GetUserSplit
import ChityChat.OfflineBroadcast
import ChityChat.Mutex
import ChityChat.ServerHtLock
import ChityChat.Termination
import ChityChat.WorkerShutdown
import ChityChat.PendingPackets
import ChityChat.WebClient
import ChityChat.ClientMembers
import ChityChat.ClientDisplay
import ChityChat.Replica
import ChityChat.MemberUpdates
import ChityChat.MemberSync
import ChityChat.MemberAgreement
import ChityChat.UnopenedJoin
import ChityChat.MemberPipeline
import ChityChat.MemberPackets
import ChityChat.Register
import ChityChat.StatusWrites
import ChityChat.PresenceSync
import ChityChat.PresencePipeline
