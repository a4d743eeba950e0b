import PeerCove.Chat.ChatFile
import PeerCove.Chat.ChatLog
import PeerCove.Chat.ChatReception
import PeerCove.Chat.FileNames
import PeerCove.Chat.FileTransfer
import PeerCove.Chat.GroupEdits
import PeerCove.Chat.GroupNet
import PeerCove.Chat.Groups
import PeerCove.Chat.Identities
import PeerCove.Chat.SendQueue
import PeerCove.Core.AclPolicy
import PeerCove.Core.AclSemantics
import PeerCove.Core.AclSessions
import PeerCove.Core.Config
import PeerCove.Core.DnsZone
import PeerCove.Core.Ledger
import PeerCove.Core.Names
import PeerCove.Core.Net
import PeerCove.Core.Text
import PeerCove.Core.Token
import PeerCove.Core.Validate
import PeerCove.Host.Admin
import PeerCove.Host.BuildLedger
import PeerCove.Host.CalendarRun
import PeerCove.Host.ControlWriter
import PeerCove.Host.Daemon
import PeerCove.Host.Distribution
import PeerCove.Host.Health
import PeerCove.Host.Identity
import PeerCove.Host.InviteUse
import PeerCove.Host.KeyExchange
import PeerCove.Host.LinuxAcl
import PeerCove.Host.LinuxFilter
import PeerCove.Host.MemoService
import PeerCove.Host.PeerSync
import PeerCove.Host.Presence
import PeerCove.Host.RelayDevice
import PeerCove.Host.ServiceTasks
import PeerCove.Host.Tunnel
import PeerCove.Library.Base64Url
import PeerCove.Library.BasicString
import PeerCove.Library.Console
import PeerCove.Library.Correlation
import PeerCove.Library.DnsMessage
import PeerCove.Library.Fallible
import PeerCove.Library.FilePrograms
import PeerCove.Library.FileTree
import PeerCove.Library.FirstFree
import PeerCove.Library.FirstMatch
import PeerCove.Library.FreshName
import PeerCove.Library.LastWrite
import PeerCove.Library.Lcs
import PeerCove.Library.Like
import PeerCove.Library.LockedFile
import PeerCove.Library.MonthCalendar
import PeerCove.Library.NormalForms
import PeerCove.Library.PaddedDecimal
import PeerCove.Library.Paging
import PeerCove.Library.PeriodicWindows
import PeerCove.Library.Retention
import PeerCove.Library.Runs
import PeerCove.Library.SortDedup
import PeerCove.Library.Stateful
import PeerCove.Library.Table
import PeerCove.Library.Tasks
import PeerCove.Library.Trimming
import PeerCove.Library.UnixPath
import PeerCove.Library.Utf8
import PeerCove.Library.Versioned
import PeerCove.Library.Wire
import PeerCove.Member.Direct
import PeerCove.Member.DnsBounds
import PeerCove.Member.DnsResolver
import PeerCove.Member.Link
import PeerCove.Member.MobileExchange
import PeerCove.Member.MobileLines
import PeerCove.Member.Rotation
import PeerCove.Memo.CacheStore
import PeerCove.Memo.CacheSync
import PeerCove.Memo.LineDiff
import PeerCove.Memo.MemoStore
import PeerCove.Memo.Permissions
import PeerCove.Memo.Policy
import PeerCove.Memo.Requests
import PeerCove.Memo.SharedDb
import PeerCove.Memo.SharedSheets
import PeerCove.Memo.SharedStore
import PeerCove.Memo.Sheet
import PeerCove.Memo.SheetCache
import PeerCove.Memo.StoreRuns
import PeerCove.Memo.Types
import PeerCove.Ops.Acl
import PeerCove.Ops.Backup
import PeerCove.Ops.BackupRestore
import PeerCove.Ops.DnsRecords
import PeerCove.Ops.HostFile
import PeerCove.Ops.HostPrograms
import PeerCove.Ops.Invite
import PeerCove.Ops.InviteAcceptance
import PeerCove.Ops.Join
import PeerCove.Ops.KeyFiles
import PeerCove.Ops.Naming
import PeerCove.Ops.PeerBlock
import PeerCove.Ops.PeerEdits
import PeerCove.Ops.Peers
import PeerCove.Ops.QualityStore
import PeerCove.Ops.SettingEdits
import PeerCove.Ops.Settings
import PeerCove.Proofs.AclRefinement
import PeerCove.Proofs.AclWindow
import PeerCove.Proofs.ApprovalIsolation
import PeerCove.Proofs.Authorization
import PeerCove.Proofs.Backlinks
import PeerCove.Proofs.BackupRoundTrip
import PeerCove.Proofs.BackupSealing
import PeerCove.Proofs.CacheAgreement
import PeerCove.Proofs.CacheEviction
import PeerCove.Proofs.ChatNumbers
import PeerCove.Proofs.ChatPersistence
import PeerCove.Proofs.ChatReception
import PeerCove.Proofs.CustomNames
import PeerCove.Proofs.DaemonRuns
import PeerCove.Proofs.Delegation
import PeerCove.Proofs.DirectPeers
import PeerCove.Proofs.DirectRelay
import PeerCove.Proofs.DnsLabels
import PeerCove.Proofs.DnsLookup
import PeerCove.Proofs.DnsReplies
import PeerCove.Proofs.DnsZone
import PeerCove.Proofs.EditFrames
import PeerCove.Proofs.EditProtocol
import PeerCove.Proofs.FileNames
import PeerCove.Proofs.FileResume
import PeerCove.Proofs.FileTransfer
import PeerCove.Proofs.FilterChains
import PeerCove.Proofs.FolderNames
import PeerCove.Proofs.GroupEdits
import PeerCove.Proofs.GroupGossip
import PeerCove.Proofs.HealthCauses
import PeerCove.Proofs.HistoryRetention
import PeerCove.Proofs.InviteAtomicity
import PeerCove.Proofs.InviteJoin
import PeerCove.Proofs.InviteNames
import PeerCove.Proofs.IsolationRank
import PeerCove.Proofs.KeyHandover
import PeerCove.Proofs.KeyRotation
import PeerCove.Proofs.LedgerFilter
import PeerCove.Proofs.LedgerLabels
import PeerCove.Proofs.LineDiff
import PeerCove.Proofs.LineFraming
import PeerCove.Proofs.LinkAgreement
import PeerCove.Proofs.LinuxAclRefinement
import PeerCove.Proofs.LockDuties
import PeerCove.Proofs.LockLifecycle
import PeerCove.Proofs.MemoEvents
import PeerCove.Proofs.MemoReferences
import PeerCove.Proofs.NameClashes
import PeerCove.Proofs.OneSetting
import PeerCove.Proofs.PacketFields
import PeerCove.Proofs.PeerRemoval
import PeerCove.Proofs.PeerSync
import PeerCove.Proofs.PersonalStore
import PeerCove.Proofs.PolicyMigration
import PeerCove.Proofs.PresenceLists
import PeerCove.Proofs.ProbeWindows
import PeerCove.Proofs.QualityDates
import PeerCove.Proofs.QualityHistory
import PeerCove.Proofs.QuotedNames
import PeerCove.Proofs.RelayFragments
import PeerCove.Proofs.Reminders
import PeerCove.Proofs.ReplacedMembers
import PeerCove.Proofs.ReplyCorrelation
import PeerCove.Proofs.RestoreConfinement
import PeerCove.Proofs.SavedMessages
import PeerCove.Proofs.ScheduleReplicas
import PeerCove.Proofs.SendWithdrawal
import PeerCove.Proofs.SerialEdits
import PeerCove.Proofs.ServiceEffects
import PeerCove.Proofs.ServiceRuns
import PeerCove.Proofs.ServiceSteps
import PeerCove.Proofs.SessionTracker
import PeerCove.Proofs.SheetCas
import PeerCove.Proofs.SheetMerges
import PeerCove.Proofs.SheetReplay
import PeerCove.Proofs.SheetReplicas
import PeerCove.Proofs.SheetRuns
import PeerCove.Proofs.SheetSteps
import PeerCove.Proofs.SilentPeer
import PeerCove.Proofs.SingleUse
import PeerCove.Proofs.StorageLimit
import PeerCove.Proofs.StoreActions
import PeerCove.Proofs.StoreChanges
import PeerCove.Proofs.StoreSteps
import PeerCove.Proofs.TokenCodec
import PeerCove.Proofs.WaitingMembers
