import OpenDweb.Fabric.Durability
import OpenDweb.Continuity.ResumeRetry
import OpenDweb.Continuity.ResumeHandshake
import OpenDweb.Continuity.OpenResend
import OpenDweb.Continuity.Integrity
import OpenDweb.Continuity.Overflow
import OpenDweb.Continuity.OpenPayload
import OpenDweb.Continuity.Dispatch
import OpenDweb.Continuity.Registry
import OpenDweb.Continuity.ArbitrationRuns
import OpenDweb.Server.LedgerRuns
import OpenDweb.Server.Replay
import OpenDweb.Server.SignedPayloads
import OpenDweb.Server.Revocation
import OpenDweb.Fabric.RedeemSession
import OpenDweb.Fabric.Delivery
import OpenDweb.Sdk.TokenAgreement
import OpenDweb.Ext.DeviceLine
import OpenDweb.Ext.FetchRefs
import OpenDweb.Ext.PushEndpoint
import OpenDweb.Ai.StoreAtomic
import OpenDweb.Ai.CatalogWatch
import OpenDweb.Ai.RelayTerminal
import OpenDweb.Cli.ShortCodeLaw
import OpenDweb.Ai.RewriteContained
import OpenDweb.Server.AdminSerial
import OpenDweb.Server.Quota
import OpenDweb.Server.Singleflight
import OpenDweb.Server.CodesWatcher
import OpenDweb.Continuity.FenceRuns
import OpenDweb.Host.PluginRuns
import OpenDweb.Host.FabricRuns
import OpenDweb.Continuity.WindowBounds
import OpenDweb.Continuity.Reassembly
import OpenDweb.Continuity.JournalTiling
import OpenDweb.Server.RendezvousRuns
import OpenDweb.Continuity.ResumePayload
import OpenDweb.Continuity.DeadStreams
import OpenDweb.Continuity.ConnectionState
import OpenDweb.Server.RateLimit
import OpenDweb.Server.KnockLog
import OpenDweb.Fabric.AnnouncedAddrs
import OpenDweb.Server.OwnerMetadata
import OpenDweb.Ext.MergeBase
import OpenDweb.Fabric.FactReads
import OpenDweb.Server.RedeemAnswers
import OpenDweb.Ext.MergeLaws
import OpenDweb.Cli.InviteCode
import OpenDweb.Ext.JsonLines
import OpenDweb.Ext.WantPages
import OpenDweb.Ext.StagingSweep
import OpenDweb.Cli.LedgerLocks
import OpenDweb.Fabric.WriteLock
import OpenDweb.Continuity.ReplayOrder
import OpenDweb.Cli.AtomicWrite
import OpenDweb.Cli.HubInit
import OpenDweb.Ext.PortProxy
