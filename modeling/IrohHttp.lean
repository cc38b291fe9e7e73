import IrohHttp.Machine
import IrohHttp.Parties
import IrohHttp.SlotMap
import IrohHttp.CoreError
import IrohHttp.Handles
import IrohHttp.HandleRuns
import IrohHttp.HandleUse
import IrohHttp.Dispatcher
import IrohHttp.Rendezvous
import IrohHttp.BodyChannel
import IrohHttp.Pumps
import IrohHttp.SessionStream
import IrohHttp.Client
import IrohHttp.Pool
import IrohHttp.Lifecycle
import IrohHttp.Shutdown
import IrohHttp.StreamAdmission
import IrohHttp.ConnectionEvents
import IrohHttp.ServeLoop
import IrohHttp.FiniteMap
import IrohHttp.ServeCycles
import IrohHttp.SourceLookup
import IrohHttp.PeerDiscovery
import IrohHttp.ChunkTransfer
import IrohHttp.ServeQueue
import IrohHttp.Binary64
import IrohHttp.ServeCallback
import IrohHttp.HandleNumbers
import IrohHttp.ReadCancel
import IrohHttp.InsertGuard
import IrohHttp.DiscoveryOwnership
import IrohHttp.CleanupFences
import IrohHttp.CleanupBlame
import IrohHttp.NativeStart
import IrohHttp.EndpointOwners
import IrohHttp.NativeActors
import IrohHttp.EngineBrowse
import IrohHttp.EngineAdvertise
import IrohHttp.MdnsAdvertise
import IrohHttp.PathWatchers
import IrohHttp.PathChanges
import IrohHttp.ServeGuard
import IrohHttp.RequestBody
import IrohHttp.FetchCalls
import IrohHttp.UploadEnd
import IrohHttp.FetchHandles
import IrohHttp.PeerService
import IrohHttp.AdvertisementRefresh
import IrohHttp.DiscoveryIterator
import IrohHttp.WithLifecycle
import IrohHttp.LifecycleSettles
import IrohHttp.Digits
import IrohHttp.NetParser
import IrohHttp.AddressSanitiser
import IrohHttp.DialableAddresses
import IrohHttp.Base32
import IrohHttp.AdvertisedRecord
import IrohHttp.Uri
import IrohHttp.PeerDecoders
import IrohHttp.PumpCause
import IrohHttp.RequestTarget
import IrohHttp.Utf8
import IrohHttp.Json
import IrohHttp.HeaderRows
import IrohHttp.NodeAddr
import IrohHttp.ServeOptions
import IrohHttp.EndpointOptions
import IrohHttp.TxtEntries
import IrohHttp.ServeRefusals
import IrohHttp.ForegroundCheck
import IrohHttp.BitBuffer
import IrohHttp.NodeIdText
import IrohHttp.OverflowCache
import IrohHttp.ScopedDnsProxy
import IrohHttp.Cutting
import IrohHttp.ChunkSplitting
import IrohHttp.PollFrame
import IrohHttp.BodySink
import IrohHttp.MobileRecords
import IrohHttp.Nameservers
import IrohHttp.NativeSession
import IrohHttp.ResolveQueue
import IrohHttp.BrowseSession
import IrohHttp.AdvertiseSession
import IrohHttp.DiscoveryLifecycle
import IrohHttp.DiscoveryAdvertisement
