import EmbeddedMiddle.Foundation.Transition
import EmbeddedMiddle.Foundation.ByteMemory
import EmbeddedMiddle.Foundation.CircularWindow
import EmbeddedMiddle.Foundation.LinkedTiling
import EmbeddedMiddle.MempoolRefinement
import EmbeddedMiddle.MempoolAddresses
import EmbeddedMiddle.Malloc
import EmbeddedMiddle.MallocAllocation
import EmbeddedMiddle.MallocArena
import EmbeddedMiddle.MallocHeap
import EmbeddedMiddle.Foundation.BoundedFifo
import EmbeddedMiddle.Foundation.CString
import EmbeddedMiddle.Foundation.CountedMap
import EmbeddedMiddle.Foundation.Interleaving
import EmbeddedMiddle.Gdatamng
import EmbeddedMiddle.MempoolThreads
import EmbeddedMiddle.Queue
import EmbeddedMiddle.QueueFifo
import EmbeddedMiddle.QueueThreads
import EmbeddedMiddle.GdatamngRefinement
import EmbeddedMiddle.GdatamngRuns
import EmbeddedMiddle.Foundation.LittleEndian
import EmbeddedMiddle.Foundation.SlidingWindow
import EmbeddedMiddle.Idatamng
import EmbeddedMiddle.IdatamngTable
import EmbeddedMiddle.QueueCalls
import EmbeddedMiddle.Ringbuf
import EmbeddedMiddle.RingbufWindow
import EmbeddedMiddle.Task
import EmbeddedMiddle.TaskMessages
import EmbeddedMiddle.TaskStart
import EmbeddedMiddle.TaskDeletion
import EmbeddedMiddle.Foundation.WatchedBits
import EmbeddedMiddle.EventFlag
import EmbeddedMiddle.Buf
import EmbeddedMiddle.Httpc
import EmbeddedMiddle.Upload
import EmbeddedMiddle.UploadSlots
import EmbeddedMiddle.UploadParts
import EmbeddedMiddle.Foundation.LockOwners
import EmbeddedMiddle.MallocThreads
import EmbeddedMiddle.Timer
import EmbeddedMiddle.TimerRecords
import EmbeddedMiddle.Oalloc
import EmbeddedMiddle.HttpcResponses
import EmbeddedMiddle.Foundation.ResourceUse
import EmbeddedMiddle.HttpcHandles
import EmbeddedMiddle.Foundation.LineStream
import EmbeddedMiddle.CommandInput
import EmbeddedMiddle.Foundation.AckedStream
import EmbeddedMiddle.Ether
import EmbeddedMiddle.RingbufRecent
import EmbeddedMiddle.TaskRouting
import EmbeddedMiddle.TaskCreation
import EmbeddedMiddle.GdatamngSearch
import EmbeddedMiddle.MallocWellFormed
import EmbeddedMiddle.Foundation.RegionHeap
import EmbeddedMiddle.UploadRegions
import EmbeddedMiddle.Foundation.RegionLifecycle
import EmbeddedMiddle.List
import EmbeddedMiddle.Mtxmng
import EmbeddedMiddle.Regions
import EmbeddedMiddle.RegionsReturned
import EmbeddedMiddle.ContainerLifecycles
import EmbeddedMiddle.Foundation.LimitedStore
import EmbeddedMiddle.MempoolHandles
import EmbeddedMiddle.Semmng
import EmbeddedMiddle.EventManager
import EmbeddedMiddle.Command
import EmbeddedMiddle.System
import EmbeddedMiddle.SystemLimits
import EmbeddedMiddle.SystemRuns
import EmbeddedMiddle.Time
import EmbeddedMiddle.MallocTimeout
import EmbeddedMiddle.Foundation.DoublyLinked
import EmbeddedMiddle.ListRefinement
import EmbeddedMiddle.MallocRequests
import EmbeddedMiddle.BufRuns
import EmbeddedMiddle.Mqttc
import EmbeddedMiddle.Foundation.WordScan
import EmbeddedMiddle.CommandWords
import EmbeddedMiddle.CommandAsync
import EmbeddedMiddle.CommandDispatch
import EmbeddedMiddle.MempoolViews
import EmbeddedMiddle.MempoolAreas
import EmbeddedMiddle.GdatamngEnumeration
import EmbeddedMiddle.FactoryFailures
import EmbeddedMiddle.MtxmngIds
import EmbeddedMiddle.Foundation.Printf
import EmbeddedMiddle.Foundation.BoundedPrint
import EmbeddedMiddle.Geojson
import EmbeddedMiddle.GeojsonBounds
import EmbeddedMiddle.Foundation.Json
import EmbeddedMiddle.Foundation.JsonStrings
import EmbeddedMiddle.Foundation.JsonValues
import EmbeddedMiddle.GeojsonText
import EmbeddedMiddle.GeojsonReports
import EmbeddedMiddle.TimeExact
import EmbeddedMiddle.MallocBshift
import EmbeddedMiddle.Foundation.Consecutive
import EmbeddedMiddle.MallocLayout
import EmbeddedMiddle.Foundation.ChainedPrint
import EmbeddedMiddle.Print
import EmbeddedMiddle.Foundation.Settling
import EmbeddedMiddle.QueueTransfers
import EmbeddedMiddle.QueueSettling
import EmbeddedMiddle.TaskThreads
import EmbeddedMiddle.EventFlagThreads
import EmbeddedMiddle.EventFlagRefinement
import EmbeddedMiddle.MempoolSettling
import EmbeddedMiddle.Foundation.Scanf
import EmbeddedMiddle.GeojsonParse
import EmbeddedMiddle.MallocSharing
import EmbeddedMiddle.MallocSettling
import EmbeddedMiddle.TimerTable
import EmbeddedMiddle.Foundation.RegionOwners
import EmbeddedMiddle.TaskRegions
import EmbeddedMiddle.SystemRegions
import EmbeddedMiddle.Foundation.NamedHandles
import EmbeddedMiddle.EtherSockets
import EmbeddedMiddle.MqttcSession
import EmbeddedMiddle.HttpcHeaders
import EmbeddedMiddle.EtherDatagrams
