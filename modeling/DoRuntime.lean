import DoRuntime.Alarms.Cancellation
import DoRuntime.Alarms.RetryLadder
import DoRuntime.Alarms.RunningMark
import DoRuntime.Alarms.TableAgreement
import DoRuntime.Alarms.WakeCovers
import DoRuntime.Api.BatchedGet
import DoRuntime.Api.ListExact
import DoRuntime.Backends.PoolHeadroom
import DoRuntime.Backends.Replacement
import DoRuntime.Browser.ChromePort
import DoRuntime.Browser.DeliveryClosed
import DoRuntime.Browser.FramesKept
import DoRuntime.Browser.HonestAnswers
import DoRuntime.Browser.PlacementExclusion
import DoRuntime.Browser.PortFrames
import DoRuntime.Facets.CloneNames
import DoRuntime.Facets.DeletionReceipts
import DoRuntime.Facets.FacetDeletion
import DoRuntime.Facets.FailedAppend
import DoRuntime.Facets.ReferenceEpochs
import DoRuntime.Facets.OperationTails
import DoRuntime.Io.BrokenGate
import DoRuntime.Io.CancelledWait
import DoRuntime.Io.GateHooks
import DoRuntime.Io.HookBalance
import DoRuntime.Io.LocksKept
import DoRuntime.Io.OutputWaits
import DoRuntime.Io.PlatformTimer
import DoRuntime.Io.RootTurns
import DoRuntime.Io.TimersKept
import DoRuntime.Server.ActorId
import DoRuntime.Sql.ReservedNames
import DoRuntime.Sql.SameChange
import DoRuntime.Storage.AllOrNothing
import DoRuntime.Storage.BookmarkOrder
import DoRuntime.Storage.CachesAgree
import DoRuntime.Storage.Migrations
import DoRuntime.Storage.MoveLater
import DoRuntime.Storage.ScheduleFirst
import DoRuntime.Storage.SetAlarm
import DoRuntime.Storage.SyncAllOrNothing
import DoRuntime.Vite.WrapsExactly
import DoRuntime.WebSockets.FrameDelivery
import DoRuntime.WebSockets.WokenAlike
import DoRuntime.WebSockets.WriteOrder
