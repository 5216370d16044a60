import CultivationMotain.UnCloudNotes.ProgressiveMigration
import CultivationMotain.TouchMeIn.LoginGate
import CultivationMotain.HalfTunes.DownloadBookkeeping
import CultivationMotain.HalfTunes.StoredPreviews
import CultivationMotain.HalfTunes.LatestSearch
import CultivationMotain.TextKit.AttributedString
import CultivationMotain.TextKit.EditedParagraphs
import CultivationMotain.TextKit.PLTextStore
import CultivationMotain.TextKit.PMTextStorage
import CultivationMotain.CoreTextMagazine.MarkupText
import CultivationMotain.CoreTextMagazine.ImagePlacement
import CultivationMotain.SocketGame.ReaderWaits
import CultivationMotain.RWReactivePlayground.SignInGate
import CultivationMotain.RWTFlickrSearch.SignalIsolation
import CultivationMotain.TwitterInstant.LatestQuery
import CultivationMotain.HalfTunes.RowReload
import CultivationMotain.HalfTunes.ProgressObservers
import CultivationMotain.WorldCup.MirroredRows
import CultivationMotain.HalfTunes.ResumedData
import CultivationMotain.HalfTunes.ActivityIndicator
import CultivationMotain.BubbleTeaFinder.ViewController
import CultivationMotain.TouchMeIn.MasterViewController
import CultivationMotain.UnCloudNotes.StoreLocation
import CultivationMotain.CoreTextMagazine.PaginationEnds
import CultivationMotain.CoreTextMagazine.PageGeometry
import CultivationMotain.CoreTextMagazine.MarkupPieces
import CultivationMotain.CoreTextMagazine.ParserReuse
import CultivationMotain.CoreTextMagazine.ImageRecords
import CultivationMotain.UnCloudNotes.AttachmentPolicy
import CultivationMotain.HalfTunes.SearchResults
import CultivationMotain.Pinterest.LayoutGeometry
import CultivationMotain.Pinterest.LayoutFreshness
import CultivationMotain.Pinterest.CellMeasurement
import CultivationMotain.SocketGame.AddressWalk
import CultivationMotain.SocketGame.ServiceList
import CultivationMotain.EmployeeDirectory.ImportIfNeeded
import CultivationMotain.EmployeeDirectory.DepartmentList
import CultivationMotain.TouchPainter.MarkRemoval
import CultivationMotain.OfficeBuddy.ContainerViewController
import CultivationMotain.PullToRefresh.RefreshView
import CultivationMotain.BubbleTeaFinder.FilterViewController
import CultivationMotain.HitList.ViewController
import CultivationMotain.BowTies.ViewController
import CultivationMotain.SwiftEx.FindRecommend
import CultivationMotain.SwiftEx.MainViewController
import CultivationMotain.LBSelector.LBSelector
import CultivationMotain.BubbleTeaFinder.AppDelegate
import CultivationMotain.TouchPainter.MarkCopy
import CultivationMotain.TouchPainter.CopyIndependence
import CultivationMotain.SwiftEx.UIViewExtension
import CultivationMotain.Flo.ViewController
import CultivationMotain.LearnAnimationFun.ViewController
import CultivationMotain.TextKit.LayoutViewController
import CultivationMotain.LBSelector.ItemGrid
import CultivationMotain.Library.Threads
import CultivationMotain.Dispatch.Semaphore
import CultivationMotain.Library.LinkedChain
import CultivationMotain.Dispatch.MPSCQueue
import CultivationMotain.Dispatch.Group
import CultivationMotain.Dispatch.GroupNotify
import CultivationMotain.Dispatch.GroupRuns
import CultivationMotain.Dispatch.Once
import CultivationMotain.Library.Weights
import CultivationMotain.Library.ReferenceCounts
import CultivationMotain.Dispatch.Data
import CultivationMotain.Dispatch.DataContents
import CultivationMotain.Dispatch.DataOperations
import CultivationMotain.Dispatch.DataSubrange
import CultivationMotain.Dispatch.DataRegions
import CultivationMotain.Dispatch.DataRuns
import CultivationMotain.Dispatch.Transform
import CultivationMotain.Dispatch.TransformDecode
import CultivationMotain.Dispatch.TransformText
import CultivationMotain.Dispatch.TransformRuns
import CultivationMotain.Dispatch.ApplyRuns
import CultivationMotain.SocketGame.ReadPacket
import CultivationMotain.SocketGame.TermReads
import CultivationMotain.Library.Doubles
import CultivationMotain.Library.Rounding
