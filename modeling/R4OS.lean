import R4OS.Update.ReplayValidity
import R4OS.Update.JournalFields
import R4OS.Update.BatchFields
import R4OS.Removal.Invocations
import R4OS.Upload.PublishClaim
import R4OS.Ntfs.FileContents
import R4OS.Registry.Tree
import R4OS.Registry.BuildRoundTrip
import R4OS.Persistence.AsyncRuns
import R4OS.Persistence.SaveHistory
import R4OS.Gpt.RepairSafety
import R4OS.Gpt.CommitSafety
import R4OS.WebCache.Soundness
import R4OS.Resources.Dispatch
import R4OS.FontCache.Evictions
import R4OS.Http.RequestLines
import R4OS.Http.FailClosed
import R4OS.Subsystem.ServiceBound
import R4OS.Web.AddressLaws
import R4OS.Web.CookieConfinement
import R4OS.Web.PolicySoundness
import R4OS.Web.StorageMap
import R4OS.SubsystemCatalog.ResolutionLaws
import R4OS.StorageTools.SparseExactness
import R4OS.LibraryContract.BindingSoundness
import R4OS.NtfsFormat.NameConversion
import R4OS.NtfsBuilder.PlanSuccess
import R4OS.Update.NormalForms
import R4OS.SystemInventory.Updates
import R4OS.Registry.CanonicalPaths
import R4OS.Gpt.PlanChanges
import R4OS.Gpt.FreeRanges
import R4OS.Ntfs.RunlistIterator
import R4OS.Ntfs.AllocationFailure
import R4OS.NtfsFormat.Decompression
import R4OS.Update.DistinctPaths
import R4OS.Path.Normalization
