import X86Energy.Access.AdvertisedCounters
import X86Energy.Access.Agreement
import X86Energy.Access.MsrSlots
import X86Energy.Access.PerfHandles
import X86Energy.Access.Placement
import X86Energy.Access.PowercapFiles
import X86Energy.Access.TestProgram
import X86Energy.Access.TornReads
import X86Energy.Access.UnitFailures
import X86Energy.Access.X86AdaptDevices
import X86Energy.Architecture.SourceSelection
import X86Energy.Architecture.TestCpu
import X86Energy.Architecture.UniqueIds
import X86Energy.Error.ErrorBytes
import X86Energy.OverflowThread.Failures
import X86Energy.OverflowThread.Reuse
import X86Energy.OverflowThread.SleepTimes
import X86Energy.OverflowThread.ThreadSafety
import X86Energy.ParseArchitecture.AccountedTrees
import X86Energy.ParseArchitecture.CpuList
import X86Energy.ParseArchitecture.FreeTree
import X86Energy.ParseArchitecture.LayeredBuild
import X86Energy.ParseArchitecture.ListGrowth
import X86Energy.ParseArchitecture.NodeOrder
import X86Energy.ParseArchitecture.PrintTree
import X86Energy.ParseArchitecture.SortTree
import X86Energy.ParseArchitecture.StackBytes
import X86Energy.ParseArchitecture.SwallowedErrors
import X86Energy.Wrappers.AccessSources
