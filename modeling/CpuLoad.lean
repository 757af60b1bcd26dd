import CpuLoad.FileTree
import CpuLoad.Main
import CpuLoad.Proofs.DoubleOrder
import CpuLoad.Proofs.NearestDouble
import CpuLoad.Proofs.Outcome
import CpuLoad.Proofs.StoreHistory
import CpuLoad.Proofs.Scripted
import CpuLoad.Proofs.Lanes
import CpuLoad.Proofs.UnitInterval
import CpuLoad.Proofs.ExactClock
import CpuLoad.Proofs.RefreshSpacing
import CpuLoad.Proofs.MeterHistory
import CpuLoad.Proofs.TickAccount
import CpuLoad.Proofs.DoubleDifference
import CpuLoad.Proofs.VainRequests
import CpuLoad.Proofs.JournalHandle
import CpuLoad.Proofs.RoundTrace
import CpuLoad.Proofs.Precedence
import CpuLoad.Proofs.ShareLaws
import CpuLoad.Proofs.TickShape
import CpuLoad.Proofs.DailyNames
import CpuLoad.Proofs.DailyFiles
import CpuLoad.Proofs.CollectedBatch
import CpuLoad.Proofs.GaugeCalls
import CpuLoad.Proofs.LoadAverages
import CpuLoad.Proofs.Refusals
import CpuLoad.Proofs.JournalSite
import CpuLoad.Proofs.JournaledRounds
import CpuLoad.Proofs.RoundCount
import CpuLoad.Proofs.Thresholds
import CpuLoad.Proofs.StatRows
import CpuLoad.Proofs.FirstBlock
import CpuLoad.Proofs.UnreadableFiles
import CpuLoad.Proofs.TabledRound
import CpuLoad.Proofs.CivilDays
import CpuLoad.Proofs.DayRollover
import CpuLoad.Proofs.JsonReader
import CpuLoad.Proofs.JsonRecords
import CpuLoad.Proofs.HeldLines
