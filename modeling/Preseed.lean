import Preseed.HardwareTuning.RateLimit
import Preseed.HardwareTuning.Recovery
import Preseed.HardwareTuning.DaemonRuns
import Preseed.HardwareTuning.PowerRuns
import Preseed.Nftables.PublicationRecovery
import Preseed.HardwareTuning.PolicyOwnerRuns
import Preseed.Storage.Recipe
import Preseed.Nftables.Defines
import Preseed.Coordination.Restoration
import Preseed.Reminders.AtMostOnce
import Preseed.Reminders.EarliestDue
import Preseed.Reminders.PhoneDelivery
import Preseed.Aptly.Receipts
import Preseed.DesktopFirewall.MutationRecovery
import Preseed.AppVeth.FailClosed
import Preseed.ThemeArchive.SharedDirectories
import Preseed.Compatibility.Reported
import Preseed.Compatibility.Accounting
import Preseed.Copilots.Arbitration
import Preseed.OutputWatch.Runs
import Preseed.HardwareTuning.ResetReport
import Preseed.Compatibility.OneInstance
import Preseed.ClassPlan.Metadata
import Preseed.ManagedNetwork.OpenQuotes
import Preseed.TailnetRoutes.Convergence
import Preseed.AppPolicy.ConflictFree
import Preseed.Appearance.AppearanceChanges
import Preseed.NetworkSharing.Soundness
import Preseed.HardwareTuning.Resolution
import Preseed.HardwareTuning.PowerProfileHolds
import Preseed.HardwareTuning.ThermalGate
import Preseed.HardwareTuning.ClockSearch
import Preseed.HardwareTuning.AtomicApply
import Preseed.HardwareTuning.SeatSelections
import Preseed.Zram.PressureEvaluator
import Preseed.Zram.DynamicSizes
import Preseed.Zram.DailyBudget
import Preseed.Zram.BlockReads
import Preseed.Zram.RangeRoundTrip
import Preseed.Zram.SpecTruncation
import Preseed.Zram.ApplyPlan
import Preseed.Nftables.Overlay
import Preseed.Aptly.ClearSigned
import Preseed.Aptly.ManagedSigning
import Preseed.KeyManager.Chains
import Preseed.ThemeArchive.Framing
import Preseed.Copilots.Gguf
import Preseed.Compz.RoundTrip
import Preseed.Compatibility.SpotifyOutput
