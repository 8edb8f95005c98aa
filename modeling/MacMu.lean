import MacMu.Core.ControlWriteFailure
import MacMu.Core.ControlCompletion
import MacMu.Core.GuestCompletion
import MacMu.Shell.DisplayGeometry
import MacMu.Core.FrameSnapshots
import MacMu.Core.GuestControlRoundTrip
import MacMu.Core.GuestControlIntegrity
import MacMu.Qemu.ReceiverAnswers
import MacMu.Shell.ClosingRuns
import MacMu.Shell.FrameRedraws
import MacMu.Core.ImportCancellation
import MacMu.Core.ImportContainment
import MacMu.Agent.TouchStreams
import MacMu.Agent.MouseStreams
import MacMu.Shell.GestureEnds
import MacMu.Qemu.StreamingAgreement
import MacMu.Core.ReplacementAtomicity
import MacMu.Core.ReplacementSuccess
import MacMu.Core.ReplacementCrashes
import MacMu.Packager.ImportRoundTrip
import MacMu.Shell.ModifierTracking
import MacMu.Core.GuestInputStop
import MacMu.Core.GuestControlNotices
import MacMu.Core.TimeoutEnforcement
import MacMu.Agent.HoverStreams
import MacMu.Agent.PointerReset
import MacMu.Agent.RelaunchedDisplay
import MacMu.Core.MachineCreation
import MacMu.Core.FrameScans
import MacMu.Qemu.VendorBoot
import MacMu.Shell.ImportHandOff
import MacMu.Shell.QemuShutdown
import MacMu.Core.QemuLauncher
import MacMu.Core.OptionOrder
import MacMu.Qemu.ExportPacing
