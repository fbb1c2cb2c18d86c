import Peak.Controller.RoundTrip
import Peak.Guard.ForkNeutral
import Peak.Guard.StopCookie
import Peak.Socket.Admission
import Peak.Socket.Agreement
import Peak.Helper.Guarantee
import Peak.Listener.Extremes
import Peak.Listener.HandoverSteps
import Peak.Report.Retirement
import Peak.Report.Session
import Peak.Report.Capabilities
import Peak.Utils.CrashSafety
import Peak.Loader.Conservation
import Peak.Loader.GuardRevert
import Peak.Target.Equivalence
import Peak.Exec.InjectionSound
import Peak.Exec.PathSearch
import Peak.Cuda.SlotGenerations
import Peak.Memory.TrackingExact
import Peak.Jit.Consumption
import Peak.Pthread.SlotExclusivity
import Peak.Registry.Reclaim
import Peak.Heartbeat.Pacing
import Peak.Mpi.Finalize
import Peak.Heartbeat.GlobalDetach
import Peak.Hooks.ControlWord
