import Videovigilancia.RoundTripProofs
import Videovigilancia.ProvenanceProofs
import Videovigilancia.NumberProofs
import Videovigilancia.CallProofs
import Videovigilancia.CounterProofs
import Videovigilancia.CompletionProofs
import Videovigilancia.ConnectionProofs
import Videovigilancia.LinkProofs
import Videovigilancia.SequenceProofs
import Videovigilancia.PathProofs
import Videovigilancia.ServerProofs
import Videovigilancia.ReclaimProofs
import Videovigilancia.BenchmarkProofs
import Videovigilancia.CommandLineProofs
import Videovigilancia.DaemonProofs
import Videovigilancia.ConversionProofs
import Videovigilancia.ColorProofs
import Videovigilancia.MotionProofs
import Videovigilancia.IsolationProofs
import Videovigilancia.SurveillanceProofs
import Videovigilancia.SynchronousProofs
import Videovigilancia.RecoveryProofs
import Videovigilancia.ArchiveProofs
import Videovigilancia.FailingThreads
import Videovigilancia.OutageProofs
