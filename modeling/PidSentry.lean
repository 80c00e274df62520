import PidSentry.TetherTimeout
import PidSentry.PingEcho
import PidSentry.TetherCopy
import PidSentry.CommandWorld
import PidSentry.Launch
import PidSentry.Synchronisation
import PidSentry.SlowClient
import PidSentry.Rounds
import PidSentry.StopUmbilical
import PidSentry.Continuation
import PidSentry.Shelter
import PidSentry.VanishingProcess
import PidSentry.ExposedPidFile
import PidSentry.PidServerLifetime
import PidSentry.FailedConstruction
import PidSentry.PidFileLifetime
import PidSentry.SilentChild
import PidSentry.TetherDescriptor
import PidSentry.ProcessTable
import PidSentry.ProcessWorld
import PidSentry.ProcessSignals
import PidSentry.TetherThread
import PidSentry.Supervision
import PidSentry.Reporting
import PidSentry.CommandRun
import PidSentry.ReferenceWorld
import PidSentry.References
import PidSentry.AgentRun
import PidSentry.AgentWorld
import PidSentry.Watchdog
import PidSentry.UmbilicalCleanup
