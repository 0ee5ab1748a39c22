import Mammut.Kit.Runs
import Mammut.Kit.Programs
import Mammut.Kit.Lockstep
import Mammut.Kit.Slots
import Mammut.Kit.OrdMap
import Mammut.Kit.Grouping
import Mammut.Kit.Integrals
import Mammut.Kit.Partitions
import Mammut.Kit.Wire
import Mammut.Kit.BitFields
import Mammut.Kit.Records
import Mammut.Kit.Dialogues
import Mammut.Kit.Meters
import Mammut.Kit.Digits
import Mammut.Kit.Binary64
import Mammut.Kit.Histories
import Mammut.Kit.Ownership
import Mammut.Cxx
import Mammut.Utils.Text
import Mammut.Utils.Words
import Mammut.Utils.Doubles
import Mammut.Utils.Monitor
import Mammut.Utils.Msr
import Mammut.Communicator.Communicator
import Mammut.Communicator.Dialogues
import Mammut.Communicator.Delivery
import Mammut.Communicator.Truncation
import Mammut.Communicator.Remote
import Mammut.Server.Servant
import Mammut.Server.Answers
import Mammut.Server.Sharing
import Mammut.Server.SharingInvariant
import Mammut.Server.SharingRuns
import Mammut.Server.Calls
import Mammut.Server.Linearizable
import Mammut.Topology.Build
import Mammut.Topology.Units
import Mammut.Topology.Lookups
import Mammut.Topology.Representatives
import Mammut.Topology.Linux
import Mammut.Topology.Scan
import Mammut.Topology.CpuList
import Mammut.Topology.Flags
import Mammut.Topology.Modulation
import Mammut.Topology.Rollback
import Mammut.Topology.ClockModulation
import Mammut.Topology.ModulationFaults
import Mammut.Topology.HotPlug
import Mammut.Topology.Utilization
import Mammut.Topology.Messages
import Mammut.Topology.Service
import Mammut.Topology.ServiceEnds
import Mammut.Topology.IdleTime
import Mammut.Topology.Remote
import Mammut.Topology.Codec
import Mammut.Topology.RemoteUnits
import Mammut.Topology.RemoteAgrees
import Mammut.Cpufreq.Domain
import Mammut.Cpufreq.Turbo
import Mammut.Cpufreq.Governors
import Mammut.Cpufreq.DomainLookups
import Mammut.Cpufreq.CpuFreq
import Mammut.Cpufreq.Epyc
import Mammut.Cpufreq.Cells
import Mammut.Cpufreq.Rollback
import Mammut.Cpufreq.Policies
import Mammut.Cpufreq.Voltages
import Mammut.Cpufreq.VoltageGrid
import Mammut.Cpufreq.VoltageFile
import Mammut.Cpufreq.Messages
import Mammut.Cpufreq.Codec
import Mammut.Cpufreq.Service
import Mammut.Cpufreq.Endings
import Mammut.Cpufreq.ServiceEnds
import Mammut.Cpufreq.Remote
import Mammut.Cpufreq.RemoteAgrees
import Mammut.Cpufreq.RemoteDomains
import Mammut.Cpufreq.Construction
import Mammut.Cpufreq.Kernel
import Mammut.Cpufreq.KernelRuns
import Mammut.Energy.Counter
import Mammut.Energy.Plug
import Mammut.Energy.PlugRuns
import Mammut.Energy.SmartPower2
import Mammut.Energy.Runs
import Mammut.Energy.Msr
import Mammut.Energy.MsrMeters
import Mammut.Energy.MsrInit
import Mammut.Energy.MsrRuns
import Mammut.Energy.Moments
import Mammut.Energy.Sums
import Mammut.Energy.Wrapping
import Mammut.Energy.SysFs
import Mammut.Energy.SysFsMeters
import Mammut.Energy.SysFsRuns
import Mammut.Energy.Positions
import Mammut.Energy.MsrThrows
import Mammut.Energy.PowerCapper
import Mammut.Energy.Service
import Mammut.Energy.Codec
import Mammut.Energy.Remote
import Mammut.Energy.Refresher
import Mammut.Energy.RefresherRuns
import Mammut.Energy.RemoteReads
import Mammut.Energy.RemoteThreads
import Mammut.Server.Server
import Mammut.Task.Throttler
import Mammut.Task.Signals
import Mammut.Task.Percentages
import Mammut.Task.Intervals
import Mammut.Task.Requests
import Mammut.Task.Handlers
import Mammut.Task.Affinity
import Mammut.Task.Stat
import Mammut.Handles
