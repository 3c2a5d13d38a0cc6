import UclBench.Loop
import UclBench.Buffer
import UclBench.Cycle
import UclBench.Interleave
import UclBench.Strided
import UclBench.Stmt
import UclBench.CString
import UclBench.CStorage
import UclBench.Separated
import UclBench.Effect
import UclBench.SizeList
import UclBench.DeviceList
import UclBench.ClLib.Devices
import UclBench.ClLib.LoadKernel
import UclBench.ClLib.DirName
import UclBench.ClLib.ClInfo
import UclBench.ClLib.GetOpt
import UclBench.ClLib.OptionLoop
import UclBench.ClLib.StringOptions
import UclBench.ClLib.Timing
import UclBench.OpenCL.Lexer
import UclBench.OpenCL.Parser
import UclBench.OpenCL.Exec
import UclBench.OpenCL.Guarded
import UclBench.OpenCL.GuardedRun
import UclBench.OpenCL.Objects
import UclBench.OpenCL.Returns
import UclBench.OpenCL.Unchecked
import UclBench.MemLatency.Ring
import UclBench.MemLatency.Kernel
import UclBench.MemLatency.Agree
import UclBench.MemLatency.Adjust
import UclBench.MemLatency.Options
import UclBench.MemLatency.Report
import UclBench.MemLatency.CommandLine
import UclBench.ArithSpeed.GenKernel
import UclBench.ArithSpeed.Prints
import UclBench.ArithSpeed.KernelText
import UclBench.ArithSpeed.BufferBounds
import UclBench.ArithSpeed.Geometry
import UclBench.ArithSpeed.KernelSyntax
import UclBench.ArithSpeed.KernelRun
import UclBench.ArithSpeed.Host
import UclBench.ArithSpeed.Agree
import UclBench.ArithSpeed.Accounting
import UclBench.ArithSpeed.FunctionList
import UclBench.ArithSpeed.Sweep
import UclBench.MemStreaming.Kernel
import UclBench.MemStreaming.LocalMem
import UclBench.MemStreaming.Launch
import UclBench.MemStreaming.Host
import UclBench.MemStreaming.Accounting
import UclBench.MemStreaming.GlobalMem
import UclBench.MemStreaming.Launches
import UclBench.MemStreaming.CommandLine
import UclBench.BufferBandwidth.Transfer
import UclBench.BufferBandwidth.Verified
import UclBench.BufferBandwidth.Reported
import UclBench.BufferBandwidth.Repeats
import UclBench.BufferBandwidth.CommandLine
import UclBench.KernelOverheads.GenKernel
import UclBench.KernelOverheads.BufferBounds
import UclBench.KernelOverheads.KernelSyntax
import UclBench.KernelOverheads.KernelRun
import UclBench.KernelOverheads.CommandLine
import UclBench.KernelOverheads.Durations
import UclBench.BranchPenalty.Selector
import UclBench.BranchPenalty.Kernel
import UclBench.BranchPenalty.Measure
import UclBench.Released.BufferBandwidth
import UclBench.Released.ArithSpeed
import UclBench.Released.MemLatency
import UclBench.Released.MemStreaming
import UclBench.Released.KernelOverheads
