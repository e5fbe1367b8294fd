import QuarkTS.Lib.Runs
import QuarkTS.Lib.History
import QuarkTS.Lib.Trace
import QuarkTS.Lib.Recall
import QuarkTS.Lib.Fifo
import QuarkTS.Lib.CString
import QuarkTS.Lib.Rollover
import QuarkTS.Lib.Coroutine
import QuarkTS.Lib.Statechart
import QuarkTS.Lib.Guarded
import QuarkTS.Lib.Reactor
import QuarkTS.Lib.Delivery
import QuarkTS.Lib.Deadline
import QuarkTS.Kernel
import QuarkTS.Zmq
import QuarkTS.Clock
import QuarkTS.Program
import QuarkTS.Console
import QuarkTS.QueuedKernel
import QuarkTS.HistoryKernel
import QuarkTS.HistoryProgram
import QuarkTS.GuardedKernel
import QuarkTS.Microwave.Init
import QuarkTS.Microwave.Commands
import QuarkTS.Microwave.Handler
import QuarkTS.Microwave.System
import QuarkTS.Microwave.Door
import QuarkTS.Microwave.Heating
import QuarkTS.Microwave.Session
import QuarkTS.Microwave.Delivery
import QuarkTS.Microwave.Bound
import QuarkTS.Microwave.Diagram
import QuarkTS.Microwave.Console
import QuarkTS.PubSub.Init
import QuarkTS.PubSub.Handler
import QuarkTS.PubSub.Diagram
import QuarkTS.PubSub.Routing
import QuarkTS.PubSub.System
import QuarkTS.PubSub.Console
import QuarkTS.Boot
import QuarkTS.Startup
import QuarkTS.Basic
import QuarkTS.BoundedBuffer
import QuarkTS.Fsm.Led
import QuarkTS.Fsm.Oven
import QuarkTS.Fsm.ShallowHist
import QuarkTS.Fsm.CruiseControl
import QuarkTS.Fsm.Hierarchy
