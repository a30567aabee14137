import CppRtos.Library.Interleaving
import CppRtos.Library.Words
import CppRtos.Library.RingBuffer
import CppRtos.Task
import CppRtos.Port
import CppRtos.Fifo
import CppRtos.Fifo.Refinement
import CppRtos.Kernel
import CppRtos.Context
import CppRtos.Context.Fidelity
import CppRtos.Mutex
import CppRtos.EventGroup
import CppRtos.EventGroup.WakeUp
import CppRtos.EventGroup.Answers
import CppRtos.System
import CppRtos.System.Selection
import CppRtos.System.Representation
import CppRtos.System.Inheritance
import CppRtos.System.NoTaskLost
import CppRtos.System.Device
import CppRtos.System.Sleep
import CppRtos.System.Timeouts
import CppRtos.MessageQueue
import CppRtos.MessageQueue.Conservation
import CppRtos.Mutex.Exclusion
import CppRtos.Mutex.Restoration
import CppRtos.Mutex.Waiting
import CppRtos.Semaphore.Conservation
import CppRtos.Semaphore.Signalling
import CppRtos.Kernel.TimeSlice
import CppRtos.Kernel.Activation
import CppRtos.Timing.Timers
import CppRtos.Mutex.Indexed
import CppRtos.MessageQueue.Lock
import CppRtos.System.ZeroTimeout
import CppRtos.Mutex.Destruction
import CppRtos.Mutex.Levels
import CppRtos.Kernel.Summary
import CppRtos.Timing.Countdown
import CppRtos.Task.Name
import CppRtos.System.Deadlock
import CppRtos.System.Assertions
import CppRtos.MessageQueue.Serial
import CppRtos.MessageQueue.Regions
import CppRtos.Semaphore.Pool
import CppRtos.System.Urgency
import CppRtos.System.Guards
import CppRtos.Kernel.Timers
import CppRtos.Kernel.Alternation
import CppRtos.Context.Startup
import CppRtos.System.Scheduler
import CppRtos.System.Callbacks
import CppRtos.System.Timers
