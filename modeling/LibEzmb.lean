import LibEzmb.QueueRefinement
import LibEzmb.BusTopic
import LibEzmb.BusDelivery
import LibEzmb.TcpBridge
import LibEzmb.TcpClients
import LibEzmb.SerialEvents
import LibEzmb.ListenThreads
import LibEzmb.SerialLocks
import LibEzmb.BaseStream
import LibEzmb.SerialStream
import LibEzmb.BaseCLib
import LibEzmb.SerialOptions
import LibEzmb.SerialConfigs
import LibEzmb.CollectorMain
import LibEzmb.CollectorStart
import LibEzmb.CollectorRuns
import LibEzmb.BusConcurrent
import LibEzmb.TcpSenders
import LibEzmb.CollectorDownstream
import LibEzmb.SerialLifecycle
import LibEzmb.BaseDecimal
import LibEzmb.SerialReference
import LibEzmb.SerialForms
import LibEzmb.BaseMask
import LibEzmb.SerialLine
import LibEzmb.SerialUsable
import LibEzmb.QueueMerge
import LibEzmb.BaseLedger
import LibEzmb.QueueLife
import LibEzmb.QueueFates
import LibEzmb.TcpServerLife
import LibEzmb.BaseTypestate
import LibEzmb.SerialLength
import LibEzmb.SerialNulls
import LibEzmb.BusHandles
import LibEzmb.PluginContexts
import LibEzmb.BaseRefs
import LibEzmb.TcpPort
import LibEzmb.LuaReferences
import LibEzmb.LuaSend
import LibEzmb.BaseWorkerCalls
import LibEzmb.LuaDevice
import LibEzmb.LuaLifeCycle
import LibEzmb.LuaNulls
import LibEzmb.BaseBuffer
import LibEzmb.BaseLua
import LibEzmb.SerialPoll
import LibEzmb.PluginTransforms
import LibEzmb.BusChannel
import LibEzmb.GatewayModel
import LibEzmb.GatewayRuns
import LibEzmb.GatewayDelivery
import LibEzmb.BusProgress
import LibEzmb.GatewayProgress
import LibEzmb.BaseOwnership
import LibEzmb.BusObjects
import LibEzmb.TcpMemory
import LibEzmb.TcpActuator
import LibEzmb.BaseHex
import LibEzmb.Hexdump
import LibEzmb.SerialOutflow
import LibEzmb.BusSubscriptions
import LibEzmb.SerialLoader
import LibEzmb.SerialRecovery
