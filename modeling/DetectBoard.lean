import DetectBoard.Library.Machine
import DetectBoard.Library.Memory
import DetectBoard.Library.BlockReceiver
import DetectBoard.Library.SlidingWindow
import DetectBoard.Library.Hysteresis
import DetectBoard.Library.BoundedQueue
import DetectBoard.Library.ShiftRegister
import DetectBoard.Library.Correlation
import DetectBoard.Library.Interpolation
import DetectBoard.Library.ByteOrder
import DetectBoard.Library.LinkedList
import DetectBoard.Library.QueueOrder
import DetectBoard.Library.AlarmClock
import DetectBoard.Kernel.MessageQueue
import DetectBoard.Kernel.Credits
import DetectBoard.Kernel.Delivery
import DetectBoard.Kernel.Timer
import DetectBoard.System.Node
import DetectBoard.System.Wire
import DetectBoard.System.Order
import DetectBoard.System.Acknowledgement
import DetectBoard.System.Suspension
import DetectBoard.Checksum
import DetectBoard.CyclicRedundancy
import DetectBoard.Flash.OnChip
import DetectBoard.Flash.Partition
import DetectBoard.Can.Message
import DetectBoard.Board
import DetectBoard.Ota.Handle
import DetectBoard.Can.Dispatch
import DetectBoard.Can.Transmission
import DetectBoard.Can.Exclusion
import DetectBoard.Can.Writes
import DetectBoard.Ota.Session
import DetectBoard.Ota.Integrity
import DetectBoard.Ota.Safety
import DetectBoard.Ota.Completeness
import DetectBoard.Ota.Extent
import DetectBoard.Can.Separation
import DetectBoard.Can.Reception
import DetectBoard.Plate.MedianFilter
import DetectBoard.Plate.SlidingMedian
import DetectBoard.Plate.Judge
import DetectBoard.Plate.Classifier
import DetectBoard.Plate.Hysteresis
import DetectBoard.Plate.Steady
import DetectBoard.Plate.ErrorState
import DetectBoard.Plate.Monotone
import DetectBoard.Plate.Rearm
import DetectBoard.Lcr.WaveTable
import DetectBoard.Lcr.Measure
import DetectBoard.Lcr.Impedance
import DetectBoard.Bubble.Detection
import DetectBoard.Bubble.Delivery
import DetectBoard.Bubble.Channels
import DetectBoard.Inform
import DetectBoard.Strip
import DetectBoard.Rgb
import DetectBoard.Temperature
import DetectBoard.UidEncryption
