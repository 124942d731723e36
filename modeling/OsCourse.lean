import OsCourse.TransitionSystem
import OsCourse.Processes
import OsCourse.LockOwnership
import OsCourse.CheckedBuffer
import OsCourse.GridBuffer
import OsCourse.MappedMemory
import OsCourse.BoundedLog
import OsCourse.RunLength
import OsCourse.DecimalText
import OsCourse.BinaryRounding
import OsCourse.LineInput
import OsCourse.ScanText
import OsCourse.ScanFloat
import OsCourse.ScanWord
import OsCourse.ScanHex
import OsCourse.ScanLines
import OsCourse.MergeSort
import OsCourse.MergeSortFrame
import OsCourse.Median
import OsCourse.Statistics
import OsCourse.StatisticsInput
import OsCourse.SharedText
import OsCourse.RleCodec
import OsCourse.RleOptimality
import OsCourse.AirportTower
import OsCourse.AirControlPy
import OsCourse.AirControlPyLocks
import OsCourse.AirControlPyRunways
import OsCourse.AirportAccounting
import OsCourse.ClosingReport
import OsCourse.AirControlC
import OsCourse.TakeoffRaces
import OsCourse.AirportStartup
import OsCourse.AirControlCThreads
import OsCourse.CoarseSections
import OsCourse.PlanesLedger
import OsCourse.TakeoffProgress
import OsCourse.GroundCredits
import OsCourse.BatchSignals
import OsCourse.DataProcessor
import OsCourse.UnlockedTickets
import OsCourse.TicketBuyer
import OsCourse.TicketOffice
import OsCourse.TicketConservation
import OsCourse.TicketRequests
import OsCourse.TicketStartup
import OsCourse.TicketReports
import OsCourse.HorseRace
import OsCourse.PixelDecoders
import OsCourse.DecoderTimer
import OsCourse.DecimalRows
import OsCourse.PixelText
import OsCourse.TrialDivision
import OsCourse.PrimalityTest
import OsCourse.PrimeQueue
import OsCourse.PrimeDelivery
import OsCourse.QueueMessages
import OsCourse.NumberedMessages
import OsCourse.CommandQueue
import OsCourse.CommandFile
import OsCourse.SystemActivity
import OsCourse.SystemReport
import OsCourse.VruntimeLog
import OsCourse.VruntimeMonitor
import OsCourse.MapsRange
import OsCourse.MemoryBlocks
import OsCourse.MemoryLog
import OsCourse.TheatrePlay
import OsCourse.SemaphoreHandOff
import OsCourse.UnguardedFloats
import OsCourse.BallGame
import OsCourse.MatrixProduct
import OsCourse.AlarmDriver
import OsCourse.ArraySum
import OsCourse.ForkedPrograms
import OsCourse.JokeSession
