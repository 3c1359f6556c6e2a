import PackGuard.Scalar.Exact
import PackGuard.Controller.Cycle
import PackGuard.FrontEnd.Bench
import PackGuard.FrontEnd.Recorded
import PackGuard.Chip.Driver
import PackGuard.Chip.Device
import PackGuard.Proofs.Journal
import PackGuard.Proofs.Direction
import PackGuard.Proofs.Footprint
import PackGuard.Proofs.History
import PackGuard.Proofs.SwitchPosition
import PackGuard.Proofs.SwitchTurn
import PackGuard.Proofs.SwitchSafety
import PackGuard.Proofs.SwitchPermission
import PackGuard.Proofs.SwitchRetry
import PackGuard.Proofs.Device
import PackGuard.Proofs.Detection
import PackGuard.Proofs.SingleOrder
import PackGuard.Proofs.TemperatureLimits
import PackGuard.Proofs.Sampling
import PackGuard.Proofs.Confirmation
import PackGuard.Proofs.FaultRound
import PackGuard.Proofs.FaultClearance
import PackGuard.Proofs.SingleRounding
import PackGuard.Proofs.SingleWhole
import PackGuard.Proofs.SingleError
import PackGuard.Proofs.LinearCode
import PackGuard.Proofs.LimitTightness
import PackGuard.Proofs.RegisterAccess
import PackGuard.Proofs.ProtectionRegisters
import PackGuard.Proofs.Reprogramming
import PackGuard.Proofs.BalancingBanks
import PackGuard.Proofs.ChipOutputs
import PackGuard.Proofs.CellLimits
import PackGuard.Proofs.ChipCommands
import PackGuard.Proofs.Restart
import PackGuard.Proofs.Course
import PackGuard.Proofs.Gauge
import PackGuard.Proofs.Exhaustion
import PackGuard.Proofs.RestedBalancing
import PackGuard.Proofs.SwitchPlausibility
import PackGuard.Proofs.GreedySelection
import PackGuard.Proofs.ClearRequests
import PackGuard.Proofs.Persistence
import PackGuard.Proofs.RefusedBanks
import PackGuard.Proofs.RetryCadence
import PackGuard.Proofs.Programming
import PackGuard.Proofs.ProtectionWrites
import PackGuard.Proofs.TemperatureRequest
import PackGuard.Proofs.TemperatureWindows
import PackGuard.Proofs.SingleMonotone
import PackGuard.Proofs.LookupSegment
import PackGuard.Proofs.LookupCode
import PackGuard.Proofs.WordCode
import PackGuard.Proofs.SingleInfinity
import PackGuard.Proofs.HysteresisCode
import PackGuard.Proofs.VoltageBand
import PackGuard.Proofs.LastValidReadings
import PackGuard.Proofs.ChecksumBurst
import PackGuard.Proofs.CheckedReads
import PackGuard.Proofs.ExactCurve
import PackGuard.Proofs.TightCode
import PackGuard.Proofs.ChargeRange
import PackGuard.Proofs.ChargeAccount
import PackGuard.Proofs.ChargeEstimate
import PackGuard.Proofs.TableSetting
import PackGuard.Proofs.RequestOrder
