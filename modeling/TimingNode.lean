import TimingNode.Word
import TimingNode.Fault
import TimingNode.Phase
import TimingNode.Phase.Transition
import TimingNode.Timestamp
import TimingNode.Timestamp.Reception
import TimingNode.Store.Error
import TimingNode.Device
import TimingNode.Scan.Config
import TimingNode.Scan.EdgeDetector
import TimingNode.Scan.Midpoint
import TimingNode.Scan
import TimingNode.Tag
import TimingNode.Tag.Fifo
import TimingNode.Loop.Config
import TimingNode.Loop.Actuator
import TimingNode.Loop.Registers
import TimingNode.Loop
import TimingNode.Loop.Steering
import TimingNode.Loop.Service
import TimingNode.Store.Eeprom
import TimingNode.Store.Memory
import TimingNode.Store
import TimingNode.Calibrator.Error
import TimingNode.Calibrator
import TimingNode.Shell.Blank
import TimingNode.Shell.Error
import TimingNode.Shell.Command
import TimingNode.Shell.Tracking
import TimingNode.Shell.Calibration
import TimingNode.Shell
import TimingNode.Node
import TimingNode.Bench.SettlingShifter
import TimingNode.Bench.Signal
import TimingNode.Bench.Countdown
import TimingNode.Bench.LimitedConsole
import TimingNode.Bench
import TimingNode.Wiring
import TimingNode.Plant.Oscillator
import TimingNode.Plant.Receiver
import TimingNode.Plant
import TimingNode.Plant.Drive
import TimingNode.Plant.ClosedLoop
import TimingNode.Session
import TimingNode.Main
import TimingNode.Proofs.ArrivalRecovery
import TimingNode.Proofs.EdgeDetection
import TimingNode.Proofs.EdgeRuns
import TimingNode.Proofs.EdgeLocation
import TimingNode.Proofs.ScanTuning
import TimingNode.Proofs.CircularMidpoint
import TimingNode.Proofs.ScanPulses
import TimingNode.Proofs.ScanAccuracy
import TimingNode.Proofs.SquareWaveScan
import TimingNode.Proofs.SharedSetpoint
import TimingNode.Proofs.TagReplay
import TimingNode.Proofs.QueueHistory
import TimingNode.Proofs.ServiceHistory
import TimingNode.Proofs.StoredPhase
import TimingNode.Proofs.StoredRegister
import TimingNode.Proofs.LoopTags
import TimingNode.Proofs.HaltedLoop
import TimingNode.Proofs.ServiceCalls
import TimingNode.Proofs.ServiceConsistency
import TimingNode.Proofs.RegisterWord
import TimingNode.Proofs.SteeringArithmetic
import TimingNode.Proofs.ActuatorPursuit
import TimingNode.Proofs.PlantTick
import TimingNode.Proofs.LoopConvergence
import TimingNode.Proofs.CarriedScan
import TimingNode.Proofs.FlipVerdict
import TimingNode.Proofs.FreshRestart
import TimingNode.Proofs.OverrunRecovery
import TimingNode.Proofs.CalibrationPrograms
import TimingNode.Proofs.CarriedPrograms
import TimingNode.Proofs.ScanResult
import TimingNode.Proofs.StoredCalibration
import TimingNode.Proofs.DutyCycle
import TimingNode.Proofs.LockstepScans
import TimingNode.Proofs.ShortGlitches
import TimingNode.Proofs.LoopInputs
import TimingNode.Proofs.LoopLaw
import TimingNode.Proofs.LockHysteresis
import TimingNode.Proofs.PublishedLoop
import TimingNode.Proofs.CommonPhase
import TimingNode.Proofs.SetpointWalk
import TimingNode.Proofs.ScanPolls
import TimingNode.Proofs.FoldedTransition
import TimingNode.Proofs.ScanUpdates
import TimingNode.Proofs.LateVerdict
import TimingNode.Proofs.ExactPhases
import TimingNode.Proofs.CalibratorJournal
import TimingNode.Proofs.CalibratorCalls
import TimingNode.Proofs.CalibratorPolicy
import TimingNode.Proofs.CommandLog
import TimingNode.Proofs.CommandConduct
import TimingNode.Proofs.CalibrationCommand
import TimingNode.Proofs.TimestampOrder
import TimingNode.Proofs.CommandWords
import TimingNode.Proofs.DisjointRuns
import TimingNode.Proofs.ConversionLaw
import TimingNode.Proofs.TuningLimits
import TimingNode.Proofs.OscillatorTags
