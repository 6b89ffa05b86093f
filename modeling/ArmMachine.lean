import ArmMachine.Main
import ArmMachine.Proofs.Device.Latching
import ArmMachine.Proofs.Device.ByteStreams
import ArmMachine.Proofs.Paging.Footprint
import ArmMachine.Proofs.Paging.Eviction
import ArmMachine.Proofs.Paging.Invalidation
import ArmMachine.Proofs.Paging.Permission
import ArmMachine.Proofs.Execution.Precision
import ArmMachine.Proofs.Execution.Protection
import ArmMachine.Proofs.Execution.Return
import ArmMachine.Proofs.Execution.Escalation
import ArmMachine.Proofs.Execution.Noninterference
import ArmMachine.Proofs.Execution.Halting
import ArmMachine.Proofs.Execution.Accounting
import ArmMachine.Proofs.Execution.ArmState
import ArmMachine.Proofs.Execution.BareMetal
import ArmMachine.Proofs.Execution.Restart
import ArmMachine.Proofs.Execution.BlockRoundTrip
import ArmMachine.Proofs.Parking
import ArmMachine.Proofs.Execution.TransferLayout
import ArmMachine.Proofs.LongArithmetic
import ArmMachine.Proofs.Shifting
import ArmMachine.Proofs.Encoding
import ArmMachine.Proofs.Banking
import ArmMachine.Proofs.Execution.Comparison
import ArmMachine.Proofs.Execution.Multiplication
import ArmMachine.Proofs.ImageLoading
import ArmMachine.Proofs.KernelBoot
import ArmMachine.Proofs.AddressDecoding
import ArmMachine.Proofs.Device.Countdown
import ArmMachine.Proofs.Device.Inert
import ArmMachine.Proofs.Execution.PcAlignment
import ArmMachine.Proofs.WordAccess
