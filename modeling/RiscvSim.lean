import RiscvSim.Instr.Decode
import RiscvSim.Lib.DecisionTree
import RiscvSim.Proofs.Memory.Translation
import RiscvSim.Proofs.Memory.Mapper
import RiscvSim.Lib.RadixTables
import RiscvSim.Proofs.Memory.FlatStore
import RiscvSim.Proofs.Memory.Pte
import RiscvSim.Proofs.Instr.Decoder
import RiscvSim.Hart
import RiscvSim.Cache.Tlb
import RiscvSim.Bb.Bb
import RiscvSim.Cache.BbCache
import RiscvSim.Simulator.Dispatch
import RiscvSim.Proofs.Instr.Operands
import RiscvSim.Simulator.Simulator
import RiscvSim.Simulator.Step
import RiscvSim.Proofs.Memory.Mmu64
import RiscvSim.Simulator.Plain
import RiscvSim.Proofs.Simulator.Handlers
import RiscvSim.Proofs.Simulator.Tlb
import RiscvSim.Proofs.Simulator.Loop
import RiscvSim.Proofs.Simulator.Dispatch
import RiscvSim.Proofs.Simulator.Failure
import RiscvSim.Proofs.Simulator.Isolation
import RiscvSim.Proofs.Simulator.Block
import RiscvSim.Proofs.Simulator.Prefetch
import RiscvSim.Proofs.Simulator.Refinement
import RiscvSim.Proofs.Simulator.History
import RiscvSim.Simulator.HostCall
import RiscvSim.Proofs.Simulator.HostCall
import RiscvSim.Lib.Rv64i
import RiscvSim.Proofs.Isa.Registers
import RiscvSim.Proofs.Isa.Represents
import RiscvSim.Proofs.Isa.Compute
import RiscvSim.Proofs.Isa.Shift
import RiscvSim.Proofs.Isa.Transfer
import RiscvSim.Proofs.Isa.Access
import RiscvSim.Proofs.Isa.Immediate
import RiscvSim.Proofs.Isa.LoadStore
import RiscvSim.Lib.SvPaging
import RiscvSim.Proofs.Memory.Walk
import RiscvSim.Proofs.Memory.PagingRules
import RiscvSim.Lib.SlotLog
import RiscvSim.Proofs.Simulator.Sentinels
import RiscvSim.Proofs.Memory.Reach
import RiscvSim.Proofs.Memory.FailedMap
import RiscvSim.ElfLoad.ElfLoader
import RiscvSim.Proofs.BitField
import RiscvSim.Proofs.Csr
import RiscvSim.Proofs.CsrFile
import RiscvSim.Memory.HostMemory
import RiscvSim.Proofs.Memory.HostMemory
import RiscvSim.Proofs.Simulator.Progress
import RiscvSim.Lib.CArith
import RiscvSim.Simulator.Sums
import RiscvSim.Proofs.Isa.SignedSums
import RiscvSim.Proofs.Simulator.Alignment
import RiscvSim.Proofs.ElfLoad.PageLoop
import RiscvSim.Lib.RadixCount
import RiscvSim.Proofs.Memory.Accounting
import RiscvSim.Proofs.ElfLoad.Loading
import RiscvSim.Proofs.ElfLoad.Copying
import RiscvSim.Proofs.ElfLoad.Segments
import RiscvSim.Proofs.ElfLoad.Image
import RiscvSim.Proofs.ElfLoad.Accepted
import RiscvSim.Lib.Rv64iHart
import RiscvSim.Simulator.Flat
import RiscvSim.Proofs.Simulator.AddressSpace
import RiscvSim.Proofs.Simulator.FlatRefinement
import RiscvSim.Proofs.Simulator.MappedSpace
import RiscvSim.Proofs.Isa.Encoding
import RiscvSim.Proofs.Isa.Execute
import RiscvSim.Proofs.Isa.Conformance
import RiscvSim.SimApp.SimApp
import RiscvSim.Proofs.SimApp.Iterations
import RiscvSim.Proofs.SimApp.Program
import RiscvSim.Proofs.SimApp.Main
import RiscvSim.Instr.GenDecode
import RiscvSim.Proofs.Instr.GenDecode
import RiscvSim.Proofs.Isa.Decoding
import RiscvSim.Proofs.SimApp.Rejected
import RiscvSim.Proofs.Simulator.Log
import RiscvSim.Proofs.Simulator.Placement
