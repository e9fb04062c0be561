import RiscvSim.Bb.Bb
import Mathlib.Logic.Function.Basic

/-! The direct-mapped cache of basic blocks by address. -/

namespace RiscvSim

/-- The binary logarithm of the number of blocks. -/
def bbCacheSizeLog2 : Nat := 7

/-- The number of blocks. -/
def bbCacheSize : Nat := 2 ^ bbCacheSizeLog2

/-- The number of address bits that do not select a block. -/
def pcAlignBits : Nat := 2

/-- A cache of basic blocks. -/
structure BbCache where
  entries : Fin bbCacheSize → Bb := fun _ => Bb.new

namespace BbCache

/-- The position of the block for an address, which is a field of `bbCacheSizeLog2` bits. -/
def index (virtAddr : VirtAddr) : Fin bbCacheSize :=
  ⟨(getBitField (pcAlignBits + bbCacheSizeLog2 - 1) pcAlignBits virtAddr).toNat, by
    -- The field has as many bits as the positions need.
    rw [toNat_getBitField _ (by decide) (by decide) (by decide)]
    exact Nat.mod_lt _ (by decide)⟩

/-- The block for an address. -/
def find (cache : BbCache) (virtAddr : VirtAddr) : Bb :=
  cache.entries (index virtAddr)

/-- Replace the block for an address. -/
def set (cache : BbCache) (virtAddr : VirtAddr) (bb : Bb) : BbCache where
  entries := Function.update cache.entries (index virtAddr) bb

/-- A block that was set is found. -/
@[simp] theorem find_set (cache : BbCache) (virtAddr : VirtAddr) (bb : Bb) :
    (cache.set virtAddr bb).find virtAddr = bb := by
  -- The position that was written is the one that is read.
  dsimp only [find, set]
  rw [Function.update_self]

/-- Empty every block. -/
def invalidate (cache : BbCache) : BbCache where
  entries := fun i => (cache.entries i).invalidate

end BbCache

end RiscvSim
