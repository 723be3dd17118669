import Mathlib.Tactic
import EverythingNet.Host.Target

/-!
`include/evrnet/node.h`: the accessors of a node entry.

An entry lies at an address `e` of a block; the place of each field follows from the strings and
the IP count before it. The alignment macros `ALIGN4` and `ALIGN8` do not parenthesise their
argument, so their `%` binds to its last operand only; the accessors are written with the macros
expanded.
-/

namespace EverythingNet

open CMem

variable {w : ℕ}

/-! ### The node list header, `nodeList_t` -/

/-- `&nl->len`. -/
def nlLen (nl : BitVec w) : BitVec w := nl

/-- `&nl->version`. -/
def nlVersion (nl : BitVec w) : BitVec w := nl + 4

/-- `nl->entries`. -/
def nlEntries (nl : BitVec w) : BitVec w := nl + 8

/-! ### The fields of an entry -/

/-- `ENTRY_SIZE`. -/
def entrySize (e : BitVec w) : BitVec w := e

/-- `ENTRY_NUM_IP`. -/
def entryNumIp (e : BitVec w) : BitVec w := e + 2

/-- `ENTRY_DISTANCE_FROM_ME`. -/
def entryDistanceFromMe (e : BitVec w) : BitVec w := e + 3

/-- `ENTRY_NODE_NAME`. -/
def entryNodeName (e : BitVec w) : BitVec w := e + 4

/-- `ENTRY_NODE_IPS`. -/
def entryNodeIps (b : Block) (e : BitVec w) : Except Halt (BitVec w) := do
  let n ← strlen b (entryNodeName e)
  return entryNodeName e + n + 1 + (4 - (entryNodeName e + n + 1 % 4)) % 4

/-- `ENTRY_NODE_UUID`. -/
def entryNodeUuid (b : Block) (e : BitVec w) : Except Halt (BitVec w) := do
  let ips ← entryNodeIps b e
  let num ← b.load8 (entryNumIp e).toNat
  return ips + (num.setWidth w * 4) + (8 - (ips + (num.setWidth w * 4) % 8)) % 8

/-- `ENTRY_NODE_EVRNET_VER`. -/
def entryNodeEvrnetVer (b : Block) (e : BitVec w) : Except Halt (BitVec w) := do
  return (← entryNodeUuid b e) + 8 * 2

/-- `ENTRY_NODE_PLATINFO_CAP`. -/
def entryNodePlatinfoCap (b : Block) (e : BitVec w) : Except Halt (BitVec w) := do
  let ver ← entryNodeEvrnetVer b e
  let n ← strlen b ver
  return ver + n + 1 + (4 - (ver + n + 1 % 4)) % 4

/-- `ENTRY_NODE_PLATINFO_MEMSZ`. -/
def entryNodePlatinfoMemsz (b : Block) (e : BitVec w) : Except Halt (BitVec w) := do
  return (← entryNodePlatinfoCap b e) + 4

/-- `ENTRY_NODE_PLATINFO_NAME`. -/
def entryNodePlatinfoName (b : Block) (e : BitVec w) : Except Halt (BitVec w) := do
  return (← entryNodePlatinfoMemsz b e) + 4

/-- The address after a string: `ENTRY_NODE_PLATINFO_OS` to `_GPU` each step over the string of
the accessor before it. -/
def afterString (b : Block) (p : BitVec w) : Except Halt (BitVec w) := do
  return p + (← strlen b p) + 1

/-- `ENTRY_NODE_PLATINFO_OS`. -/
def entryNodePlatinfoOs (b : Block) (e : BitVec w) : Except Halt (BitVec w) := do
  afterString b (← entryNodePlatinfoName b e)

/-- `ENTRY_NODE_PLATINFO_ARCH`. -/
def entryNodePlatinfoArch (b : Block) (e : BitVec w) : Except Halt (BitVec w) := do
  afterString b (← entryNodePlatinfoOs b e)

/-- `ENTRY_NODE_PLATINFO_CPU`. -/
def entryNodePlatinfoCpu (b : Block) (e : BitVec w) : Except Halt (BitVec w) := do
  afterString b (← entryNodePlatinfoArch b e)

/-- `ENTRY_NODE_PLATINFO_GPU`. -/
def entryNodePlatinfoGpu (b : Block) (e : BitVec w) : Except Halt (BitVec w) := do
  afterString b (← entryNodePlatinfoCpu b e)

/-- `ENTRY_NEXT`. -/
def entryNext (E : Endian) (b : Block) (e : BitVec w) : Except Halt (BitVec w) := do
  return e + (← load16 E b (entrySize e)).setWidth w

/-- `ENTRY_CALC_SIZE`. -/
def entryCalcSize (b : Block) (e : BitVec w) : Except Halt U16 := do
  let gpu ← entryNodePlatinfoGpu b e
  let n ← strlen b gpu
  return ((gpu + n + 1) - e + (8 - ((gpu + n + 1) - e % 8)) % 8).setWidth 16

end EverythingNet
