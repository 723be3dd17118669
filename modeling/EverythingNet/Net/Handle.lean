import Mathlib.Tactic
import EverythingNet.Node.Init

/-!
`app/net.c` and the sending half of `plat/common/posix_net.c`: one round of the network.

* `netInit`: the message buffer. `netSwapHeader`, `netHandleMsg`: what is done with a message once
  it is accepted. `recvStep`, `netReceive`: the receiving loop of `NET_HandleBcast`.
* `netHeader`, `netBuild`: the packet with the node list. `platNetDoBroadcast`,
  `platNetDoMulticast`: sending it. `netHandleBcast`: the whole function.
-/

namespace EverythingNet

open CMem

/-! ### The message header -/

section

variable {w : ℕ}

/-- `*p = E_BEToHost_32(*p)`. -/
def convert32 (E : Endian) (b : Block) (p : BitVec w) : Except Halt Block := do
  store32 E b p (beToHost32 E (← load32 E b p))

/-- `*p = E_BEToHost_64(*p)`. -/
def convert64 (E : Endian) (b : Block) (p : BitVec w) : Except Halt Block := do
  store64 E b p (beToHost64 E (← load64 E b p))

end

/-- `NET_Init`: the message buffer, as the `k`-th request to the allocator. -/
def netInit (t : Target) (m : Malloc t.bits) (k : ℕ) : Except Halt Block :=
  match m.malloc k t.bufSize with
  | none => .error (.exited 1)
  | some msg => msg.store msg.base (List.replicate t.bufSize 0)

/-! ### Receiving -/

/-- What surrounds a call of `NET_HandleBcast`: how `poll` answers for the two sockets, the number
of known interfaces and which of the calls of `sendto` succeed. -/
structure Env where
  bcastPoll : List Arrival → Poll
  mcastPoll : List Arrival → Poll
  knownIfaces : ℕ
  bcastSend : ℕ → Bool
  mcastSend : Bool

/-- The message buffer, the node state and the queues of the two sockets. -/
structure RecvState (w : ℕ) where
  msg : Block
  node : NodeState w
  bcast : List Arrival
  mcast : List Arrival

/-- The conversion of the header of a message. -/
def netSwapHeader (t : Target) (msg : Block) : Except Halt Block := do
  let p := BitVec.ofNat t.bits msg.base
  let msg ← convert32 t.endian msg (msgMagic p)
  let msg ← convert32 t.endian msg (msgCrc p)
  let msg ← convert64 t.endian msg (msgUuid0 p)
  convert64 t.endian msg (msgUuid1 p)

/-- What `NET_HandleBcast` does with an accepted message: the header is converted, and unless the
message is the node's own the entries are looked at. The first component says whether it is. -/
def netHandleMsg (t : Target) (m : Malloc t.bits) (uuid : U64 × U64) (fuel : ℕ) (msg : Block)
    (node : NodeState t.bits) : Except Halt (Bool × Block × NodeState t.bits) := do
  let p := BitVec.ofNat t.bits msg.base
  let msg ← netSwapHeader t msg
  let x ← load64 t.endian msg (msgUuid0 p)
  let y ← load64 t.endian msg (msgUuid1 p)
  if x = uuid.1 ∧ y = uuid.2 then
    return (true, msg, node)
  else
    let (msg, node) ← nodeCheckForNewNodes t m fuel msg node
    return (false, msg, node)

/-- A round of the loop of `NET_HandleBcast`. -/
def recvStep (t : Target) (m : Malloc t.bits) (uuid : U64 × U64) (env : Env) (fuel : ℕ)
    (s : RecvState t.bits) : Except Halt (RecvState t.bits ⊕ RecvState t.bits) := do
  let node := { s.node with source := .broadcast, sourceNode := none }
  let (ret, msg, bcast) ← platNetCheckBcastData t env.bcastPoll env.knownIfaces s.msg s.bcast
  if ret = 1 then
    let (own, msg, node) ← netHandleMsg t m uuid fuel msg node
    if own then
      return .inr ⟨msg, node, bcast, s.mcast⟩
    else
      return .inl ⟨msg, node, bcast, s.mcast⟩
  else if t.multicast then
    let node := { node with source := .multicast }
    let (ret, msg, mcast) ← platNetCheckMcastData t env.mcastPoll msg s.mcast
    if ret = 1 then
      let (own, msg, node) ← netHandleMsg t m uuid fuel msg node
      if own then
        return .inr ⟨msg, node, bcast, mcast⟩
      else
        return .inl ⟨msg, node, bcast, mcast⟩
    else
      return .inr ⟨msg, node, bcast, mcast⟩
  else
    return .inr ⟨msg, node, bcast, s.mcast⟩

/-- The loop of `NET_HandleBcast`. -/
def netReceive (t : Target) (m : Malloc t.bits) (uuid : U64 × U64) (env : Env) (fuel : ℕ)
    (s : RecvState t.bits) : Except Halt (RecvState t.bits) :=
  iter (recvStep t m uuid env fuel) fuel s

/-! ### Sending -/

/-- The header of a packet. -/
def netHeader (t : Target) (uuid : U64 × U64) (msg : Block) : Except Halt Block := do
  let p := BitVec.ofNat t.bits msg.base
  let msg ← store32 t.endian msg (msgMagic p) (beToHost32 t.endian evrnetBcastMagic)
  let msg ← store64 t.endian msg (msgUuid0 p) (beToHost64 t.endian uuid.1)
  let msg ← store64 t.endian msg (msgUuid1 p) (beToHost64 t.endian uuid.2)
  store32 t.endian msg (msgCrc p) 0

/-- The part of `NET_HandleBcast` that makes the packet: the header, and a copy of the node list
while that is in network byte order. -/
def netBuild (t : Target) (m : Malloc t.bits) (uuid : U64 × U64) (fuel : ℕ) (msg : Block)
    (node : NodeState t.bits) : Except Halt (Block × NodeState t.bits) := do
  let p := BitVec.ofNat t.bits msg.base
  let msg ← netHeader t uuid msg
  let nodeList ← nodeListToBE t m node.allocs fuel node.nodeList node.nl
  let len ← load32 t.endian nodeList (nlLen node.nl)
  let data ← nodeList.loadN node.nl.toNat (beToHost32 t.endian len).toNat
  let msg ← msg.store (msgNodeList p).toNat data
  let nodeList ← nodeListToNative t.endian fuel nodeList node.nl
  return (msg, { node with nodeList := nodeList, allocs := node.allocs + 1 })

/-- A call of `sendto`: on which interface (`none` is the multicast socket) and which bytes. -/
structure Sent where
  iface : Option ℕ
  bytes : List Byte
  deriving DecidableEq

/-- The bytes that `sendto` is given: as many as the `len` of the message says. -/
def sendData (t : Target) (msg : Block) : Except Halt (List Byte) := do
  let p := BitVec.ofNat t.bits msg.base
  let len ← load32 t.endian msg (nlLen (msgNodeList p))
  let size := (beToHost32 t.endian len).setWidth t.bits + (32 - 8)
  msg.loadN p.toNat size.toNat

/-- The loop of `PLAT_NetDoBroadcast` from interface `i` on, with `n` interfaces to go: the value
to return and the calls made. -/
def bcastSendLoop (data : List Byte) (ok : ℕ → Bool) : ℕ → ℕ → ℤ × List Sent
  | _, 0 => (0, [])
  | i, n + 1 =>
    if ok i then
      let (ret, sent) := bcastSendLoop data ok (i + 1) n
      (ret, ⟨some i, data⟩ :: sent)
    else (-1, [⟨some i, data⟩])

/-- `PLAT_NetDoBroadcast`. -/
def platNetDoBroadcast (t : Target) (env : Env) (msg : Block) : Except Halt (ℤ × List Sent) := do
  let data ← sendData t msg
  return bcastSendLoop data env.bcastSend 0 env.knownIfaces

/-- `PLAT_NetDoMulticast`. -/
def platNetDoMulticast (t : Target) (env : Env) (msg : Block) : Except Halt (ℤ × List Sent) :=
  if t.multicast then do
    let data ← sendData t msg
    return (if env.mcastSend then 0 else -1, [⟨none, data⟩])
  else
    .ok (-1, [])

/-- The part of `NET_HandleBcast` that sends: the packet is made and goes out on all sockets. -/
def netSend (t : Target) (m : Malloc t.bits) (uuid : U64 × U64) (env : Env) (fuel : ℕ) (msg : Block)
    (node : NodeState t.bits) : Except Halt (Block × NodeState t.bits × List Sent) := do
  let (msg, node) ← netBuild t m uuid fuel msg node
  let (_, sent) ← platNetDoBroadcast t env msg
  if t.multicast then
    let (_, sent') ← platNetDoMulticast t env msg
    return (msg, node, sent ++ sent')
  else
    return (msg, node, sent)

/-! ### The whole function -/

/-- The message buffer, the node state and `counter`. -/
structure NetState (w : ℕ) where
  msg : Block
  node : NodeState w
  counter : U32

/-- `NET_HandleBcast`: the new state, the queues of the sockets and the calls of `sendto`. -/
def netHandleBcast (t : Target) (m : Malloc t.bits) (uuid : U64 × U64) (env : Env) (fuel : ℕ)
    (st : NetState t.bits) (bcast mcast : List Arrival) :
    Except Halt (NetState t.bits × List Arrival × List Arrival × List Sent) := do
  let s ← netReceive t m uuid env fuel ⟨st.msg, st.node, bcast, mcast⟩
  if st.counter % 15 ≠ 0 then
    return (⟨s.msg, s.node, st.counter + 1⟩, s.bcast, s.mcast, [])
  else
    let (msg, node, sent) ← netSend t m uuid env fuel s.msg s.node
    return (⟨msg, node, st.counter + 1⟩, s.bcast, s.mcast, sent)

/-! ### Fuel -/

section

variable (t : Target) (m : Malloc t.bits) (uuid : U64 × U64) (env : Env) (msg : Block)
  (node : NodeState t.bits)

lemma netBuild_steady : Steady fun fuel => netBuild t m uuid fuel msg node := by
  refine (Steady.const _).bind fun msg => (nodeListToBE_steady t m _ _ _).bind fun b => ?_
  refine (Steady.const _).bind fun len => (Steady.const _).bind fun data => ?_
  refine (Steady.const _).bind fun msg => (nodeListToNative_steady _ _ _).bind fun b => ?_
  exact Steady.const _

lemma netSend_steady : Steady fun fuel => netSend t m uuid env fuel msg node :=
  (netBuild_steady t m uuid msg node).bind fun _ => Steady.const _

end

end EverythingNet
