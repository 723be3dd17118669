import Mathlib.Tactic
import EverythingNet.Node.NodeList

/-!
`PLAT_NetCheckBcastData` and `PLAT_NetCheckMcastData` of `plat/common/posix_net.c`: receiving a
datagram and deciding whether it is a message.

* `Arrival`, `recvfrom`: a socket is a queue of what arrives at it. `recvfrom` copies a datagram
  over the start of the message buffer and leaves the rest of the buffer as it was.
* `platNetCheckBcastData`, `platNetCheckMcastData`: the code, each with its own copy of the checks.
* `Shows w x n`: the bytes `x` start with the magic number and their `len` fits a datagram of `n`
  bytes, in the arithmetic of `w` bits. `checks_spec` computes the checks from it, on the received
  bytes completed by the old ones; `bcast_datagram` and `mcast_datagram` are the two functions.
* `Valid t d`: what a well-formed datagram is. `shows_iff_valid`: from 32 bytes on the checks say
  just that; below that they may read old bytes.
-/

namespace EverythingNet

open CMem

/-- `EVRNET_BCAST_MAGIC`. -/
def evrnetBcastMagic : U32 := 0x92DCC748

section

variable {w : ℕ}

/-- `&msg->magic`. -/
def msgMagic (msg : BitVec w) : BitVec w := msg

/-- `&msg->crc`. -/
def msgCrc (msg : BitVec w) : BitVec w := msg + 4

/-- `&msg->uuid[0]`. -/
def msgUuid0 (msg : BitVec w) : BitVec w := msg + 8

/-- `&msg->uuid[1]`. -/
def msgUuid1 (msg : BitVec w) : BitVec w := msg + 16

/-- `&msg->nodeList`. -/
def msgNodeList (msg : BitVec w) : BitVec w := msg + 24

end

/-! ### Sockets -/

/-- The values of `errno` the code tells apart. -/
inductive Errno where
  | again
  | wouldBlock
  | other (code : ℕ)
  deriving DecidableEq, Repr

/-- `errno == EAGAIN || errno == EWOULDBLOCK`. -/
def Errno.isAgain : Errno → Bool
  | .again => true
  | .wouldBlock => true
  | .other _ => false

/-- What arrives at a socket: a datagram, with the value `errno` has when it is read, which a
successful call leaves alone, or an error that the next call reports. -/
inductive Arrival where
  | datagram (bytes : List Byte) (errno : Errno)
  | error (errno : Errno)
  deriving DecidableEq, Repr

/-- What `poll` says about a socket. -/
inductive Poll where
  | failed
  | idle
  | ready
  deriving DecidableEq, Repr

/-- `recvfrom` into the message buffer: the return value, `errno`, the buffer and the queue. -/
def recvfrom (t : Target) (msg : Block) :
    List Arrival → Except Halt (ℤ × Errno × Block × List Arrival)
  | [] => .ok (-1, .again, msg, [])
  | .error errno :: q => .ok (-1, errno, msg, q)
  | .datagram d errno :: q => do
    let msg ← msg.store msg.base (d.take t.bufSize)
    return ((d.take t.bufSize).length, errno, msg, q)

/-! ### The code -/

/-- One round of the loop of `PLAT_NetCheckBcastData`: the value to return, if it returns. -/
def bcastRead (t : Target) (msg : Block) (q : List Arrival) :
    Except Halt (Option ℤ × Block × List Arrival) := do
  let (ret, errno, msg, q) ← recvfrom t msg q
  if ret ≤ 0 ∧ errno.isAgain then
    return (none, msg, q)
  else if ret ≤ 0 then
    return (some (-1), msg, q)
  else
    let p := BitVec.ofNat t.bits msg.base
    let magic ← load32 t.endian msg (msgMagic p)
    if beToHost32 t.endian magic ≠ evrnetBcastMagic then
      return (none, msg, q)
    else
      let len ← load32 t.endian msg (nlLen (msgNodeList p))
      if (beToHost32 t.endian len).setWidth t.bits + (32 - 8)
          ≠ (BitVec.ofInt 32 ret).setWidth t.bits then
        return (none, msg, q)
      else
        return (some 1, msg, q)

/-- The loop of `PLAT_NetCheckBcastData` over the known interfaces. -/
def bcastLoop (t : Target) :
    ℕ → Block → List Arrival → Except Halt (ℤ × Block × List Arrival)
  | 0, msg, q => .ok (0, msg, q)
  | n + 1, msg, q => do
    match ← bcastRead t msg q with
    | (none, msg, q) => bcastLoop t n msg q
    | (some ret, msg, q) => return (ret, msg, q)

/-- `PLAT_NetCheckBcastData`. -/
def platNetCheckBcastData (t : Target) (poll : List Arrival → Poll) (knownIfaces : ℕ)
    (msg : Block) (q : List Arrival) : Except Halt (ℤ × Block × List Arrival) :=
  match poll q with
  | .failed => .ok (-1, msg, q)
  | .idle => .ok (0, msg, q)
  | .ready => bcastLoop t knownIfaces msg q

/-- `PLAT_NetCheckMcastData`. -/
def platNetCheckMcastData (t : Target) (poll : List Arrival → Poll) (msg : Block)
    (q : List Arrival) : Except Halt (ℤ × Block × List Arrival) :=
  if t.multicast then
    match poll q with
    | .failed => .ok (-1, msg, q)
    | .idle => .ok (0, msg, q)
    | .ready => do
      let (ret, errno, msg, q) ← recvfrom t msg q
      if ret ≤ 0 ∧ errno.isAgain then
        return (0, msg, q)
      else if ret ≤ 0 then
        return (-1, msg, q)
      else
        let p := BitVec.ofNat t.bits msg.base
        let magic ← load32 t.endian msg (msgMagic p)
        if beToHost32 t.endian magic ≠ evrnetBcastMagic then
          return (0, msg, q)
        else
          let len ← load32 t.endian msg (nlLen (msgNodeList p))
          if (beToHost32 t.endian len).setWidth t.bits + (32 - 8)
              ≠ (BitVec.ofInt 32 ret).setWidth t.bits then
            return (0, msg, q)
          else
            return (1, msg, q)
  else
    .ok (0, msg, q)

/-! ### The buffer and what the checks read -/

/-- The block is the message buffer. -/
structure Buffer (t : Target) (msg : Block) : Prop where
  size : msg.size = t.bufSize
  dvd : 8 ∣ msg.base
  room : msg.base + msg.size < 2 ^ t.bits

/-- The buffer as `NET_Init` leaves it. -/
def zeroed (t : Target) (base : ℕ) : Block := ⟨base, List.replicate t.bufSize 0⟩

lemma zeroed_buffer {t : Target} {base : ℕ} (hdvd : 8 ∣ base)
    (hroom : base + t.bufSize < 2 ^ t.bits) : Buffer t (zeroed t base) where
  size := List.length_replicate
  dvd := hdvd
  room := by
    rw [Block.size, zeroed, List.length_replicate]
    exact hroom

/-- Received bytes over older ones. -/
def overlay (d old : List Byte) : List Byte := d ++ old.drop d.length

/-- The bytes start with the magic number, and their `len` plus 24 is `n` in `w` bits. -/
def Shows (w : ℕ) (x : List Byte) (n : ℕ) : Prop :=
  Endian.be.decode (x.take 4) = evrnetBcastMagic.toNat
    ∧ (Endian.be.decode ((x.drop 24).take 4) + 24) % 2 ^ w = n

instance (w : ℕ) (x : List Byte) (n : ℕ) : Decidable (Shows w x n) :=
  inferInstanceAs (Decidable (_ ∧ _))

section

variable {t : Target} {msg : Block} {d : List Byte} {errno : Errno} {q : List Arrival}

/-- Reading a datagram. -/
lemma recvfrom_datagram (hm : Buffer t msg) (d : List Byte) (errno : Errno) (q : List Arrival) :
    recvfrom t msg (.datagram d errno :: q)
        = .ok ((d.take t.bufSize).length, errno,
            ⟨msg.base, overlay (d.take t.bufSize) msg.bytes⟩, q)
      ∧ Buffer t ⟨msg.base, overlay (d.take t.bufSize) msg.bytes⟩ := by
  have hsize := hm.size
  have hle : (d.take t.bufSize).length ≤ msg.bytes.length := by
    rw [Block.size] at hsize
    rw [hsize]
    exact List.length_take_le _ _
  have hstore : msg.store msg.base (d.take t.bufSize)
      = .ok ⟨msg.base, overlay (d.take t.bufSize) msg.bytes⟩ := by
    rw [Block.store, if_pos (by rw [Block.size]; omega)]
    simp [overlay]
  refine ⟨by rw [recvfrom, hstore, ok_bind, pure_eq_ok], ?_, hm.dvd, ?_⟩
  · rw [Block.size] at hsize
    rw [Block.size_mk, overlay, List.length_append, List.length_drop]
    omega
  · have := hm.room
    rw [Block.size] at this ⊢
    rw [overlay, List.length_append, List.length_drop]
    dsimp only
    omega

/-- A word of the buffer, read and converted. -/
lemma load32_buffer (hm : Buffer t msg) {p : BitVec t.bits} {k : ℕ} (hp : p.toNat = msg.base + k)
    (hk : k + 4 ≤ 1024) :
    ∃ x, load32 t.endian msg p = .ok x
      ∧ (beToHost32 t.endian x).toNat = Endian.be.decode ((msg.bytes.drop k).take 4) := by
  have hsize := hm.size
  have hge := t.bufSize_ge
  rw [Block.size] at hsize
  have hlen : ((msg.bytes.drop k).take 4).length = 4 := by
    rw [List.length_take, List.length_drop]
    omega
  have hhas : msg.Has p.toNat ((msg.bytes.drop k).take 4) := by
    refine ⟨msg.bytes.take k, (msg.bytes.drop k).drop 4, ?_, ?_⟩
    · rw [List.append_assoc, List.take_append_drop, List.take_append_drop]
    · rw [List.length_take, hp]
      omega
  exact ⟨_, load32_has hhas hlen, beToHost32_decode _ hlen⟩

/-- The test of the magic number. -/
lemma magic_test (hm : Buffer t msg) :
    ∃ x, load32 t.endian msg (msgMagic (BitVec.ofNat t.bits msg.base)) = .ok x
      ∧ (beToHost32 t.endian x = evrnetBcastMagic
        ↔ Endian.be.decode (msg.bytes.take 4) = evrnetBcastMagic.toNat) := by
  have hp : (msgMagic (BitVec.ofNat t.bits msg.base)).toNat = msg.base + 0 :=
    toNat_ofNat_of_lt (by have := hm.room; omega)
  obtain ⟨x, hx, hdec⟩ := load32_buffer hm hp (by norm_num)
  refine ⟨x, hx, ?_⟩
  rw [← BitVec.toNat_inj, hdec, List.drop_zero]

/-- The test of the length. -/
lemma len_test (hm : Buffer t msg) {n : ℕ} (hn : n < 2 ^ 31) :
    ∃ x, load32 t.endian msg (nlLen (msgNodeList (BitVec.ofNat t.bits msg.base))) = .ok x
      ∧ ((beToHost32 t.endian x).setWidth t.bits + (32 - 8)
          = (BitVec.ofInt 32 (n : ℤ)).setWidth t.bits
        ↔ (Endian.be.decode ((msg.bytes.drop 24).take 4) + 24) % 2 ^ t.bits = n) := by
  have hroom := hm.room
  have hge := t.bufSize_ge
  have hsize := hm.size
  have hbase : (BitVec.ofNat t.bits msg.base).toNat = msg.base := toNat_ofNat_of_lt (by omega)
  have hp : (nlLen (msgNodeList (BitVec.ofNat t.bits msg.base))).toNat = msg.base + 24 := by
    have : (nlLen (msgNodeList (BitVec.ofNat t.bits msg.base))).toNat
        = (BitVec.ofNat t.bits msg.base).toNat + 24 :=
      toNat_add_ofNat (show (BitVec.ofNat t.bits msg.base).toNat + 24 < 2 ^ t.bits by omega)
    rw [this, hbase]
  obtain ⟨x, hx, hdec⟩ := load32_buffer hm hp (by norm_num)
  refine ⟨x, hx, ?_⟩
  rw [← BitVec.toNat_inj, ← hdec]
  have hpow := t.pow_bits_ge
  have hret : ((BitVec.ofInt 32 (n : ℤ)).setWidth t.bits).toNat = n := by
    rw [BitVec.toNat_setWidth, BitVec.ofInt_natCast, toNat_ofNat_of_lt (show n < 2 ^ 32 by omega),
      Nat.mod_eq_of_lt (by omega)]
  have h24 : (32 - 8 : BitVec t.bits).toNat = 24 := by
    rcases t.bits_eq with h | h <;> (rw [h]; rfl)
  have hlt := (beToHost32 t.endian x).isLt
  rw [hret, BitVec.toNat_add, h24, BitVec.toNat_setWidth, Nat.mod_add_mod]

/-- What the checks make of the received bytes `r` over the old content: no message, an error or a
message. -/
def verdict {β : Type} (w : ℕ) (old r : List Byte) (errno : Errno) (no err yes : β) : β :=
  if r = [] then
    if errno.isAgain then no else err
  else if Shows w (overlay r old) r.length then yes
  else no

/-- The checks, which both functions have. -/
lemma checks_spec {β : Type} {old : List Byte} (hm : Buffer t ⟨msg.base, overlay d old⟩)
    (hlen : d.length < 2 ^ 31) (no err yes : β) :
    (if ((d.length : ℕ) : ℤ) ≤ 0 ∧ errno.isAgain then (.ok no : Except Halt β)
      else if ((d.length : ℕ) : ℤ) ≤ 0 then .ok err
      else do
        let magic ← load32 t.endian ⟨msg.base, overlay d old⟩
          (msgMagic (BitVec.ofNat t.bits msg.base))
        if beToHost32 t.endian magic ≠ evrnetBcastMagic then .ok no
        else do
          let len ← load32 t.endian ⟨msg.base, overlay d old⟩
            (nlLen (msgNodeList (BitVec.ofNat t.bits msg.base)))
          if (beToHost32 t.endian len).setWidth t.bits + (32 - 8)
              ≠ (BitVec.ofInt 32 ((d.length : ℕ) : ℤ)).setWidth t.bits then .ok no
          else .ok yes)
      = .ok (verdict t.bits old d errno no err yes) := by
  obtain ⟨x, hx, hmagic⟩ := magic_test hm
  obtain ⟨y, hy, hlen'⟩ := len_test hm hlen
  rw [verdict]
  by_cases hnil : d = []
  · have h0 : ((d.length : ℕ) : ℤ) ≤ 0 := by simp [hnil]
    rw [if_pos hnil]
    by_cases ha : errno.isAgain
    · rw [if_pos ⟨h0, ha⟩, if_pos ha]
    · rw [if_neg fun h => ha h.2, if_pos h0, if_neg ha]
  · have hpos : 0 < d.length := List.length_pos_iff.mpr hnil
    have h0 : ¬ ((d.length : ℕ) : ℤ) ≤ 0 := by omega
    rw [if_neg hnil, if_neg fun h => h0 h.1, if_neg h0, hx, ok_bind]
    by_cases h4 : beToHost32 t.endian x = evrnetBcastMagic
    · rw [if_neg (not_not.mpr h4), hy, ok_bind]
      by_cases h5 : (beToHost32 t.endian y).setWidth t.bits + (32 - 8)
          = (BitVec.ofInt 32 ((d.length : ℕ) : ℤ)).setWidth t.bits
      · rw [if_neg (not_not.mpr h5), if_pos (show Shows _ _ _ from ⟨hmagic.mp h4, hlen'.mp h5⟩)]
      · rw [if_pos h5, if_neg fun h => h5 (hlen'.mpr h.2)]
    · rw [if_pos h4, if_neg fun h => h4 (hmagic.mpr h.1)]

/-- A round of the loop of `PLAT_NetCheckBcastData` on a datagram. -/
lemma bcastRead_datagram (hm : Buffer t msg) :
    bcastRead t msg (.datagram d errno :: q)
      = .ok (verdict t.bits msg.bytes (d.take t.bufSize) errno none (some (-1)) (some 1),
          ⟨msg.base, overlay (d.take t.bufSize) msg.bytes⟩, q) := by
  obtain ⟨hrecv, hm'⟩ := recvfrom_datagram hm d errno q
  have hlen : (d.take t.bufSize).length < 2 ^ 31 :=
    lt_of_le_of_lt (List.length_take_le _ _) t.bufSize_lt
  rw [bcastRead, hrecv, ok_bind]
  refine (checks_spec hm' hlen _ _ _).trans ?_
  simp only [verdict]
  split_ifs <;> rfl

/-- `PLAT_NetCheckMcastData` on a datagram. -/
lemma mcast_datagram (hm : Buffer t msg) (hmc : t.multicast = true) {poll : List Arrival → Poll}
    (hpoll : poll (.datagram d errno :: q) = .ready) :
    platNetCheckMcastData t poll msg (.datagram d errno :: q)
      = .ok (verdict t.bits msg.bytes (d.take t.bufSize) errno 0 (-1) 1,
          ⟨msg.base, overlay (d.take t.bufSize) msg.bytes⟩, q) := by
  obtain ⟨hrecv, hm'⟩ := recvfrom_datagram hm d errno q
  have hlen : (d.take t.bufSize).length < 2 ^ 31 :=
    lt_of_le_of_lt (List.length_take_le _ _) t.bufSize_lt
  rw [platNetCheckMcastData, if_pos hmc, hpoll]
  dsimp only
  rw [hrecv, ok_bind]
  refine (checks_spec hm' hlen _ _ _).trans ?_
  simp only [verdict]
  split_ifs <;> rfl

/-- A socket that has nothing more gives no more messages. -/
lemma bcastLoop_nil (n : ℕ) : bcastLoop t n msg [] = .ok (0, msg, []) := by
  induction n with
  | zero => rfl
  | succ n ih => exact ih

/-- `PLAT_NetCheckBcastData` on a single datagram. -/
lemma bcast_datagram (hm : Buffer t msg) {poll : List Arrival → Poll} {n : ℕ}
    (hpoll : poll [.datagram d errno] = .ready) :
    platNetCheckBcastData t poll (n + 1) msg [.datagram d errno]
      = .ok (verdict t.bits msg.bytes (d.take t.bufSize) errno 0 (-1) 1,
          ⟨msg.base, overlay (d.take t.bufSize) msg.bytes⟩, []) := by
  rw [platNetCheckBcastData, hpoll]
  dsimp only
  rw [bcastLoop, bcastRead_datagram hm, ok_bind]
  simp only [verdict]
  split_ifs
  · exact bcastLoop_nil n
  · rfl
  · rfl
  · exact bcastLoop_nil n

end

/-! ### Well-formed datagrams -/

/-- The received part of the datagram has a whole header, the magic number and a `len` that fits
it. -/
def Valid (t : Target) (d : List Byte) : Prop :=
  32 ≤ (d.take t.bufSize).length
    ∧ Endian.be.decode (d.take 4) = evrnetBcastMagic.toNat
    ∧ Endian.be.decode ((d.drop 24).take 4) + 24 = (d.take t.bufSize).length

lemma overlay_take {d old : List Byte} {n : ℕ} (h : n ≤ d.length) :
    (overlay d old).take n = d.take n := by
  rw [overlay, List.take_append_of_le_length h]

lemma overlay_drop_take {d old : List Byte} {j n : ℕ} (h : j + n ≤ d.length) :
    ((overlay d old).drop j).take n = (d.drop j).take n := by
  rw [overlay, List.drop_append_of_le_length (by omega),
    List.take_append_of_le_length (by rw [List.length_drop]; omega)]

/-- From 32 bytes on the checks read nothing old and do not wrap. -/
lemma shows_iff_valid {t : Target} {d old : List Byte} (h : 32 ≤ (d.take t.bufSize).length) :
    Shows t.bits (overlay (d.take t.bufSize) old) (d.take t.bufSize).length ↔ Valid t d := by
  have hge := t.bufSize_ge
  have hlt := t.bufSize_lt
  have hpow := t.pow_bits_ge
  have hle := List.length_take_le t.bufSize d
  have h1 : (d.take t.bufSize).take 4 = d.take 4 := by
    rw [List.take_take, Nat.min_eq_left (by omega)]
  have h2 : ((d.take t.bufSize).drop 24).take 4 = (d.drop 24).take 4 := by
    rw [List.drop_take, List.take_take, Nat.min_eq_left (by omega)]
  have hdec : Endian.be.decode ((d.drop 24).take 4) < 2 ^ 32 := by
    refine lt_of_lt_of_le (Endian.be.decode_lt _) ?_
    calc 256 ^ ((d.drop 24).take 4).length ≤ 256 ^ 4 :=
          Nat.pow_le_pow_right (by norm_num) (List.length_take_le _ _)
      _ = 2 ^ 32 := by norm_num
  rw [Shows, Valid, overlay_take (by omega), overlay_drop_take (by omega), h1, h2]
  have hmod : (Endian.be.decode ((d.drop 24).take 4) + 24) % 2 ^ t.bits
        = (d.take t.bufSize).length
      ↔ Endian.be.decode ((d.drop 24).take 4) + 24 = (d.take t.bufSize).length := by
    rcases t.bits_eq with hb | hb
    · rw [hb] at hpow ⊢
      omega
    · rw [hb] at hpow ⊢
      omega
  rw [hmod]
  exact ⟨fun h' => ⟨h, h'⟩, fun h' => h'.2⟩

/-- `PLAT_NetCheckBcastData` takes the datagram for a message. -/
def BcastAccepts (t : Target) (poll : List Arrival → Poll) (knownIfaces : ℕ) (msg : Block)
    (d : List Byte) (errno : Errno) : Prop :=
  ∃ msg', platNetCheckBcastData t poll knownIfaces msg [.datagram d errno] = .ok (1, msg', [])

/-- `PLAT_NetCheckMcastData` takes the datagram for a message. -/
def McastAccepts (t : Target) (poll : List Arrival → Poll) (msg : Block) (d : List Byte)
    (errno : Errno) : Prop :=
  ∃ msg', platNetCheckMcastData t poll msg [.datagram d errno] = .ok (1, msg', [])

section

variable {t : Target} {poll : List Arrival → Poll} {n : ℕ} {msg : Block} {d : List Byte}
  {errno : Errno}

lemma bcastAccepts_iff (hm : Buffer t msg) (hpoll : poll [.datagram d errno] = .ready) :
    BcastAccepts t poll (n + 1) msg d errno ↔ d.take t.bufSize ≠ []
      ∧ Shows t.bits (overlay (d.take t.bufSize) msg.bytes) (d.take t.bufSize).length := by
  rw [BcastAccepts, bcast_datagram hm hpoll, verdict]
  split_ifs <;> simp_all

lemma mcastAccepts_iff (hm : Buffer t msg) (hmc : t.multicast = true)
    (hpoll : poll [.datagram d errno] = .ready) :
    McastAccepts t poll msg d errno ↔ d.take t.bufSize ≠ []
      ∧ Shows t.bits (overlay (d.take t.bufSize) msg.bytes) (d.take t.bufSize).length := by
  rw [McastAccepts, mcast_datagram hm hmc hpoll, verdict]
  split_ifs <;> simp_all

/-- The two functions always agree, and they accept just the well-formed datagrams as long as no
short datagram passes the checks with the help of what was in the buffer before. -/
theorem accepts_valid_iff (hm : Buffer t msg) (hmc : t.multicast = true)
    (hpoll : poll [.datagram d errno] = .ready) :
    ((BcastAccepts t poll (n + 1) msg d errno ↔ McastAccepts t poll msg d errno)
        ∧ (BcastAccepts t poll (n + 1) msg d errno ↔ Valid t d))
      ↔ 32 ≤ d.length ∨ d = [] ∨ ¬ Shows t.bits (overlay d msg.bytes) d.length := by
  have hge := t.bufSize_ge
  rw [bcastAccepts_iff hm hpoll, mcastAccepts_iff hm hmc hpoll]
  by_cases hlong : 32 ≤ d.length
  · have hr : 32 ≤ (d.take t.bufSize).length := by
      rw [List.length_take]
      omega
    have hne : d.take t.bufSize ≠ [] := by
      intro h
      rw [h, List.length_nil] at hr
      omega
    simp only [hlong, ne_eq, hne, not_false_eq_true, true_and, shows_iff_valid hr, true_or]
  · have hr : d.take t.bufSize = d := List.take_of_length_le (by omega)
    have hv : ¬ Valid t d := by
      intro h
      have h32 := h.1
      rw [hr] at h32
      omega
    rw [hr]
    simp only [hlong, hv, false_or, iff_false, true_and]
    by_cases hnil : d = []
    · simp [hnil]
    · simp [hnil]

end

/-- The magic number and twenty zeros: neither a whole header nor a `len` of its own. -/
def truncated : List Byte := [0x92, 0xDC, 0xC7, 0x48] ++ List.replicate 20 0

lemma zeroed_linux64 : Buffer .linux64 (zeroed .linux64 4096) :=
  zeroed_buffer (by norm_num) (by decide)

lemma truncated_shows : Shows 64 (overlay truncated (zeroed .linux64 4096).bytes)
    truncated.length := by
  decide

theorem accepts_valid_iff_truncated :
    ((BcastAccepts .linux64 (fun _ => .ready) 1 (zeroed .linux64 4096) truncated .again
          ↔ McastAccepts .linux64 (fun _ => .ready) (zeroed .linux64 4096) truncated .again)
        ∧ (BcastAccepts .linux64 (fun _ => .ready) 1 (zeroed .linux64 4096) truncated .again
          ↔ Valid .linux64 truncated))
      ↔ 32 ≤ truncated.length ∨ truncated = []
        ∨ ¬ Shows 64 (overlay truncated (zeroed .linux64 4096).bytes) truncated.length :=
  accepts_valid_iff zeroed_linux64 rfl rfl

/-- A datagram of 24 bytes passes the checks of a fresh buffer as a message without a node list. -/
theorem truncated_accepted :
    BcastAccepts .linux64 (fun _ => .ready) 1 (zeroed .linux64 4096) truncated .again
      ∧ ¬ Valid .linux64 truncated := by
  have hr : truncated.take Target.linux64.bufSize = truncated := by
    apply List.take_of_length_le
    simp [truncated, Target.linux64, Target.bufSize]
  constructor
  · rw [bcastAccepts_iff zeroed_linux64 rfl, hr]
    exact ⟨by simp [truncated], truncated_shows⟩
  · intro h
    have h32 := h.1
    rw [hr] at h32
    simp [truncated] at h32

end EverythingNet
