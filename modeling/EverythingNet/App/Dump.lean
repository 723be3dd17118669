import Mathlib.Tactic
import EverythingNet.App.Report
import EverythingNet.Libc.Typed

/-!
The dump of a node entry: `NODE_DumpEntry` in `app/node.c`.

* `nodeDumpEntry`: the function, with the strings where its pointers lead. `dumpText`: what it prints.
* `Says.uint`, `Says.hex`, `Says.longWord`: the numbers in a format. `Says.line`: a line of the dump.
* `nodeDumpEntry_iff`: an entry is dumped as what a reader finds in it, just in the builds in which
  `long` has as many bits as a pointer.
* `main_dumps`: after a run of `main` all entries of the list are dumped as what they say, if what has
  arrived is as `Call.Ok` says.
-/

namespace EverythingNet

open CMem Numeral Printf KeyedLog

/-! ### The dump of an entry -/

section

variable {w : ℕ} (D : DataModel) (R : Reals)

/-- `printf` of a format with the string at an address. -/
def sayString (format : String) (b : Block) (q : BitVec w) : Except Halt (List Byte) :=
  say D R format [.str (some (cellsAt b q.toNat))]

/-- A `uint64_t` as an argument: an `unsigned long` where that has 64 bits. -/
def uint64Arg (v : U64) : Arg D R :=
  if D.long = .w64 then .long (v.setWidth D.long.bits) else .longLong v

/-- `NODE_DumpEntry`. -/
def nodeDumpEntry (t : Target) (b : Block) (e : BitVec t.bits) (msg : Block)
    (st : NodeState t.bits) : Except Halt (List Byte) := do
  let start ← puts (literal "==== Node dump ====")
  let source ← say D R "Node discovery source: %s"
    [.str (some (literal (discoverySrcToStr st.source)))]
  let other ← sayToldBy D R " [discovered by node: %s]" msg st
  let close ← puts (literal "")
  let size ← load16 t.endian b (entrySize e)
  let size ← say D R "size value: %u\n" [.int (size.setWidth 32)]
  let numIp ← b.load8 (entryNumIp e).toNat
  let numIp ← say D R "num IPs: %u\n" [.int (numIp.setWidth 32)]
  let distance ← b.load8 (entryDistanceFromMe e).toNat
  let distance ← say D R "distance from sender: %u (%s)\n" [.int (distance.setWidth 32),
    .str (some (literal (if distance = 0 then "Local" else "Remote")))]
  let name ← sayString D R "node name: %s\n" b (entryNodeName e)
  let uuid0 ← entryNodeUuid b e >>= load64 t.endian b
  let uuid0 ← say D R (if t.bits = 64 then "UUID 0: 0x%16lX\n" else "UUID 0: 0x%16llX\n")
    [uint64Arg D R uuid0]
  let uuid1 ← entryNodeUuid b e >>= fun q => load64 t.endian b (q + 8)
  let uuid1 ← say D R (if t.bits = 64 then "UUID 1: 0x%16lX\n" else "UUID 1: 0x%16llX\n")
    [uint64Arg D R uuid1]
  let ver ← entryNodeEvrnetVer b e >>= sayString D R "everythingnet version: %s\n" b
  let cap ← entryNodePlatinfoCap b e >>= load32 t.endian b
  let capTemp ← capCap2Str cap (some (List.replicate 256 none))
  let cap ← say D R "cap: 0x%08X, %s\n" [.int cap, .str capTemp]
  let memSz ← entryNodePlatinfoMemsz b e >>= load32 t.endian b
  let memSz ← say D R "memsz: %dKB\n" [.int memSz]
  let platName ← entryNodePlatinfoName b e >>= sayString D R "devname: %s\n" b
  let os ← entryNodePlatinfoOs b e >>= sayString D R "os: %s\n" b
  let arch ← entryNodePlatinfoArch b e >>= sayString D R "arch: %s\n" b
  let cpu ← entryNodePlatinfoCpu b e >>= sayString D R "cpu: %s\n" b
  let gpu ← entryNodePlatinfoGpu b e >>= sayString D R "gpu: %s\n" b
  return start ++ source ++ other ++ close ++ size ++ numIp ++ distance ++ name ++ uuid0 ++ uuid1
    ++ ver ++ cap ++ memSz ++ platName ++ os ++ arch ++ cpu ++ gpu

end

/-- A line of a dump. -/
def dumpLine (label : String) (l : List Byte) : List Byte := chars label ++ (l ++ chars "\n")

/-- Characters before a text that is too short. -/
def widened (c : Char) (n : ℕ) (l : List Byte) : List Byte :=
  List.replicate (n - l.length) (ch c) ++ l

/-- The dump of an entry that says `r`. -/
def dumpText (r : Reading) (source : String) (other : Option (List Byte)) : List Byte :=
  chars "==== Node dump ====\r\n" ++ (chars "Node discovery source: " ++ chars source)
    ++ otherText " [discovered by node: " "]" other ++ chars "\r\n"
    ++ dumpLine "size value: " (numeral 10 false r.size.toNat)
    ++ dumpLine "num IPs: " (numeral 10 false r.numIp.toNat)
    ++ dumpLine "distance from sender: " (numeral 10 false r.distance.toNat
      ++ chars (if r.distance = 0 then " (Local)" else " (Remote)"))
    ++ dumpLine "node name: " r.name
    ++ dumpLine "UUID 0: 0x" (widened ' ' 16 (numeral 16 true r.uuid.1.toNat))
    ++ dumpLine "UUID 1: 0x" (widened ' ' 16 (numeral 16 true r.uuid.2.toNat))
    ++ dumpLine "everythingnet version: " r.ver
    ++ dumpLine "cap: 0x" (widened '0' 8 (numeral 16 true r.cap.toNat) ++ chars ", "
      ++ capText r.cap)
    ++ dumpLine "memsz: " (inDecimal r.memSz.toInt ++ chars "KB")
    ++ dumpLine "devname: " r.platName ++ dumpLine "os: " r.os ++ dumpLine "arch: " r.arch
    ++ dumpLine "cpu: " r.cpu ++ dumpLine "gpu: " r.gpu

section

variable {D : DataModel} {R : Reals}

/-- What a directive for an unsigned number puts out, unless it asks for more than a width. -/
lemma pieceText_unsigned (c : IntegerConversion) (s : IntegerSize) (fs : List FlagChar)
    (width : Option ℕ) (hfs : FlagChar.hash ∉ fs ∧ FlagChar.minus ∉ fs) (hc : c.signed = false)
    (hwidth : width.getD 0 ≤ 32) {v : BitVec (s.passed D)} {n : ℕ}
    (hn : (v.setWidth (s.bits D)).toNat = n) (va : List (Arg D R)) :
    (Piece.directive (c.directive s fs width none)).text (s.arg v :: va)
      = .ok (va, widened (if fs.contains .zero then '0' else ' ') (width.getD 0)
          (numeral c.base (c = .X) n)) := by
  have hminus : (c.form fs width none).minus = false := by simpa [IntegerConversion.form] using hfs.2
  have hsign : ∀ z, (c.form fs width none).sign z = [] :=
    fun z => if_pos (show ¬ c.signed = true by simp [hc])
  have hvalue : (converted c.signed (s.bits D) v).natAbs = n := by
    rw [hc, converted, if_neg (by decide), Int.natAbs_natCast, hn]
  have hchar : (if fs.contains .zero then 48 else 32 : Byte)
      = ch (if fs.contains .zero then '0' else ' ') := by
    split_ifs <;> rfl
  have hlayout : (c.form fs width none).layout (converted c.signed (s.bits D) v)
      = widened (if fs.contains .zero then '0' else ' ') (width.getD 0)
          (numeral c.base (c = .X) n) := by
    rw [IntegerForm.layout_unsigned hc hminus rfl, hvalue, widened, ← hchar]
    rfl
  have hroom : HasRoom (c.form fs width none) (converted c.signed (s.bits D) v) := by
    rw [HasRoom, if_neg (by simp [hminus])]
    split_ifs
    · exact hwidth
    · refine Or.inl ?_
      rw [hsign]
      exact Nat.zero_le 32
  rw [← hlayout]
  exact (pieceText_layout_iff c s width none hfs.1 v va).mpr
    ⟨fun _ h => absurd (hc.symm.trans h) (by decide), hroom⟩

lemma widened_zero (c : Char) (l : List Byte) : widened c 0 l = l := by
  rw [widened, Nat.zero_sub, List.replicate_zero, List.nil_append]

lemma widened_noZero {c : Char} {n : ℕ} {l : List Byte} (hc : ch c ≠ 0) (hl : (0 : Byte) ∉ l) :
    (0 : Byte) ∉ widened c n l :=
  zero_notMem_append (fun h => hc (List.eq_of_mem_replicate h).symm) hl

end

namespace Says

variable {D : DataModel} {R : Reals} {ps : List Piece} {va va' : List (Arg D R)} {u : List Byte}

/-- An unsigned number before the others. -/
lemma uint (h : Says ps va va' u) (v : U32) :
    Says (bare 'u' :: ps) (.int v :: va) va' (numeral 10 false v.toNat ++ u) := by
  have htext : (bare 'u').text (.int v :: va)
      = .ok (va, widened ' ' 0 (numeral 10 false v.toNat)) :=
    pieceText_unsigned .u .int [] none (by decide) rfl (by decide)
      (congrArg BitVec.toNat (BitVec.setWidth_eq v)) va
  rw [widened_zero] at htext
  exact h.part (bare_ok (by decide)) htext (numeral_noZero (by norm_num) (by norm_num))

/-- A number in eight hexadecimal digits before the others. -/
lemma hex (h : Says ps va va' u) (v : U32) :
    Says (.directive ⟨[.zero], some (.number 8), none, none, ch 'X'⟩ :: ps) (.int v :: va) va'
      (widened '0' 8 (numeral 16 true v.toNat) ++ u) :=
  h.part (by decide) (pieceText_unsigned .X .int [.zero] (some 8)
      (by decide) rfl (by decide) (congrArg BitVec.toNat (BitVec.setWidth_eq v)) va)
    (widened_noZero (by decide) (numeral_noZero (by norm_num) (by norm_num)))

/-- A word in hexadecimal digits before the others, where `long` is a word. -/
lemma longWord (h : Says ps va va' u) (hlong : D.long = .w64) (v : U64) :
    Says (.directive ⟨[], some (.number 16), none, some .l, ch 'X'⟩ :: ps)
      (.long (v.setWidth D.long.bits) :: va) va' (widened ' ' 16 (numeral 16 true v.toNat) ++ u) := by
  have hval : ((v.setWidth D.long.bits).setWidth D.long.bits).toNat = v.toNat := by
    rw [BitVec.setWidth_eq, BitVec.toNat_setWidth, hlong]
    exact Nat.mod_eq_of_lt v.isLt
  exact h.part (by decide) (pieceText_unsigned .X .l [] (some 16)
      (by decide) rfl (by decide) hval va)
    (widened_noZero (by decide) (numeral_noZero (by norm_num) (by norm_num)))

lemma longLongWord (h : Says ps va va' u) (v : U64) :
    Says (.directive ⟨[], some (.number 16), none, some .ll, ch 'X'⟩ :: ps) (.longLong v :: va) va'
      (widened ' ' 16 (numeral 16 true v.toNat) ++ u) :=
  h.part (by decide) (pieceText_unsigned .X .ll [] (some 16)
      (by decide) rfl (by decide) (congrArg BitVec.toNat (BitVec.setWidth_eq v)) va)
    (widened_noZero (by decide) (numeral_noZero (by norm_num) (by norm_num)))

end Says

section

variable {w : ℕ} {D : DataModel} {R : Reals} {t : Target} {b msg : Block} {e : BitVec t.bits}
  {st : NodeState t.bits} {r : Reading} {other : Option (List Byte)}

lemma says_newline :
    Says ((chars "\n").map Piece.literal) ([] : List (Arg D R)) [] (chars "\n") := by
  have h := (Says.nil ([] : List (Arg D R))).literal (l := chars "\n") (by decide)
  rwa [List.append_nil, List.append_nil] at h

/-- A line with the string that an accessor leads to. -/
lemma sayString_line {label format : String} (hlabel : Verbatim (chars label))
    (hformat : chars format = chars label ++ (chars "%s" ++ chars "\n")) {q : Except Halt (BitVec w)}
    {s : List Byte} (h : (q >>= fun q => b.cstr q.toNat) = .ok s) :
    (q >>= sayString D R format b) = .ok (dumpLine label s) := by
  obtain ⟨q, rfl, hs⟩ := bind_eq_ok.mp h
  rw [ok_bind, sayString, dumpLine, ← List.append_assoc]
  exact (say_str hlabel (by decide) hformat _ _).mpr ⟨s, strOf_cellsAt.mpr hs, rfl⟩

/-- A line with a directive in it. -/
lemma Says.line {p : Piece} {va : List (Arg D R)} {l : List Byte} {label format : String}
    (h : Says (p :: (chars "\n").map Piece.literal) va [] (l ++ chars "\n"))
    (hlabel : Verbatim (chars label))
    (hformat : chars format = chars label ++ (p.bytes ++ chars "\n")) :
    EverythingNet.say D R format va = .ok (dumpLine label l) := by
  refine (h.literal hlabel).say ?_
  rw [hformat, List.flatMap_append, flatMap_literal, List.flatMap_cons, flatMap_literal]

/-- A line with a word in it. -/
lemma say_word (hlong : D.long.bits = t.bits) (v : U64) {label long longLong : String}
    (hlabel : Verbatim (chars label))
    (h64 : chars long = chars label ++ (chars "%16lX" ++ chars "\n"))
    (h32 : chars longLong = chars label ++ (chars "%16llX" ++ chars "\n")) :
    say D R (if t.bits = 64 then long else longLong) [uint64Arg D R v]
      = .ok (dumpLine label (widened ' ' 16 (numeral 16 true v.toNat))) := by
  have hbits : D.long = .w64 ↔ t.bits = 64 := by
    rw [← hlong]
    cases D.long <;> simp [Width.bits]
  rw [uint64Arg]
  by_cases hw : D.long = .w64
  · rw [if_pos (hbits.mp hw), if_pos hw]
    exact (says_newline.longWord hw v).line hlabel (h64.trans (by rfl))
  · rw [if_neg (mt hbits.mpr hw), if_neg hw]
    exact (says_newline.longLongWord v).line hlabel (h32.trans (by rfl))

lemma kinds_literal (l : List Byte) : (l.map Piece.literal).flatMap (Piece.kinds D) = [] :=
  List.flatMap_eq_nil_iff.mpr fun p hp => by
    obtain ⟨c, -, rfl⟩ := List.mem_map.mp hp
    rfl

/-- An argument that is printed is of the kind that its directive takes. -/
lemma kind_of_say {d : Directive} {a : Arg D R} {label format : String} {u : List Byte} {k : Kind}
    (hd : d.Ok) (hk : d.kinds D = [k]) (ha : a.Terminated) (hlabel : Verbatim (chars label))
    (hformat : chars format = chars label ++ ((Piece.directive d).bytes ++ chars "\n"))
    (h : say D R format [a] = .ok u) : k = a.kind := by
  have hps : ∀ p ∈ (chars label).map Piece.literal
      ++ .directive d :: (chars "\n").map Piece.literal, p.Ok := by
    intro p hp
    rcases List.mem_append.mp hp with hp | hp
    · exact literal_ok hlabel p hp
    · rcases List.mem_cons.mp hp with rfl | hp
      · exact hd
      · exact literal_ok (by decide) p hp
  have hbytes : chars format = ((chars label).map Piece.literal
      ++ .directive d :: (chars "\n").map Piece.literal).flatMap Piece.bytes := by
    rw [hformat, List.flatMap_append, flatMap_literal, List.flatMap_cons, flatMap_literal]
  have hva : ∀ x ∈ [a], x.Terminated := by
    intro x hx
    rwa [List.mem_singleton.mp hx]
  obtain ⟨va', text, hmeaning, -⟩ := (say_pieces hps hbytes [a] u).mp h
  obtain ⟨hkinds, -⟩ := (meaning_takes _ hva).2 _ hmeaning
  rw [List.flatMap_append, List.flatMap_cons, kinds_literal, kinds_literal, List.nil_append,
    List.append_nil, Piece.kinds, hk, List.map_singleton] at hkinds
  exact (List.cons_prefix_cons.mp hkinds).1

/-- A word is printed only where `long` has as many bits as a pointer. -/
lemma long_of_say {v : U64} (label : String) {long longLong : String} {u : List Byte}
    (hlabel : Verbatim (chars label))
    (h64 : chars long = chars label ++ (chars "%16lX" ++ chars "\n"))
    (h32 : chars longLong = chars label ++ (chars "%16llX" ++ chars "\n"))
    (h : say D R (if t.bits = 64 then long else longLong) [uint64Arg D R v] = .ok u) :
    D.long.bits = t.bits := by
  have hterminated : (uint64Arg D R v).Terminated := by
    rw [uint64Arg]
    split_ifs <;> trivial
  have hkind : (uint64Arg D R v).kind = if D.long = .w64 then .long else .longLong := by
    rw [uint64Arg]
    split_ifs <;> rfl
  split_ifs at h with hbits
  · have hlong : Kind.long = (uint64Arg D R v).kind :=
      kind_of_say (d := ⟨[], some (.number 16), none, some .l, ch 'X'⟩) (by decide) rfl hterminated
        hlabel (h64.trans (by rfl)) h
    rw [hkind] at hlong
    split_ifs at hlong with hw
    rw [hw, hbits]
    rfl
  · have hlong : Kind.longLong = (uint64Arg D R v).kind :=
      kind_of_say (d := ⟨[], some (.number 16), none, some .ll, ch 'X'⟩) (by decide) rfl hterminated
        hlabel (h32.trans (by rfl)) h
    rw [hkind] at hlong
    split_ifs at hlong with hw
    have hw32 : D.long = .w32 := by
      cases hD : D.long with
      | w32 => rfl
      | w64 => exact absurd hD hw
    rw [hw32, t.bits_eq.resolve_right hbits]
    rfl

lemma verbatim_ite {p : Prop} [Decidable p] {s s' : String} (h : Verbatim (chars s))
    (h' : Verbatim (chars s')) : Verbatim (chars (if p then s else s')) := by
  split_ifs
  · exact h
  · exact h'

lemma setWidth_toNat {n : ℕ} (hn : n ≤ 32) (v : BitVec n) : (v.setWidth 32).toNat = v.toNat := by
  have hlt := v.isLt.trans_le (Nat.pow_le_pow_right (by norm_num) hn)
  rw [BitVec.toNat_setWidth, Nat.mod_eq_of_lt hlt]

/-- The line about the distance. -/
lemma say_distance (v : Byte) :
    say D R "distance from sender: %u (%s)\n" [.int (v.setWidth 32),
        .str (some (literal (if v = 0 then "Local" else "Remote")))]
      = .ok (dumpLine "distance from sender: " (numeral 10 false v.toNat
        ++ chars (if v = 0 then " (Local)" else " (Remote)"))) := by
  have hname : Verbatim (chars (if v = 0 then "Local" else "Remote")) :=
    verbatim_ite (by decide) (by decide)
  have hend := (says_newline (D := D) (R := R)).literal (l := chars ")") (by decide)
  have hmid := (hend.str (strOf_literal hname)).literal (l := chars " (") (by decide)
  have h := (hmid.uint (v.setWidth 32)).literal (l := chars "distance from sender: ") (by decide)
  rw [h.say (by decide), dumpLine, setWidth_toNat (by norm_num), List.append_assoc]
  split_ifs
  · rfl
  · rfl

/-- The line about the capabilities. -/
lemma say_cap (cap : U32) {p : Option Cells} (hp : strOf p = .ok (capText cap)) :
    say D R "cap: 0x%08X, %s\n" [.int cap, .str p]
      = .ok (dumpLine "cap: 0x" (widened '0' 8 (numeral 16 true cap.toNat) ++ chars ", "
        ++ capText cap)) := by
  have hmid := ((says_newline (D := D) (R := R)).str hp).literal (l := chars ", ") (by decide)
  have h := (hmid.hex cap).literal (l := chars "cap: 0x") (by decide)
  rw [h.say (by decide), dumpLine]
  simp only [List.append_assoc]

/-- The line about the memory. -/
lemma say_memSz (v : U32) :
    say D R "memsz: %dKB\n" [.int v]
      = .ok (dumpLine "memsz: " (inDecimal v.toInt ++ chars "KB")) := by
  have hend := (says_newline (D := D) (R := R)).literal (l := chars "KB") (by decide)
  have h := (hend.int v).literal (l := chars "memsz: ") (by decide)
  rw [h.say (by decide), dumpLine, List.append_assoc]

/-- An entry is dumped as what a reader finds in it. -/
lemma nodeDumpEntry_read (h : entryRead t.endian b e = .ok r) (hother : discoveredBy msg st = .ok other)
    (hlong : D.long.bits = t.bits) :
    nodeDumpEntry D R t b e msg st = .ok (dumpText r (discoverySrcToStr st.source) other) := by
  rw [entryRead] at h
  obtain ⟨size, hsize, h⟩ := bind_eq_ok.mp h
  obtain ⟨numIp, hnumIp, h⟩ := bind_eq_ok.mp h
  obtain ⟨distance, hdistance, h⟩ := bind_eq_ok.mp h
  obtain ⟨name, hname, h⟩ := bind_eq_ok.mp h
  obtain ⟨ips, -, h⟩ := bind_eq_ok.mp h
  obtain ⟨uuid0, huuid0, h⟩ := bind_eq_ok.mp h
  obtain ⟨uuid1, huuid1, h⟩ := bind_eq_ok.mp h
  obtain ⟨ver, hver, h⟩ := bind_eq_ok.mp h
  obtain ⟨cap, hcap, h⟩ := bind_eq_ok.mp h
  obtain ⟨memSz, hmemSz, h⟩ := bind_eq_ok.mp h
  obtain ⟨platName, hplatName, h⟩ := bind_eq_ok.mp h
  obtain ⟨os, hos, h⟩ := bind_eq_ok.mp h
  obtain ⟨arch, harch, h⟩ := bind_eq_ok.mp h
  obtain ⟨cpu, hcpu, h⟩ := bind_eq_ok.mp h
  obtain ⟨gpu, hgpu, h⟩ := bind_eq_ok.mp h
  obtain rfl := Except.ok.inj h
  have hstart : puts (literal "==== Node dump ====") = .ok (chars "==== Node dump ====\r\n") := by
    rw [puts, literal, strText_stored (by decide)]
    rfl
  have hclose : puts (literal "") = .ok (chars "\r\n") := by
    rw [puts, literal, strText_stored (by decide)]
    rfl
  have hsource : say D R "Node discovery source: %s"
      [.str (some (literal (discoverySrcToStr st.source)))]
      = .ok (chars "Node discovery source: " ++ chars (discoverySrcToStr st.source)) :=
    (say_behind (by decide) (by decide) _ _).mpr
      ⟨_, strOf_literal (verbatim_discoverySrc st.source), rfl⟩
  have hby : sayToldBy D R " [discovered by node: %s]" msg st
      = .ok (otherText " [discovered by node: " "]" other) :=
    (sayToldBy_iff _ _ (by decide) (by decide) (by decide) msg st _).mpr ⟨other, hother, rfl⟩
  have hsizeLine : say D R "size value: %u\n" [.int (size.setWidth 32)]
      = .ok (dumpLine "size value: " (numeral 10 false size.toNat)) := by
    rw [← setWidth_toNat (by norm_num) size]
    exact (says_newline.uint _).line (by decide) (by decide)
  have hnumIpLine : say D R "num IPs: %u\n" [.int (numIp.setWidth 32)]
      = .ok (dumpLine "num IPs: " (numeral 10 false numIp.toNat)) := by
    rw [← setWidth_toNat (by norm_num) numIp]
    exact (says_newline.uint _).line (by decide) (by decide)
  have hnameLine : sayString D R "node name: %s\n" b (entryNodeName e)
      = .ok (dumpLine "node name: " name) := by
    have hq : (.ok (entryNodeName e) >>= fun q => b.cstr q.toNat) = .ok name := hname
    exact sayString_line (by decide) (by decide) hq
  have huuid0Line : say D R (if t.bits = 64 then "UUID 0: 0x%16lX\n" else "UUID 0: 0x%16llX\n")
      [uint64Arg D R uuid0] = .ok (dumpLine "UUID 0: 0x" (widened ' ' 16 (numeral 16 true uuid0.toNat))) :=
    say_word hlong uuid0 (by decide) (by decide) (by decide)
  have huuid1Line : say D R (if t.bits = 64 then "UUID 1: 0x%16lX\n" else "UUID 1: 0x%16llX\n")
      [uint64Arg D R uuid1] = .ok (dumpLine "UUID 1: 0x" (widened ' ' 16 (numeral 16 true uuid1.toNat))) :=
    say_word hlong uuid1 (by decide) (by decide) (by decide)
  have hverLine : (entryNodeEvrnetVer b e >>= sayString D R "everythingnet version: %s\n" b)
      = .ok (dumpLine "everythingnet version: " ver) :=
    sayString_line (by decide) (by decide) hver
  have hplatNameLine : (entryNodePlatinfoName b e >>= sayString D R "devname: %s\n" b)
      = .ok (dumpLine "devname: " platName) := sayString_line (by decide) (by decide) hplatName
  have hosLine : (entryNodePlatinfoOs b e >>= sayString D R "os: %s\n" b)
      = .ok (dumpLine "os: " os) := sayString_line (by decide) (by decide) hos
  have harchLine : (entryNodePlatinfoArch b e >>= sayString D R "arch: %s\n" b)
      = .ok (dumpLine "arch: " arch) := sayString_line (by decide) (by decide) harch
  have hcpuLine : (entryNodePlatinfoCpu b e >>= sayString D R "cpu: %s\n" b)
      = .ok (dumpLine "cpu: " cpu) := sayString_line (by decide) (by decide) hcpu
  have hgpuLine : (entryNodePlatinfoGpu b e >>= sayString D R "gpu: %s\n" b)
      = .ok (dumpLine "gpu: " gpu) := sayString_line (by decide) (by decide) hgpu
  obtain ⟨a, hcapTemp, hstr⟩ := capStr_eq cap
  rw [nodeDumpEntry, hstart, ok_bind, hsource, ok_bind, hby, ok_bind, hclose, ok_bind, hsize, ok_bind,
    hsizeLine, ok_bind, hnumIp, ok_bind, hnumIpLine, ok_bind, hdistance, ok_bind, say_distance,
    ok_bind, hnameLine, ok_bind, huuid0, ok_bind, huuid0Line, ok_bind, huuid1, ok_bind, huuid1Line,
    ok_bind, hverLine, ok_bind, hcap, ok_bind, hcapTemp, ok_bind, say_cap cap hstr, ok_bind, hmemSz,
    ok_bind, say_memSz, ok_bind, hplatNameLine, ok_bind, hosLine, ok_bind, harchLine, ok_bind, hcpuLine,
    ok_bind, hgpuLine, ok_bind]
  rfl

/-- What the dump of an entry prints, and when. -/
lemma nodeDumpEntry_iff (h : entryRead t.endian b e = .ok r) (text : List Byte) :
    nodeDumpEntry D R t b e msg st = .ok text
      ↔ D.long.bits = t.bits ∧ ∃ other, discoveredBy msg st = .ok other
        ∧ text = dumpText r (discoverySrcToStr st.source) other := by
  constructor
  · intro hdump
    have hends : D.long.bits = t.bits ∧ ∃ other, discoveredBy msg st = .ok other := by
      rw [nodeDumpEntry] at hdump
      obtain ⟨start, -, hdump⟩ := bind_eq_ok.mp hdump
      obtain ⟨source, -, hdump⟩ := bind_eq_ok.mp hdump
      obtain ⟨by', hby, hdump⟩ := bind_eq_ok.mp hdump
      obtain ⟨close, -, hdump⟩ := bind_eq_ok.mp hdump
      obtain ⟨size, -, hdump⟩ := bind_eq_ok.mp hdump
      obtain ⟨sizeLine, -, hdump⟩ := bind_eq_ok.mp hdump
      obtain ⟨numIp, -, hdump⟩ := bind_eq_ok.mp hdump
      obtain ⟨numIpLine, -, hdump⟩ := bind_eq_ok.mp hdump
      obtain ⟨distance, -, hdump⟩ := bind_eq_ok.mp hdump
      obtain ⟨distanceLine, -, hdump⟩ := bind_eq_ok.mp hdump
      obtain ⟨nameLine, -, hdump⟩ := bind_eq_ok.mp hdump
      obtain ⟨uuid0, -, hdump⟩ := bind_eq_ok.mp hdump
      obtain ⟨uuid0Line, huuid0, -⟩ := bind_eq_ok.mp hdump
      obtain ⟨other, hother, -⟩ := (sayToldBy_iff " [discovered by node: " "]" (by decide)
        (by decide) (by decide) msg st by').mp hby
      exact ⟨long_of_say "UUID 0: 0x" (by decide) (by decide) (by decide) huuid0, other, hother⟩
    obtain ⟨hlong, other, hother⟩ := hends
    exact ⟨hlong, other, hother, Except.ok.inj (hdump.symm.trans (nodeDumpEntry_read h hother hlong))⟩
  · rintro ⟨hlong, other, hother, rfl⟩
    exact nodeDumpEntry_read h hother hlong

end

section

variable {D : DataModel} {R : Reals} {t : Target} {m : Malloc t.bits} {cs : List Call}

/-- What a run knows is well formed, as everything that arrives is. -/
lemma known_wellFormed (i : LocalInfo) (hcs : ∀ c ∈ cs, c.Ok t) {e : Entry}
    (he : e ∈ known t i (finds t i.uuid cs)) : e.WellFormed := by
  rcases List.mem_cons.mp (mem_known he) with rfl | he
  · exact i.entry_wellFormed
  · obtain ⟨d, hd, he⟩ := List.mem_flatMap.mp he
    obtain ⟨item, hitem, hsome⟩ := List.mem_filterMap.mp (mem_handledBy_finds hd)
    have hok : item.Ok t := by
      rcases List.mem_append.mp hitem with hitem | hitem
      · obtain ⟨c, hc, hitem⟩ := List.mem_flatMap.mp hitem
        exact (hcs c hc).bcast item hitem
      · obtain ⟨c, hc, hitem⟩ := List.mem_flatMap.mp hitem
        exact (hcs c hc).mcast item hitem
    cases item with
    | packet d' errno =>
        obtain rfl : d' = d := by
          simp only at hsome
          split_ifs at hsome
          exact Option.some.inj hsome
        exact hok.2 e he
    | junk bytes errno => simp at hsome
    | empty errno => simp at hsome
    | failure errno => simp at hsome

/-- A message of the node itself leaves the node as it is. -/
lemma netHandleMsg_left {uuid : U64 × U64} {k : ℕ} {msg msg' : Block} {node node' : NodeState t.bits}
    (h : netHandleMsg t m uuid k msg node = .ok (true, msg', node')) : node' = node := by
  rw [netHandleMsg] at h
  obtain ⟨msg₁, -, h⟩ := bind_eq_ok.mp h
  obtain ⟨x, -, h⟩ := bind_eq_ok.mp h
  obtain ⟨y, -, h⟩ := bind_eq_ok.mp h
  split_ifs at h
  · exact ((Prod.mk.inj (Prod.mk.inj (Except.ok.inj h)).2).2).symm
  · obtain ⟨r, -, h⟩ := bind_eq_ok.mp h
    exact absurd (Prod.mk.inj (Except.ok.inj h)).1 (by decide)

/-- The receiving loop ends without a packet of another node, so that none has told of anything. -/
lemma netReceive_sourceNode {uuid : U64 × U64} {env : Env} {k : ℕ} {s s' : RecvState t.bits}
    (h : netReceive t m uuid env k s = .ok s') : s'.node.sourceNode = none := by
  refine iter_induct (I := fun _ => True) (Q := fun r => r.node.sourceNode = none)
    (fun _ _ _ _ => trivial) (fun s r _ hr => ?_) k s s' trivial h
  rw [recvStep] at hr
  obtain ⟨a, -, hr⟩ := bind_eq_ok.mp hr
  dsimp only at hr
  split_ifs at hr
  · obtain ⟨⟨own, msg, node⟩, hown, hr⟩ := bind_eq_ok.mp hr
    cases own with
    | true =>
        obtain rfl := Sum.inr.inj (Except.ok.inj hr)
        exact congrArg NodeState.sourceNode (netHandleMsg_left hown)
    | false => exact absurd (Except.ok.inj hr) (by simp)
  · obtain ⟨b, -, hr⟩ := bind_eq_ok.mp hr
    split_ifs at hr
    · obtain ⟨⟨own, msg, node⟩, hown, hr⟩ := bind_eq_ok.mp hr
      cases own with
      | true =>
          obtain rfl := Sum.inr.inj (Except.ok.inj hr)
          exact congrArg NodeState.sourceNode (netHandleMsg_left hown)
      | false => exact absurd (Except.ok.inj hr) (by simp)
    · obtain rfl := Sum.inr.inj (Except.ok.inj hr)
      rfl
  · obtain rfl := Sum.inr.inj (Except.ok.inj hr)
    rfl

lemma mainStart_sourceNode (hm : Served t m) (i : LocalInfo) {s₀ : LoopState t.bits}
    (h : mainStart t m i.toLocalFields = .ok s₀) : s₀.net.node.sourceNode = none := by
  obtain ⟨b, -, hnode⟩ := nodeInit_spec (t := t) (m := m) (k := 1) i hm.list
  obtain ⟨net, hnet, h⟩ := bind_eq_ok.mp h
  obtain ⟨msg, -, hnet⟩ := bind_eq_ok.mp hnet
  rw [hnode, ok_bind] at hnet
  obtain rfl := Except.ok.inj hnet
  obtain rfl := Except.ok.inj h
  rfl

/-- Between the turns no packet of another node is being read, so that none has told of anything. -/
lemma mainLoop_sourceNode {uuid : U64 × U64} {k : ℕ} {s s' : LoopState t.bits}
    (h : mainLoop t m uuid cs k s = .ok s') (hs : s.net.node.sourceNode = none) :
    s'.net.node.sourceNode = none := by
  induction cs generalizing s with
  | nil =>
      obtain rfl := Except.ok.inj h
      exact hs
  | cons c cs ih =>
      obtain ⟨s₁, hturn, h⟩ := bind_eq_ok.mp h
      refine ih h ?_
      obtain ⟨⟨net, bcast, mcast, sent⟩, hcall, hturn⟩ := bind_eq_ok.mp hturn
      obtain rfl := Except.ok.inj hturn
      obtain ⟨r, hrecv, hcall⟩ := bind_eq_ok.mp hcall
      have hnone := netReceive_sourceNode hrecv
      split_ifs at hcall
      · obtain rfl := (Prod.mk.inj (Except.ok.inj hcall)).1
        exact hnone
      · obtain ⟨⟨msg, node, sent'⟩, hsend, hcall⟩ := bind_eq_ok.mp hcall
        obtain rfl := (Prod.mk.inj (Except.ok.inj hcall)).1
        exact (netSend_kept hsend).2.trans hnone

/-- Each entry of the list is dumped as what it says, just in the builds in which `long` has as many
bits as a pointer, with the name of the node that has told of a new one if there is one, as is not the
case between the turns. What has arrived is as `Call.Ok` says. -/
theorem main_dumps (hm : Served t m) (i : LocalInfo) (hcs : ∀ c ∈ cs, c.Ok t) :
    ∃ s₀, mainStart t m i.toLocalFields = .ok s₀
      ∧ ∀ s, Settles (fun k => mainLoop t m i.uuid cs k s₀) (.ok s) →
        discoveredBy s.net.msg s.net.node = .ok none
        ∧ ∃ K, Holds t s.net.node.nodeList evrnetNodelistV1 (i.entry :: K)
          ∧ ∀ ds e rs, i.entry :: K = ds ++ e :: rs → ∀ q : BitVec t.bits,
            q.toNat = s.net.node.nodeList.base + 8 + total ds →
            ∀ msg st text, nodeDumpEntry D R t s.net.node.nodeList q msg st = .ok text
              ↔ D.long.bits = t.bits ∧ ∃ other, discoveredBy msg st = .ok other
                ∧ text = dumpText e.reading (discoverySrcToStr st.source) other := by
  obtain ⟨s₀, hs₀, hturned₀⟩ := mainStart_spec hm i
  refine ⟨s₀, hs₀, fun s hs => ⟨?_, ?_⟩⟩
  · obtain ⟨N, hN⟩ := hs
    have hnone := mainLoop_sourceNode (hN N le_rfl) (mainStart_sourceNode hm i hs₀)
    rw [discoveredBy, hnone]
    cases s.net.node.source <;> rfl
  · have hturned := hturned₀.of_settles hm hcs hs
    have hfirst : [i.entry] <+: known t i (finds t i.uuid cs) := prefix_mergeNew
    obtain ⟨K, hK⟩ : ∃ K, i.entry :: K = known t i (finds t i.uuid cs) := hfirst
    have hlist : Holds t s.net.node.nodeList evrnetNodelistV1 (i.entry :: K) :=
      hK ▸ hturned.after.list
    refine ⟨K, hlist, fun ds e rs hsplit q hq msg st text => ?_⟩
    have hmem : e ∈ known t i (finds t i.uuid cs) := by
      rw [← hK, hsplit]
      simp
    have hread := (hlist.sits_at hsplit hq).read (known_wellFormed i hcs hmem).complete
    exact nodeDumpEntry_iff hread text

theorem main_dumps_sample :
    ∃ s₀ s, mainStart .linux64 .spread sampleInfo.toLocalFields = .ok s₀
      ∧ Settles (fun k => mainLoop .linux64 .spread sampleInfo.uuid [find [greeting]] k s₀) (.ok s)
      ∧ ∀ q : BitVec 64, q.toNat = s.net.node.nodeList.base + 8 →
        nodeDumpEntry Printf.lp64 noReals .linux64 s.net.node.nodeList q s.net.msg s.net.node
          = .ok (dumpText sampleInfo.entry.reading (discoverySrcToStr s.net.node.source) none) := by
  obtain ⟨s₀, s, hs₀, hs⟩ := greeting_settles
  obtain ⟨s₁, hs₁, h⟩ := main_dumps (D := Printf.lp64) (R := noReals) spread_served sampleInfo
    greeting_call_ok
  obtain rfl : s₀ = s₁ := Except.ok.inj (hs₀.symm.trans hs₁)
  obtain ⟨hnone, K, -, hdump⟩ := h s hs
  refine ⟨s₀, s, hs₀, hs, fun q hq => ?_⟩
  exact (hdump [] sampleInfo.entry K rfl q hq _ _ _).mpr ⟨rfl, none, hnone, rfl⟩

end

end EverythingNet
