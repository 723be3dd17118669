import Mathlib.Tactic
import EverythingNet.Plat.CpuName

/-!
The graphics of a Linux machine, from their start to the exit of the program: `plat/linux/gfx_init.c`,
`plat/linux/gfx_init_glx.c`, `app/state.c` and `app/exit.c`.

* `linuxGfxInitXorgGLX`: the name of the GPU, and what is made of the X server. `linuxGfxInit`: the
  backends in their order.
* `gpuName`: the name that GLX gives. `gfxName_fits`, `gfxName_long`: the code has it in its buffer
  just if there is room for it.
* `GfxNamed`: what a start is to leave in `PLAT_Info`, `linuxGfxInit_iff`.
* `appCleanupAndExit`: the exit. `XCall.apply`: what is held of the X server and of its library behind a
  call. `exit_leaves`: what is still held when the program exits.
-/

namespace EverythingNet

open CMem

/-! ### The code -/

/-- The calls that make or release something of the X server or of its library, as far as they
succeed. -/
inductive XCall where
  | openDisplay
  | chooseVisual
  | createColormap
  | createWindow
  | createContext
  | makeCurrent
  | makeNoneCurrent
  | destroyContext
  | destroyWindow
  | closeDisplay
  deriving DecidableEq

/-- `G_State.exitCallbacks`: what the callbacks call, and whether there is one that exits. -/
structure ExitCallbacks where
  snd : Option (List XCall)
  gfx : Option (List XCall)
  plat : Option (List XCall)
  exit : Bool

/-- `STATE_Init`. -/
def stateInit : ExitCallbacks := ⟨none, none, none, false⟩

/-- `APP_CleanupAndExit`: what is called, and the status that the program exits with. Without a
callback that exits it hangs. -/
def appCleanupAndExit (cb : ExitCallbacks) (status : ℤ) : List XCall × Option ℤ :=
  (cb.snd.getD [] ++ cb.gfx.getD [] ++ cb.plat.getD [], if cb.exit then some status else none)

/-- What the code changes: `PLAT_Info.cap`, `PLAT_Info.gpu`, the callbacks, what it has printed, and
what it has called. -/
structure GfxState where
  cap : U32
  gpu : Option Cells
  callbacks : ExitCallbacks
  printed : List String
  calls : List XCall

/-- A text is printed. -/
def GfxState.print (st : GfxState) (s : String) : GfxState := { st with printed := st.printed ++ [s] }

/-- Something of the X server is called. -/
def GfxState.call (st : GfxState) (cs : List XCall) : GfxState := { st with calls := st.calls ++ cs }

/-- What the X server and GLX say: how far the code comes, and what then is at the pointers that
`glGetString` gives for the renderer and the vendor. `memory` is for the name. -/
inductive GlxOutcome where
  | noDisplay
  | noVisual
  | noContext
  | context (renderer vendor : Option Cells) (memory : Bool)

/-- `memcmp(a, b, n) == 0`. -/
def sameBytes (a b : Cells) (n : ℕ) : Except Halt Bool := do
  let x ← readN n a
  let y ← readN n b
  return decide (x = y)

/-- `if (chrptr && (chrptr - 1) >= renderer) *(chrptr - 1) = '\0'`. -/
def cutBracket (renderer : Cells) : Option ℕ → Except Halt Cells
  | none => .ok renderer
  | some 0 => .ok renderer
  | some (i + 1) => write renderer i [0]

/-- The part up to `copyRenderer`: the vendor is copied, if the renderer does not start with it. -/
def putVendor (gpuNameStr renderer vendor : Cells) : Except Halt Cells := do
  let rendererLen ← CMem.strlen renderer
  let vendorLen ← CMem.strlen vendor
  let same ← (if vendorLen < rendererLen then sameBytes renderer vendor vendorLen else pure false)
  if same then return gpuNameStr
  else
    let gpuNameStr ← CMem.strcpy gpuNameStr vendor
    CMem.strcat gpuNameStr (chars " ")

/-- The part that puts the name together in `gpuNameStr`. -/
def gfxName (gpuNameStr renderer vendor : Cells) : Except Halt Cells := do
  let gpuNameStr ← putVendor gpuNameStr renderer vendor
  let chrptr ← CMem.strchr 0x28 renderer
  let renderer ← cutBracket renderer chrptr
  let text ← CMem.strText renderer
  CMem.strcat gpuNameStr text

/-- `LINUX_GfxCleanupGLX`. -/
def linuxGfxCleanupGLX : List XCall := [.makeNoneCurrent, .destroyContext, .destroyWindow, .closeDisplay]

/-- `LINUX_GfxInitXorgGLX`. -/
def linuxGfxInitXorgGLX (x : GlxOutcome) (st : GfxState) : Except Halt (ℤ × GfxState) :=
  match x with
  | .noDisplay => .ok (-1, st.print "GFX: Xorg/GLX: failed to open X display\n")
  | .noVisual =>
    .ok (-1, ((st.call [.openDisplay]).print "GFX: Xorg/GLX: no appropriate visual found\n").call
      [.closeDisplay])
  | .noContext =>
    .ok (-1, ((st.call [.openDisplay, .chooseVisual, .createColormap, .createWindow]).print
      "GFX: Xorg/GLX: failed to create GLX context\n").call [.destroyWindow, .closeDisplay])
  | .context renderer vendor memory =>
    let st := st.call
      [.openDisplay, .chooseVisual, .createColormap, .createWindow, .createContext, .makeCurrent]
    match renderer, vendor with
    | some renderer, some vendor => do
      let gpuNameStr ← gfxName (stored (List.replicate 512 0)) renderer vendor
      let gpu ← copyString memory gpuNameStr
      return (0, { st with
        gpu := some gpu
        callbacks := { st.callbacks with gfx := some linuxGfxCleanupGLX } })
    | _, _ => .error .nullPointer

/-- The backends that are compiled in. -/
structure GfxBuild where
  wayland : Bool
  glx : Bool
  drm : Bool
  fb : Bool

/-- The environment: the variables that are set, and the X server. -/
structure GfxEnv where
  waylandDisplay : Bool
  display : Bool
  x : GlxOutcome

/-- `GFX_OK` and so on. -/
def gfxOk : ℤ := 0

def gfxFail : ℤ := -1

def gfxUnaccel : ℤ := -2

def gfxNoDevice : ℤ := -19

/-- `CAP_HOST` and so on. -/
def capHost : U32 := 1 <<< 0

def capDisp : U32 := 1 <<< 1

def capGfxAccel : U32 := 1 <<< 2

/-- What is said about graphics without acceleration. -/
def unaccelWarning : String :=
  "GFX: WARNING: Unaccelerated graphics output detected," ++
  "consider switching to DRM/KMS or fbdev if you don't" ++
  "plan on using hosting functionality from this machine.\n"

/-- A failure that the code does not know. -/
def unknownFailure (err : ℤ) (backend : String) : String :=
  "Unknown failure (" ++ toString err ++ ") from " ++ backend ++ "\n"

/-- What follows from the result of a windowing system: the code returns, or goes on. -/
def afterWindowing (failure backend : String) (err : ℤ) (st : GfxState) :
    (ℤ × GfxState) ⊕ GfxState :=
  if err = gfxOk then .inl (gfxOk, { st with cap := st.cap ||| capGfxAccel })
  else if err = gfxFail then .inr (st.print failure)
  else if err = gfxUnaccel then .inl (gfxUnaccel, st.print unaccelWarning)
  else .inr (st.print (unknownFailure err backend))

def afterWayland : ℤ → GfxState → (ℤ × GfxState) ⊕ GfxState :=
  afterWindowing "GFX: Wayland detected but failed to initialize.\n" "Wayland w/ EGL"

def afterGlx : ℤ → GfxState → (ℤ × GfxState) ⊕ GfxState :=
  afterWindowing "GFX: Xorg detected but failed to initialize GLX.\n" "Xorg w/ GLX"

/-- What follows from the result of a device of the kernel. `use` is what is done with one. -/
def afterDevice (use : U32 → U32) (failure backend : String) (err : ℤ) (st : GfxState) :
    (ℤ × GfxState) ⊕ GfxState :=
  if err = gfxOk then .inl (gfxOk, { st with cap := use st.cap })
  else if err = gfxFail then .inr (st.print failure)
  else if err = gfxNoDevice then .inr st
  else .inr (st.print (unknownFailure err backend))

def afterDrm : ℤ → GfxState → (ℤ × GfxState) ⊕ GfxState :=
  afterDevice (· ||| capGfxAccel) "GFX: Failed to initialize DRM/KMS\n" "DRM/KMS"

def afterFb : ℤ → GfxState → (ℤ × GfxState) ⊕ GfxState :=
  afterDevice (· &&& ~~~capGfxAccel) "GFX: Failed to initialize fbdev\n" "fbdev"

/-- Nothing has worked. -/
def headlessMode (st : GfxState) : ℤ × GfxState :=
  (gfxFail, { st.print "GFX: ERROR: All graphics backends failed.  Dropping to headless mode.\n" with
    cap := st.cap &&& ~~~(capGfxAccel ||| capHost ||| capDisp)
    gpu := some (ended (chars "None (headless)")) })

/-- The backends that need no windowing system. The calls that would set `err` are not there yet. -/
def tryDevices (b : GfxBuild) (err : ℤ) (st : GfxState) : ℤ × GfxState :=
  let st := { st with cap := st.cap &&& ~~~capHost }
  match (if b.drm then afterDrm err st else .inr st) with
  | .inl r => r
  | .inr st =>
    match (if b.fb then afterFb err st else .inr st) with
    | .inl r => r
    | .inr st => headlessMode st

/-- Xorg, and what follows. -/
def tryGlx (b : GfxBuild) (e : GfxEnv) (err : ℤ) (st : GfxState) : Except Halt (ℤ × GfxState) :=
  if b.glx && e.display then do
    let (err, st) ← linuxGfxInitXorgGLX e.x st
    match afterGlx err st with
    | .inl r => return r
    | .inr st => return tryDevices b err st
  else .ok (tryDevices b err st)

/-- `LINUX_GfxInit`. The call for Wayland is not there yet either. -/
def linuxGfxInit (b : GfxBuild) (e : GfxEnv) (st : GfxState) : Except Halt (ℤ × GfxState) :=
  let err := gfxFail
  match (if b.wayland && e.waylandDisplay then afterWayland err st else .inr st) with
  | .inl r => .ok r
  | .inr st => tryGlx b e err st

/-! ### The name of the GPU -/

/-- A renderer without what it says in brackets, and without the character before them. -/
def bareRenderer (r : List Byte) : List Byte :=
  if r.contains 0x28 ∧ r.head? ≠ some 0x28 then (r.takeWhile (· ≠ 0x28)).dropLast else r

/-- What comes before the renderer: its vendor, if it does not start with it. -/
def vendorPart (vendor renderer : List Byte) : List Byte :=
  if vendor.length < renderer.length ∧ vendor <+: renderer then [] else vendor ++ chars " "

/-- The name that is to come of it. -/
def gpuName (vendor renderer : List Byte) : List Byte :=
  vendorPart vendor renderer ++ bareRenderer renderer

example : gpuName (chars "AMD") (chars "AMD Radeon Graphics (radeonsi, renoir)")
    = chars "AMD Radeon Graphics" := by
  decide

section

variable {a b : Cells} {v r : List Byte}

/-- The brackets are cut off. -/
lemma cutBracket_stored (h : StartsWith a r) :
    ∃ d, (CMem.strchr 0x28 a >>= cutBracket a) = .ok d ∧ StartsWith d (bareRenderer r) := by
  by_cases hmem : (0x28 : Byte) ∈ r
  · by_cases hhead : r.head? = some 0x28
    · obtain ⟨q, rfl⟩ := List.head?_eq_some_iff.mp hhead
      have hchr : CMem.strchr 0x28 a = .ok (some 0) := StartsWith.strchr (p := []) h (by simp)
      rw [hchr, bareRenderer, if_neg fun hc => hc.2 hhead]
      exact ⟨a, rfl, h⟩
    · obtain ⟨p, c, q, rfl, hp⟩ := split_before hmem hhead
      obtain ⟨d, hd, hcut, -⟩ := h.cut (i := p.length) (by simp)
      rw [List.append_assoc, List.take_left] at hcut
      rw [h.strchr hp, ok_bind, bareRenderer,
        if_pos ⟨List.contains_iff_mem.mpr hmem, hhead⟩, takeWhile_first hp, List.dropLast_concat,
        List.length_append, List.length_singleton]
      exact ⟨d, hd, hcut⟩
  · rw [h.strchr_none hmem (by decide), bareRenderer,
      if_neg fun hc => hmem (List.contains_iff_mem.mp hc.1)]
    exact ⟨a, rfl, h⟩

/-- The vendor is compared with the start of the renderer. -/
lemma sameBytes_stored (ha : StartsWith a r) (hb : StartsWith b v) (hlt : v.length < r.length) :
    sameBytes a b v.length = .ok (decide (v <+: r)) := by
  rw [sameBytes, ha.readN hlt.le, ok_bind, hb.readN le_rfl, ok_bind, List.take_length]
  refine congrArg _ (decide_eq_decide.mpr ?_)
  rw [List.prefix_iff_eq_take, eq_comm]

lemma putVendor_same (ha : StartsWith a r) (hb : StartsWith b v) (d : Cells) :
    putVendor d a b = if v.length < r.length ∧ v <+: r then .ok d
      else CMem.strcpy d b >>= fun d => CMem.strcat d (chars " ") := by
  rw [putVendor, ha.strlen, ok_bind, hb.strlen, ok_bind]
  by_cases hlt : v.length < r.length
  · rw [if_pos hlt, sameBytes_stored ha hb hlt, ok_bind]
    by_cases hpre : v <+: r
    · rw [decide_eq_true hpre, if_pos rfl, if_pos ⟨hlt, hpre⟩]
      rfl
    · rw [decide_eq_false hpre, if_neg (by simp), if_neg fun h => hpre h.2]
  · rw [if_neg hlt, pure_eq_ok, ok_bind, if_neg (by simp), if_neg fun h => hlt h.1]

lemma putVendor_fits (ha : StartsWith a r) (hb : StartsWith b v) {d : Cells}
    (hd : StartsWith d []) (hlt : (vendorPart v r).length < d.length) :
    ∃ d', putVendor d a b = .ok d' ∧ StartsWith d' (vendorPart v r) ∧ d'.length = d.length := by
  rw [vendorPart] at hlt
  rw [putVendor_same ha hb, vendorPart]
  split_ifs with h
  · exact ⟨d, rfl, hd, rfl⟩
  · rw [if_neg h] at hlt
    have hspace : (chars " ").length = 1 := rfl
    rw [List.length_append, hspace] at hlt
    obtain ⟨d₁, h₁, hstart, hlen⟩ := hb.strcpy (d := d) (by omega)
    obtain ⟨d₂, h₂, hstart', hlen'⟩ := hstart.strcat (u := chars " ") (by decide)
      (by rw [List.length_append, hspace, hlen]; exact hlt)
    exact ⟨d₂, bind_of_ok h₁ _ |>.trans h₂, hstart', hlen'.trans hlen⟩

lemma putVendor_long (ha : StartsWith a r) (hb : StartsWith b v) {d : Cells}
    (hd : StartsWith d []) (hle : d.length ≤ (vendorPart v r).length) :
    putVendor d a b = .error .outOfBounds := by
  rw [vendorPart] at hle
  rw [putVendor_same ha hb]
  split_ifs with h
  · have := hd.length_lt
    rw [if_pos h] at hle
    omega
  · rw [if_neg h] at hle
    rcases Nat.lt_or_ge v.length d.length with hlt | hge
    · obtain ⟨d₁, h₁, hstart, hlen⟩ := hb.strcpy (d := d) hlt
      rw [h₁, ok_bind]
      exact hstart.strcat_long (by rw [hlen]; exact hle)
    · rw [hb.strcpy_long hge]
      rfl

lemma gfxName_eq (d a b : Cells) :
    gfxName d a b = putVendor d a b >>= fun d =>
      (CMem.strchr 0x28 a >>= cutBracket a) >>= fun a => CMem.strText a >>= CMem.strcat d := by
  simp only [gfxName, bind_assoc]

/-- The name is in the buffer if there is room for it. -/
lemma gfxName_fits (ha : StartsWith a r) (hb : StartsWith b v) {d : Cells}
    (hd : StartsWith d []) (hlt : (gpuName v r).length < d.length) :
    ∃ d', gfxName d a b = .ok d' ∧ StartsWith d' (gpuName v r) := by
  rw [gpuName, List.length_append] at hlt
  obtain ⟨d₁, h₁, hstart, hlen⟩ := putVendor_fits ha hb hd (by omega)
  obtain ⟨a', ha', hbare⟩ := cutBracket_stored ha
  obtain ⟨d₂, h₂, hstart', -⟩ := hstart.strcat hbare.text
    (by rw [List.length_append, hlen]; exact hlt)
  refine ⟨d₂, ?_, hstart'⟩
  rw [gfxName_eq, h₁, ok_bind, ha', ok_bind, hbare.strText, ok_bind, h₂]

lemma gfxName_long (ha : StartsWith a r) (hb : StartsWith b v) {d : Cells}
    (hd : StartsWith d []) (hle : d.length ≤ (gpuName v r).length) :
    gfxName d a b = .error .outOfBounds := by
  rw [gfxName_eq]
  rcases Nat.lt_or_ge (vendorPart v r).length d.length with hlt | hge
  · obtain ⟨d₁, h₁, hstart, hlen⟩ := putVendor_fits ha hb hd hlt
    obtain ⟨a', ha', hbare⟩ := cutBracket_stored ha
    rw [h₁, ok_bind, ha', ok_bind, hbare.strText, ok_bind]
    exact hstart.strcat_long (by rw [hlen]; exact hle)
  · rw [putVendor_long ha hb hd hge, error_bind]

/-- A name in the buffer comes from two strings. -/
lemma gfxName_ok {d d' : Cells} (hd : StartsWith d []) (h : gfxName d a b = .ok d') :
    ∃ v r, StartsWith a r ∧ StartsWith b v ∧ (gpuName v r).length < d.length
      ∧ StartsWith d' (gpuName v r) := by
  obtain ⟨d₁, hput, -⟩ := bind_eq_ok.mp h
  obtain ⟨n, hn, hput⟩ := bind_eq_ok.mp hput
  obtain ⟨m, hm, -⟩ := bind_eq_ok.mp hput
  obtain ⟨r, a', hr, -, ha⟩ := strlen_eq_ok hn
  obtain ⟨v, b', hv, -, hb⟩ := strlen_eq_ok hm
  have hra : StartsWith a r := ⟨hr, a', ha⟩
  have hvb : StartsWith b v := ⟨hv, b', hb⟩
  rcases Nat.lt_or_ge (gpuName v r).length d.length with hlt | hge
  · obtain ⟨d₂, h₂, hstart⟩ := gfxName_fits hra hvb hd hlt
    obtain rfl := Except.ok.inj (h.symm.trans h₂)
    exact ⟨v, r, hra, hvb, hlt, hstart⟩
  · rw [gfxName_long hra hvb hd hge] at h
    simp at h

end

/-! ### What is held of the X server -/

/-- What is made of the X server and of its library. `visual` is the `XVisualInfo`. -/
inductive XObject where
  | display
  | visual
  | colormap
  | window
  | context
  deriving DecidableEq

/-- Something is made of what there must be. -/
def make (o : XObject) (needs held : List XObject) : Option (List XObject) :=
  if needs ⊆ held then some (o :: held) else none

/-- Something is released that is held, with what there must be for that. -/
def release (o : XObject) (needs held : List XObject) : Option (List XObject) :=
  if o ∈ held ∧ needs ⊆ held then some (held.erase o) else none

/-- What is held behind a call, if the call may be made. There are calls that would release a visual or
a colormap, but the code makes none. A colormap that is still held goes with the connection, but is held
here until it is released by a call of its own. -/
def XCall.apply (held : List XObject) : XCall → Option (List XObject)
  | .openDisplay => make .display [] held
  | .chooseVisual => make .visual [.display] held
  | .createColormap => make .colormap [.display, .visual] held
  | .createWindow => make .window [.display, .visual, .colormap] held
  | .createContext => make .context [.display, .visual] held
  | .makeCurrent => if [.display, .window, .context] ⊆ held then some held else none
  | .makeNoneCurrent => if .display ∈ held then some held else none
  | .destroyContext => release .context [.display] held
  | .destroyWindow => release .window [.display] held
  | .closeDisplay => release .display [] held

/-- What is held behind some calls, from nothing on. -/
def heldBehind (calls : List XCall) : Option (List XObject) := calls.foldlM XCall.apply []

/-- What is held while the graphics are in use. -/
def inUse : List XObject := [.context, .window, .colormap, .visual, .display]

/-- What no call releases. -/
def unreleased : List XObject := [.colormap, .visual]

/-! ### The start -/

/-- There is a context. -/
def GlxOutcome.runs : GlxOutcome → Bool
  | .noDisplay => false
  | .noVisual => false
  | .noContext => false
  | .context _ _ _ => true

/-- There is a visual. -/
def GlxOutcome.chosen : GlxOutcome → Bool
  | noDisplay => false
  | noVisual => false
  | noContext => true
  | context _ _ _ => true

/-- The code comes to GLX, and a visual is chosen. -/
def VisualChosen (b : GfxBuild) (e : GfxEnv) : Prop := (b.glx && e.display && e.x.chosen) = true

instance (b : GfxBuild) (e : GfxEnv) : Decidable (VisualChosen b e) :=
  inferInstanceAs (Decidable (_ = _))

/-- The code comes to GLX, and there is a context. -/
def GlxRuns (b : GfxBuild) (e : GfxEnv) : Prop := (b.glx && e.display && e.x.runs) = true

instance (b : GfxBuild) (e : GfxEnv) : Decidable (GlxRuns b e) := inferInstanceAs (Decidable (_ = _))

/-- What is left of the capabilities without graphics. -/
def headlessCap (cap : U32) : U32 := cap &&& ~~~(capGfxAccel ||| capHost ||| capDisp)

/-- The GPU of a machine without graphics. -/
def noGpu : Cells := ended (chars "None (headless)")

section

variable {b : GfxBuild} {e : GfxEnv} {st st' : GfxState} {ret : ℤ}

/-- With the failure that the code starts with, nothing but the headless mode is left. -/
lemma tryDevices_fail (b : GfxBuild) (st : GfxState) :
    ∃ printed, tryDevices b gfxFail st
      = (gfxFail, ⟨headlessCap st.cap, some noGpu, st.callbacks, printed, st.calls⟩) := by
  have hcap : st.cap &&& ~~~capHost &&& ~~~(capGfxAccel ||| capHost ||| capDisp)
      = headlessCap st.cap := by
    rw [BitVec.and_assoc, headlessCap]
    exact congrArg _ (by decide)
  obtain ⟨wayland, glx, drm, fb⟩ := b
  rw [← hcap]
  cases drm <;> cases fb <;> exact ⟨_, rfl⟩

/-- What the code does not come to a context with is released again, but for the visual and what is
made of it. -/
lemma glx_fails {x : GlxOutcome} (h : x.runs = false) (st : GfxState) :
    ∃ printed cs, linuxGfxInitXorgGLX x st
        = .ok (gfxFail, ⟨st.cap, st.gpu, st.callbacks, printed, st.calls ++ cs⟩)
      ∧ heldBehind cs = some (if x.chosen then unreleased else []) := by
  cases x with
  | noDisplay => exact ⟨_, [], by rw [List.append_nil]; rfl, rfl⟩
  | noVisual =>
      refine ⟨(st.print "GFX: Xorg/GLX: no appropriate visual found\n").printed,
        [.openDisplay] ++ [.closeDisplay], ?_, rfl⟩
      rw [← List.append_assoc]
      rfl
  | noContext =>
      refine ⟨(st.print "GFX: Xorg/GLX: failed to create GLX context\n").printed,
        [.openDisplay, .chooseVisual, .createColormap, .createWindow]
          ++ [.destroyWindow, .closeDisplay], ?_, rfl⟩
      rw [← List.append_assoc]
      rfl
  | context renderer vendor memory => simp [GlxOutcome.runs] at h

/-- What is called for a context. -/
def contextCalls : List XCall :=
  [.openDisplay, .chooseVisual, .createColormap, .createWindow, .createContext, .makeCurrent]

/-- With a context the name of the GPU is known, if there are strings, and room and memory for it. -/
lemma glx_context {renderer vendor : Option Cells} {memory : Bool} {r : ℤ × GfxState} :
    linuxGfxInitXorgGLX (.context renderer vendor memory) st = .ok r
      ↔ memory = true ∧ ∃ a d v w, renderer = some a ∧ vendor = some d ∧ StartsWith a w
        ∧ StartsWith d v ∧ (gpuName v w).length < 512
        ∧ r = (gfxOk, ⟨st.cap, some (ended (gpuName v w)),
          { st.callbacks with gfx := some linuxGfxCleanupGLX }, st.printed,
          st.calls ++ contextCalls⟩) := by
  have hbuf : StartsWith (stored (List.replicate 512 0)) [] :=
    ⟨by simp, stored (List.replicate 511 0), rfl⟩
  have hsize : (stored (List.replicate 512 0)).length = 512 := by
    rw [stored_length, List.length_replicate]
  constructor
  · intro h
    cases renderer with
    | none => exact absurd h (fun h => by cases h)
    | some a =>
        cases vendor with
        | none => exact absurd h (fun h => by cases h)
        | some d =>
            obtain ⟨g, hg, h⟩ := bind_eq_ok.mp h
            obtain ⟨gpu, hgpu, h⟩ := bind_eq_ok.mp h
            obtain ⟨v, w, ha, hd, hlt, hname⟩ := gfxName_ok hbuf hg
            cases memory with
            | false => simp [copyString_noMemory hname] at hgpu
            | true =>
                rw [copyString_stored hname] at hgpu
                obtain rfl := Except.ok.inj hgpu
                exact ⟨rfl, a, d, v, w, rfl, rfl, ha, hd, hsize ▸ hlt, (Except.ok.inj h).symm⟩
  · rintro ⟨rfl, a, d, v, w, rfl, rfl, ha, hd, hlt, rfl⟩
    obtain ⟨g, hg, hname⟩ := gfxName_fits ha hd hbuf (by rw [hsize]; exact hlt)
    exact (bind_of_ok hg _).trans (bind_of_ok (copyString_stored hname) _)

/-- Wayland changes nothing but what is printed. -/
lemma linuxGfxInit_eq (b : GfxBuild) (e : GfxEnv) (st : GfxState) :
    ∃ printed, linuxGfxInit b e st = tryGlx b e gfxFail { st with printed := printed } := by
  rw [linuxGfxInit]
  cases b.wayland && e.waylandDisplay with
  | false => exact ⟨st.printed, rfl⟩
  | true => exact ⟨_, rfl⟩

/-- Without a context the machine is headless, and holds nothing that a call would release. -/
lemma linuxGfxInit_headless (h : ¬ GlxRuns b e) (st : GfxState) :
    ∃ printed cs, linuxGfxInit b e st = .ok (gfxFail,
        ⟨headlessCap st.cap, some noGpu, st.callbacks, printed, st.calls ++ cs⟩)
      ∧ heldBehind cs = some (if VisualChosen b e then unreleased else []) := by
  obtain ⟨printed, hinit⟩ := linuxGfxInit_eq b e st
  rw [hinit, tryGlx]
  cases hglx : b.glx && e.display with
  | false =>
      obtain ⟨printed', hdevices⟩ := tryDevices_fail b { st with printed := printed }
      refine ⟨printed', [], ?_, ?_⟩
      · rw [if_neg (by simp), hdevices, List.append_nil]
      · rw [if_neg (by simp [VisualChosen, hglx])]
        rfl
  | true =>
      have hx : e.x.runs = false := by
        rw [GlxRuns, hglx, Bool.true_and] at h
        simpa using h
      obtain ⟨printed', cs, hfails, hheld⟩ := glx_fails hx { st with printed := printed }
      obtain ⟨printed'', hdevices⟩ := tryDevices_fail b
        ((⟨st.cap, st.gpu, st.callbacks, printed', st.calls ++ cs⟩ : GfxState).print
          "GFX: Xorg detected but failed to initialize GLX.\n")
      refine ⟨printed'', cs, ?_, ?_⟩
      · rw [if_pos rfl, hfails, ok_bind]
        exact congrArg Except.ok hdevices
      · have hchosen : VisualChosen b e ↔ e.x.chosen = true := by
          rw [VisualChosen, hglx, Bool.true_and]
        simp only [hheld, hchosen]

/-- With a context the graphics are in use, if the GPU has a name. -/
lemma linuxGfxInit_context (h : GlxRuns b e) (st : GfxState) :
    ∃ printed, ∀ r, linuxGfxInit b e st = .ok r
      ↔ ∃ a d v w, e.x = .context (some a) (some d) true ∧ StartsWith a w ∧ StartsWith d v
        ∧ (gpuName v w).length < 512
        ∧ r = (gfxOk, ⟨st.cap ||| capGfxAccel, some (ended (gpuName v w)),
          { st.callbacks with gfx := some linuxGfxCleanupGLX }, printed,
          st.calls ++ contextCalls⟩) := by
  obtain ⟨printed, hinit⟩ := linuxGfxInit_eq b e st
  obtain ⟨hglx, hx⟩ := Bool.and_eq_true_iff.mp h
  refine ⟨printed, fun r => ?_⟩
  rw [hinit, tryGlx, if_pos hglx]
  cases hout : e.x with
  | noDisplay => simp [hout, GlxOutcome.runs] at hx
  | noVisual => simp [hout, GlxOutcome.runs] at hx
  | noContext => simp [hout, GlxOutcome.runs] at hx
  | context renderer vendor memory =>
      constructor
      · intro hr
        obtain ⟨r', hr', hr⟩ := bind_eq_ok.mp hr
        obtain ⟨rfl, a, d, v, w, rfl, rfl, ha, hd, hlt, rfl⟩ := glx_context.mp hr'
        exact ⟨a, d, v, w, rfl, ha, hd, hlt, (Except.ok.inj hr).symm⟩
      · rintro ⟨a, d, v, w, hx', ha, hd, hlt, rfl⟩
        obtain ⟨rfl, rfl, rfl⟩ := GlxOutcome.context.inj hx'
        exact bind_of_ok (glx_context.mpr ⟨rfl, a, d, v, w, rfl, rfl, ha, hd, hlt, rfl⟩) _

/-- What a machine with the capabilities `cap` is to have behind a start: acceleration and the GPU that
GLX names if there is a context, the strings are there and there is room for the name; without a
context it is headless, and then hosts and shows nothing. -/
def GfxNamed (b : GfxBuild) (e : GfxEnv) (cap : U32) (gpu : List Byte) (cap' : U32) : Prop :=
  (GlxRuns b e ∧ ∃ a d v w, e.x = .context (some a) (some d) true ∧ StartsWith a w ∧ StartsWith d v
      ∧ (gpuName v w).length < 512 ∧ gpu = gpuName v w ∧ cap' = cap ||| capGfxAccel)
    ∨ (¬ GlxRuns b e ∧ gpu = chars "None (headless)" ∧ cap' = headlessCap cap)

/-- A start leaves this in `PLAT_Info`. -/
lemma linuxGfxInit_iff (b : GfxBuild) (e : GfxEnv) (st : GfxState) (g : Option Cells) (cap : U32) :
    (∃ ret st', linuxGfxInit b e st = .ok (ret, st') ∧ st'.gpu = g ∧ st'.cap = cap)
      ↔ ∃ gpu, g = some (ended gpu) ∧ GfxNamed b e st.cap gpu cap := by
  by_cases h : GlxRuns b e
  · obtain ⟨printed, hrun⟩ := linuxGfxInit_context h st
    constructor
    · rintro ⟨ret, st', hr, rfl, rfl⟩
      obtain ⟨a, d, v, w, hx, ha, hd, hlt, hr⟩ := (hrun _).mp hr
      obtain ⟨-, rfl⟩ := Prod.mk.inj hr
      exact ⟨_, rfl, Or.inl ⟨h, a, d, v, w, hx, ha, hd, hlt, rfl, rfl⟩⟩
    · rintro ⟨gpu, rfl, ⟨-, a, d, v, w, hx, ha, hd, hlt, rfl, rfl⟩ | hno⟩
      · exact ⟨_, _, (hrun _).mpr ⟨a, d, v, w, hx, ha, hd, hlt, rfl⟩, rfl, rfl⟩
      · exact absurd h hno.1
  · obtain ⟨printed, cs, hrun, -⟩ := linuxGfxInit_headless h st
    rw [hrun]
    constructor
    · rintro ⟨ret, st', hr, rfl, rfl⟩
      obtain ⟨-, rfl⟩ := Prod.mk.inj (Except.ok.inj hr)
      exact ⟨_, rfl, Or.inr ⟨h, rfl, rfl⟩⟩
    · rintro ⟨gpu, rfl, hyes | ⟨-, rfl, rfl⟩⟩
      · exact absurd hyes.1 h
      · exact ⟨_, _, rfl, rfl, rfl⟩

/-- The name of the GPU is a string, and not long. -/
lemma GfxNamed.text {cap cap' : U32} {gpu : List Byte} (h : GfxNamed b e cap gpu cap') :
    (0 : Byte) ∉ gpu ∧ gpu.length < 512 := by
  obtain ⟨-, a, d, v, w, -, ha, hd, hlt, rfl, -⟩ | ⟨-, rfl, -⟩ := h
  · have hbuf : StartsWith (stored (List.replicate 512 0)) [] :=
      ⟨by simp, stored (List.replicate 511 0), rfl⟩
    obtain ⟨g, -, hg⟩ := gfxName_fits ha hd hbuf (by rw [stored_length, List.length_replicate]; exact hlt)
    exact ⟨hg.text, hlt⟩
  · exact ⟨by decide, by decide⟩

/-! ### The exit -/

/-- The callbacks where `PLAT_Init` comes to the graphics: there is one that exits. -/
def linuxCallbacks : ExitCallbacks := { stateInit with exit := true }

/-- Where there is a context a visual has been chosen. -/
lemma GlxRuns.chosen (h : GlxRuns b e) : VisualChosen b e := by
  obtain ⟨hglx, hx⟩ := Bool.and_eq_true_iff.mp h
  refine Bool.and_eq_true_iff.mpr ⟨hglx, ?_⟩
  cases hout : e.x with
  | noDisplay => simp [hout, GlxOutcome.runs] at hx
  | noVisual => simp [hout, GlxOutcome.runs] at hx
  | noContext => rfl
  | context renderer vendor memory => rfl

/-- A start of the graphics and the exit behind it make no call with something that is not there. The
context, the window and the display are released by then, no call releases the visual and its colormap:
they are what is left, just if a visual has been chosen. -/
theorem exit_leaves (b : GfxBuild) (e : GfxEnv) (cap : U32) (gpu : Option Cells)
    (h : linuxGfxInit b e ⟨cap, gpu, linuxCallbacks, [], []⟩ = .ok (ret, st')) (status : ℤ) :
    heldBehind st'.calls
        = some (if ret = gfxOk then inUse else if VisualChosen b e then unreleased else [])
      ∧ (appCleanupAndExit st'.callbacks status).2 = some status
      ∧ heldBehind (st'.calls ++ (appCleanupAndExit st'.callbacks status).1)
        = some (if VisualChosen b e then unreleased else []) := by
  by_cases hruns : GlxRuns b e
  · obtain ⟨printed, hrun⟩ := linuxGfxInit_context hruns ⟨cap, gpu, linuxCallbacks, [], []⟩
    obtain ⟨a, d, v, w, -, -, -, -, hr⟩ := (hrun _).mp h
    obtain ⟨rfl, rfl⟩ := Prod.mk.inj hr
    refine ⟨rfl, rfl, ?_⟩
    rw [if_pos hruns.chosen]
    rfl
  · obtain ⟨printed, cs, hrun, hheld⟩ :=
      linuxGfxInit_headless hruns ⟨cap, gpu, linuxCallbacks, [], []⟩
    obtain ⟨rfl, rfl⟩ := Prod.mk.inj (Except.ok.inj (hrun.symm.trans h))
    exact ⟨hheld, rfl, (congrArg heldBehind (List.append_nil _)).trans hheld⟩

end

/-- On a machine with a context the exit releases that, but not the visual. -/
theorem exit_leaves_context :
    ∃ ret st', linuxGfxInit ⟨false, true, false, false⟩
          ⟨false, true, .context (some (ended (chars "NVIDIA GeForce"))) (some (ended (chars "NVIDIA")))
            true⟩ ⟨127, none, linuxCallbacks, [], []⟩ = .ok (ret, st')
      ∧ heldBehind st'.calls = some inUse
      ∧ (appCleanupAndExit st'.callbacks 1).2 = some 1
      ∧ heldBehind (st'.calls ++ (appCleanupAndExit st'.callbacks 1).1) = some [.colormap, .visual] := by
  have hrenderer : StartsWith (ended (chars "NVIDIA GeForce")) (chars "NVIDIA GeForce") :=
    startsWith_ended (by decide)
  have hvendor : StartsWith (ended (chars "NVIDIA")) (chars "NVIDIA") :=
    startsWith_ended (by decide)
  have hlen : (gpuName (chars "NVIDIA") (chars "NVIDIA GeForce")).length < 512 := by decide
  obtain ⟨printed, hrun⟩ := linuxGfxInit_context (b := ⟨false, true, false, false⟩)
    (e := ⟨false, true, .context (some (ended (chars "NVIDIA GeForce")))
      (some (ended (chars "NVIDIA"))) true⟩) rfl ⟨127, none, linuxCallbacks, [], []⟩
  have h := (hrun _).mpr ⟨_, _, _, _, rfl, hrenderer, hvendor, hlen, rfl⟩
  exact ⟨_, _, h, exit_leaves _ _ _ _ h 1⟩

end EverythingNet
