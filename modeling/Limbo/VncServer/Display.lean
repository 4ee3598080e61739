import Mathlib

/-!
# The display and its clients

The surface of the guest, the surface of the server, and what each client has been sent. Between
them are two maps of dirty blocks of 16 pixels: what the guest has drawn on, and what has changed
since a client was sent it.
-/

namespace Limbo.VncServer

/-! ### Blocks and rectangles -/

/-- A bitmap for each row: whether block `x` of row `y` is dirty. -/
abbrev Dirty := ℕ → ℕ → Bool

def Dirty.put (d : Dirty) (x y : ℕ) (b : Bool) : Dirty :=
  fun x' y' => if x' = x ∧ y' = y then b else d x' y'

/-- `VNC_DIRTY_BITS` -/
def vncDirtyBits : ℕ := 2560 / 16

structure Area where
  x : ℕ
  y : ℕ
  w : ℕ
  h : ℕ
deriving DecidableEq, Repr

def Area.Covers (r : Area) (x y : ℕ) : Prop := r.x ≤ x ∧ x < r.x + r.w ∧ r.y ≤ y ∧ y < r.y + r.h

instance (r : Area) (x y : ℕ) : Decidable (r.Covers x y) :=
  inferInstanceAs (Decidable (_ ∧ _ ∧ _ ∧ _))

/-! ### Clients -/

/-- What `struct VncState` knows of updates: `output` is the number of bytes that wait to be
written, and `jobs` are the rectangles that are still to be encoded. `picture` is what has been
sent of the display, and `asked` are the rows that it is to know: all of them at a resize, or those
of a request that is not incremental. -/
structure Client where
  clientWidth : ℕ
  clientHeight : ℕ
  dirty : Dirty
  needUpdate : Bool
  forceUpdate : Bool
  audioCap : Bool
  output : ℕ
  connected : Bool
  copyRect : Bool
  resize : Bool
  jobs : List Area
  picture : ℕ → ℕ → Option UInt32
  asked : ℕ → Bool

namespace Client

/-- A client that has just connected. -/
def new : Client where
  clientWidth := 0
  clientHeight := 0
  dirty _ _ := false
  needUpdate := false
  forceUpdate := false
  audioCap := false
  output := 0
  connected := true
  copyRect := false
  resize := false
  jobs := []
  picture _ _ := none
  asked _ := false

/-- `framebuffer_update_request()`: of a request only the rows are looked at. -/
def framebufferUpdateRequest (width height : ℕ) (c : Client) (incremental : Bool)
    (yPosition h : ℕ) : Client :=
  let y := if yPosition > height then height else yPosition
  let h := if y + h ≥ height then height - y else h
  let c := { c with needUpdate := true }
  if incremental then c
  else
    { c with
      forceUpdate := true
      dirty := fun i j =>
        if y ≤ j ∧ j < y + h then
          if i < width / 16 then true else if i < vncDirtyBits then false else c.dirty i j
        else c.dirty i j
      asked := fun j => c.asked j || (y ≤ j ∧ j < y + h) }

/-- `vnc_desktop_resize()` -/
def vncDesktopResize (width height : ℕ) (c : Client) : Client :=
  if ¬ c.connected ∨ ¬ c.resize then c
  else { c with clientWidth := width, clientHeight := height }

/-! ### Updates -/

/-- The loop of `find_and_clear_dirty_height()` from `h` on, with `n` rows left. -/
def findAndClearDirtyHeight (y lastX x : ℕ) : ℕ → ℕ → Dirty → Dirty × ℕ
  | 0, h, d => (d, h)
  | n + 1, h, d =>
    if d lastX (y + h) then
      findAndClearDirtyHeight y lastX x n (h + 1)
        (fun i j => if j = y + h ∧ lastX ≤ i ∧ i < x then false else d i j)
    else (d, h)

/-- The bitmaps, the rectangles so far, and `last_x`, if it is not -1. -/
structure Scan where
  dirty : Dirty
  rects : List Area
  lastX : Option ℕ

/-- The run of dirty blocks ends before `x`. -/
def Scan.endRun (height y x : ℕ) (s : Scan) : Scan :=
  match s.lastX with
  | none => s
  | some lastX =>
    let (dirty, h) := findAndClearDirtyHeight y lastX x (height - y - 1) 1 s.dirty
    { dirty, rects := s.rects ++ [⟨lastX * 16, y, (x - lastX) * 16, h⟩], lastX := none }

/-- Block `x` of row `y`. -/
def Scan.block (height y : ℕ) (s : Scan) (x : ℕ) : Scan :=
  if s.dirty x y then
    { s with
      dirty := s.dirty.put x y false
      lastX := match s.lastX with
        | none => some x
        | some lastX => some lastX }
  else s.endRun height y x

/-- Row `y`, with `n` blocks. -/
def Scan.row (n height : ℕ) (s : Scan) (y : ℕ) : Scan :=
  ((List.range n).foldl (Scan.block height y) { s with lastX := none }).endRun height y n

def scan (n height : ℕ) (d : Dirty) : Scan :=
  (List.range height).foldl (Scan.row n height) ⟨d, [], none⟩

/-- `vnc_update_client()`; a client whose connection is closed goes away. -/
def vncUpdateClient (width height hasDirty : ℕ) (c : Client) : Option Client :=
  if c.needUpdate ∧ c.connected then
    if c.output ≠ 0 ∧ ¬ c.audioCap ∧ ¬ c.forceUpdate then some c
    else if hasDirty = 0 ∧ ¬ c.audioCap ∧ ¬ c.forceUpdate then some c
    else
      let s := scan (min width c.clientWidth / 16) (min height c.clientHeight) c.dirty
      some { c with dirty := s.dirty, jobs := c.jobs ++ s.rects, forceUpdate := false }
  else if c.connected then some c
  else none

/-- A rectangle of the server's surface is sent. -/
def send (server : ℕ → ℕ → UInt32) (c : Client) (r : Area) : Client :=
  { c with picture := fun x y => if r.Covers x y then some (server x y) else c.picture x y }

/-- `vnc_jobs_join()`: the rectangles are encoded. Without a thread they always are at once. -/
def vncJobsJoin (server : ℕ → ℕ → UInt32) (c : Client) : Client :=
  { c with picture := (c.jobs.foldl (send server) c).picture, jobs := [] }

/-- What happens to one client between refreshes. -/
inductive Step (width height : ℕ) (server : ℕ → ℕ → UInt32) (c : Client) : Client → Prop
  | init : Step width height server c { c with clientWidth := width, clientHeight := height }
  | setEncodings (copyRect resize : Bool) :
      Step width height server c ({ c with copyRect, resize }.vncDesktopResize width height)
  | request (incremental : Bool) (y h : ℕ) :
      Step width height server c (c.framebufferUpdateRequest width height incremental y h)
  | job {r : Area} {rest : List Area} (connected : c.connected) (jobs : c.jobs = r :: rest) :
      Step width height server c { c.send server r with jobs := rest }
  | output (n : ℕ) : Step width height server c { c with output := n }
  | audio (audioCap : Bool) : Step width height server c { c with audioCap }
  | disconnect : Step width height server c { c with connected := false }

end Client

/-! ### The display -/

/-- `struct VncDisplay`, with the surfaces as their pixels. -/
structure VncDisplay where
  width : ℕ
  height : ℕ
  guest : ℕ → ℕ → UInt32
  guestDirty : Dirty
  server : ℕ → ℕ → UInt32
  clients : List Client

namespace VncDisplay

/-- `vnc_dpy_update()` -/
def vncDpyUpdate (vd : VncDisplay) (x y w h : ℕ) : VncDisplay :=
  let h := h + y
  let w := w + x % 16
  let x := x - x % 16
  let x := min x vd.width
  let y := min y vd.height
  let w := min (x + w) vd.width - x
  let h := min h vd.height
  { vd with
    guestDirty := (List.range' y (h - y)).foldl (fun d j =>
      (List.range ((w + 15) / 16)).foldl (fun d i => d.put ((x + 16 * i) / 16) j true) d)
      vd.guestDirty }

/-- Block `x` of row `y` in `vnc_refresh_server_surface()`. -/
def refreshBlock (y : ℕ) (p : VncDisplay × ℕ) (x : ℕ) : VncDisplay × ℕ :=
  let (vd, hasDirty) := p
  if vd.guestDirty x y then
    let vd := { vd with guestDirty := vd.guestDirty.put x y false }
    if ∀ i < 16, vd.server (16 * x + i) y = vd.guest (16 * x + i) y then (vd, hasDirty)
    else
      ({ vd with
        server := fun i j => if i / 16 = x ∧ j = y then vd.guest i j else vd.server i j
        clients := vd.clients.map fun c => { c with dirty := c.dirty.put x y true } },
        hasDirty + 1)
  else (vd, hasDirty)

/-- `vnc_refresh_server_surface()`, with `has_dirty`. No rectangle has been sent with loss. -/
def vncRefreshServerSurface (vd : VncDisplay) : VncDisplay × ℕ :=
  (List.range vd.height).foldl (fun p y =>
    (List.range (vd.width / 16)).foldl (refreshBlock y) p) (vd, 0)

/-- `vnc_refresh()` -/
def vncRefresh (vd : VncDisplay) : VncDisplay :=
  let (vd, hasDirty) := vd.vncRefreshServerSurface
  { vd with clients := vd.clients.filterMap (Client.vncUpdateClient vd.width vd.height hasDirty) }

/-- `vnc_dpy_resize()` for a new surface of the guest. The jobs are aborted. -/
def vncDpyResize (vd : VncDisplay) (width height : ℕ) (guest : ℕ → ℕ → UInt32) : VncDisplay where
  width := width
  height := height
  guest := guest
  guestDirty _ _ := true
  server _ _ := 0
  clients := vd.clients.map fun c =>
    { c.vncDesktopResize width height with
      dirty := fun _ _ => true, jobs := [], asked := fun _ => true }

/-- `vnc_connect()`: the first client starts the timer. -/
def vncConnect (vd : VncDisplay) : VncDisplay :=
  let connected := { vd with clients := Client.new :: vd.clients }
  if vd.clients = [] then (connected.vncDpyResize vd.width vd.height vd.guest).vncRefresh
  else connected

/-- What happens to the display. The guest draws in a rectangle and says so. -/
inductive Step (vd : VncDisplay) : VncDisplay → Prop
  | draw (r : Area) (guest : ℕ → ℕ → UInt32)
      (inside : ∀ x y, ¬ r.Covers x y → guest x y = vd.guest x y) :
      Step vd ({ vd with guest }.vncDpyUpdate r.x r.y r.w r.h)
  | refresh : Step vd vd.vncRefresh
  | resize (width height : ℕ) (guest : ℕ → ℕ → UInt32) :
      Step vd (vd.vncDpyResize width height guest)
  | connect : Step vd vd.vncConnect
  | client {front back : List Client} {c c' : Client} (h : vd.clients = front ++ c :: back)
      (step : c.Step vd.width vd.height vd.server c') :
      Step vd { vd with clients := front ++ c' :: back }

/-- A display that some clients have connected to. -/
inductive Reachable : VncDisplay → Prop
  | start {vd : VncDisplay} (h : vd.clients = []) : Reachable vd
  | step {vd vd' : VncDisplay} (h : Reachable vd) (step : vd.Step vd') : Reachable vd'

end VncDisplay

end Limbo.VncServer
