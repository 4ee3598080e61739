import Limbo.Lib.Counting
import Limbo.VncServer.Display

/-!
# No stale pixels

A pixel that a client has not been sent as it is on the server's surface is in a dirty block of this
client, or in a rectangle that waits to be encoded. The blocks at the right edge that are not whole
are never sent.
-/

namespace Limbo.VncServer

open Lib

/-! ### The blocks of an update -/

/-- The rectangle has all the pixels of block `i` in row `j`. -/
def Area.HasBlock (r : Area) (i j : ℕ) : Prop := ∀ x, x / 16 = i → r.Covers x j

namespace Client

lemma findAndClearDirtyHeight_spec (y lastX x n h : ℕ) (d : Dirty) :
    let p := findAndClearDirtyHeight y lastX x n h d
    h ≤ p.2 ∧ p.2 ≤ h + n ∧ ∀ i j, p.1 i j =
      if y + h ≤ j ∧ j < y + p.2 ∧ lastX ≤ i ∧ i < x then false else d i j := by
  induction n generalizing h d with
  | zero =>
    refine ⟨le_rfl, le_rfl, fun i j => ?_⟩
    rw [if_neg (by dsimp only [findAndClearDirtyHeight]; omega)]
    rfl
  | succ n ih =>
    rw [findAndClearDirtyHeight]
    by_cases hd : d lastX (y + h)
    · rw [if_pos hd]
      obtain ⟨hle, hle', hd'⟩ := ih (h + 1) fun i j =>
        if j = y + h ∧ lastX ≤ i ∧ i < x then false else d i j
      refine ⟨by omega, by omega, fun i j => ?_⟩
      rw [hd']
      split_ifs <;> first | rfl | omega
    · rw [if_neg hd]
      refine ⟨le_rfl, by omega, fun i j => ?_⟩
      rw [if_neg (by dsimp only; omega)]

/-- What has been done of the bitmaps before block `x` of row `y`. -/
structure Scan.Done (d : Dirty) (n height y x : ℕ) (s : Scan) : Prop where
  dirty_of : ∀ i j, s.dirty i j → d i j
  sent : ∀ i j, d i j → s.dirty i j ∨ (∃ r ∈ s.rects, r.HasBlock i j) ∨
    (j = y ∧ ∃ lastX ∈ s.lastX, lastX ≤ i ∧ i < x)
  rows : ∀ i < n, ∀ j < y, s.dirty i j = false
  blocks : ∀ i < x, s.dirty i y = false
  lastX_le : ∀ lastX ∈ s.lastX, lastX < x
  inside : ∀ r ∈ s.rects, r.x + r.w ≤ 16 * n ∧ r.y + r.h ≤ height

namespace Scan.Done

variable {d : Dirty} {n height y x : ℕ} {s : Scan}

/-- The run that ends becomes a rectangle. -/
lemma endRun (h : s.Done d n height y x) (hx : x ≤ n) (hy : y < height) :
    (s.endRun height y x).Done d n height y x ∧ (s.endRun height y x).lastX = none ∧
      ∀ i j, s.dirty i j = false → (s.endRun height y x).dirty i j = false := by
  obtain ⟨dirty, rects, lastX⟩ := s
  cases lastX with
  | none => exact ⟨h, rfl, fun _ _ hij => hij⟩
  | some lastX =>
    obtain ⟨hone, hle, hdirty⟩ :=
      findAndClearDirtyHeight_spec y lastX x (height - y - 1) 1 dirty
    simp only [Scan.endRun]
    generalize findAndClearDirtyHeight y lastX x (height - y - 1) 1 dirty = p at hone hle hdirty ⊢
    have hfalse : ∀ i j, dirty i j = false → p.1 i j = false := by
      intro i j hij
      rw [hdirty, hij, ite_self]
    refine ⟨⟨fun i j hij => ?_, fun i j hij => ?_, fun i hi j hj => hfalse i j (h.rows i hi j hj),
      fun i hi => hfalse i y (h.blocks i hi), (fun _ hnone => by cases hnone),
      List.forall_mem_append.mpr ⟨h.inside, List.forall_mem_singleton.mpr ?_⟩⟩, trivial, hfalse⟩
    · refine h.dirty_of i j ?_
      dsimp only at hij
      rw [hdirty] at hij
      split_ifs at hij
      exact hij
    · -- the block is in the run, or below it, or it is what it was
      have hrun : lastX ≤ i → i < x → y ≤ j → j < y + p.2 →
          ∃ r ∈ rects ++ [⟨lastX * 16, y, (x - lastX) * 16, p.2⟩], r.HasBlock i j := by
        intro hi hi' hj hj'
        refine ⟨_, List.mem_append_right _ (List.mem_singleton.mpr rfl), fun k hk => ?_⟩
        refine ⟨by dsimp only; omega, by dsimp only; omega, hj, hj'⟩
      rcases h.sent i j hij with hij | ⟨r, hr, hblock⟩ | ⟨rfl, l, hl, hi, hi'⟩
      · by_cases hin : y + 1 ≤ j ∧ j < y + p.2 ∧ lastX ≤ i ∧ i < x
        · exact .inr (.inl (hrun hin.2.2.1 hin.2.2.2 (by omega) hin.2.1))
        · refine .inl ?_
          dsimp only
          rw [hdirty, if_neg hin]
          exact hij
      · exact .inr (.inl ⟨r, List.mem_append_left _ hr, hblock⟩)
      · obtain rfl := Option.some.inj hl
        exact .inr (.inl (hrun hi hi' le_rfl (by omega)))
    · have hlast := h.lastX_le lastX rfl
      dsimp only
      omega

lemma block (h : s.Done d n height y x) (hx : x < n) (hy : y < height) :
    (s.block height y x).Done d n height y (x + 1) := by
  unfold Scan.block
  by_cases hdirty : s.dirty x y
  · rw [if_pos hdirty]
    have hput (i j : ℕ) : s.dirty.put x y false i j =
        if i = x ∧ j = y then false else s.dirty i j := rfl
    constructor
    case dirty_of =>
      intro i j hij
      dsimp only at hij
      rw [hput] at hij
      split_ifs at hij
      exact h.dirty_of i j hij
    case sent =>
      intro i j hij
      dsimp only
      rw [hput]
      split_ifs with hxy
      · obtain ⟨rfl, rfl⟩ := hxy
        refine .inr (.inr ⟨rfl, ?_⟩)
        cases hlast : s.lastX with
        | none => exact ⟨i, rfl, le_rfl, Nat.lt_succ_self i⟩
        | some lastX => exact ⟨lastX, rfl, (h.lastX_le lastX hlast).le, Nat.lt_succ_self i⟩
      · rcases h.sent i j hij with hij | hrect | ⟨hj, lastX, hlast, hi⟩
        · exact .inl hij
        · exact .inr (.inl hrect)
        · rw [hlast]
          exact .inr (.inr ⟨hj, lastX, rfl, hi.1, hi.2.trans (Nat.lt_succ_self x)⟩)
    case rows =>
      intro i hi j hj
      dsimp only
      rw [hput, h.rows i hi j hj, ite_self]
    case blocks =>
      intro i hi
      dsimp only
      rw [hput]
      split_ifs with hxy
      · rfl
      · exact h.blocks i (by omega)
    case lastX_le =>
      intro lastX hlast
      dsimp only at hlast
      cases hold : s.lastX with
      | none =>
        rw [hold] at hlast
        exact (Option.some.inj hlast) ▸ Nat.lt_succ_self x
      | some l =>
        rw [hold] at hlast
        exact (Option.some.inj hlast) ▸ (h.lastX_le l hold).trans (Nat.lt_succ_self x)
    case inside => exact h.inside
  · rw [if_neg hdirty]
    obtain ⟨hend, hnone, hfalse⟩ := h.endRun hx.le hy
    refine ⟨hend.dirty_of, fun i j hij => ?_, hend.rows, fun i hi => ?_, ?_, hend.inside⟩
    · rcases hend.sent i j hij with hij | hrect | ⟨-, lastX, hlast, -⟩
      · exact .inl hij
      · exact .inr (.inl hrect)
      · rw [hnone] at hlast
        cases hlast
    · rcases Nat.lt_succ_iff_lt_or_eq.mp hi with hi | rfl
      · exact hend.blocks i hi
      · exact hfalse i y (by simpa using hdirty)
    · rw [hnone]
      intro lastX hlast
      cases hlast

lemma row (h : s.Done d n height y 0) (hy : y < height) :
    (s.row n height y).Done d n height (y + 1) 0 := by
  have hstart : Scan.Done d n height y 0 { s with lastX := none } := by
    refine ⟨h.dirty_of, fun i j hij => ?_, h.rows, h.blocks,
      (fun _ hlast => by cases hlast), h.inside⟩
    rcases h.sent i j hij with hij | hrect | ⟨-, lastX, -, -, hlt⟩
    · exact .inl hij
    · exact .inr (.inl hrect)
    · exact absurd hlt (Nat.not_lt_zero i)
  have hblocks := foldl_range (P := fun x s => Scan.Done d n height y x s) (n := n) hstart
    fun _ hx _ h => h.block hx hy
  obtain ⟨hend, hnone, -⟩ := hblocks.endRun le_rfl hy
  rw [Scan.row]
  refine ⟨hend.dirty_of, fun i j hij => ?_, fun i hi j hj => ?_, fun i hi => ?_, ?_, hend.inside⟩
  · rcases hend.sent i j hij with hij | hrect | ⟨-, lastX, hlast, -⟩
    · exact .inl hij
    · exact .inr (.inl hrect)
    · rw [hnone] at hlast
      cases hlast
  · rcases Nat.lt_succ_iff_lt_or_eq.mp hj with hj | rfl
    · exact hend.rows i hi j hj
    · exact hend.blocks i hi
  · exact absurd hi (Nat.not_lt_zero i)
  · rw [hnone]
    intro lastX hlast
    cases hlast

end Scan.Done

/-- No block becomes clean without being in a rectangle. Every dirty block that the update looks at
becomes clean, and none becomes dirty; the rectangles are where the update looks. -/
lemma scan_spec (n height : ℕ) (d : Dirty) :
    (∀ i j, d i j → (scan n height d).dirty i j ∨ ∃ r ∈ (scan n height d).rects, r.HasBlock i j) ∧
      (∀ i < n, ∀ j < height, (scan n height d).dirty i j = false) ∧
      (∀ i j, (scan n height d).dirty i j → d i j) ∧
      ∀ r ∈ (scan n height d).rects, r.x + r.w ≤ 16 * n ∧ r.y + r.h ≤ height := by
  have hstart : Scan.Done d n height 0 0 ⟨d, [], none⟩ := by
    refine ⟨fun _ _ hij => hij, fun _ _ hij => .inl hij, fun i hi j hj => ?_, fun i hi => ?_,
      (fun _ hlast => by cases hlast), List.forall_mem_nil _⟩
    · exact absurd hj (Nat.not_lt_zero j)
    · exact absurd hi (Nat.not_lt_zero i)
  have hrows := foldl_range (P := fun y s => Scan.Done d n height y 0 s) (n := height) hstart
    fun _ hy _ h => h.row hy
  refine ⟨fun i j hij => ?_, hrows.rows, hrows.dirty_of, hrows.inside⟩
  rcases hrows.sent i j hij with hij | hrect | ⟨-, lastX, -, -, hlt⟩
  · exact .inl hij
  · exact .inr hrect
  · exact absurd hlt (Nat.not_lt_zero i)

/-! ### What a client has not been sent -/

variable {width height : ℕ} {server : ℕ → ℕ → UInt32} {c c' : Client}

/-- If the client has not been sent the pixel that is on the server's surface, the block is dirty, or
a job will send it. -/
def Tracked (server : ℕ → ℕ → UInt32) (c : Client) (x y : ℕ) : Prop :=
  c.picture x y ≠ some (server x y) → c.dirty (x / 16) y ∨ ∃ r ∈ c.jobs, r.Covers x y

/-- All whole blocks of the rows that the client is to know are tracked. -/
def Marked (width height : ℕ) (server : ℕ → ℕ → UInt32) (c : Client) : Prop :=
  ∀ x y, x / 16 < width / 16 → y < height → c.asked y → c.Tracked server x y

@[simp] lemma vncDesktopResize_connected :
    (c.vncDesktopResize width height).connected = c.connected := by
  unfold vncDesktopResize
  split_ifs <;> rfl

/-- What an update that is sent leaves of the client. -/
def updated (width height : ℕ) (c : Client) : Client :=
  { c with
    dirty := (scan (min width c.clientWidth / 16) (min height c.clientHeight) c.dirty).dirty
    jobs := c.jobs ++ (scan (min width c.clientWidth / 16) (min height c.clientHeight) c.dirty).rects
    forceUpdate := false }

lemma vncUpdateClient_cases {hasDirty : ℕ}
    (h : vncUpdateClient width height hasDirty c = some c') :
    c.connected ∧ (c' = c ∨ c' = c.updated width height) := by
  unfold vncUpdateClient at h
  split_ifs at h with hupdate _ _ hold
  · exact ⟨hupdate.2, .inl (Option.some.inj h).symm⟩
  · exact ⟨hupdate.2, .inl (Option.some.inj h).symm⟩
  · exact ⟨hupdate.2, .inr (Option.some.inj h).symm⟩
  · exact ⟨hold, .inl (Option.some.inj h).symm⟩

namespace Tracked

variable {x y : ℕ}

lemma job {r : Area} {rest : List Area} (h : c.Tracked server x y) (hjobs : c.jobs = r :: rest) :
    Client.Tracked server { c.send server r with jobs := rest } x y := by
  intro hne
  have hcovers : ¬ r.Covers x y := fun hcovers => hne (if_pos hcovers)
  have hold : c.picture x y ≠ some (server x y) := by
    simpa only [Client.send, hcovers, if_false] using hne
  rcases h hold with hdirty | ⟨r', hr', hcovers'⟩
  · exact .inl hdirty
  · rw [hjobs] at hr'
    rcases List.mem_cons.mp hr' with rfl | hr'
    · exact absurd hcovers' hcovers
    · exact .inr ⟨r', hr', hcovers'⟩

lemma updated (h : c.Tracked server x y) : (c.updated width height).Tracked server x y := by
  intro hne
  rcases h hne with hdirty | ⟨r, hr, hcovers⟩
  · obtain ⟨hsent, -⟩ := scan_spec (min width c.clientWidth / 16)
      (min height c.clientHeight) c.dirty
    rcases hsent _ _ hdirty with hdirty | ⟨r, hr, hblock⟩
    · exact .inl hdirty
    · exact .inr ⟨r, List.mem_append_right _ hr, hblock x rfl⟩
  · exact .inr ⟨r, List.mem_append_left _ hr, hcovers⟩

/-- Where the server's surface changes, the block becomes dirty. -/
lemma of_marks {server' : ℕ → ℕ → UInt32} {marks : Dirty} (h : c.Tracked server x y)
    (hmarks : server' x y ≠ server x y → marks (x / 16) y) :
    Client.Tracked server' { c with dirty := fun i j => c.dirty i j || marks i j } x y := by
  intro hne
  dsimp only at hne ⊢
  by_cases hsame : server' x y = server x y
  · rw [hsame] at hne
    rcases h hne with hdirty | hjob
    · exact .inl (by rw [hdirty, Bool.true_or])
    · exact .inr hjob
  · exact .inl (by rw [hmarks hsame, Bool.or_true])

end Tracked

namespace Marked

lemma vncDesktopResize (h : c.Marked width height server) :
    (c.vncDesktopResize width height).Marked width height server := by
  unfold Client.vncDesktopResize
  split_ifs <;> exact h

lemma framebufferUpdateRequest (h : c.Marked width height server) (incremental : Bool)
    (yPosition n : ℕ) :
    (c.framebufferUpdateRequest width height incremental yPosition n).Marked width height
      server := by
  intro x y hx hy
  unfold Client.framebufferUpdateRequest
  dsimp only
  generalize (if yPosition > height then height else yPosition) = first
  generalize (if first + n ≥ height then height - first else n) = rows
  cases incremental with
  | true => exact h x y hx hy
  | false =>
    intro hasked hne
    by_cases hrow : first ≤ y ∧ y < first + rows
    · refine .inl ?_
      simp [hrow, hx]
    · have hold : c.asked y := by simpa [hrow] using hasked
      rcases h x y hx hy hold hne with hdirty | hjob
      · refine .inl ?_
        simp only [hrow, if_false, Bool.false_eq_true]
        exact hdirty
      · exact .inr hjob

lemma step (h : c.connected → c.Marked width height server) (hstep : c.Step width height server c')
    (hconnected : c'.connected) : c'.Marked width height server := by
  cases hstep with
  | init => exact h hconnected
  | setEncodings copyRect resize =>
    rw [vncDesktopResize_connected] at hconnected
    exact vncDesktopResize (c := { c with copyRect, resize }) (h hconnected)
  | request incremental y n =>
    refine framebufferUpdateRequest (h ?_) incremental y n
    cases incremental <;> exact hconnected
  | job connected jobs => exact fun x y hx hy hasked => (h connected x y hx hy hasked).job jobs
  | output n => exact h hconnected
  | audio audioCap => exact h hconnected
  | disconnect => cases hconnected

lemma vncUpdateClient {hasDirty : ℕ} (h : c.Marked width height server)
    (hc : Client.vncUpdateClient width height hasDirty c = some c') :
    c'.Marked width height server := by
  rcases (vncUpdateClient_cases hc).2 with rfl | rfl
  · exact h
  · exact fun x y hx hy hasked => (h x y hx hy hasked).updated

end Marked

/-- What is sent when the jobs are joined. -/
lemma picture_vncJobsJoin (server : ℕ → ℕ → UInt32) (c : Client) (x y : ℕ) :
    (c.vncJobsJoin server).picture x y =
      if ∃ r ∈ c.jobs, r.Covers x y then some (server x y) else c.picture x y := by
  unfold vncJobsJoin
  dsimp only
  generalize c.jobs = jobs
  induction jobs generalizing c with
  | nil => rfl
  | cons r rest ih =>
    rw [List.foldl_cons, ih]
    by_cases hrest : ∃ r' ∈ rest, r'.Covers x y
    · obtain ⟨r', hr', hcovers⟩ := hrest
      rw [if_pos ⟨r', hr', hcovers⟩, if_pos ⟨r', List.mem_cons_of_mem _ hr', hcovers⟩]
    · rw [if_neg hrest]
      by_cases hcovers : r.Covers x y
      · rw [if_pos ⟨r, List.mem_cons_self, hcovers⟩]
        exact if_pos hcovers
      · have hnone : ¬ ∃ r' ∈ r :: rest, r'.Covers x y := by
          rintro ⟨r', hr', hcovers'⟩
          rcases List.mem_cons.mp hr' with rfl | hr'
          · exact hcovers hcovers'
          · exact hrest ⟨r', hr', hcovers'⟩
        rw [if_neg hnone]
        exact if_neg hcovers

/-- What the client has been sent of the rows that it is to know is what is on this surface. -/
def Current (width height : ℕ) (surface : ℕ → ℕ → UInt32) (c : Client) : Prop :=
  ∀ x y, x < min width c.clientWidth → y < min height c.clientHeight → c.asked y →
    c.picture x y = some (surface x y)

/-- A pixel of a client whose blocks are whole is in a block that is looked at. -/
lemma block_lt (hwidth : 16 ∣ min width c.clientWidth) {x : ℕ} (hx : x < min width c.clientWidth) :
    x / 16 < min width c.clientWidth / 16 ∧ x / 16 < width / 16 := by
  obtain ⟨n, hn⟩ := hwidth
  omega

/-- An update that is sent brings the client up to date. -/
lemma current_of_update (h : c.Marked width height server) (hupdate : c.needUpdate ∧ c.connected)
    (hforce : c.forceUpdate ∨ c.audioCap) (hwidth : 16 ∣ min width c.clientWidth)
    {surface : ℕ → ℕ → UInt32}
    (hsurface : ∀ x y, x / 16 < width / 16 → y < height → surface x y = server x y) :
    ∃ c', vncUpdateClient width height 0 c = some c' ∧
      (c'.vncJobsJoin server).Current width height surface := by
  refine ⟨c.updated width height, ?_, fun x y hx hy hasked => ?_⟩
  · unfold vncUpdateClient
    rw [if_pos hupdate, if_neg (by tauto), if_neg (by tauto)]
    rfl
  obtain ⟨hblock, hwhole⟩ := block_lt hwidth hx
  have hy' : y < height := lt_of_lt_of_le hy (min_le_left _ _)
  have htracked : (c.updated width height).Tracked server x y := (h x y hwhole hy' hasked).updated
  rw [picture_vncJobsJoin, hsurface x y hwhole hy']
  split_ifs with hjob
  · rfl
  · by_contra hne
    rcases htracked hne with hdirty | hjob'
    · obtain ⟨-, hclean, -⟩ := scan_spec (min width c.clientWidth / 16)
        (min height c.clientHeight) c.dirty
      exact Bool.noConfusion ((hclean _ hblock _ hy).symm.trans hdirty)
    · exact hjob hjob'

/-- On an idle display, nothing is sent unless something forces it. -/
lemma update_of_not_forced (hupdate : c.needUpdate ∧ c.connected)
    (hforce : ¬ (c.forceUpdate ∨ c.audioCap)) : vncUpdateClient width height 0 c = some c := by
  unfold vncUpdateClient
  rw [if_pos hupdate]
  split_ifs <;> first | rfl | tauto

end Client

/-! ### The display -/

namespace VncDisplay

variable {vd vd' : VncDisplay}

/-- Where the guest's surface is not as the server's, the guest's block is dirty. -/
def GuestMarked (vd : VncDisplay) : Prop :=
  ∀ x y, x / 16 < vd.width / 16 → y < vd.height → vd.guest x y ≠ vd.server x y →
    vd.guestDirty (x / 16) y

/-- What holds of every display that can be reached. Only the first client brings the surface of the
server into being. -/
structure Marked (vd : VncDisplay) : Prop where
  clients : ∀ c ∈ vd.clients, c.connected → c.Marked vd.width vd.height vd.server
  guest : vd.clients ≠ [] → vd.GuestMarked

/-- A loop that makes blocks dirty. -/
lemma foldl_dirty {f : Dirty → ℕ → Dirty} {i j : ℕ} (mono : ∀ d k, d i j → f d k i j)
    {l : List ℕ} {d : Dirty} (h : d i j ∨ ∃ k ∈ l, ∀ d, f d k i j) : l.foldl f d i j := by
  induction l generalizing d with
  | nil =>
    rcases h with h | ⟨k, hk, -⟩
    · exact h
    · cases hk
  | cons k l ih =>
    refine ih ?_
    rcases h with h | ⟨k', hk', h⟩
    · exact .inl (mono d k h)
    · rcases List.mem_cons.mp hk' with rfl | hk'
      · exact .inl (h d)
      · exact .inr ⟨k', hk', h⟩

lemma put_of (d : Dirty) (x y i j : ℕ) (h : d i j) : d.put x y true i j := by
  unfold Dirty.put
  split_ifs
  · rfl
  · exact h

lemma put_or (d marks : Dirty) (x y : ℕ) : Dirty.put (fun i j => d i j || marks i j) x y true =
    fun i j => d i j || marks.put x y true i j := by
  funext i j
  unfold Dirty.put
  split_ifs <;> simp

/-- A rectangle of pixels is in blocks that `vnc_dpy_update()` makes dirty. -/
lemma vncDpyUpdate_dirty (vd : VncDisplay) (r : Area) {x y : ℕ} (hx : x / 16 < vd.width / 16)
    (hy : y < vd.height) (h : r.Covers x y ∨ vd.guestDirty (x / 16) y) :
    (vd.vncDpyUpdate r.x r.y r.w r.h).guestDirty (x / 16) y := by
  unfold vncDpyUpdate
  dsimp only
  refine foldl_dirty (fun d j hd => foldl_dirty (fun d i => put_of d _ _ _ _) (.inl hd)) ?_
  rcases h with ⟨hleft, hright, htop, hbottom⟩ | h
  · refine .inr ⟨y, ?_, fun d => foldl_dirty (fun d i => put_of d _ _ _ _)
      (.inr ⟨x / 16 - r.x / 16, ?_, fun d => if_pos ⟨?_, rfl⟩⟩)⟩
    · rw [List.mem_range'_1]
      omega
    · rw [List.mem_range]
      omega
    · omega
  · exact .inl h

/-- What a refresh does: blocks of the server's surface change, and become dirty for every client. -/
structure Refreshed (vd : VncDisplay) (marks : Dirty) (vd' : VncDisplay) : Prop where
  width : vd'.width = vd.width
  height : vd'.height = vd.height
  clients : vd'.clients = vd.clients.map fun c =>
    { c with dirty := fun i j => c.dirty i j || marks i j }
  server : ∀ x y, vd'.server x y ≠ vd.server x y → marks (x / 16) y
  guestMarked : vd.GuestMarked → vd'.GuestMarked

lemma Refreshed.refl (vd : VncDisplay) : vd.Refreshed (fun _ _ => false) vd where
  width := rfl
  height := rfl
  clients := by simp
  server _ _ h := absurd rfl h
  guestMarked h := h

lemma Refreshed.block {marks : Dirty} (h : vd.Refreshed marks vd') (y hasDirty x : ℕ) :
    ∃ marks, vd.Refreshed marks (refreshBlock y (vd', hasDirty) x).1 := by
  unfold refreshBlock
  dsimp only
  split_ifs with hdirty heq
  · -- the block is as it was
    refine ⟨marks, h.width, h.height, h.clients, h.server, fun hguest i j hi hj hne => ?_⟩
    have hother : ¬ (i / 16 = x ∧ j = y) := by
      rintro ⟨rfl, rfl⟩
      have hpixel := heq (i % 16) (Nat.mod_lt _ (by decide))
      rw [Nat.div_add_mod] at hpixel
      exact hne hpixel.symm
    exact (if_neg hother).trans (h.guestMarked hguest i j hi hj hne)
  · refine ⟨marks.put x y true, h.width, h.height, ?_, fun i j hne => ?_,
      fun hguest i j hi hj hne => ?_⟩
    · dsimp only
      rw [h.clients, List.map_map]
      refine List.map_congr_left fun c _ => ?_
      rw [Function.comp_apply, put_or]
    · dsimp only at hne
      by_cases hblock : i / 16 = x ∧ j = y
      · exact if_pos hblock
      · rw [if_neg hblock] at hne
        exact put_of marks _ _ _ _ (h.server i j hne)
    · dsimp only at hne ⊢
      by_cases hblock : i / 16 = x ∧ j = y
      · exact absurd (if_pos hblock).symm hne
      · rw [if_neg hblock] at hne
        exact (if_neg hblock).trans (h.guestMarked hguest i j hi hj hne)
  · exact ⟨marks, h⟩

lemma vncRefreshServerSurface_spec (vd : VncDisplay) :
    ∃ marks, vd.Refreshed marks vd.vncRefreshServerSurface.1 := by
  unfold vncRefreshServerSurface
  refine List.foldlRecOn (motive := fun p : VncDisplay × ℕ => ∃ marks, vd.Refreshed marks p.1) _ _
    ⟨_, .refl vd⟩ fun p hp y _ => ?_
  refine List.foldlRecOn (motive := fun p : VncDisplay × ℕ => ∃ marks, vd.Refreshed marks p.1) _ _
    hp fun p hp x _ => ?_
  obtain ⟨marks, hp⟩ := hp
  exact hp.block y p.2 x

namespace Marked

lemma vncDpyResize (width height : ℕ) (guest : ℕ → ℕ → UInt32) :
    (vd.vncDpyResize width height guest).Marked := by
  refine ⟨fun c hc _ => ?_, fun _ _ _ _ _ _ => rfl⟩
  obtain ⟨c, -, rfl⟩ := List.mem_map.mp hc
  exact fun _ _ _ _ _ _ => .inl rfl

variable (h : vd.Marked)

include h

lemma refreshed {marks : Dirty} (hr : vd.Refreshed marks vd') : vd'.Marked := by
  refine ⟨fun c' hc' hconnected => ?_, fun hclients => hr.guestMarked (h.guest fun hnil => ?_)⟩
  · rw [hr.clients] at hc'
    obtain ⟨c, hc, rfl⟩ := List.mem_map.mp hc'
    rw [hr.width, hr.height]
    intro x y hx hy hasked
    exact (h.clients c hc hconnected x y hx hy hasked).of_marks (hr.server x y)
  · refine hclients ?_
    rw [hr.clients, hnil]
    rfl

lemma vncRefresh : vd.vncRefresh.Marked := by
  obtain ⟨marks, hr⟩ := vncRefreshServerSurface_spec vd
  have hserver := h.refreshed hr
  unfold VncDisplay.vncRefresh
  clear hr
  generalize vd.vncRefreshServerSurface = p at hserver ⊢
  refine ⟨fun c' hc' _ => ?_, fun hclients => hserver.guest fun hnil => hclients ?_⟩
  · obtain ⟨c, hc, hupdate⟩ := List.mem_filterMap.mp hc'
    exact (hserver.clients c hc (Client.vncUpdateClient_cases hupdate).1).vncUpdateClient hupdate
  · dsimp only
    rw [hnil]
    rfl

lemma vncConnect : vd.vncConnect.Marked := by
  unfold VncDisplay.vncConnect
  dsimp only
  split_ifs with hnil
  · exact (vncDpyResize _ _ _).vncRefresh
  · refine ⟨fun c hc hconnected => ?_, fun _ => h.guest hnil⟩
    rcases List.mem_cons.mp hc with rfl | hc
    · intro x y _ _ hasked
      cases hasked
    · exact h.clients c hc hconnected

lemma step (hstep : vd.Step vd') : vd'.Marked := by
  cases hstep with
  | draw r guest inside =>
    refine ⟨h.clients, fun hclients x y hx hy hne => vncDpyUpdate_dirty _ r hx hy ?_⟩
    by_cases hcovers : r.Covers x y
    · exact .inl hcovers
    · refine .inr (h.guest hclients x y hx hy ?_)
      rw [← inside x y hcovers]
      exact hne
  | refresh => exact h.vncRefresh
  | resize width height guest => exact vncDpyResize width height guest
  | connect => exact h.vncConnect
  | @client front back c c' hclients hstep =>
    have hall := h.clients
    rw [hclients] at hall
    refine ⟨fun d hd hconnected => ?_, fun _ => h.guest (by rw [hclients]; simp)⟩
    rcases List.mem_append.mp hd with hd | hd
    · exact hall d (List.mem_append_left _ hd) hconnected
    · rcases List.mem_cons.mp hd with rfl | hd
      · exact Client.Marked.step (hall c (by simp)) hstep hconnected
      · exact hall d (by simp [hd]) hconnected

end Marked

lemma Reachable.marked (h : Reachable vd) : vd.Marked := by
  induction h with
  | start h =>
    refine ⟨fun c hc => ?_, fun hclients => absurd h hclients⟩
    rw [h] at hc
    cases hc
  | step _ hstep ih => exact ih.step hstep

/-! ### Requests of a client -/

/-- The guest has not drawn since the last refresh. -/
def Idle (vd : VncDisplay) : Prop :=
  ∀ x y, x < vd.width / 16 → y < vd.height → vd.guestDirty x y = false

/-- Client `i` sends a request. -/
def request (vd : VncDisplay) (i : ℕ) (incremental : Bool) (y n : ℕ) : VncDisplay :=
  { vd with
    clients := vd.clients.modify i
      (Client.framebufferUpdateRequest vd.width vd.height · incremental y n) }

/-- Client `i` once it has sent a request, the display has been refreshed, and the jobs are done. -/
def afterRequest (vd : VncDisplay) (i : ℕ) (incremental : Bool) (y n : ℕ) : Option Client :=
  let (vd, hasDirty) := (vd.request i incremental y n).vncRefreshServerSurface
  (vd.clients[i]?.bind (Client.vncUpdateClient vd.width vd.height hasDirty)).map
    (Client.vncJobsJoin vd.server)

lemma Idle.vncRefreshServerSurface (h : vd.Idle) : vd.vncRefreshServerSurface = (vd, 0) := by
  unfold VncDisplay.vncRefreshServerSurface
  refine List.foldlRecOn (motive := fun p : VncDisplay × ℕ => p = (vd, 0)) _ _ rfl
    fun p hp y hy => ?_
  refine List.foldlRecOn (motive := fun p : VncDisplay × ℕ => p = (vd, 0)) _ _ hp
    fun p hp x hx => ?_
  have hclean := h x y (List.mem_range.mp hx) (List.mem_range.mp hy)
  rw [hp, refreshBlock]
  simp [hclean]

/-- On an idle display, a client is sent what it has not got unless the request is incremental and
nothing forces an update. -/
lemma Idle.afterRequest (h : vd.Idle) {i : ℕ} {c : Client} (hc : vd.clients[i]? = some c)
    (incremental : Bool) (y n : ℕ) :
    vd.afterRequest i incremental y n =
      ((c.framebufferUpdateRequest vd.width vd.height incremental y n).vncUpdateClient vd.width
        vd.height 0).map (Client.vncJobsJoin vd.server) := by
  have hrequest : (vd.request i incremental y n).Idle := h
  unfold VncDisplay.afterRequest
  rw [hrequest.vncRefreshServerSurface]
  dsimp only [request]
  rw [List.getElem?_modify_eq, hc]
  rfl

/-- On an idle display, the surface of the server is that of the guest. -/
lemma Marked.guest_eq (h : vd.Marked) (hidle : vd.Idle) (hclients : vd.clients ≠ []) {x y : ℕ}
    (hx : x / 16 < vd.width / 16) (hy : y < vd.height) : vd.guest x y = vd.server x y := by
  by_contra hne
  have hdirty := h.guest hclients x y hx hy hne
  rw [hidle _ _ hx hy] at hdirty
  cases hdirty

/-- A black display of one row that nobody watches. -/
def blank (width : ℕ) : VncDisplay := ⟨width, 1, fun _ _ => 0, fun _ _ => false, fun _ _ => 0, []⟩

lemma Reachable.first (h : Reachable vd) {c c' : Client} (hc : vd.clients = [c])
    (hstep : c.Step vd.width vd.height vd.server c') :
    Reachable { vd with clients := [c'] } :=
  h.step (@Step.client vd [] [] c c' hc hstep)

/-- All the clients do the same. -/
def each (vd : VncDisplay) (f : Client → Client) : VncDisplay :=
  { vd with clients := vd.clients.map f }

/-- The only client has connected, and knows the size of the display. -/
def watched (width : ℕ) : VncDisplay :=
  (blank width).vncConnect.each fun c => { c with clientWidth := width, clientHeight := 1 }

/-- The guest draws while some bytes wait to be written to the client, so that it gets no update. -/
def throttled : VncDisplay :=
  let asked := (watched 16).each (Client.framebufferUpdateRequest 16 1 · false 0 1)
  let sent := asked.vncRefresh.each fun c => { c with
    picture := (c.send asked.vncRefresh.server ⟨0, 0, 16, 1⟩).picture, jobs := [] }
  let busy := sent.each fun c => { c with output := 1 }
  let drawn := { busy with guest := fun x y => if x = 0 ∧ y = 0 then 1 else 0 }
  (drawn.vncDpyUpdate 0 0 1 1).vncRefresh.each fun c => { c with output := 0 }

lemma reachable_watched : Reachable (watched 16) ∧ Reachable (watched 24) :=
  ⟨((Reachable.start rfl).step .connect).first rfl .init,
    ((Reachable.start rfl).step .connect).first rfl .init⟩

lemma reachable_throttled : Reachable throttled := by
  have hasked := reachable_watched.1.first rfl (.request false 0 1)
  have hsent := (hasked.step .refresh).first rfl (.job rfl rfl)
  have hbusy := hsent.first rfl (.output 1)
  have hdrawn := hbusy.step (.draw ⟨0, 0, 1, 1⟩ (fun x y => if x = 0 ∧ y = 0 then 1 else 0)
    fun x y hxy => if_neg fun h => hxy (by rw [h.1, h.2]; decide))
  exact (hdrawn.step .refresh).first rfl (.output 0)

end VncDisplay

end Limbo.VncServer
