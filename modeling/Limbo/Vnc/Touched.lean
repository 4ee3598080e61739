import Limbo.Vnc.Cells

/-!
# What is drawn for any stream

Whatever the server sends, a handler throws or draws. Which cells it then writes is known for all
parts of a rectangle but the subrectangles of RRE, CoRRE and Hextile, whose places come from the
server.
-/

namespace Limbo.Vnc

open Lib

variable {I : Inflater} {c c' : Conn I} {l : Layout} {m : ColorModel} {x y w h : ℕ}
  {ws ws' : List (ℤ × UInt32)} {K K' : Set ℤ}

/-! ### Cells that are touched -/

/-- The writes are to the cells `K`; a bitmap of the whole frame gets writes to all of them. -/
def Touches (l : Layout) (ws : List (ℤ × UInt32)) (K : Set ℤ) : Prop :=
  (∀ p ∈ ws, p.1 ∈ K) ∧ (l.Full → ∀ k ∈ K, ∃ p ∈ ws, p.1 = k)

lemma touches_nil : Touches l [] ∅ := ⟨List.forall_mem_nil _, fun _ _ hk => hk.elim⟩

lemma Touches.append (h : Touches l ws K) (h' : Touches l ws' K') :
    Touches l (ws ++ ws') (K ∪ K') := by
  refine ⟨fun p hp => ?_, fun hfull k hk => ?_⟩
  · exact (List.mem_append.mp hp).imp (h.1 p) (h'.1 p)
  · rcases hk with hk | hk
    · obtain ⟨p, hp, rfl⟩ := h.2 hfull k hk
      exact ⟨p, List.mem_append_left _ hp, rfl⟩
    · obtain ⟨p, hp, rfl⟩ := h'.2 hfull k hk
      exact ⟨p, List.mem_append_right _ hp, rfl⟩

/-- The same cells, as far as the whole frame is in the array. -/
lemma Touches.mono (h : Touches l ws K) (hsub : K ⊆ K') (hfull : l.Full → K' ⊆ K) :
    Touches l ws K' :=
  ⟨fun p hp => hsub (h.1 p hp), fun hl k hk => h.2 hl k (hfull hl hk)⟩

lemma touches_flatMap {α : Type} {as : List α} {f : α → List (ℤ × UInt32)} {L : α → Set ℤ}
    (hf : ∀ a ∈ as, Touches l (f a) (L a)) :
    Touches l (as.flatMap f) {k | ∃ a ∈ as, k ∈ L a} := by
  refine ⟨fun p hp => ?_, fun hfull k hk => ?_⟩
  · obtain ⟨a, ha, hpa⟩ := List.mem_flatMap.mp hp
    exact ⟨a, ha, (hf a ha).1 p hpa⟩
  · obtain ⟨a, ha, hka⟩ := hk
    obtain ⟨p, hp, rfl⟩ := (hf a ha).2 hfull k hka
    exact ⟨p, List.mem_flatMap.mpr ⟨a, ha, hp⟩, rfl⟩

lemma touches_if {P : Prop} [Decidable P] (h : P → Touches l ws K) :
    Touches l (if P then ws else []) {k | P ∧ k ∈ K} := by
  split_ifs with hP
  · exact (h hP).mono (fun k hk => ⟨hP, hk⟩) fun _ k hk => hk.2
  · exact ⟨List.forall_mem_nil _, fun _ k hk => absurd hk.1 hP⟩

/-- The cells of a block of the frame, as the code computes them. -/
def blockCells (l : Layout) (x y w h : ℕ) : Set ℤ :=
  {k | ∃ j < h, ∃ i < w, k = l.offset x (y + j) + i}

lemma Block.touches (b : Block) : Touches l (b.writes l) (blockCells l b.x b.y b.w b.h) := by
  refine ⟨fun p hp => ?_, fun _ k hk => ?_⟩
  · obtain ⟨j, hj, i, hi, rfl⟩ := mem_writes.mp hp
    exact ⟨j, hj, i, hi, rfl⟩
  · obtain ⟨j, hj, i, hi, rfl⟩ := hk
    exact ⟨_, mem_writes.mpr ⟨j, hj, i, hi, rfl⟩, rfl⟩

/-- `drawRect` writes to the array of the bitmap of the whole frame only. -/
lemma touches_drawWrites (b : Block) :
    Touches l (drawWrites l b) {k | l.Full ∧ k ∈ blockCells l b.x b.y b.w b.h} := by
  cases l with
  | full fw fh => exact b.touches.mono (fun k hk => ⟨trivial, hk⟩) fun _ k hk => hk.2
  | large xo yo bw bh => exact ⟨List.forall_mem_nil _, fun hfull => hfull.elim⟩

/-! ### Programs that draw the same cells in any state -/

/-- In any state of the connection the program throws or draws these cells. -/
def Settles (x : Client I Unit) (l : Layout) (K : Set ℤ) : Prop :=
  ∀ c, Throws x (c, l) ∨ ∃ ws c', Runs x (c, l) ws () (c', l) ∧ Touches l ws K

namespace Settles

variable {z z' : Client I Unit}

lemma pure : Settles (I := I) (Pure.pure ()) l ∅ :=
  fun c => .inr ⟨[], c, Does.pure () _, touches_nil⟩

lemma of_runs (h : ∀ c, Runs z (c, l) ws () (c, l)) (hws : Touches l ws K) : Settles z l K :=
  fun c => .inr ⟨ws, c, h c, hws⟩

lemma mono (h : Settles z l K) (hsub : K ⊆ K') (hfull : l.Full → K' ⊆ K) : Settles z l K' :=
  fun c => (h c).imp_right fun ⟨ws, c', hrun, hws⟩ => ⟨ws, c', hrun, hws.mono hsub hfull⟩

lemma congr (h : Settles z l K) (heq : ∀ k, k ∈ K ↔ k ∈ K') : Settles z l K' :=
  h.mono (fun k => (heq k).mp) fun _ k => (heq k).mpr

lemma bind (h : Settles z l K) (h' : Settles z' l K') :
    Settles (z >>= fun _ => z') l (K ∪ K') := by
  intro c
  rcases h c with hfail | ⟨ws, c₁, hrun, hws⟩
  · exact .inl (hfail.bind _)
  · rcases h' c₁ with hfail | ⟨ws', c₂, hrun', hws'⟩
    · exact .inl (hrun.bind_fails hfail)
    · exact .inr ⟨_, c₂, hrun.bind hrun', hws.append hws'⟩

/-- What is read from the server or from the connection does not matter. -/
lemma read {β : Type} {a : ConnM I β} {f : β → Client I Unit} (h : ∀ b, Settles (f b) l K) :
    Settles (rfb a >>= f) l K := by
  intro c
  rcases rfb_settles a c l with hfail | ⟨b, c₁, -, hrun⟩
  · exact .inl (hfail.bind _)
  · rcases h b c₁ with hfail | ⟨ws, c₂, hrun', hws⟩
    · exact .inl (hrun.bind_fails hfail)
    · exact .inr ⟨ws, c₂, hrun.bind_read hrun', hws⟩

lemma rfb (a : ConnM I Unit) : Settles (Vnc.rfb a) l ∅ := by
  intro c
  refine (rfb_settles a c l).imp_right ?_
  rintro ⟨b, c', -, hrun⟩
  exact ⟨[], c', hrun, touches_nil⟩

lemma layout {f : Layout → Client I Unit} (h : Settles (f l) l K) :
    Settles (getLayout >>= f) l K := by
  intro c
  rcases h c with hfail | ⟨ws, c₁, hrun, hws⟩
  · exact .inl (runs_getLayout.bind_fails hfail)
  · exact .inr ⟨ws, c₁, runs_getLayout.bind_read hrun, hws⟩

lemma ite {P : Prop} [Decidable P] (h : P → Settles z l K) :
    Settles (if P then z else Pure.pure ()) l {k | P ∧ k ∈ K} := by
  by_cases hP : P
  · rw [if_pos hP]
    exact (h hP).congr fun k => (and_iff_right hP).symm
  · rw [if_neg hP]
    exact pure.congr fun k => iff_of_false id fun hk => hP hk.1

lemma loop {n : ℕ} {f : ℕ → Client I Unit} {L : ℕ → Set ℤ} (h : ∀ i < n, Settles (f i) l (L i)) :
    Settles (Lib.loop n f) l {k | ∃ i < n, k ∈ L i} := by
  intro c
  have hround : ∀ i ws (v : Conn I × Layout), i < n →
      (v.2 = l ∧ Touches l ws {k | ∃ i' < i, k ∈ L i'}) →
      Throws (f i) v ∨ ∃ ws' v', Runs (f i) v ws' () v' ∧
        (v'.2 = l ∧ Touches l (ws ++ ws') {k | ∃ i' < i + 1, k ∈ L i'}) := by
    rintro i ws ⟨c, l'⟩ hi ⟨rfl, hws⟩
    rcases h i hi c with hfail | ⟨ws', c', hrun, hws'⟩
    · exact .inl hfail
    · refine .inr ⟨ws', (c', _), hrun, rfl, (hws.append hws').mono ?_ fun _ => ?_⟩
      · rintro k (⟨i', hi', hk⟩ | hk)
        · exact ⟨i', hi'.trans i.lt_succ_self, hk⟩
        · exact ⟨i, i.lt_succ_self, hk⟩
      · rintro k ⟨i', hi', hk⟩
        rcases Nat.lt_succ_iff_lt_or_eq.mp hi' with hlt | rfl
        · exact .inl ⟨i', hlt, hk⟩
        · exact .inr hk
  have hstart : Touches l [] {k | ∃ i' < 0, k ∈ L i'} :=
    touches_nil.mono (Set.empty_subset _) fun _ k ⟨i', hi', _⟩ => absurd hi' (Nat.not_lt_zero _)
  rcases loop_settles (J := fun i ws v => v.2 = l ∧ Touches l ws {k | ∃ i' < i, k ∈ L i'})
      hround (v := (c, l)) ⟨rfl, hstart⟩ with hfail | ⟨ws, ⟨c', l'⟩, hrun, rfl, hws⟩
  · exact .inl hfail
  · exact .inr ⟨ws, c', hrun, hws⟩

end Settles

/-! ### Raw, Zlib and ZRLE -/

lemma settles_drawRect (x y w h : ℕ) (color : UInt32) :
    Settles (I := I) (drawRect x y w h color) l {k | l.Full ∧ k ∈ blockCells l x y w h} :=
  Settles.of_runs (fun _ => runs_drawRect x y w h color) (touches_drawWrites _)

lemma touches_rowWrites (o : ℤ) (f : ℕ → UInt32) :
    Touches l (rowWrites o w f) {k | ∃ i < w, k = o + i} := by
  refine ⟨fun p hp => ?_, fun _ k hk => ?_⟩
  · obtain ⟨i, hi, rfl⟩ := mem_rowWrites.mp hp
    exact ⟨i, hi, rfl⟩
  · obtain ⟨i, hi, rfl⟩ := hk
    exact ⟨_, mem_rowWrites.mpr ⟨i, hi, rfl⟩, rfl⟩

/-- Rows of pixels that are read one after the other. -/
lemma settles_rows {a : ConnM I (List UInt8)} {valid : Bool} :
    Settles (Lib.loop h fun j => do
        let row ← rfb a
        if valid then drawRow m (l.offset x (y + j)) w row else Pure.pure ()) l
      {k | valid ∧ k ∈ blockCells l x y w h} := by
  have hrows : ∀ j < h, Settles (do
        let row ← rfb a
        if valid then drawRow m (l.offset x (y + j)) w row else Pure.pure ()) l
      {k | valid ∧ k ∈ {k | ∃ i < w, k = l.offset x (y + j) + i}} := by
    intro j _
    apply Settles.read
    intro row
    apply Settles.ite
    intro _
    exact Settles.of_runs (fun _ => runs_row _ w _) (touches_rowWrites _ _)
  apply (Settles.loop hrows).congr
  intro k
  constructor
  · rintro ⟨j, hj, hvalid, hk⟩
    exact ⟨hvalid, j, hj, hk⟩
  · rintro ⟨hvalid, j, hj, hk⟩
    exact ⟨j, hj, hvalid, hk⟩

lemma settles_handleRawRect : Settles (I := I) (handleRawRect x y w h) l
    {k | l.validDraw x y w h ∧ k ∈ blockCells l x y w h} := by
  apply Settles.layout
  apply Settles.read
  intro m
  exact settles_rows

lemma settles_handleZlibRect : Settles (I := I) (handleZlibRect x y w h) l
    {k | l.validDraw x y w h ∧ k ∈ blockCells l x y w h} := by
  apply Settles.layout
  apply Settles.read
  intro m
  apply Settles.read
  intro _
  exact settles_rows

/-- The cells of the tiles of a rectangle that are drawn. -/
def tileCells (size : ℕ) (valid : ℕ → ℕ → Prop) (l : Layout) (x y w h : ℕ) : Set ℤ :=
  {k | ∃ r < tileCount size h, ∃ q < tileCount size w, valid r q ∧
    k ∈ blockCells l (x + size * q) (y + size * r) (tileLength size w q) (tileLength size h r)}

lemma settles_handleUpdatedZrleTile (hw : 0 < w) (pixels : List UInt32) :
    Settles (I := I) (handleUpdatedZrleTile x y w h pixels) l (blockCells l x y w h) :=
  Settles.of_runs (fun _ => runs_handleUpdatedZrleTile rfl hw pixels)
    (Block.touches ⟨x, y, w, h, fun i j => pixels.getD (j * w + i) 0⟩)

lemma settles_handleZrleTile {fuel : ℕ} {valid : Bool} (hw : 0 < w) :
    Settles (I := I) (handleZrleTile fuel valid x y w h) l
      {k | valid ∧ k ∈ blockCells l x y w h} := by
  apply Settles.read
  intro mode
  apply Settles.read
  intro _
  by_cases hsolid : (mode &&& 127).toNat = 1
  · rw [if_pos hsolid]
    apply Settles.read
    intro m
    apply Settles.read
    intro pix
    apply Settles.ite
    intro _
    exact (settles_drawRect x y w h _).mono (fun k hk => hk.2) fun hfull k hk => ⟨hfull, hk⟩
  · rw [if_neg hsolid]
    apply Settles.read
    intro pixels
    apply Settles.ite
    intro _
    exact settles_handleUpdatedZrleTile hw pixels

lemma settles_handleZRLERect {fuel : ℕ} : Settles (I := I) (handleZRLERect fuel x y w h) l
    (tileCells 64 (fun _ _ => l.validDraw x y w h) l x y w h) := by
  apply Settles.read
  intro _
  apply Settles.layout
  have hrow : ∀ r < tileCount 64 h, Settles (Lib.loop (tileCount 64 w) fun q =>
      handleZrleTile (I := I) fuel (l.validDraw x y w h) (x + 64 * q) (y + 64 * r)
        (tileLength 64 w q) (tileLength 64 h r)) l _ := fun r _ =>
    Settles.loop fun q hq => settles_handleZrleTile (tileLength_pos (by decide) hq)
  have hreset : Settles (I := I) (rfb (zrle (ZlibInStream.reset fuel))) l ∅ :=
    Settles.rfb _
  have htiles := (Settles.loop hrow).bind hreset
  rwa [Set.union_empty] at htiles

end Limbo.Vnc
