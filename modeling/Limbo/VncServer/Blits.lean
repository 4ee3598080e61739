import Limbo.Lib.Moves
import Limbo.VncServer.Staleness

/-!
# Blits of the guest

A rectangle of the server's surface is moved, chunk by chunk, and the clients that know CopyRect are
told to do the same. Chunks go from left to right, also where the rectangle is moved to the right
over itself.
-/

namespace Limbo.VncServer

open Lib

/-- The arguments of `vnc_dpy_copy()`. -/
structure Blit where
  srcX : ℕ
  srcY : ℕ
  dstX : ℕ
  dstY : ℕ
  w : ℕ
  h : ℕ
deriving DecidableEq, Repr

namespace Blit

variable (b : Blit)

def target : Area := ⟨b.dstX, b.dstY, b.w, b.h⟩

/-- Where a pixel of the target comes from. -/
def source (q : ℕ × ℕ) : ℕ × ℕ := (q.1 - b.dstX + b.srcX, q.2 - b.dstY + b.srcY)

/-- `w_lim` -/
def wLim : ℕ :=
  if b.w < 16 - b.dstX % 16 then b.w else b.w - (b.w - (16 - b.dstX % 16)) % 16

/-- The chunks of a row from `x` on, in `n` rounds: where each begins, and `s`. -/
def chunksFrom : ℕ → ℕ → List (ℕ × ℕ)
  | 0, _ => []
  | n + 1, x =>
    if x ≤ b.wLim then
      let s :=
        if x = b.wLim then b.w - b.wLim
        else if x = 0 then min (16 - b.dstX % 16) b.wLim
        else 16
      if x = b.wLim ∧ s = 0 then [] else (x, s) :: chunksFrom n (x + s)
    else []

def chunks : List (ℕ × ℕ) := b.chunksFrom (b.w + 1) 0

/-- The rows in the order in which they are copied, counted from the top. -/
def rows : List ℕ := if b.dstY > b.srcY then (List.range b.h).reverse else List.range b.h

end Blit

/-- A client moves the rectangle in its picture. -/
def Client.copied (b : Blit) (c : Client) : Client :=
  { c with
    picture := fun x y =>
      if b.target.Covers x y then c.picture (b.source (x, y)).1 (b.source (x, y)).2
      else c.picture x y }

namespace VncDisplay

/-- The chunk `p` of row `j`. -/
def copyChunk (b : Blit) (j : ℕ) (vd : VncDisplay) (p : ℕ × ℕ) : VncDisplay :=
  let (x, s) := p
  if ∀ i < s, vd.server (b.srcX + x + i) (b.srcY + j) = vd.server (b.dstX + x + i) (b.dstY + j) then
    vd
  else
    { vd with
      server := fun i k =>
        if k = b.dstY + j ∧ b.dstX + x ≤ i ∧ i < b.dstX + x + s then
          vd.server (i - b.dstX + b.srcX) (b.srcY + j)
        else vd.server i k
      clients := vd.clients.map fun c =>
        if c.copyRect then c
        else { c with dirty := c.dirty.put ((x + b.dstX) / 16) (b.dstY + j) true } }

/-- The clients that know CopyRect are brought up to date. -/
def updateForCopy (vd : VncDisplay) : VncDisplay :=
  { vd with
    clients := vd.clients.filterMap fun c =>
      if c.copyRect then
        (Client.vncUpdateClient vd.width vd.height 1 { c with forceUpdate := true }).map
          (Client.vncJobsJoin vd.server)
      else some c }

/-- The rectangle is moved on the server's surface. -/
def bitblt (vd : VncDisplay) (b : Blit) : VncDisplay :=
  b.rows.foldl (fun vd j => b.chunks.foldl (copyChunk b j) vd) vd

/-- `vnc_dpy_copy()`, with what the clients make of the message. -/
def vncDpyCopy (vd : VncDisplay) (b : Blit) : VncDisplay :=
  let vd := (vd.vncRefreshServerSurface.1.updateForCopy).bitblt b
  { vd with clients := vd.clients.map fun c => if c.copyRect then c.copied b else c }

end VncDisplay

/-! ### Chunks -/

namespace Blit

variable {b : Blit}

/-- Chunk `p` of row `j`, as its pixels. -/
def piece (b : Blit) (j : ℕ) (p : ℕ × ℕ) (q : ℕ × ℕ) : Bool :=
  q.2 = b.dstY + j ∧ b.dstX + p.1 ≤ q.1 ∧ q.1 < b.dstX + p.1 + p.2

/-- The chunks from `x` on are in the blocks of the target, one after the other. -/
structure Chunked (b : Blit) (x : ℕ) (l : List (ℕ × ℕ)) : Prop where
  covered : ∀ i, x ≤ i → i < b.w → ∃ p ∈ l, p.1 ≤ i ∧ i < p.1 + p.2
  inside : ∀ p ∈ l, x ≤ p.1 ∧ 0 < p.2 ∧ p.1 + p.2 ≤ b.w
  block : ∀ p ∈ l, (b.dstX + p.1 + p.2 - 1) / 16 = (b.dstX + p.1) / 16
  order : l.Pairwise fun p p' => (b.dstX + p.1) / 16 < (b.dstX + p'.1) / 16

lemma Chunked.nil {x : ℕ} (h : b.w ≤ x) : b.Chunked x [] where
  covered i hi hi' := by omega
  inside := List.forall_mem_nil _
  block := List.forall_mem_nil _
  order := .nil

/-- One more chunk, up to the end of its block or of the row. -/
lemma Chunked.cons {x s : ℕ} {l : List (ℕ × ℕ)} (h : b.Chunked (x + s) l) (hpos : 0 < s)
    (hle : x + s ≤ b.w) (hblock : (b.dstX + x + s - 1) / 16 = (b.dstX + x) / 16)
    (hend : (b.dstX + (x + s)) % 16 = 0 ∨ x + s = b.w) : b.Chunked x ((x, s) :: l) where
  covered i hi hi' := by
    by_cases hin : i < x + s
    · exact ⟨(x, s), List.mem_cons_self, hi, hin⟩
    · obtain ⟨p, hp, hcovers⟩ := h.covered i (by omega) hi'
      exact ⟨p, List.mem_cons_of_mem _ hp, hcovers⟩
  inside := by
    refine List.forall_mem_cons.mpr ⟨⟨le_rfl, hpos, hle⟩, fun p hp => ?_⟩
    obtain ⟨hx, hrest⟩ := h.inside p hp
    exact ⟨by omega, hrest⟩
  block := List.forall_mem_cons.mpr ⟨hblock, h.block⟩
  order := by
    refine List.pairwise_cons.mpr ⟨fun p hp => ?_, h.order⟩
    obtain ⟨hx, hp0, hpw⟩ := h.inside p hp
    dsimp only
    omega

lemma wLim_cases : (b.w < 16 - b.dstX % 16 ∧ b.wLim = b.w) ∨
    (16 - b.dstX % 16 ≤ b.wLim ∧ b.wLim ≤ b.w ∧ b.w < b.wLim + 16 ∧
      (b.dstX + b.wLim) % 16 = 0) := by
  unfold wLim
  split_ifs with h
  · exact .inl ⟨h, rfl⟩
  · exact .inr (by omega)

lemma chunked_chunksFrom (n x : ℕ) (hx : x = 0 ∨ (b.dstX + x) % 16 = 0 ∨ x = b.w)
    (hle : x ≤ b.w) (hn : b.w < n + x) : b.Chunked x (b.chunksFrom n x) := by
  induction n generalizing x with
  | zero => exact absurd hle (by omega)
  | succ n ih =>
    have hlim := b.wLim_cases
    unfold chunksFrom
    dsimp only
    by_cases hin : x ≤ b.wLim
    · rw [if_pos hin]
      by_cases hlast : x = b.wLim
      · rw [if_pos hlast]
        by_cases hzero : b.w - b.wLim = 0
        · rw [if_pos ⟨hlast, hzero⟩]
          exact .nil (by omega)
        · rw [if_neg fun h => hzero h.2]
          have hend : x + (b.w - b.wLim) = b.w := by omega
          refine Chunked.cons (ih _ (.inr (.inr hend)) hend.le (by omega)) (by omega) hend.le ?_
            (.inr hend)
          omega
      · rw [if_neg hlast, if_neg fun h => hlast h.1]
        by_cases hfirst : x = 0
        · rw [if_pos hfirst]
          rcases hlim with ⟨hshort, hw⟩ | ⟨hlong, hw, -, -⟩
          · rw [hw, min_eq_right (by omega)]
            exact Chunked.cons (ih _ (.inr (.inr (by omega))) (by omega) (by omega)) (by omega)
              (by omega) (by omega) (.inr (by omega))
          · rw [min_eq_left hlong]
            exact Chunked.cons (ih _ (.inr (.inl (by omega))) (by omega) (by omega)) (by omega)
              (by omega) (by omega) (.inl (by omega))
        · rw [if_neg hfirst]
          exact Chunked.cons (ih _ (.inr (.inl (by omega))) (by omega) (by omega)) (by omega)
            (by omega) (by omega) (.inl (by omega))
    · rw [if_neg hin]
      exact .nil (by omega)

lemma chunked_chunks (b : Blit) : b.Chunked 0 b.chunks :=
  chunked_chunksFrom _ _ (.inl rfl) (Nat.zero_le _) (by omega)

/-! ### Pieces -/

/-- The chunks of all the rows, in the order in which they are copied. -/
def pieces (b : Blit) : List (ℕ × ℕ → Bool) := b.rows.flatMap fun j => b.chunks.map (b.piece j)

lemma piece_iff {j : ℕ} {p q : ℕ × ℕ} : b.piece j p q ↔
    q.2 = b.dstY + j ∧ b.dstX + p.1 ≤ q.1 ∧ q.1 < b.dstX + p.1 + p.2 := decide_eq_true_iff

@[simp] lemma mem_rows {j : ℕ} : j ∈ b.rows ↔ j < b.h := by
  unfold rows
  split_ifs <;> simp

/-- A row comes before those that it is not read by. -/
lemma rows_order (b : Blit) :
    b.rows.Pairwise fun j j' => if b.dstY > b.srcY then j' < j else j < j' := by
  unfold rows
  split_ifs
  · exact List.pairwise_reverse.mpr List.pairwise_lt_range
  · exact List.pairwise_lt_range

/-- The pixels of a chunk are in its block. -/
lemma block_of_piece {j : ℕ} {p q : ℕ × ℕ} (hp : p ∈ b.chunks) (h : b.piece j p q) :
    q.1 / 16 = (b.dstX + p.1) / 16 := by
  have hblock := b.chunked_chunks.block p hp
  obtain ⟨-, hleft, hright⟩ := piece_iff.mp h
  omega

lemma exists_piece_iff (q : ℕ × ℕ) :
    (∃ piece ∈ b.pieces, piece q) ↔ b.target.Covers q.1 q.2 := by
  constructor
  · rintro ⟨piece, hpiece, hq⟩
    obtain ⟨j, hj, hpiece⟩ := List.mem_flatMap.mp hpiece
    obtain ⟨p, hp, rfl⟩ := List.mem_map.mp hpiece
    obtain ⟨hrow, hleft, hright⟩ := piece_iff.mp hq
    obtain ⟨-, -, hend⟩ := b.chunked_chunks.inside p hp
    have hj' := mem_rows.mp hj
    exact ⟨by dsimp only [target]; omega, by dsimp only [target]; omega,
      by dsimp only [target]; omega, by dsimp only [target]; omega⟩
  · rintro ⟨hleft, hright, htop, hbottom⟩
    dsimp only [target] at hleft hright htop hbottom
    obtain ⟨p, hp, hcovers⟩ := b.chunked_chunks.covered (q.1 - b.dstX) (Nat.zero_le _) (by omega)
    refine ⟨b.piece (q.2 - b.dstY) p, List.mem_flatMap.mpr ⟨_, mem_rows.mpr (by omega),
      List.mem_map_of_mem hp⟩, piece_iff.mpr ⟨by omega, by omega, by omega⟩⟩

/-- What holds of the pieces is what holds of the chunks of one row, and of two rows. -/
lemma pairwise_pieces {R : (ℕ × ℕ → Bool) → (ℕ × ℕ → Bool) → Prop} : b.pieces.Pairwise R ↔
    (∀ j ∈ b.rows, b.chunks.Pairwise fun p p' => R (b.piece j p) (b.piece j p')) ∧
      b.rows.Pairwise fun j j' =>
        ∀ p ∈ b.chunks, ∀ p' ∈ b.chunks, R (b.piece j p) (b.piece j' p') := by
  unfold pieces
  rw [List.pairwise_flatMap]
  simp only [List.pairwise_map, List.forall_mem_map]

lemma disjoint_pieces (b : Blit) : b.pieces.Pairwise fun p p' => ∀ q, p q → ¬ p' q := by
  refine pairwise_pieces.mpr ⟨fun j _ => ?_, ?_⟩
  · refine b.chunked_chunks.order.imp_of_mem fun hp hp' hlt q hq hq' => ?_
    have hblock := block_of_piece hp hq
    have hblock' := block_of_piece hp' hq'
    omega
  · refine b.rows_order.imp fun horder p _ p' _ q hq hq' => ?_
    obtain ⟨hrow, -⟩ := piece_iff.mp hq
    obtain ⟨hrow', -⟩ := piece_iff.mp hq'
    split_ifs at horder <;> omega

/-- What holds of any two chunks, the first one before the second one. -/
lemma pairwise_of_lt {α : Type*} {R : α → α → Prop} {f : α → ℕ} {l : List α} {a c : α}
    (order : l.Pairwise fun a c => f a < f c) (h : l.Pairwise R) (ha : a ∈ l) (hc : c ∈ l)
    (hlt : f a < f c) : R a c := by
  induction l with
  | nil => cases ha
  | cons d l ih =>
    obtain ⟨hd, horder⟩ := List.pairwise_cons.mp order
    obtain ⟨hR, hl⟩ := List.pairwise_cons.mp h
    rcases List.mem_cons.mp ha with rfl | ha'
    · rcases List.mem_cons.mp hc with rfl | hc'
      · exact absurd hlt (lt_irrefl _)
      · exact hR c hc'
    · rcases List.mem_cons.mp hc with rfl | hc'
      · exact absurd hlt (hd a ha').not_gt
      · exact ih horder hl ha' hc'

/-- Where the rectangle is moved to the right in its own rows, a pixel that is overwritten before it
is read is as the pixel that it is overwritten with. -/
def Unharmed (b : Blit) (server : ℕ → ℕ → UInt32) : Prop :=
  b.srcY = b.dstY → ∀ i < b.w, ∀ j < b.h, b.dstX ≤ b.srcX + i →
    (b.srcX + i) / 16 < (b.dstX + i) / 16 →
      server (b.srcX + i) (b.srcY + j) = server (b.srcX + i - b.dstX + b.srcX) (b.srcY + j)

lemma unharmed_iff (server : ℕ → ℕ → UInt32) : b.Unharmed server ↔
    b.pieces.Pairwise fun p p' => ∀ q, p' q → p (b.source q) →
      Function.uncurry server (b.source q) =
        Function.uncurry server (b.source (b.source q)) := by
  rw [pairwise_pieces]
  constructor
  · intro h
    refine ⟨fun j hj => ?_, b.rows_order.imp fun horder p _ p' _ q hq hsource => ?_⟩
    · refine b.chunked_chunks.order.imp_of_mem fun {p p'} hp hp' hlt q hq hsource => ?_
      have hblock := block_of_piece hp hsource
      have hblock' := block_of_piece hp' hq
      obtain ⟨hrow, hleft, hright⟩ := piece_iff.mp hq
      obtain ⟨hrow', hleft', -⟩ := piece_iff.mp hsource
      obtain ⟨-, -, hend⟩ := b.chunked_chunks.inside p' hp'
      obtain ⟨i, hi⟩ := Nat.exists_eq_add_of_le ((Nat.le_add_right _ _).trans hleft)
      simp only [source, hi, hrow, Nat.add_sub_cancel_left] at hblock hrow' hleft' ⊢
      have hrows : b.srcY = b.dstY := by omega
      have hsame := h hrows i (by omega) j (mem_rows.mp hj) (by omega) (by omega)
      simp only [Function.uncurry]
      rw [Nat.add_comm i b.srcX, Nat.add_comm j b.srcY, hsame, hrows, Nat.add_sub_cancel_left,
        Nat.add_comm j b.dstY]
    · obtain ⟨hrow, -⟩ := piece_iff.mp hq
      obtain ⟨hrow', -⟩ := piece_iff.mp hsource
      simp only [source] at hrow'
      split_ifs at horder <;> omega
  · rintro ⟨hrow, -⟩ hrows i hi j hj hle hlt
    obtain ⟨p', hp', hcovers'⟩ := b.chunked_chunks.covered i (Nat.zero_le _) hi
    obtain ⟨p, hp, hcovers⟩ := b.chunked_chunks.covered (b.srcX + i - b.dstX) (Nat.zero_le _)
      (by omega)
    have hq : b.piece j p' (b.dstX + i, b.dstY + j) :=
      piece_iff.mpr ⟨rfl, by dsimp only; omega, by dsimp only; omega⟩
    have hsource : b.piece j p (b.source (b.dstX + i, b.dstY + j)) := by
      refine piece_iff.mpr ⟨?_, ?_, ?_⟩ <;> simp only [source, Nat.add_sub_cancel_left] <;> omega
    have hblock := block_of_piece hp hsource
    have hblock' := block_of_piece hp' hq
    simp only [source, Nat.add_sub_cancel_left] at hblock hblock'
    have hsame := pairwise_of_lt b.chunked_chunks.order (hrow j (mem_rows.mpr hj)) hp hp'
      (by omega) _ hq hsource
    simp only [source, Function.uncurry, Nat.add_sub_cancel_left] at hsame
    rw [Nat.add_comm b.srcX i, Nat.add_comm b.srcY j, hsame, ← hrows, Nat.add_sub_cancel]

end Blit

/-! ### The surface of the server -/

namespace VncDisplay

variable {vd vd' : VncDisplay} {b : Blit}

lemma server_copyChunk (b : Blit) (j : ℕ) (vd : VncDisplay) (p : ℕ × ℕ) :
    Function.uncurry (copyChunk b j vd p).server =
      move b.source (b.piece j p) (Function.uncurry vd.server) := by
  funext ⟨i, k⟩
  unfold copyChunk
  dsimp only
  by_cases hpiece : k = b.dstY + j ∧ b.dstX + p.1 ≤ i ∧ i < b.dstX + p.1 + p.2
  · rw [move, if_pos (Blit.piece_iff.mpr hpiece)]
    obtain ⟨rfl, hleft, hright⟩ := hpiece
    simp only [Function.uncurry, Blit.source, Nat.add_sub_cancel_left, Nat.add_comm j]
    split_ifs with hsame
    · have hpixel := hsame (i - b.dstX - p.1) (by omega)
      rw [show b.dstX + p.1 + (i - b.dstX - p.1) = i by omega] at hpixel
      rw [← hpixel]
      congr 1
      omega
    · exact if_pos ⟨rfl, hleft, hright⟩
  · rw [move, if_neg (mt Blit.piece_iff.mp hpiece)]
    split_ifs
    · rfl
    · exact if_neg hpiece

lemma server_bitblt (vd : VncDisplay) (b : Blit) : Function.uncurry (vd.bitblt b).server =
    b.pieces.foldl (fun g piece => move b.source piece g) (Function.uncurry vd.server) := by
  unfold bitblt Blit.pieces
  rw [List.foldl_flatMap]
  refine (List.foldl_hom (fun vd : VncDisplay => Function.uncurry vd.server) fun vd j => ?_).symm
  rw [List.foldl_map]
  exact List.foldl_hom (fun vd : VncDisplay => Function.uncurry vd.server) fun vd p =>
    (server_copyChunk b j vd p).symm

/-- The rectangle is moved as it was if no pixel of it is lost on the way. -/
lemma bitblt_iff : (∀ x y, (vd.bitblt b).server x y =
      if b.target.Covers x y then vd.server (b.source (x, y)).1 (b.source (x, y)).2
      else vd.server x y) ↔ b.Unharmed vd.server := by
  rw [Blit.unharmed_iff, ← foldl_move_iff b.disjoint_pieces, ← server_bitblt]
  unfold Moved
  simp only [Blit.exists_piece_iff, Prod.forall, Function.uncurry]

/-- What a blit does: pixels change in blocks that become dirty for the clients without CopyRect. -/
structure Copied (vd : VncDisplay) (marks : Dirty) (vd' : VncDisplay) : Prop where
  width : vd'.width = vd.width
  height : vd'.height = vd.height
  clients : vd'.clients = vd.clients.map fun c =>
    if c.copyRect then c else { c with dirty := fun i j => c.dirty i j || marks i j }
  server : ∀ x y, vd'.server x y ≠ vd.server x y → marks (x / 16) y

lemma Copied.chunk {marks : Dirty} (h : vd.Copied marks vd') (j : ℕ) {p : ℕ × ℕ}
    (hp : p ∈ b.chunks) : ∃ marks, vd.Copied marks (copyChunk b j vd' p) := by
  unfold copyChunk
  dsimp only
  split_ifs
  · exact ⟨marks, h⟩
  · refine ⟨marks.put ((p.1 + b.dstX) / 16) (b.dstY + j) true, h.width, h.height, ?_,
      fun x y hne => ?_⟩
    · dsimp only
      rw [h.clients, List.map_map]
      refine List.map_congr_left fun c _ => ?_
      rw [Function.comp_apply]
      by_cases hcopy : c.copyRect
      · rw [if_pos hcopy, if_pos hcopy, if_pos hcopy]
      · rw [if_neg hcopy, if_neg hcopy, if_neg hcopy, put_or]
    · dsimp only at hne
      by_cases hpiece : y = b.dstY + j ∧ b.dstX + p.1 ≤ x ∧ x < b.dstX + p.1 + p.2
      · have hblock := Blit.block_of_piece (q := (x, y)) hp (Blit.piece_iff.mpr hpiece)
        refine if_pos ⟨?_, hpiece.1⟩
        dsimp only at hblock
        rw [hblock, Nat.add_comm]
      · rw [if_neg hpiece] at hne
        exact put_of marks _ _ _ _ (h.server x y hne)

lemma bitblt_spec (vd : VncDisplay) (b : Blit) : ∃ marks, vd.Copied marks (vd.bitblt b) := by
  have hrefl : ∃ marks, vd.Copied marks vd := by
    refine ⟨fun _ _ => false, rfl, rfl, ?_, fun _ _ h => absurd rfl h⟩
    simp
  unfold bitblt
  refine List.foldlRecOn (motive := fun vd' => ∃ marks, vd.Copied marks vd') _ _ hrefl
    fun vd' h j _ => ?_
  refine List.foldlRecOn (motive := fun vd' => ∃ marks, vd.Copied marks vd') _ _ h
    fun vd' h p hp => ?_
  obtain ⟨marks, h⟩ := h
  exact h.chunk j hp

end VncDisplay

/-! ### Clients with CopyRect -/

namespace Client

variable {width height : ℕ} {server : ℕ → ℕ → UInt32} {c c' : Client} {b : Blit}

/-- The client is sent what is on the server's surface, or has it already. -/
def WillHave (width height : ℕ) (server : ℕ → ℕ → UInt32) (c : Client) (x y : ℕ) : Prop :=
  c.picture x y = some (server x y) ∨ (∃ r ∈ c.jobs, r.Covers x y) ∨
    (c.needUpdate ∧ x / 16 < min width c.clientWidth / 16 ∧ y < min height c.clientHeight)

/-- The block is dirty, and is not sent. -/
def StaysDirty (width height : ℕ) (c : Client) (i j : ℕ) : Prop :=
  c.dirty i j ∧ ¬ (c.needUpdate ∧ i < min width c.clientWidth / 16 ∧ j < min height c.clientHeight)

/-- A client that moves the rectangle in its picture has the source of every pixel of it, but where
the block of the pixel is dirty. -/
def Follows (width height : ℕ) (server : ℕ → ℕ → UInt32) (b : Blit) (c : Client) : Prop :=
  ∀ x y, b.target.Covers x y → x < min width c.clientWidth → y < min height c.clientHeight →
    c.WillHave width height server (b.source (x, y)).1 (b.source (x, y)).2 ∨
      c.StaysDirty width height (x / 16) y

/-- What the update before a blit makes of a client that is still connected. -/
def synced (width height : ℕ) (server : ℕ → ℕ → UInt32) (c : Client) : Client :=
  vncJobsJoin server <|
    if c.needUpdate then Client.updated width height { c with forceUpdate := true }
    else { c with forceUpdate := true }

lemma vncUpdateClient_forced :
    (vncUpdateClient width height 1 { c with forceUpdate := true }).map (vncJobsJoin server) =
      if c.connected then some (c.synced width height server) else none := by
  unfold vncUpdateClient synced
  by_cases hconnected : c.connected <;> by_cases hupdate : c.needUpdate <;>
    simp [hconnected, hupdate, updated]

lemma copyRect_synced (c : Client) : (c.synced width height server).copyRect = c.copyRect := by
  unfold synced
  split_ifs <;> rfl

lemma size_synced (c : Client) : (c.synced width height server).clientWidth = c.clientWidth ∧
    (c.synced width height server).clientHeight = c.clientHeight := by
  unfold synced
  split_ifs <;> exact ⟨rfl, rfl⟩

lemma dirty_synced (server : ℕ → ℕ → UInt32) {i j : ℕ} :
    (c.synced width height server).dirty i j ↔ c.StaysDirty width height i j := by
  unfold synced StaysDirty
  by_cases hupdate : c.needUpdate
  · obtain ⟨hsent, hclean, hdirty, hinside⟩ := scan_spec (min width c.clientWidth / 16)
      (min height c.clientHeight) c.dirty
    simp only [hupdate, if_true, true_and]
    constructor
    · intro h
      refine ⟨hdirty i j h, fun hin => ?_⟩
      exact Bool.noConfusion ((hclean i hin.1 j hin.2).symm.trans h)
    · rintro ⟨hold, hout⟩
      refine (hsent i j hold).resolve_right ?_
      rintro ⟨r, hr, hblock⟩
      obtain ⟨hleft, hright, htop, hbottom⟩ := hblock (16 * i) (by omega)
      obtain ⟨hx, hy⟩ := hinside r hr
      exact hout ⟨by omega, by omega⟩
  · simp only [hupdate, if_false, Bool.false_eq_true, false_and, not_false_iff, and_true]
    rfl

/-- In its area, the client gets what it is to have. -/
lemma picture_synced {x y : ℕ}
    (h : x < min width c.clientWidth → y < min height c.clientHeight → c.Tracked server x y) :
    (c.synced width height server).picture x y = some (server x y) ↔
      c.WillHave width height server x y := by
  unfold synced WillHave
  rw [picture_vncJobsJoin]
  by_cases hupdate : c.needUpdate
  · obtain ⟨hsent, hclean, -, hinside⟩ := scan_spec (min width c.clientWidth / 16)
      (min height c.clientHeight) c.dirty
    simp only [hupdate, if_true, true_and, updated]
    constructor
    · intro hpicture
      split_ifs at hpicture with hjob
      · obtain ⟨r, hr, hcovers⟩ := hjob
        rcases List.mem_append.mp hr with hr | hr
        · exact .inr (.inl ⟨r, hr, hcovers⟩)
        · obtain ⟨hx, hy⟩ := hinside r hr
          obtain ⟨hleft, hright, htop, hbottom⟩ := hcovers
          exact .inr (.inr ⟨by omega, by omega⟩)
      · exact .inl hpicture
    · intro hhas
      split_ifs with hjob
      · rfl
      · rcases hhas with hpicture | ⟨r, hr, hcovers⟩ | ⟨hx, hy⟩
        · exact hpicture
        · exact absurd ⟨r, List.mem_append_left _ hr, hcovers⟩ hjob
        · by_contra hne
          rcases h (by omega) hy hne with hdirty | ⟨r, hr, hcovers⟩
          · rcases hsent _ _ hdirty with hdirty | ⟨r, hr, hblock⟩
            · exact Bool.noConfusion ((hclean _ hx _ hy).symm.trans hdirty)
            · exact hjob ⟨r, List.mem_append_right _ hr, hblock x rfl⟩
          · exact hjob ⟨r, List.mem_append_left _ hr, hcovers⟩
  · simp only [hupdate, if_false, Bool.false_eq_true, false_and, or_false]
    split_ifs with hjob
    · simp [hjob]
    · simp [hjob]

lemma Tracked.vncJobsJoin {x y : ℕ} (h : c.Tracked server x y)
    (hne : (c.vncJobsJoin server).picture x y ≠ some (server x y)) :
    (c.vncJobsJoin server).dirty (x / 16) y := by
  rw [picture_vncJobsJoin] at hne
  split_ifs at hne with hjob
  · exact absurd rfl hne
  · exact (h hne).resolve_right hjob

/-- What has not been sent is in dirty blocks, also after the update. -/
lemma Tracked.synced {x y : ℕ} (h : c.Tracked server x y)
    (hne : (c.synced width height server).picture x y ≠ some (server x y)) :
    (c.synced width height server).dirty (x / 16) y := by
  refine Tracked.vncJobsJoin ?_ hne
  split_ifs
  · exact h.updated
  · exact h

/-- A client that has moved the rectangle in its picture differs from the surface in dirty blocks
only, if it had the source of every pixel that is not in one. -/
lemma copied_iff {server' : ℕ → ℕ → UInt32}
    (h : ∀ x y, x < min width c.clientWidth → y < min height c.clientHeight → c.Tracked server x y)
    (hserver : ∀ x y, server' x y =
      if b.target.Covers x y then server (b.source (x, y)).1 (b.source (x, y)).2 else server x y) :
    (∀ x y, x < min width c.clientWidth → y < min height c.clientHeight →
      ((c.synced width height server).copied b).picture x y ≠ some (server' x y) →
        ((c.synced width height server).copied b).dirty (x / 16) y) ↔
      c.Follows width height server b := by
  constructor
  · intro hdirty x y hcovers hx hy
    have hpixel := hdirty x y hx hy
    rw [hserver, if_pos hcovers] at hpixel
    simp only [copied, hcovers, if_true] at hpixel
    rw [← picture_synced (h _ _), ← dirty_synced server]
    tauto
  · intro hfollows x y hx hy hne
    rw [hserver] at hne
    simp only [copied] at hne ⊢
    split_ifs at hne with hcovers
    · have hpixel := hfollows x y hcovers hx hy
      rw [← picture_synced (h _ _), ← dirty_synced server] at hpixel
      tauto
    · exact (h x y hx hy).synced hne

end Client

/-! ### Blits and views -/

namespace VncDisplay

variable {vd : VncDisplay} {b : Blit}

/-- The view of every client stays that of the surface, but for dirty blocks. What is moved is the
surface that has been refreshed. -/
structure Blitted (vd : VncDisplay) (b : Blit) : Prop where
  server : ∀ x y, (vd.vncDpyCopy b).server x y =
    if b.target.Covers x y then
      vd.vncRefreshServerSurface.1.server (b.source (x, y)).1 (b.source (x, y)).2
    else vd.vncRefreshServerSurface.1.server x y
  plain : ∀ c ∈ (vd.vncDpyCopy b).clients, ¬ c.copyRect → ∀ x y,
    (vd.vncDpyCopy b).server x y ≠ vd.server x y → c.dirty (x / 16) y
  copied : ∀ c ∈ (vd.vncDpyCopy b).clients, c.copyRect → ∀ x y,
    x < min vd.width c.clientWidth → y < min vd.height c.clientHeight →
      c.picture x y ≠ some ((vd.vncDpyCopy b).server x y) → c.dirty (x / 16) y

/-- The clients with CopyRect that are still connected, once they have been told. -/
lemma mem_copied {marks : Dirty} {clients : List Client} {width height : ℕ}
    {server : ℕ → ℕ → UInt32} {c' : Client} :
    (c' ∈ (((clients.filterMap fun c =>
        if c.copyRect then
          (Client.vncUpdateClient width height 1 { c with forceUpdate := true }).map
            (Client.vncJobsJoin server)
        else some c).map fun c =>
          if c.copyRect then c else { c with dirty := fun i j => c.dirty i j || marks i j }).map
            fun c => if c.copyRect then c.copied b else c)) ↔
      (∃ c ∈ clients, c.copyRect ∧ c.connected ∧
        c' = (c.synced width height server).copied b) ∨
      ∃ c ∈ clients, ¬ c.copyRect ∧
        c' = { c with dirty := fun i j => c.dirty i j || marks i j } := by
  rw [List.map_map, List.mem_map]
  simp only [List.mem_filterMap, Function.comp_apply]
  constructor
  · rintro ⟨d, ⟨c, hc, hd⟩, rfl⟩
    by_cases hcopy : c.copyRect
    · rw [if_pos hcopy, Client.vncUpdateClient_forced] at hd
      split_ifs at hd with hconnected
      obtain rfl := Option.some.inj hd
      have hsynced : (c.synced width height server).copyRect :=
        (Client.copyRect_synced c).trans hcopy
      rw [if_pos hsynced, if_pos hsynced]
      exact .inl ⟨c, hc, hcopy, hconnected, rfl⟩
    · rw [if_neg hcopy] at hd
      obtain rfl := Option.some.inj hd
      rw [if_neg hcopy, if_neg hcopy]
      exact .inr ⟨c, hc, hcopy, rfl⟩
  · rintro (⟨c, hc, hcopy, hconnected, rfl⟩ | ⟨c, hc, hcopy, rfl⟩)
    · have hsynced : (c.synced width height server).copyRect :=
        (Client.copyRect_synced c).trans hcopy
      refine ⟨_, ⟨c, hc, ?_⟩, by rw [if_pos hsynced, if_pos hsynced]⟩
      rw [if_pos hcopy, Client.vncUpdateClient_forced, if_pos hconnected]
    · exact ⟨c, ⟨c, hc, if_neg hcopy⟩, by rw [if_neg hcopy, if_neg hcopy]⟩

lemma mem_vncDpyCopy {marks marks' : Dirty} {c' : Client}
    (hr : vd.Refreshed marks vd.vncRefreshServerSurface.1)
    (hb : vd.vncRefreshServerSurface.1.updateForCopy.Copied marks'
      (vd.vncRefreshServerSurface.1.updateForCopy.bitblt b)) :
    c' ∈ (vd.vncDpyCopy b).clients ↔
      (∃ c ∈ vd.vncRefreshServerSurface.1.clients, c.copyRect ∧ c.connected ∧
        c' = (c.synced vd.width vd.height vd.vncRefreshServerSurface.1.server).copied b) ∨
      ∃ c ∈ vd.vncRefreshServerSurface.1.clients, ¬ c.copyRect ∧
        c' = { c with dirty := fun i j => c.dirty i j || marks' i j } := by
  rw [vncDpyCopy, hb.clients, updateForCopy, hr.width, hr.height]
  exact mem_copied

/-- A display of two rows with a client that knows CopyRect and has asked for updates. -/
def copyDisplay : VncDisplay where
  width := 32
  height := 2
  guest x _ := UInt32.ofNat x
  guestDirty _ _ := false
  server x _ := UInt32.ofNat x
  clients := [{ Client.new with
    clientWidth := 32, clientHeight := 2, needUpdate := true, copyRect := true
    picture := fun x _ => some (UInt32.ofNat x) }]

end VncDisplay

end Limbo.VncServer
