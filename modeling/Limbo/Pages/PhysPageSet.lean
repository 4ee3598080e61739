import Limbo.Pages.PhysMap

/-!
# Setting pages

`phys_page_set()` maps a range of pages to a section and leaves all other pages as they are, if none of
the range is below a leaf: the entry of such a leaf has the number of a section, which would be taken
for that of a node. The proof keeps apart what is below different entries by the block of pages that a
node is for. A node belongs to one block, and no call changes nodes outside of its own.

At most `2 * levels - 1` nodes are allocated, since only the first and the last node of each level are
covered in part.
-/

namespace Limbo.Pages

open Limbo.Lib.Radix

lemma step_eq (level : ℕ) : step level = l2Size ^ level := by
  rw [step, l2Size, ← pow_mul, mul_comm]

lemma l2Size_pos : 0 < l2Size := Nat.pow_pos (by norm_num)

lemma step_pos (level : ℕ) : 0 < step level := step_eq level ▸ Nat.pow_pos l2Size_pos

variable {place place' place₁ : ℕ → ℕ × ℕ} {m m' m₁ : PhysMap} {lp : Loc} {b : ℕ × ℕ}
  {unassigned leaf : ℕ}

/-! ### The invariant -/

/-- An entry for the block `b`: it is a leaf, or there is no node, or the node is for `b`. -/
def EntryOk (place : ℕ → ℕ × ℕ) (nodesNb : ℕ) (b : ℕ × ℕ) (e : PhysPageEntry) : Prop :=
  e.isLeaf = true ∨ 0 < b.1 ∧ (e.ptr = physMapNodeNil ∨ e.ptr < nodesNb ∧ place e.ptr = b)

/-- The node `n` is for the block `place n`, and its entries for the parts of it. -/
structure Placed (place : ℕ → ℕ × ℕ) (m : PhysMap) : Prop where
  nb_le : m.physMapNodesNb ≤ physMapNodeNil
  entries : ∀ n < m.physMapNodesNb, ∀ h x, place n = (h + 1, x) → ∀ i < l2Size,
    EntryOk place m.physMapNodesNb (h, x * l2Size + i) (m.physMapNodes n i)
  height : ∀ n < m.physMapNodesNb, 0 < (place n).1

/-- There is no leaf above the page on the way to its own entry. -/
def Free (m : PhysMap) (p : ℕ) : ℕ → PhysPageEntry → Prop
  | 0, _ => True
  | h + 1, e => e.isLeaf = false ∧
    (e.ptr ≠ physMapNodeNil → Free m p h (m.physMapNodes e.ptr (p / step h % l2Size)))

/-- `lp` is the entry of the block `b`. -/
def At (place : ℕ → ℕ × ℕ) (nodesNb : ℕ) (b : ℕ × ℕ) : Loc → Prop
  | .root => True
  | .entry n i => n < nodesNb ∧ i < l2Size ∧ ∃ x, place n = (b.1 + 1, x) ∧ b.2 = x * l2Size + i

lemma EntryOk.mono {nb nb' : ℕ} {e : PhysPageEntry} (h : EntryOk place nb b e) (hnb : nb ≤ nb')
    (hplace : ∀ n < nb, place' n = place n) : EntryOk place' nb' b e := by
  obtain h | ⟨hpos, h | ⟨hlt, hb⟩⟩ := h
  · exact .inl h
  · exact .inr ⟨hpos, .inl h⟩
  · exact .inr ⟨hpos, .inr ⟨by omega, (hplace _ hlt).trans hb⟩⟩

lemma At.mono {nb nb' : ℕ} (h : At place nb b lp) (hnb : nb ≤ nb')
    (hplace : ∀ n < nb, place' n = place n) : At place' nb' b lp := by
  cases lp with
  | root => trivial
  | entry n i =>
    obtain ⟨hlt, hi, x, hx, hb⟩ := h
    exact ⟨by omega, hi, x, (hplace n hlt).trans hx, hb⟩

/-- What is found of a page depends on the nodes for the blocks that it is in. -/
lemma find_congr (unassigned : ℕ) {p h : ℕ} {x : ℕ} {e : PhysPageEntry} (hm : Placed place m)
    (he : EntryOk place m.physMapNodesNb (h, x) e) (hp : InBlock l2Size (h, x) p)
    (hsame : ∀ n < m.physMapNodesNb, (place n).1 ≤ h → InBlock l2Size (place n) p →
      ∀ i, m'.physMapNodes n i = m.physMapNodes n i) :
    physPageFindFrom unassigned m' p h e = physPageFindFrom unassigned m p h e ∧
      (Free m' p h e ↔ Free m p h e) := by
  induction h generalizing x e with
  | zero => exact ⟨rfl, Iff.rfl⟩
  | succ h ih =>
    rw [physPageFindFrom, physPageFindFrom, Free, Free]
    by_cases hleaf : e.isLeaf = true
    · rw [if_pos hleaf, if_pos hleaf, hleaf]
      simp
    rw [if_neg hleaf, if_neg hleaf]
    by_cases hnil : e.ptr = physMapNodeNil
    · rw [if_pos hnil, if_pos hnil]
      simp [hnil]
    rw [if_neg hnil, if_neg hnil]
    obtain ⟨hlt, hplace⟩ := ((he.resolve_left hleaf).2).resolve_left hnil
    have hnode : ∀ i, m'.physMapNodes e.ptr i = m.physMapNodes e.ptr i := by
      refine hsame _ hlt ?_ ?_
      · rw [hplace]
      · rwa [hplace]
    have hi : p / step h % l2Size < l2Size := Nat.mod_lt _ l2Size_pos
    have hchild := hm.entries _ hlt h x hplace _ hi
    have hp' : InBlock l2Size (h, x * l2Size + p / step h % l2Size) p := by
      rw [step_eq]
      exact inBlock_digit hp
    have hrest := ih hchild hp' fun n hn hle => hsame n hn (by omega)
    rw [hnode]
    exact ⟨hrest.1, and_congr_right' (imp_congr_right fun _ => hrest.2)⟩

/-! ### What a call does below an entry -/

/-- Below `lp`, the entry of the block `b`, the pages of `P` are mapped to `v` and all others stay as
they are. -/
structure Filled (unassigned v : ℕ) (place place' : ℕ → ℕ × ℕ) (m m' : PhysMap) (lp : Loc)
    (b : ℕ × ℕ) (P : ℕ → Prop) : Prop where
  placed : Placed place' m'
  nb_le : m.physMapNodesNb ≤ m'.physMapNodesNb
  alloc : m'.physMapNodesNbAlloc = m.physMapNodesNbAlloc
  place_eq : ∀ n < m.physMapNodesNb, place' n = place n
  entry : EntryOk place' m'.physMapNodesNb b (m'.get lp)
  root : lp ≠ .root → m'.physMap = m.physMap
  frame : ∀ n < m.physMapNodesNb, ¬ Within l2Size (place n) b → ∀ i, lp ≠ .entry n i →
    m'.physMapNodes n i = m.physMapNodes n i
  found : ∀ p, InBlock l2Size b p → P p → physPageFindFrom unassigned m' p b.1 (m'.get lp) = v
  kept : ∀ p, InBlock l2Size b p → ¬ P p →
    physPageFindFrom unassigned m' p b.1 (m'.get lp) =
        physPageFindFrom unassigned m p b.1 (m.get lp) ∧
      (Free m p b.1 (m.get lp) → Free m' p b.1 (m'.get lp))

section Filled

variable {v : ℕ} {P Q : ℕ → Prop}

lemma filled_refl (hm : Placed place m) (he : EntryOk place m.physMapNodesNb b (m.get lp)) :
    Filled unassigned v place place m m lp b fun _ => False where
  placed := hm
  nb_le := le_refl _
  alloc := rfl
  place_eq _ _ := rfl
  entry := he
  root _ := rfl
  frame _ _ _ _ _ := rfl
  found _ _ h := h.elim
  kept _ _ _ := ⟨rfl, id⟩

lemma Filled.congr (h : Filled unassigned v place place' m m' lp b P)
    (hPQ : ∀ p, InBlock l2Size b p → (P p ↔ Q p)) :
    Filled unassigned v place place' m m' lp b Q where
  placed := h.placed
  nb_le := h.nb_le
  alloc := h.alloc
  place_eq := h.place_eq
  entry := h.entry
  root := h.root
  frame := h.frame
  found p hp hQ := h.found p hp ((hPQ p hp).mpr hQ)
  kept p hp hQ := h.kept p hp fun hP => hQ ((hPQ p hp).mp hP)

lemma Filled.trans (h : Filled unassigned v place place₁ m m₁ lp b P)
    (h' : Filled unassigned v place₁ place' m₁ m' lp b Q) :
    Filled unassigned v place place' m m' lp b fun p => P p ∨ Q p where
  placed := h'.placed
  nb_le := h.nb_le.trans h'.nb_le
  alloc := h'.alloc.trans h.alloc
  place_eq n hn := (h'.place_eq n (hn.trans_le h.nb_le)).trans (h.place_eq n hn)
  entry := h'.entry
  root hlp := (h'.root hlp).trans (h.root hlp)
  frame n hn hw i hlp := by
    have hw' : ¬ Within l2Size (place₁ n) b := by rwa [h.place_eq n hn]
    exact (h'.frame n (hn.trans_le h.nb_le) hw' i hlp).trans (h.frame n hn hw i hlp)
  found p hp hPQ := by
    by_cases hQ : Q p
    · exact h'.found p hp hQ
    · exact (h'.kept p hp hQ).1.trans (h.found p hp (hPQ.resolve_right hQ))
  kept p hp hPQ := by
    obtain ⟨hP, hQ⟩ := not_or.mp hPQ
    obtain ⟨hfind, hfree⟩ := h.kept p hp hP
    obtain ⟨hfind', hfree'⟩ := h'.kept p hp hQ
    exact ⟨hfind'.trans hfind, fun hf => hfree' (hfree hf)⟩

/-- A node below `lp` is not the one that `lp` is in. -/
lemma At.not_within {n i : ℕ} (h : At place m.physMapNodesNb b (.entry n i)) :
    ¬ Within l2Size (place n) b := by
  obtain ⟨-, -, x, hx, -⟩ := h
  exact not_within_of_lt (by rw [hx]; exact Nat.lt_succ_self _)

lemma get_of_frame {n i : ℕ} {c : ℕ × ℕ} (h : Filled unassigned v place place' m m' (.entry n i) c P)
    (hlp : At place m.physMapNodesNb b lp) (hc : ∀ d, Within l2Size d c → Within l2Size d b)
    (hn : Within l2Size (place n) b) : m'.get lp = m.get lp := by
  cases lp with
  | root => exact h.root (by simp)
  | entry n₀ i₀ =>
    have hout := hlp.not_within
    refine h.frame n₀ hlp.1 (fun hw => hout (hc _ hw)) i₀ fun heq => ?_
    obtain ⟨rfl, -⟩ := Loc.entry.inj heq
    exact hout hn

/-- What is done below an entry of a node is done below the entry of the node. -/
lemma Filled.lift {n i h x : ℕ}
    (hf : Filled unassigned v place place' m m' (.entry n i) (h, x * l2Size + i) P)
    (hm : Placed place m) (hn : n < m.physMapNodesNb) (hplace : place n = (h + 1, x))
    (hi : i < l2Size) (hlp : At place m.physMapNodesNb (h + 1, x) lp)
    (hget : m.get lp = ⟨false, n⟩) :
    Filled unassigned v place place' m m' lp (h + 1, x)
      fun p => InBlock l2Size (h, x * l2Size + i) p ∧ P p := by
  have hnil : n ≠ physMapNodeNil := by
    have := hm.nb_le
    omega
  have hwithin : Within l2Size (place n) (h + 1, x) := hplace ▸ within_refl _
  have hget' : m'.get lp = ⟨false, n⟩ :=
    (get_of_frame hf hlp (fun d hd => hd.parent hi) hwithin).trans hget
  have hfind : ∀ (m : PhysMap) p, physPageFindFrom unassigned m p (h + 1) ⟨false, n⟩ =
      physPageFindFrom unassigned m p h (m.physMapNodes n (p / step h % l2Size)) := by
    intro m p
    rw [physPageFindFrom, if_neg Bool.false_ne_true, if_neg hnil]
  have hfree : ∀ (m : PhysMap) p, Free m p (h + 1) ⟨false, n⟩ ↔
      Free m p h (m.physMapNodes n (p / step h % l2Size)) := by
    intro m p
    simp [Free, hnil]
  have hdigit : ∀ p, InBlock l2Size (h, x * l2Size + i) p → p / step h % l2Size = i := by
    intro p hp
    rw [step_eq]
    exact digit_of_inBlock hi hp
  refine ⟨hf.placed, hf.nb_le, hf.alloc, hf.place_eq, ?_, ?_, ?_, ?_, ?_⟩
  · rw [hget']
    exact .inr ⟨Nat.succ_pos h, .inr ⟨hn.trans_le hf.nb_le, (hf.place_eq n hn).trans hplace⟩⟩
  · exact fun _ => hf.root (by simp)
  · intro n' hn' hw i' _
    refine hf.frame n' hn' (fun hw' => hw (hw'.parent hi)) i' fun heq => ?_
    obtain ⟨rfl, -⟩ := Loc.entry.inj heq
    exact hw hwithin
  · rintro p - ⟨hp, hP⟩
    rw [hget', hfind, hdigit p hp]
    exact hf.found p hp hP
  · intro p hp hnot
    rw [hget', hget, hfind, hfind, hfree, hfree]
    by_cases hchild : InBlock l2Size (h, x * l2Size + i) p
    · rw [hdigit p hchild]
      exact hf.kept p hchild fun hP => hnot ⟨hchild, hP⟩
    -- the page is below another entry of the node
    · have hp' : InBlock l2Size (h, x * l2Size + p / step h % l2Size) p := by
        rw [step_eq]
        exact inBlock_digit hp
      have hne : p / step h % l2Size ≠ i := fun heq => hchild (heq ▸ hp')
      have hentry : m'.physMapNodes n (p / step h % l2Size) =
          m.physMapNodes n (p / step h % l2Size) := by
        refine hf.frame n hn (not_within_of_lt ?_) _ fun heq => ?_
        · rw [hplace]
          exact Nat.lt_succ_self h
        · exact hne (Loc.entry.inj heq).2.symm
      have hnodes : ∀ n' < m.physMapNodesNb, (place n').1 ≤ h → InBlock l2Size (place n') p →
          ∀ i', m'.physMapNodes n' i' = m.physMapNodes n' i' := by
        intro n' hn' hle hin i'
        refine hf.frame n' hn' (fun hw => hchild (hin.of_within hw)) i' fun heq => ?_
        obtain ⟨rfl, -⟩ := Loc.entry.inj heq
        rw [hplace] at hle
        exact absurd hle (Nat.not_succ_le_self h)
      have he := hm.entries n hn h x hplace _ (Nat.mod_lt (p / step h) l2Size_pos)
      have hsame := find_congr unassigned hm he hp' hnodes
      rw [hentry]
      exact ⟨hsame.1, hsame.2.mpr⟩

end Filled

/-! ### Leaves and new nodes -/

section Updates

variable {n i h x v : ℕ} {e : PhysPageEntry}

@[simp] lemma get_set (m : PhysMap) (lp : Loc) (e : PhysPageEntry) : (m.set lp e).get lp = e := by
  cases lp <;> simp [PhysMap.set, PhysMap.get]

@[simp] lemma physMapNodesNb_set (m : PhysMap) (lp : Loc) (e : PhysPageEntry) :
    (m.set lp e).physMapNodesNb = m.physMapNodesNb := by
  cases lp <;> rfl

@[simp] lemma physMapNodesNbAlloc_set (m : PhysMap) (lp : Loc) (e : PhysPageEntry) :
    (m.set lp e).physMapNodesNbAlloc = m.physMapNodesNbAlloc := by
  cases lp <;> rfl

lemma physMapNodes_set_of_ne (h : lp ≠ .entry n i) :
    (m.set lp e).physMapNodes n i = m.physMapNodes n i := by
  cases lp with
  | root => rfl
  | entry n' i' =>
    dsimp only [PhysMap.set]
    by_cases hn : n = n'
    · subst hn
      have hi : i ≠ i' := fun hi => h (by rw [hi])
      rw [Function.update_self, Function.update_of_ne hi]
    · rw [Function.update_of_ne hn]

lemma physMap_set_of_ne (h : lp ≠ .root) : (m.set lp e).physMap = m.physMap := by
  cases lp with
  | root => exact absurd rfl h
  | entry n i => rfl

/-- An entry may be set to what is in order for its block. -/
lemma Placed.set (hm : Placed place m) (hlp : At place m.physMapNodesNb b lp)
    (he : EntryOk place m.physMapNodesNb b e) : Placed place (m.set lp e) := by
  refine ⟨?_, ?_, ?_⟩
  · rw [physMapNodesNb_set]
    exact hm.nb_le
  · rw [physMapNodesNb_set]
    intro n hn h x hx i hi
    by_cases heq : lp = .entry n i
    · subst heq
      obtain ⟨-, -, x', hx', hb⟩ := hlp
      have hxx : (b.1 + 1, x') = (h + 1, x) := hx'.symm.trans hx
      obtain ⟨hh, rfl⟩ := Prod.mk.inj hxx
      have hb' : (h, x' * l2Size + i) = b := Prod.ext (by dsimp only; omega) hb.symm
      rw [show (m.set (.entry n i) e).physMapNodes n i = e from get_set m (.entry n i) e, hb']
      exact he
    · rw [physMapNodes_set_of_ne heq]
      exact hm.entries n hn h x hx i hi
  · rw [physMapNodesNb_set]
    exact hm.height

lemma filled_leaf (hm : Placed place m) (hlp : At place m.physMapNodesNb b lp) :
    Filled unassigned (leaf % 2 ^ 15) place place m (m.set lp (leafEntry leaf)) lp b
      fun _ => True where
  placed := hm.set hlp (.inl rfl)
  nb_le := (physMapNodesNb_set m lp _).ge
  alloc := physMapNodesNbAlloc_set m lp _
  place_eq _ _ := rfl
  entry := by
    rw [get_set]
    exact .inl rfl
  root := physMap_set_of_ne
  frame _ _ _ _ hlp := physMapNodes_set_of_ne hlp
  found p _ _ := by
    rw [get_set]
    cases b.1 <;> rfl
  kept _ _ hnot := absurd trivial hnot

/-- The nodes that can still be allocated. -/
def PhysMap.room (m : PhysMap) : ℕ := min physMapNodeNil m.physMapNodesNbAlloc

/-- A node with the entries `e` has been allocated for `lp`. -/
structure Grown (m m₁ : PhysMap) (lp : Loc) (e : PhysPageEntry) : Prop where
  nb : m₁.physMapNodesNb = m.physMapNodesNb + 1
  alloc : m₁.physMapNodesNbAlloc = m.physMapNodesNbAlloc
  get : m₁.get lp = ⟨false, m.physMapNodesNb⟩
  node : ∀ i, m₁.physMapNodes m.physMapNodesNb i = e
  nodes : ∀ n < m.physMapNodesNb, ∀ i, lp ≠ .entry n i → m₁.physMapNodes n i = m.physMapNodes n i
  root : lp ≠ .root → m₁.physMap = m.physMap

/-- What the entries of a new node are. -/
def newEntry (unassigned level : ℕ) : PhysPageEntry :=
  if level = 0 then leafEntry unassigned else ⟨false, physMapNodeNil⟩

lemma At.ne_of_le {nb : ℕ} (h : At place nb b lp) {n i : ℕ} (hn : nb ≤ n) : lp ≠ .entry n i := by
  rintro rfl
  exact absurd h.1 (by omega)

lemma get_of_nodes {n : ℕ} (hlp : At place n b lp) (hroot : m₁.physMap = m.physMap)
    (hnodes : ∀ n' < n, ∀ i, m₁.physMapNodes n' i = m.physMapNodes n' i) : m₁.get lp = m.get lp := by
  cases lp with
  | root => exact hroot
  | entry n' i => exact hnodes n' hlp.1 i

lemma fillNode_self (m : PhysMap) (n : ℕ) (e : PhysPageEntry) (i : ℕ) :
    (m.fillNode n e).physMapNodes n i = e := by
  simp [PhysMap.fillNode]

lemma fillNode_of_ne {n' : ℕ} (h : n' ≠ n) :
    (m.fillNode n e).physMapNodes n' = m.physMapNodes n' := by
  simp [PhysMap.fillNode, h]

lemma physMapNode_grown (unassigned level : ℕ) (hlp : At place m.physMapNodesNb b lp)
    (hleaf : (m.get lp).isLeaf = false) (hnil : (m.get lp).ptr = physMapNodeNil)
    (hroom : m.physMapNodesNb < m.room) :
    ∃ m₁, physMapNode unassigned level m lp = some (m.physMapNodesNb, m₁) ∧
      Grown m m₁ lp (newEntry unassigned level) := by
  let m' := PhysMap.fillNode { m with physMapNodesNb := m.physMapNodesNb + 1 } m.physMapNodesNb
    ⟨false, physMapNodeNil⟩
  have halloc : physMapNodeAlloc m = some (m.physMapNodesNb, m') := by
    rw [PhysMap.room] at hroom
    rw [physMapNodeAlloc]
    dsimp only
    rw [if_neg (by omega)]
  have hnodes' : ∀ n < m.physMapNodesNb, ∀ i, m'.physMapNodes n i = m.physMapNodes n i := by
    intro n hn i
    have hne : n ≠ m.physMapNodesNb := by omega
    exact congrFun (fillNode_of_ne hne) i
  have hget : m'.get lp = m.get lp := get_of_nodes hlp rfl hnodes'
  have hset : m'.set lp { m'.get lp with ptr := m.physMapNodesNb } =
      m'.set lp ⟨false, m.physMapNodesNb⟩ := by
    rw [hget]
    dsimp only
    rw [hleaf]
  have hnew : ∀ i, (m'.set lp ⟨false, m.physMapNodesNb⟩).physMapNodes m.physMapNodesNb i =
      ⟨false, physMapNodeNil⟩ := fun i =>
    (physMapNodes_set_of_ne (hlp.ne_of_le (le_refl _))).trans (fillNode_self _ _ _ i)
  have hnodes : ∀ n < m.physMapNodesNb, ∀ i, lp ≠ .entry n i →
      (m'.set lp ⟨false, m.physMapNodesNb⟩).physMapNodes n i = m.physMapNodes n i :=
    fun n hn i hne => (physMapNodes_set_of_ne hne).trans (hnodes' n hn i)
  rw [physMapNode, if_pos ⟨hleaf, hnil⟩, halloc]
  dsimp only [Option.bind_eq_bind, Option.bind_some, Option.pure_def]
  rw [hset]
  by_cases hlevel : level = 0
  · rw [if_pos hlevel, newEntry, if_pos hlevel]
    refine ⟨_, rfl, ?_, ?_, ?_, ?_, ?_, ?_⟩
    · exact physMapNodesNb_set m' lp _
    · exact physMapNodesNbAlloc_set m' lp _
    · have hfill : ((m'.set lp ⟨false, m.physMapNodesNb⟩).fillNode m.physMapNodesNb
          (leafEntry unassigned)).get lp = (m'.set lp ⟨false, m.physMapNodesNb⟩).get lp := by
        refine get_of_nodes hlp rfl fun n hn i => ?_
        have hne : n ≠ m.physMapNodesNb := by omega
        exact congrFun (fillNode_of_ne hne) i
      exact hfill.trans (get_set m' lp _)
    · exact fillNode_self _ _ _
    · intro n hn i hi
      have hne : n ≠ m.physMapNodesNb := by omega
      exact (congrFun (fillNode_of_ne hne) i).trans (hnodes n hn i hi)
    · exact fun hne => physMap_set_of_ne hne
  · rw [if_neg hlevel, newEntry, if_neg hlevel]
    exact ⟨_, rfl, physMapNodesNb_set m' lp _, physMapNodesNbAlloc_set m' lp _, get_set m' lp _, hnew,
      hnodes, fun hne => physMap_set_of_ne hne⟩

end Updates

section Node

variable {h x v : ℕ}

lemma leafEntry_ptr (hun : unassigned < 2 ^ 15) : (leafEntry unassigned).ptr = unassigned :=
  Nat.mod_eq_of_lt hun

/-- What is found below a new node is what is found where there is none. -/
lemma find_newEntry (hun : unassigned < 2 ^ 15) (m : PhysMap) (p h : ℕ) :
    physPageFindFrom unassigned m p h (newEntry unassigned h) = unassigned ∧
      Free m p h (newEntry unassigned h) := by
  cases h with
  | zero => exact ⟨leafEntry_ptr hun, trivial⟩
  | succ h =>
    have hnew : newEntry unassigned (h + 1) = ⟨false, physMapNodeNil⟩ := if_neg (Nat.succ_ne_zero h)
    rw [hnew, physPageFindFrom, if_neg Bool.false_ne_true, if_pos rfl]
    exact ⟨rfl, rfl, fun hne => absurd rfl hne⟩

lemma entryOk_newEntry {nb y : ℕ} : EntryOk place nb (h, y) (newEntry unassigned h) := by
  rw [newEntry]
  by_cases hh : h = 0
  · rw [if_pos hh]
    exact .inl rfl
  · rw [if_neg hh]
    exact .inr ⟨Nat.pos_of_ne_zero hh, .inl rfl⟩

lemma placed_grown (hm : Placed place m) (hlp : At place m.physMapNodesNb (h + 1, x) lp)
    (hroom : m.physMapNodesNb < physMapNodeNil) (hg : Grown m m₁ lp (newEntry unassigned h)) :
    Placed (Function.update place m.physMapNodesNb (h + 1, x)) m₁ := by
  have hplace : ∀ n < m.physMapNodesNb,
      Function.update place m.physMapNodesNb (h + 1, x) n = place n := fun n hn =>
    Function.update_of_ne (by omega) _ _
  have hnb := hg.nb
  refine ⟨by omega, fun n hn h' x' hx' i hi => ?_, fun n hn => ?_⟩
  · by_cases hnew : n = m.physMapNodesNb
    · subst hnew
      rw [Function.update_self] at hx'
      obtain ⟨hh, rfl⟩ := Prod.mk.inj hx'
      obtain rfl : h = h' := by omega
      rw [hg.node]
      exact entryOk_newEntry
    have hold : n < m.physMapNodesNb := by omega
    rw [hplace n hold] at hx'
    by_cases heq : lp = .entry n i
    · subst heq
      obtain ⟨-, -, x₀, hx₀, hb⟩ := hlp
      obtain ⟨hh, rfl⟩ := Prod.mk.inj (hx₀.symm.trans hx')
      dsimp only at hh hb
      rw [show m₁.physMapNodes n i = _ from hg.get, show h' = h + 1 by omega, ← hb]
      exact .inr ⟨Nat.succ_pos h, .inr ⟨hnb ▸ Nat.lt_succ_self _, Function.update_self ..⟩⟩
    · rw [hg.nodes n hold i heq]
      exact (hm.entries n hold h' x' hx' i hi).mono (by omega) hplace
  · by_cases hnew : n = m.physMapNodesNb
    · subst hnew
      rw [Function.update_self]
      exact Nat.succ_pos h
    · rw [hplace n (by omega)]
      exact hm.height n (by omega)

lemma filled_grown (hun : unassigned < 2 ^ 15) (hm : Placed place m)
    (hlp : At place m.physMapNodesNb (h + 1, x) lp) (hleaf : (m.get lp).isLeaf = false)
    (hnil : (m.get lp).ptr = physMapNodeNil) (hroom : m.physMapNodesNb < physMapNodeNil)
    (hg : Grown m m₁ lp (newEntry unassigned h)) :
    Filled unassigned v place (Function.update place m.physMapNodesNb (h + 1, x)) m m₁ lp (h + 1, x)
      fun _ => False where
  placed := placed_grown hm hlp hroom hg
  nb_le := by
    have := hg.nb
    omega
  alloc := hg.alloc
  place_eq n hn := Function.update_of_ne (by omega) _ _
  entry := by
    rw [hg.get]
    exact .inr ⟨Nat.succ_pos h, .inr ⟨hg.nb ▸ Nat.lt_succ_self _, Function.update_self ..⟩⟩
  root := hg.root
  frame n hn _ i hne := hg.nodes n hn i hne
  found _ _ h := h.elim
  kept p _ _ := by
    obtain ⟨hfind, hfree⟩ := find_newEntry hun m₁ p h
    rw [hg.get, physPageFindFrom, physPageFindFrom, if_neg Bool.false_ne_true,
      if_neg hroom.ne, hg.node, hfind, if_neg (by rw [hleaf]; exact Bool.false_ne_true), if_pos hnil]
    refine ⟨rfl, fun _ => ⟨rfl, fun _ => ?_⟩⟩
    rw [hg.node]
    exact hfree

/-- The node that an entry points to, after it has been allocated if there was none. -/
lemma physMapNode_spec (hun : unassigned < 2 ^ 15) (hm : Placed place m)
    (hlp : At place m.physMapNodesNb (h + 1, x) lp)
    (he : EntryOk place m.physMapNodesNb (h + 1, x) (m.get lp)) (hleaf : (m.get lp).isLeaf = false)
    (hroom : m.physMapNodesNb < m.room) :
    ∃ n m₁ place₁, physMapNode unassigned h m lp = some (n, m₁) ∧
      Filled unassigned v place place₁ m m₁ lp (h + 1, x) (fun _ => False) ∧
      m₁.get lp = ⟨false, n⟩ ∧ n < m₁.physMapNodesNb ∧ place₁ n = (h + 1, x) ∧
      m₁.physMapNodesNb ≤ m.physMapNodesNb + 1 := by
  by_cases hnil : (m.get lp).ptr = physMapNodeNil
  · obtain ⟨m₁, hm₁, hg⟩ := physMapNode_grown unassigned h hlp hleaf hnil hroom
    have hroom' : m.physMapNodesNb < physMapNodeNil := hroom.trans_le (min_le_left _ _)
    have hnb := hg.nb
    exact ⟨_, m₁, _, hm₁, filled_grown hun hm hlp hleaf hnil hroom' hg, hg.get, by omega,
      Function.update_self .., by omega⟩
  · have hleaf' : ¬ (m.get lp).isLeaf = true := by simp [hleaf]
    obtain ⟨hlt, hplace⟩ := (he.resolve_left hleaf').2.resolve_left hnil
    refine ⟨(m.get lp).ptr, m, place, if_neg fun h => hnil h.2, filled_refl hm he, ?_, hlt, hplace,
      by omega⟩
    rw [← hleaf]

end Node

/-! ### The loop over the entries -/

/-- The first page of a block -/
def first (h y : ℕ) : ℕ := y * l2Size ^ h

lemma inBlock_first {h y p : ℕ} : InBlock l2Size (h, y) p ↔ first h y ≤ p ∧ p < first h (y + 1) :=
  inBlock_iff l2Size_pos

lemma first_succ (h y : ℕ) : first h (y + 1) = first h y + step h := by
  rw [first, first, step_eq, Nat.add_mul, one_mul]

lemma first_parent (h x : ℕ) : first (h + 1) x = first h (x * l2Size) := by
  rw [first, first, pow_succ]
  ring

lemma first_mono (h : ℕ) {y y' : ℕ} (hy : y ≤ y') : first h y ≤ first h y' :=
  Nat.mul_le_mul_right _ hy

lemma first_next_parent (h x : ℕ) : first (h + 1) (x + 1) = first h (x * l2Size + l2Size) := by
  rw [first_parent, Nat.add_mul, one_mul]

/-- A page of a block at which an aligned part of it starts is its first page. -/
lemma eq_first {h y p : ℕ} (hp : InBlock l2Size (h, y) p) (hmod : p % step h = 0) :
    p = first h y := by
  have hdiv : p / step h = y := step_eq h ▸ hp
  have hsplit := Nat.div_add_mod p (step h)
  rw [hmod, add_zero, hdiv, step_eq, mul_comm] at hsplit
  exact hsplit.symm

/-- A call for the block `(level + 1, x)` may allocate `c` nodes: one for each level if the range starts
with the block or goes on behind it, and else twice as many less one. -/
def Cost (level x index nb c : ℕ) : Prop :=
  2 * level + 1 ≤ c ∨
    level + 1 ≤ c ∧ (index = first (level + 1) x ∨ first (level + 1) (x + 1) ≤ index + nb)

/-- What the loop may still allocate from the `i`-th entry of a node on -/
def EntriesCost (h x i index nb c : ℕ) : Prop :=
  nb = 0 ∨ index = first h (x * l2Size + i) ∧ (h ≤ c ∨ first (h + 1) (x + 1) ≤ index + nb) ∨
    first (h + 1) (x + 1) ≤ index + nb ∧ h ≤ c ∨ 2 * h ≤ c

/-- The result of a call for the block `(h, x)`: its part of the range is mapped, and what is left of
the range starts behind the block. -/
structure Mapped (unassigned leaf : ℕ) (place place' : ℕ → ℕ × ℕ) (m m' : PhysMap) (lp : Loc)
    (h x index nb index' nb' c : ℕ) : Prop where
  filled : Filled unassigned (leaf % 2 ^ 15) place place' m m' lp (h, x)
    fun p => index ≤ p ∧ p < index + nb
  cost : m'.physMapNodesNb ≤ m.physMapNodesNb + c
  rest : index' + nb' = index + nb
  le : index' ≤ first h (x + 1)
  behind : nb' = 0 ∨ index' = first h (x + 1)

/-- What `phys_page_set_level()` does at a level. -/
def LevelSpec (unassigned leaf level : ℕ)
    (f : PhysMap → Loc → ℕ → ℕ → Option (PhysMap × ℕ × ℕ)) : Prop :=
  ∀ ⦃place m lp x index nb c⦄, Placed place m → At place m.physMapNodesNb (level + 1, x) lp →
    EntryOk place m.physMapNodesNb (level + 1, x) (m.get lp) → 0 < nb →
    InBlock l2Size (level + 1, x) index →
    (∀ p, InBlock l2Size (level + 1, x) p → index ≤ p → p < index + nb →
      Free m p (level + 1) (m.get lp)) →
    Cost level x index nb c → m.physMapNodesNb + c ≤ m.room →
    ∃ place' m' index' nb', f m lp index nb = some (m', index', nb') ∧
      Mapped unassigned leaf place place' m m' lp (level + 1) x index nb index' nb' c

section Entries

variable {below : PhysMap → Loc → ℕ → ℕ → Option (PhysMap × ℕ × ℕ)} {h n x i index nb c left : ℕ}

/-- One entry: the loop goes on with the next one. -/
lemma physPageSetEntries_entry (left : ℕ) (hbelow : ∀ k, h = k + 1 → LevelSpec unassigned leaf k below)
    (hm : Placed place m) (hn : n < m.physMapNodesNb) (hplace : place n = (h + 1, x))
    (hi : i < l2Size) (hnb : 0 < nb) (hindex : InBlock l2Size (h, x * l2Size + i) index)
    (hfree : ∀ p, InBlock l2Size (h, x * l2Size + i) p → index ≤ p → p < index + nb →
      Free m p h (m.physMapNodes n i))
    (hcost : EntriesCost h x i index nb c) (hroom : m.physMapNodesNb + c ≤ m.room) :
    ∃ place₁ m₁ index₁ nb₁ c₁,
      physPageSetEntries below leaf h n (left + 1) m i index nb =
          physPageSetEntries below leaf h n left m₁ (i + 1) index₁ nb₁ ∧
        Mapped unassigned leaf place place₁ m m₁ (.entry n i) h (x * l2Size + i) index nb index₁ nb₁
          c₁ ∧
        c₁ ≤ c ∧ EntriesCost h x (i + 1) index₁ nb₁ (c - c₁) := by
  have hat : At place m.physMapNodesNb (h, x * l2Size + i) (.entry n i) :=
    ⟨hn, hi, x, hplace, rfl⟩
  have hbounds := inBlock_first.mp hindex
  have hsucc := first_succ h (x * l2Size + i)
  have hend : first h (x * l2Size + i + 1) ≤ first (h + 1) (x + 1) := by
    rw [first_next_parent]
    exact first_mono h (by omega)
  rw [physPageSetEntries, if_neg hnb.ne']
  by_cases hfull : index % step h = 0 ∧ nb ≥ step h
  · have haligned := eq_first hindex hfull.1
    rw [if_pos hfull]
    refine ⟨place, _, _, _, 0, rfl, ⟨(filled_leaf hm hat).congr fun p hp => ?_, ?_, ?_, ?_, ?_⟩,
      Nat.zero_le c, ?_⟩
    · have := inBlock_first.mp hp
      simp only [true_iff]
      omega
    · exact (physMapNodesNb_set m _ _).le
    · omega
    · omega
    · omega
    · rw [EntriesCost, ← add_assoc]
      refine .inr (.inl ⟨by omega, ?_⟩)
      obtain hcost | ⟨-, hcost⟩ | ⟨hcover, -⟩ | hcost := hcost <;> omega
  · rw [if_neg hfull]
    -- at the lowest level, every page is full
    obtain _ | k := h
    · have hone : step 0 = 1 := by simp [step]
      exact absurd ⟨by rw [hone, Nat.mod_one], by omega⟩ hfull
    have hspec := hbelow k rfl
    have he : EntryOk place m.physMapNodesNb (k + 1, x * l2Size + i) (m.get (.entry n i)) :=
      hm.entries n hn (k + 1) x hplace i hi
    have hpart : index = first (k + 1) (x * l2Size + i) →
        index + nb < first (k + 1) (x * l2Size + i + 1) := by
      intro haligned
      have hmod : index % step (k + 1) = 0 := by
        rw [haligned, first, step_eq]
        exact Nat.mul_mod_left _ _
      have hlt : ¬ nb ≥ step (k + 1) := fun hge => hfull ⟨hmod, hge⟩
      omega
    obtain ⟨c₁, hcost₁, hle, hrest⟩ : ∃ c₁, Cost k (x * l2Size + i) index nb c₁ ∧ c₁ ≤ c ∧
        (k + 1 ≤ c - c₁ ∨ first (k + 1 + 1) (x + 1) ≤ index + nb ∨
          index + nb < first (k + 1) (x * l2Size + i + 1)) := by
      by_cases hcover : first (k + 1) (x * l2Size + i + 1) ≤ index + nb
      · refine ⟨k + 1, .inr ⟨le_refl _, .inr hcover⟩, ?_⟩
        obtain hcost | ⟨haligned, -⟩ | ⟨hcover', hcost⟩ | hcost := hcost
        · omega
        · have := hpart haligned
          omega
        · exact ⟨hcost, .inr (.inl hcover')⟩
        · exact ⟨by omega, .inl (by omega)⟩
      · by_cases haligned : index = first (k + 1) (x * l2Size + i)
        · refine ⟨k + 1, .inr ⟨le_refl _, .inl haligned⟩, ?_, .inr (.inr (by omega))⟩
          obtain hcost | ⟨-, hcost⟩ | ⟨hcover', hcost⟩ | hcost := hcost <;> omega
        · refine ⟨2 * k + 1, .inl (le_refl _), ?_, .inr (.inr (by omega))⟩
          obtain hcost | ⟨haligned', -⟩ | ⟨hcover', hcost⟩ | hcost := hcost
          · omega
          · exact absurd haligned' haligned
          · omega
          · omega
    obtain ⟨place₁, m₁, index₁, nb₁, hcall, hmapped⟩ :=
      hspec hm hat he hnb hindex hfree hcost₁ (by omega)
    have hsum := hmapped.rest
    have hbehind := hmapped.behind
    refine ⟨place₁, m₁, index₁, nb₁, c₁, ?_, hmapped, hle, ?_⟩
    · rw [hcall]
      rfl
    · by_cases hdone : nb₁ = 0
      · exact .inl hdone
      · have hindex₁ := hbehind.resolve_left hdone
        rw [EntriesCost, ← add_assoc]
        refine .inr (.inl ⟨hindex₁, ?_⟩)
        obtain h | h | h := hrest <;> omega

/-- The pages of an entry's node are reached through the entry. -/
lemma free_node {p : ℕ} (hnil : n ≠ physMapNodeNil) :
    Free m p (h + 1) ⟨false, n⟩ ↔ Free m p h (m.physMapNodes n (p / step h % l2Size)) := by
  simp [Free, hnil]

/-- The loop from the `i`-th entry on, by induction on the entries that are left. -/
lemma physPageSetEntries_spec (hbelow : ∀ k, h = k + 1 → LevelSpec unassigned leaf k below)
    (hm : Placed place m) (hn : n < m.physMapNodesNb) (hplace : place n = (h + 1, x))
    (hlp : At place m.physMapNodesNb (h + 1, x) lp) (hget : m.get lp = ⟨false, n⟩)
    (hleft : i + left = l2Size) (hle : index ≤ first (h + 1) (x + 1))
    (hindex : nb = 0 ∨ index = first h (x * l2Size + i) ∨
      0 < left ∧ InBlock l2Size (h, x * l2Size + i) index)
    (hfree : ∀ p, InBlock l2Size (h + 1, x) p → index ≤ p → p < index + nb →
      Free m p (h + 1) (m.get lp))
    (hcost : EntriesCost h x i index nb c) (hroom : m.physMapNodesNb + c ≤ m.room) :
    ∃ place' m' index' nb',
      physPageSetEntries below leaf h n left m i index nb = some (m', index', nb') ∧
        Mapped unassigned leaf place place' m m' lp (h + 1) x index nb index' nb' c := by
  induction left generalizing place m i index nb c with
  | zero =>
    have hend : nb = 0 ∨ index = first (h + 1) (x + 1) := by
      obtain hnb | haligned | ⟨hpos, -⟩ := hindex
      · exact .inl hnb
      · rw [add_zero] at hleft
        rw [hleft] at haligned
        rw [first_next_parent]
        exact .inr haligned
      · exact absurd hpos (lt_irrefl 0)
    have he : EntryOk place m.physMapNodesNb (h + 1, x) (m.get lp) := by
      rw [hget]
      exact .inr ⟨Nat.succ_pos h, .inr ⟨hn, hplace⟩⟩
    refine ⟨place, m, index, nb, rfl, (filled_refl hm he).congr fun p hp => ?_, by omega, rfl, hle,
      hend⟩
    have hp' := inBlock_first.mp hp
    simp only [false_iff]
    omega
  | succ left ih =>
    by_cases hnb : nb = 0
    · have he : EntryOk place m.physMapNodesNb (h + 1, x) (m.get lp) := by
        rw [hget]
        exact .inr ⟨Nat.succ_pos h, .inr ⟨hn, hplace⟩⟩
      refine ⟨place, m, index, nb, if_pos hnb, (filled_refl hm he).congr fun p _ => ?_, by omega, rfl,
        hle, .inl hnb⟩
      simp only [false_iff]
      omega
    have hi : i < l2Size := by omega
    have hpos := step_pos h
    have hsucc := first_succ h (x * l2Size + i)
    have hblock : InBlock l2Size (h, x * l2Size + i) index := by
      obtain hzero | haligned | ⟨-, hblock⟩ := hindex
      · exact absurd hzero hnb
      · exact inBlock_first.mpr (by omega)
      · exact hblock
    have hbounds := inBlock_first.mp hblock
    have hnil : n ≠ physMapNodeNil := by
      have := hm.nb_le
      omega
    have hentry : ∀ p, InBlock l2Size (h, x * l2Size + i) p → index ≤ p → p < index + nb →
        Free m p h (m.physMapNodes n i) := by
      intro p hp hlo hhi
      have hf := hfree p (inBlock_parent hi hp) hlo hhi
      rwa [hget, free_node hnil, step_eq, digit_of_inBlock hi hp] at hf
    obtain ⟨place₁, m₁, index₁, nb₁, c₁, hstep, hmapped, hc₁, hcost₁⟩ :=
      physPageSetEntries_entry left hbelow hm hn hplace hi (Nat.pos_of_ne_zero hnb) hblock hentry
        hcost hroom
    have hsum := hmapped.rest
    have hle₁ := hmapped.le
    have hbehind := hmapped.behind
    have hnode := hmapped.cost
    have hf := hmapped.filled
    have hlift := hf.lift hm hn hplace hi hlp hget
    have hend : first h (x * l2Size + i + 1) ≤ first (h + 1) (x + 1) := by
      rw [first_next_parent]
      exact first_mono h (by omega)
    have hget₁ : m₁.get lp = ⟨false, n⟩ :=
      (get_of_frame hf hlp (fun d hd => hd.parent hi) (hplace ▸ within_refl _)).trans hget
    have hroom₁ : m₁.room = m.room := by
      rw [PhysMap.room, PhysMap.room, hf.alloc]
    have hfree₁ : ∀ p, InBlock l2Size (h + 1, x) p → index₁ ≤ p → p < index₁ + nb₁ →
        Free m₁ p (h + 1) (m₁.get lp) := by
      intro p hp hlo hhi
      have hindex₁ := hbehind.resolve_left (by omega)
      refine (hlift.kept p hp fun hin => ?_).2 (hfree p hp (by omega) (by omega))
      have := inBlock_first.mp hin.1
      omega
    have hindex₁ : nb₁ = 0 ∨ index₁ = first h (x * l2Size + (i + 1)) ∨
        0 < left ∧ InBlock l2Size (h, x * l2Size + (i + 1)) index₁ := by
      rw [← add_assoc]
      exact hbehind.imp_right .inl
    obtain ⟨place', m', index', nb', hloop, hrest⟩ :=
      ih hf.placed (hn.trans_le hf.nb_le) ((hf.place_eq n hn).trans hplace)
        (hlp.mono hf.nb_le hf.place_eq) hget₁ (by omega) (by omega) hindex₁ hfree₁ hcost₁ (by omega)
    refine ⟨place', m', index', nb', hstep.trans hloop,
      (hlift.trans hrest.filled).congr fun p hp => ?_, ?_, ?_, hrest.le, hrest.behind⟩
    · have hiff := inBlock_first (h := h) (y := x * l2Size + i) (p := p)
      constructor
      · rintro (⟨-, hin⟩ | hin)
        · exact hin
        · have hindex₁ := hbehind.resolve_left (by omega)
          omega
      · intro hin
        by_cases hpart : p < first h (x * l2Size + i + 1)
        · exact .inl ⟨hiff.mpr (by omega), hin⟩
        · obtain hdone | hindex₁ := hbehind <;> exact .inr (by omega)
    · have := hrest.cost
      omega
    · have := hrest.rest
      omega

/-- One level, from what the level below does. -/
lemma physPageSetNode_spec (hun : unassigned < 2 ^ 15)
    (hbelow : ∀ k, h = k + 1 → LevelSpec unassigned leaf k below) :
    LevelSpec unassigned leaf h (physPageSetNode below unassigned leaf h) := by
  intro place m lp x index nb c hm hlp he hnb hindex hfree hcost hroom
  have hbounds := inBlock_first.mp hindex
  have hleaf : (m.get lp).isLeaf = false := (hfree index hindex (le_refl _) (by omega)).1
  have hc : 1 ≤ c := by
    obtain hcost | ⟨hcost, -⟩ := hcost <;> omega
  obtain ⟨n, m₁, place₁, hnode, hf, hget, hn, hplace, hnb₁⟩ :=
    physMapNode_spec (v := leaf % 2 ^ 15) hun hm hlp he hleaf (by omega)
  have hroom₁ : m₁.room = m.room := by
    rw [PhysMap.room, PhysMap.room, hf.alloc]
  have hi : index / step h % l2Size < l2Size := Nat.mod_lt _ l2Size_pos
  have hdigit : InBlock l2Size (h, x * l2Size + index / step h % l2Size) index := by
    rw [step_eq]
    exact inBlock_digit hindex
  have hcost₁ : EntriesCost h x (index / step h % l2Size) index nb (c - 1) := by
    obtain hcost | ⟨hcost, hstart | hcover⟩ := hcost
    · exact .inr (.inr (.inr (by omega)))
    · refine .inr (.inl ⟨eq_first hdigit ?_, .inl (by omega)⟩)
      rw [hstart, first_parent, first, step_eq]
      exact Nat.mul_mod_left _ _
    · exact .inr (.inr (.inl ⟨hcover, by omega⟩))
  have hfree₁ : ∀ p, InBlock l2Size (h + 1, x) p → index ≤ p → p < index + nb →
      Free m₁ p (h + 1) (m₁.get lp) :=
    fun p hp hlo hhi => (hf.kept p hp id).2 (hfree p hp hlo hhi)
  have hleft : index / step h % l2Size + (l2Size - index / step h % l2Size) = l2Size := by omega
  obtain ⟨place', m', index', nb', hloop, hrest⟩ :=
    physPageSetEntries_spec hbelow hf.placed hn hplace (hlp.mono hf.nb_le hf.place_eq) hget hleft
      hbounds.2.le (.inr (.inr ⟨by omega, hdigit⟩)) hfree₁ hcost₁ (by omega)
  refine ⟨place', m', index', nb', ?_, (hf.trans hrest.filled).congr fun p _ => ?_, ?_, hrest.rest,
    hrest.le, hrest.behind⟩
  · rw [physPageSetNode, hnode]
    exact hloop
  · simp only [false_or]
  · have := hrest.cost
    omega

end Entries

/-- Every level does as it should, by induction on the levels below. -/
lemma physPageSetLevel_spec (hun : unassigned < 2 ^ 15) (leaf level : ℕ) :
    LevelSpec unassigned leaf level (physPageSetLevel unassigned leaf level) := by
  induction level with
  | zero => exact physPageSetNode_spec hun fun k hk => absurd hk.symm (Nat.succ_ne_zero k)
  | succ level ih =>
    refine physPageSetNode_spec hun fun k hk => ?_
    obtain rfl : level = k := by omega
    exact ih

/-! ### The map -/

/-- The map has the section `f p` for the page `p`, or no section where `f` has none. -/
structure Represents (levels unassigned : ℕ) (m : PhysMap) (f : ℕ → Option ℕ) : Prop where
  placed : ∃ place, Placed place m ∧ EntryOk place m.physMapNodesNb (levels, 0) m.physMap
  found : ∀ p < l2Size ^ levels, physPageFind levels unassigned m p = (f p).getD unassigned
  free : ∀ p < l2Size ^ levels, f p = none → Free m p levels m.physMap

section Map

variable {levels index nb : ℕ} {f g : ℕ → Option ℕ}

lemma inBlock_root {p : ℕ} : InBlock l2Size (levels, 0) p ↔ p < l2Size ^ levels := by
  rw [inBlock_iff l2Size_pos]
  simp

lemma Represents.congr (h : Represents levels unassigned m f)
    (hfg : ∀ p < l2Size ^ levels, f p = g p) : Represents levels unassigned m g :=
  ⟨h.placed, fun p hp => hfg p hp ▸ h.found p hp, fun p hp hg => h.free p hp ((hfg p hp).trans hg)⟩

lemma represents_reset (hlevels : 0 < levels) :
    Represents levels unassigned (physMapNodesReset m) fun _ => none := by
  obtain ⟨levels, rfl⟩ : ∃ k, levels = k + 1 := ⟨levels - 1, by omega⟩
  refine ⟨⟨fun _ => (0, 0), ⟨Nat.zero_le _, fun n hn => ?_, fun n hn => ?_⟩, ?_⟩, fun p _ => ?_,
    fun p _ _ => ?_⟩
  · exact absurd hn (Nat.not_lt_zero n)
  · exact absurd hn (Nat.not_lt_zero n)
  · exact .inr ⟨hlevels, .inl rfl⟩
  · rfl
  · exact ⟨rfl, fun hne => absurd rfl hne⟩

/-- The nodes that a call of `phys_page_set()` needs are reserved. -/
lemma room_physMapNodeReserve (m : PhysMap) (nodes : ℕ) :
    min physMapNodeNil (m.physMapNodesNb + nodes) ≤ (physMapNodeReserve m nodes).room := by
  rw [physMapNodeReserve, PhysMap.room]
  by_cases hgrow : m.physMapNodesNb + nodes > m.physMapNodesNbAlloc
  · rw [if_pos hgrow]
    dsimp only
    omega
  · rw [if_neg hgrow]
    omega

lemma physMapNodeReserve_fields (m : PhysMap) (nodes : ℕ) :
    (physMapNodeReserve m nodes).physMap = m.physMap ∧
      (physMapNodeReserve m nodes).physMapNodes = m.physMapNodes ∧
      (physMapNodeReserve m nodes).physMapNodesNb = m.physMapNodesNb := by
  rw [physMapNodeReserve]
  split_ifs <;> exact ⟨rfl, rfl, rfl⟩

lemma Represents.reserve (h : Represents levels unassigned m f) (nodes : ℕ) :
    Represents levels unassigned (physMapNodeReserve m nodes) f := by
  obtain ⟨hroot, hnodes, hnb⟩ := physMapNodeReserve_fields m nodes
  obtain ⟨⟨place, hm, he⟩, hfound, hfree⟩ := h
  have hplaced : Placed place (physMapNodeReserve m nodes) := by
    refine ⟨?_, ?_, ?_⟩
    · rw [hnb]
      exact hm.nb_le
    · rw [hnb, hnodes]
      exact hm.entries
    · rw [hnb]
      exact hm.height
  have hsame : ∀ p < l2Size ^ levels,
      physPageFindFrom unassigned (physMapNodeReserve m nodes) p levels m.physMap =
          physPageFindFrom unassigned m p levels m.physMap ∧
        (Free (physMapNodeReserve m nodes) p levels m.physMap ↔ Free m p levels m.physMap) :=
    fun p hp => find_congr unassigned hm he (inBlock_root.mpr hp) fun n _ _ _ i => by rw [hnodes]
  refine ⟨⟨place, hplaced, ?_⟩, fun p hp => ?_, fun p hp hf => ?_⟩
  · rwa [hroot, hnb]
  · rw [physPageFind, hroot, (hsame p hp).1]
    exact hfound p hp
  · rw [hroot]
    exact (hsame p hp).2.mpr (hfree p hp hf)

/-- `phys_page_set()` returns and maps the range to its section, if no page of it has one. -/
lemma Represents.physPageSet (hun : unassigned < 2 ^ 15) (hlevels : 0 < levels)
    (h : Represents levels unassigned m f) (hnb : 0 < nb) (hend : index + nb ≤ l2Size ^ levels)
    (hnone : ∀ p, index ≤ p → p < index + nb → f p = none)
    (hroom : m.physMapNodesNb + (2 * levels - 1) ≤ physMapNodeNil) :
    ∃ m', physPageSet levels unassigned m index nb leaf = some m' ∧
      m'.physMapNodesNb ≤ m.physMapNodesNb + (2 * levels - 1) ∧
      Represents levels unassigned m' fun p =>
        if index ≤ p ∧ p < index + nb then some (leaf % 2 ^ 15) else f p := by
  obtain ⟨level, rfl⟩ : ∃ k, levels = k + 1 := ⟨levels - 1, by omega⟩
  obtain ⟨⟨place, hm, he⟩, hfound, hfree⟩ := h.reserve (3 * (level + 1))
  have hroom' := room_physMapNodeReserve m (3 * (level + 1))
  obtain ⟨-, -, hnb'⟩ := physMapNodeReserve_fields m (3 * (level + 1))
  have hat : At place (physMapNodeReserve m (3 * (level + 1))).physMapNodesNb (level + 1, 0) .root :=
    trivial
  have hindex : InBlock l2Size (level + 1, 0) index := inBlock_root.mpr (by omega)
  have hcost : Cost level 0 index nb (2 * level + 1) := .inl (le_refl _)
  obtain ⟨place', m', index', nb', hset, hmapped⟩ :=
    physPageSetLevel_spec hun leaf level hm hat he hnb hindex
      (fun p hp hlo hhi => hfree p (inBlock_root.mp hp) (hnone p hlo hhi)) hcost (by omega)
  have hf := hmapped.filled
  refine ⟨m', ?_, ?_, ⟨place', hf.placed, hf.entry⟩, fun p hp => ?_, fun p hp hnone' => ?_⟩
  · rw [Pages.physPageSet]
    dsimp only
    rw [Nat.add_sub_cancel, hset]
    rfl
  · have := hmapped.cost
    omega
  · by_cases hin : index ≤ p ∧ p < index + nb
    · rw [if_pos hin]
      exact hf.found p (inBlock_root.mpr hp) hin
    · rw [if_neg hin, ← hfound p hp]
      exact (hf.kept p (inBlock_root.mpr hp) hin).1
  · by_cases hin : index ≤ p ∧ p < index + nb
    · rw [if_pos hin] at hnone'
      cases hnone'
    · rw [if_neg hin] at hnone'
      exact (hf.kept p (inBlock_root.mpr hp) hin).2 (hfree p hp hnone')

end Map

end Limbo.Pages
