import Mathlib

/-!
# Sorted segments

A map from addresses to tags that is constant on stretches of addresses is kept as a list of
segments. Where segments overlap, the first one of the list that covers an address decides. `fill`
puts a new segment under the ones that are there, `paint` does so for a whole list, and `mergeFrom`
joins neighbours. A sorted list in which no two neighbours can be joined is determined by its map.
-/

namespace Limbo.Lib

/-- The addresses from `start` on and before `stop`. -/
structure Segment (γ : Type*) where
  start : ℤ
  stop : ℤ
  tag : γ
deriving DecidableEq, Repr

namespace Segment

variable {γ δ : Type*}

def Covers (s : Segment γ) (a : ℤ) : Prop := s.start ≤ a ∧ a < s.stop

instance (s : Segment γ) (a : ℤ) : Decidable (s.Covers a) := inferInstanceAs (Decidable (_ ∧ _))

def mapTag (f : γ → δ) (s : Segment γ) : Segment δ := ⟨s.start, s.stop, f s.tag⟩

@[simp] lemma start_mapTag (f : γ → δ) (s : Segment γ) : (s.mapTag f).start = s.start := rfl

@[simp] lemma stop_mapTag (f : γ → δ) (s : Segment γ) : (s.mapTag f).stop = s.stop := rfl

@[simp] lemma tag_mapTag (f : γ → δ) (s : Segment γ) : (s.mapTag f).tag = f s.tag := rfl

/-- The tag of the first segment that covers an address. -/
def tagAt (l : List (Segment γ)) (a : ℤ) : Option γ :=
  (l.find? fun s => s.Covers a).map tag

@[simp] lemma tagAt_nil (a : ℤ) : tagAt ([] : List (Segment γ)) a = none := rfl

lemma tagAt_cons (s : Segment γ) (l : List (Segment γ)) (a : ℤ) :
    tagAt (s :: l) a = if s.Covers a then some s.tag else tagAt l a := by
  by_cases h : s.Covers a <;> simp [tagAt, h]

lemma tagAt_append (l m : List (Segment γ)) (a : ℤ) :
    tagAt (l ++ m) a = (tagAt l a).or (tagAt m a) := by
  induction l with
  | nil => simp
  | cons s l ih =>
    rw [List.cons_append, tagAt_cons, tagAt_cons, ih]
    split_ifs <;> simp

lemma tagAt_flatMap {α : Type*} (f : α → List (Segment γ)) (l : List α) (a : ℤ) :
    tagAt (l.flatMap f) a = l.findSome? fun x => tagAt (f x) a := by
  induction l with
  | nil => rfl
  | cons x l ih =>
    rw [List.flatMap_cons, tagAt_append, ih, List.findSome?_cons]
    cases tagAt (f x) a <;> rfl

lemma tagAt_map (f : γ → δ) (l : List (Segment γ)) (a : ℤ) :
    tagAt (l.map (mapTag f)) a = (tagAt l a).map f := by
  induction l with
  | nil => rfl
  | cons s l ih =>
    rw [List.map_cons, tagAt_cons, tagAt_cons, ih]
    by_cases h : s.Covers a
    · rw [if_pos h, if_pos (show (s.mapTag f).Covers a from h)]
      rfl
    · rw [if_neg h, if_neg (show ¬ (s.mapTag f).Covers a from h)]

lemma exists_of_tagAt {l : List (Segment γ)} {a : ℤ} {c : γ} (h : tagAt l a = some c) :
    ∃ s ∈ l, s.Covers a ∧ s.tag = c := by
  obtain ⟨s, hs, hc⟩ := Option.map_eq_some_iff.mp h
  exact ⟨s, List.mem_of_find?_eq_some hs, by simpa using List.find?_some hs, hc⟩

lemma tagAt_eq_none {l : List (Segment γ)} {a : ℤ} : tagAt l a = none ↔ ∀ s ∈ l, ¬ s.Covers a := by
  simp [tagAt, List.find?_eq_none]

/-! ### Sorted lists -/

/-- The segments are in order of address, none is empty and no two have an address in common. -/
structure Sorted (l : List (Segment γ)) : Prop where
  nonempty : ∀ s ∈ l, s.start < s.stop
  ordered : l.Pairwise fun s t => s.stop ≤ t.start

instance (l : List (Segment γ)) : Decidable (Sorted l) :=
  decidable_of_iff ((∀ s ∈ l, s.start < s.stop) ∧ l.Pairwise fun s t => s.stop ≤ t.start)
    ⟨fun h => ⟨h.1, h.2⟩, fun h => ⟨h.nonempty, h.ordered⟩⟩

lemma sorted_nil : Sorted ([] : List (Segment γ)) := ⟨by simp, .nil⟩

lemma sorted_cons {s : Segment γ} {l : List (Segment γ)} :
    Sorted (s :: l) ↔ s.start < s.stop ∧ (∀ t ∈ l, s.stop ≤ t.start) ∧ Sorted l := by
  constructor
  · intro h
    obtain ⟨hs, hl⟩ := List.forall_mem_cons.mp h.nonempty
    obtain ⟨hst, hp⟩ := List.pairwise_cons.mp h.ordered
    exact ⟨hs, hst, hl, hp⟩
  · rintro ⟨hs, hst, hl, hp⟩
    exact ⟨List.forall_mem_cons.mpr ⟨hs, hl⟩, List.pairwise_cons.mpr ⟨hst, hp⟩⟩

lemma Sorted.tail {s : Segment γ} {l : List (Segment γ)} (h : Sorted (s :: l)) : Sorted l :=
  (sorted_cons.mp h).2.2

lemma Sorted.of_sublist {l m : List (Segment γ)} (h : Sorted m) (hl : l.Sublist m) : Sorted l :=
  ⟨fun s hs => h.nonempty s (hl.subset hs), h.ordered.sublist hl⟩

lemma sorted_map {f : γ → δ} {l : List (Segment γ)} : Sorted (l.map (mapTag f)) ↔ Sorted l := by
  constructor
  · rintro ⟨hn, ho⟩
    refine ⟨fun s hs => hn _ (List.mem_map_of_mem hs), ?_⟩
    simpa [List.pairwise_map] using ho
  · rintro ⟨hn, ho⟩
    refine ⟨?_, ?_⟩
    · simpa using hn
    · simpa [List.pairwise_map] using ho

/-- An address has at most one segment of a sorted list. -/
lemma Sorted.eq_of_covers {l : List (Segment γ)} {s t : Segment γ} {a : ℤ} (h : Sorted l)
    (hs : s ∈ l) (ht : t ∈ l) (hsa : s.Covers a) (hta : t.Covers a) : s = t := by
  induction l with
  | nil => cases hs
  | cons u l ih =>
    obtain ⟨-, hul, hl⟩ := sorted_cons.mp h
    obtain ⟨hsa₁, hsa₂⟩ := hsa
    obtain ⟨hta₁, hta₂⟩ := hta
    obtain rfl | hsl := List.mem_cons.mp hs
    · obtain rfl | htl := List.mem_cons.mp ht
      · rfl
      · have := hul t htl
        omega
    · obtain rfl | htl := List.mem_cons.mp ht
      · have := hul s hsl
        omega
      · exact ih hl hsl htl

lemma Sorted.tagAt_of_mem {l : List (Segment γ)} {s : Segment γ} {a : ℤ} (h : Sorted l)
    (hs : s ∈ l) (ha : s.Covers a) : tagAt l a = some s.tag := by
  cases hfind : tagAt l a with
  | none => exact absurd ha (tagAt_eq_none.mp hfind s hs)
  | some c =>
    obtain ⟨t, ht, hta, rfl⟩ := exists_of_tagAt hfind
    rw [h.eq_of_covers hs ht ha hta]

/-! ### Filling in a segment -/

/-- The addresses from `b` on and before `e` get the tag `c` where no segment of a sorted list covers
them. A segment that `b` lies strictly inside of is passed over as if it ended before `b`. -/
def fill (c : γ) : List (Segment γ) → ℤ → ℤ → List (Segment γ)
  | [], b, e => if b = e then [] else [⟨b, e, c⟩]
  | s :: l, b, e =>
    if b = e then s :: l
    else if s.stop ≤ b ∨ s.start < b then s :: fill c l b e
    else if b < s.start then ⟨b, min e s.start, c⟩ :: s :: fill c l (min e s.stop) e
    else s :: fill c l (min e s.stop) e

lemma fill_self (c : γ) (l : List (Segment γ)) (b : ℤ) : fill c l b b = l := by
  cases l <;> simp [fill]

lemma fill_map (f : γ → δ) (c : γ) (l : List (Segment γ)) (b e : ℤ) :
    fill (f c) (l.map (mapTag f)) b e = (fill c l b e).map (mapTag f) := by
  induction l generalizing b with
  | nil =>
    rw [List.map_nil, fill, fill]
    split_ifs <;> rfl
  | cons s l ih =>
    rw [List.map_cons, fill, fill, start_mapTag, stop_mapTag]
    split_ifs <;> simp [ih, mapTag]

/-- No segment starts before `b` and goes on behind it. -/
def Clear (l : List (Segment γ)) (b : ℤ) : Prop := ∀ s ∈ l, ¬ (s.start < b ∧ b < s.stop)

section Fill

variable {c : γ} {l : List (Segment γ)} {b e : ℤ}

/-- What is filled in lies between `b` and `e`. -/
lemma mem_fill {t : Segment γ} (hbe : b ≤ e) (hl : ∀ s ∈ l, s.start < s.stop)
    (h : t ∈ fill c l b e) :
    t ∈ l ∨ t.tag = c ∧ b ≤ t.start ∧ t.start < t.stop ∧ t.stop ≤ e := by
  induction l generalizing b with
  | nil =>
    rw [fill] at h
    split_ifs at h with hb
    · cases h
    · obtain rfl := List.mem_singleton.mp h
      exact .inr ⟨rfl, le_rfl, by dsimp only; omega, le_rfl⟩
  | cons s l ih =>
    obtain ⟨hs, hl⟩ := List.forall_mem_cons.mp hl
    have hrest : ∀ b', b ≤ b' → b' ≤ e → t ∈ fill c l b' e →
        t ∈ s :: l ∨ t.tag = c ∧ b ≤ t.start ∧ t.start < t.stop ∧ t.stop ≤ e := by
      intro b' hb hb' ht
      obtain ht | ⟨h₁, h₂, h₃⟩ := ih hb' hl ht
      · exact .inl (List.mem_cons_of_mem _ ht)
      · exact .inr ⟨h₁, hb.trans h₂, h₃⟩
    rw [fill] at h
    split_ifs at h with hb hskip hgap
    · exact .inl h
    · obtain rfl | h := List.mem_cons.mp h
      · exact .inl List.mem_cons_self
      · exact hrest b le_rfl hbe h
    · obtain rfl | h := List.mem_cons.mp h
      · exact .inr ⟨rfl, le_rfl, by dsimp only; omega, by dsimp only; omega⟩
      · obtain rfl | h := List.mem_cons.mp h
        · exact .inl List.mem_cons_self
        · exact hrest _ (by omega) (by omega) h
    · obtain rfl | h := List.mem_cons.mp h
      · exact .inl List.mem_cons_self
      · exact hrest _ (by omega) (by omega) h

/-- The segments that are there stay as they are. -/
lemma sublist_fill (c : γ) (l : List (Segment γ)) (b e : ℤ) : l.Sublist (fill c l b e) := by
  induction l generalizing b with
  | nil => exact List.nil_sublist _
  | cons s l ih =>
    rw [fill]
    split_ifs
    · exact List.Sublist.refl _
    · exact (ih b).cons_cons s
    · exact ((ih _).cons_cons s).cons _
    · exact (ih _).cons_cons s

lemma Sorted.clear_tail {s : Segment γ} (h : Sorted (s :: l)) {b : ℤ} (hb : b ≤ s.stop) :
    Clear l b := by
  obtain ⟨-, hsl, -⟩ := sorted_cons.mp h
  intro t ht hin
  have := hsl t ht
  omega

lemma Sorted.fill (h : Sorted l) (hbe : b ≤ e) (hc : Clear l b) : Sorted (fill c l b e) := by
  induction l generalizing b with
  | nil =>
    rw [Segment.fill]
    split_ifs with hb
    · exact sorted_nil
    · exact sorted_cons.mpr ⟨by dsimp only; omega, by simp, sorted_nil⟩
  | cons s l ih =>
    obtain ⟨hs, hsl, hl⟩ := sorted_cons.mp h
    obtain ⟨hcs, hcl⟩ := List.forall_mem_cons.mp hc
    have hrest : s.start ≤ e → Sorted (s :: Segment.fill c l (min e s.stop) e) := by
      intro hse
      have hbelow : ∀ t ∈ Segment.fill c l (min e s.stop) e, s.stop ≤ t.start := by
        intro t ht
        obtain ht | ⟨-, h₁, h₂, h₃⟩ := mem_fill (by omega) hl.nonempty ht
        · exact hsl t ht
        · omega
      exact sorted_cons.mpr ⟨hs, hbelow, ih hl (by omega) (h.clear_tail (by omega))⟩
    have hfrom : e < s.start → Sorted (s :: Segment.fill c l (min e s.stop) e) := by
      intro hse
      rw [min_eq_left (by omega), fill_self]
      exact h
    rw [Segment.fill]
    split_ifs with hb hskip hgap
    · exact h
    · refine sorted_cons.mpr ⟨hs, fun t ht => ?_, ih hl hbe hcl⟩
      obtain ht | ⟨-, h₁, -, -⟩ := mem_fill hbe hl.nonempty ht
      · exact hsl t ht
      · omega
    · have htail : Sorted (s :: Segment.fill c l (min e s.stop) e) := by
        by_cases hse : s.start ≤ e
        · exact hrest hse
        · exact hfrom (by omega)
      have hstart := (sorted_cons.mp htail).2.1
      refine sorted_cons.mpr ⟨by dsimp only; omega, fun t ht => ?_, htail⟩
      obtain rfl | ht := List.mem_cons.mp ht
      · exact min_le_right _ _
      · have := hstart t ht
        dsimp only
        omega
    · exact hrest (by omega)

lemma Sorted.tagAt_tail_eq_none {s : Segment γ} {a : ℤ} (h : Sorted (s :: l)) (ha : a < s.stop) :
    tagAt l a = none := by
  obtain ⟨-, hsl, -⟩ := sorted_cons.mp h
  refine tagAt_eq_none.mpr fun t ht hcov => ?_
  have := hsl t ht
  have := hcov.1
  omega

/-- Filling in changes no address that has a tag, and gives `c` to the others between `b` and `e`. -/
lemma tagAt_fill (h : Sorted l) (hbe : b ≤ e) (hc : Clear l b) (a : ℤ) :
    tagAt (fill c l b e) a = (tagAt l a).or (if b ≤ a ∧ a < e then some c else none) := by
  induction l generalizing b with
  | nil =>
    rw [fill]
    split_ifs with hb ha ha
    · omega
    · rfl
    · simp [tagAt_cons, Covers, ha]
    · simp [tagAt_cons, Covers, ha]
  | cons s l ih =>
    obtain ⟨hs, hsl, hl⟩ := sorted_cons.mp h
    obtain ⟨hcs, hcl⟩ := List.forall_mem_cons.mp hc
    have hrest : ¬ s.Covers a → (a < b ∨ s.start ≤ a ∨ e ≤ a) → b < s.stop →
        tagAt (fill c l (min e s.stop) e) a =
          (tagAt l a).or (if b ≤ a ∧ a < e then some c else none) := by
      intro hcov ha hbs
      rw [ih hl (by omega) (h.clear_tail (by omega))]
      rw [Covers] at hcov
      congr 1
      split_ifs <;> first | rfl | omega
    rw [fill]
    by_cases hb : b = e
    · rw [if_pos hb, if_neg (by omega), Option.or_none]
    by_cases hskip : s.stop ≤ b ∨ s.start < b
    · rw [if_neg hb, if_pos hskip, tagAt_cons, tagAt_cons, ih hl hbe hcl]
      split_ifs <;> rfl
    rw [if_neg hb, if_neg hskip]
    by_cases hgap : b < s.start
    · rw [if_pos hgap, tagAt_cons, tagAt_cons, tagAt_cons]
      by_cases hin : Covers ⟨b, min e s.start, c⟩ a
      · have hin' : b ≤ a ∧ a < min e s.start := hin
        have hcov : ¬ s.Covers a := fun hcov => by
          have := hcov.1
          omega
        rw [if_pos hin, if_neg hcov, h.tagAt_tail_eq_none (by omega), if_pos (by omega)]
        rfl
      · have hin' : ¬ (b ≤ a ∧ a < min e s.start) := hin
        rw [if_neg hin]
        by_cases hcov : s.Covers a
        · rw [if_pos hcov, if_pos hcov]
          rfl
        · rw [if_neg hcov, if_neg hcov]
          exact hrest hcov (by omega) (by omega)
    · rw [if_neg hgap, tagAt_cons, tagAt_cons]
      by_cases hcov : s.Covers a
      · rw [if_pos hcov, if_pos hcov]
        rfl
      · rw [if_neg hcov, if_neg hcov]
        exact hrest hcov (by omega) (by omega)

lemma exists_start_fill_of_lt (hl : Sorted l) (hbe : b < e) (hbl : ∀ s ∈ l, b < s.start) :
    ∃ t ∈ fill c l b e, t.Covers b ∧ t.start = b := by
  cases l with
  | nil =>
    rw [fill, if_neg hbe.ne]
    exact ⟨_, List.mem_singleton_self _, ⟨le_rfl, hbe⟩, rfl⟩
  | cons s l =>
    have hbs := hbl s List.mem_cons_self
    have hs := hl.nonempty s List.mem_cons_self
    rw [fill, if_neg hbe.ne, if_neg (by omega), if_pos hbs]
    exact ⟨_, List.mem_cons_self, ⟨le_rfl, lt_min hbe hbs⟩, rfl⟩

lemma exists_start_fill {s : Segment γ} (hl : Sorted l) (hbe : b < e) (hs : s ∈ l)
    (hsb : s.start < b) (hbs : b < s.stop) : ∃ t ∈ fill c l b e, t.Covers b ∧ t.start = b := by
  induction l with
  | nil => cases hs
  | cons u l ih =>
    obtain ⟨-, hul, hsorted⟩ := sorted_cons.mp hl
    obtain rfl | hs := List.mem_cons.mp hs
    · obtain ⟨t, ht, hcov⟩ :=
        exists_start_fill_of_lt (c := c) hsorted hbe fun u hu => hbs.trans_le (hul u hu)
      rw [fill, if_neg hbe.ne, if_pos (.inr hsb)]
      exact ⟨t, List.mem_cons_of_mem _ ht, hcov⟩
    · obtain ⟨t, ht, hcov⟩ := ih hsorted hs
      rw [fill, if_neg hbe.ne, if_pos (.inl ((hul s hs).trans hsb.le))]
      exact ⟨t, List.mem_cons_of_mem _ ht, hcov⟩

/-- A segment that `b` lies strictly inside of ends up below another one that starts at `b`. -/
lemma not_sorted_fill (hl : Sorted l) (hbe : b < e) (hc : ¬ Clear l b) : ¬ Sorted (fill c l b e) := by
  obtain ⟨t, ht, htb, hts⟩ : ∃ t ∈ fill c l b e, t.Covers b ∧ t.start = b := by
    simp only [Clear, not_forall, not_not] at hc
    obtain ⟨s, hs, hsb, hbs⟩ := hc
    exact exists_start_fill hl hbe hs hsb hbs
  intro hsorted
  simp only [Clear, not_forall, not_not] at hc
  obtain ⟨s, hs, hsb, hbs⟩ := hc
  have hst := hsorted.eq_of_covers ((sublist_fill c l b e).subset hs) ht ⟨hsb.le, hbs⟩ htb
  rw [hst, hts] at hsb
  exact lt_irrefl b hsb

end Fill

/-! ### Segments that cannot be joined -/

/-- No segment goes on with the same tag where another one of the list ends. -/
def Separated (l : List (Segment γ)) : Prop :=
  l.Pairwise fun s t => s.stop = t.start → s.tag ≠ t.tag

lemma separated_cons {s : Segment γ} {l : List (Segment γ)} :
    Separated (s :: l) ↔ (∀ t ∈ l, s.stop = t.start → s.tag ≠ t.tag) ∧ Separated l :=
  List.pairwise_cons

/-- What is filled in is separated by the segments between which it is. -/
lemma Separated.fill {c : γ} {l : List (Segment γ)} {b e : ℤ} (hl : Separated l) (h : Sorted l)
    (hbe : b ≤ e) (hfresh : ∀ s ∈ l, s.tag ≠ c) : Separated (Segment.fill c l b e) := by
  induction l generalizing b with
  | nil =>
    rw [Segment.fill]
    split_ifs
    · exact .nil
    · exact List.pairwise_singleton _ _
  | cons s l ih =>
    obtain ⟨hs, hsl, hsorted⟩ := sorted_cons.mp h
    obtain ⟨hsep, hl⟩ := separated_cons.mp hl
    obtain ⟨hcs, hfresh⟩ := List.forall_mem_cons.mp hfresh
    have hcons : ∀ b' ≤ e, Separated (s :: Segment.fill c l b' e) := by
      intro b' hb'
      refine separated_cons.mpr ⟨fun t ht => ?_, ih hl hsorted hb' hfresh⟩
      obtain ht | ⟨htag, -⟩ := mem_fill hb' hsorted.nonempty ht
      · exact hsep t ht
      · exact fun _ => htag ▸ hcs
    rw [Segment.fill]
    split_ifs with hb hskip hgap
    · exact separated_cons.mpr ⟨hsep, hl⟩
    · exact hcons b hbe
    · refine separated_cons.mpr ⟨fun t ht => ?_, hcons _ (min_le_left _ _)⟩
      obtain rfl | ht := List.mem_cons.mp ht
      · exact fun _ => hcs.symm
      obtain ht | ⟨-, h₁, h₂, h₃⟩ := mem_fill (min_le_left _ _) hsorted.nonempty ht
      · exact fun _ => (hfresh t ht).symm
      · dsimp only
        omega
    · exact hcons _ (min_le_left _ _)

lemma Separated.tag_ne {l : List (Segment γ)} {s t : Segment γ} (hl : Separated l) (h : Sorted l)
    (hs : s ∈ l) (ht : t ∈ l) (hst : s.stop = t.start) : s.tag ≠ t.tag := by
  induction l with
  | nil => cases hs
  | cons u l ih =>
    obtain ⟨hu, hul, hsorted⟩ := sorted_cons.mp h
    obtain ⟨hsep, hl⟩ := separated_cons.mp hl
    obtain rfl | hsl := List.mem_cons.mp hs
    · obtain rfl | htl := List.mem_cons.mp ht
      · omega
      · exact hsep t htl hst
    · obtain rfl | htl := List.mem_cons.mp ht
      · have := hul s hsl
        have := hsorted.nonempty s hsl
        omega
      · exact ih hl hsorted hsl htl

/-- A segment goes on behind `b` exactly when `b` and the address before it have the same tag. -/
lemma clear_iff {l : List (Segment γ)} (h : Sorted l) (hl : Separated l) (b : ℤ) :
    Clear l b ↔ ∀ c, tagAt l (b - 1) = some c → tagAt l b ≠ some c := by
  constructor
  · intro hclear c h₁ h₂
    obtain ⟨s, hs, ⟨hs₁, hs₂⟩, rfl⟩ := exists_of_tagAt h₁
    obtain ⟨t, ht, ⟨ht₁, ht₂⟩, htag⟩ := exists_of_tagAt h₂
    have hsc := hclear s hs
    have htc := hclear t ht
    exact hl.tag_ne h hs ht (by omega) htag.symm
  · intro hne s hs hin
    have h₁ : tagAt l (b - 1) = some s.tag := h.tagAt_of_mem hs ⟨by omega, by omega⟩
    exact hne s.tag h₁ (h.tagAt_of_mem hs ⟨by omega, by omega⟩)

lemma Sorted.tagAt_eq_none {s : Segment γ} {l : List (Segment γ)} {a : ℤ} (h : Sorted (s :: l))
    (ha : a < s.start) : tagAt (s :: l) a = none := by
  have hs := (sorted_cons.mp h).1
  have hcov : ¬ s.Covers a := fun hcov => not_lt.mpr hcov.1 ha
  rw [tagAt_cons, if_neg hcov, h.tagAt_tail_eq_none (ha.trans hs)]

lemma Sorted.tagAt_start {s : Segment γ} {l : List (Segment γ)} (h : Sorted (s :: l)) :
    tagAt (s :: l) s.start = some s.tag :=
  h.tagAt_of_mem List.mem_cons_self ⟨le_rfl, (sorted_cons.mp h).1⟩

section Unique

variable {s t : Segment γ} {l m : List (Segment γ)}

lemma start_le_of_tagAt (hl : Sorted (s :: l)) (hm : Sorted (t :: m))
    (h : ∀ a, tagAt (s :: l) a = tagAt (t :: m) a) : t.start ≤ s.start := by
  by_contra hlt
  have hnone := hm.tagAt_eq_none (a := s.start) (by omega)
  rw [← h, hl.tagAt_start] at hnone
  cases hnone

lemma stop_le_of_tagAt (hl : Sorted (s :: l)) (hl' : Separated (s :: l)) (hm : Sorted (t :: m))
    (hstart : s.start = t.start) (htag : s.tag = t.tag)
    (h : ∀ a, tagAt (s :: l) a = tagAt (t :: m) a) : t.stop ≤ s.stop := by
  by_contra hlt
  have hs := (sorted_cons.mp hl).1
  have hcov : tagAt (t :: m) s.stop = some t.tag :=
    hm.tagAt_of_mem List.mem_cons_self ⟨by omega, by omega⟩
  rw [← h] at hcov
  obtain ⟨u, hu, ⟨hu₁, hu₂⟩, hutag⟩ := exists_of_tagAt hcov
  obtain rfl | hul := List.mem_cons.mp hu
  · exact lt_irrefl _ hu₂
  · have hge := (sorted_cons.mp hl).2.1 u hul
    exact (separated_cons.mp hl').1 u hul (by omega) (htag.trans hutag.symm)

end Unique

/-- A sorted list in which nothing can be joined is determined by its map. -/
theorem eq_of_tagAt {l m : List (Segment γ)} (hl : Sorted l) (hl' : Separated l) (hm : Sorted m)
    (hm' : Separated m) (h : ∀ a, tagAt l a = tagAt m a) : l = m := by
  induction l generalizing m with
  | nil =>
    cases m with
    | nil => rfl
    | cons t m =>
      have hstart := h t.start
      rw [hm.tagAt_start] at hstart
      cases hstart
  | cons s l ih =>
    cases m with
    | nil =>
      have hstart := h s.start
      rw [hl.tagAt_start] at hstart
      cases hstart
    | cons t m =>
      have hstart : s.start = t.start :=
        le_antisymm (start_le_of_tagAt hm hl fun a => (h a).symm) (start_le_of_tagAt hl hm h)
      have htag : s.tag = t.tag := by
        have hat := h s.start
        rw [hl.tagAt_start, hstart, hm.tagAt_start] at hat
        exact Option.some.inj hat
      have hstop : s.stop = t.stop :=
        le_antisymm (stop_le_of_tagAt hm hm' hl hstart.symm htag.symm fun a => (h a).symm)
          (stop_le_of_tagAt hl hl' hm hstart htag h)
      obtain rfl : s = t := by
        cases s
        cases t
        simp_all
      congr 1
      refine ih hl.tail (separated_cons.mp hl').2 hm.tail (separated_cons.mp hm').2 fun a => ?_
      by_cases ha : a < s.stop
      · rw [hl.tagAt_tail_eq_none ha, hm.tagAt_tail_eq_none ha]
      · have hcov : ¬ s.Covers a := fun hcov => ha hcov.2
        have hat := h a
        rwa [tagAt_cons, tagAt_cons, if_neg hcov, if_neg hcov] at hat

/-! ### Joining neighbours -/

/-- `s` and the segments that follow it, with those joined that touch and have the same tag. -/
def mergeFrom [DecidableEq γ] (s : Segment γ) : List (Segment γ) → List (Segment γ)
  | [] => [s]
  | t :: l =>
    if s.stop = t.start ∧ s.tag = t.tag then mergeFrom ⟨s.start, t.stop, s.tag⟩ l
    else s :: mergeFrom t l

section Merge

variable [DecidableEq γ]

lemma mem_mergeFrom {s : Segment γ} {l : List (Segment γ)} {u : Segment γ} (h : u ∈ mergeFrom s l) :
    ∃ t ∈ s :: l, u.start = t.start ∧ u.tag = t.tag := by
  induction l generalizing s with
  | nil =>
    obtain rfl := List.mem_singleton.mp h
    exact ⟨u, List.mem_cons_self, rfl, rfl⟩
  | cons t l ih =>
    rw [mergeFrom] at h
    split_ifs at h with hjoin
    · obtain ⟨v, hv, hst, htag⟩ := ih h
      obtain rfl | hv := List.mem_cons.mp hv
      · exact ⟨s, List.mem_cons_self, hst, htag⟩
      · exact ⟨v, List.mem_cons_of_mem _ (List.mem_cons_of_mem _ hv), hst, htag⟩
    · obtain rfl | h := List.mem_cons.mp h
      · exact ⟨u, List.mem_cons_self, rfl, rfl⟩
      · obtain ⟨v, hv, heq⟩ := ih h
        exact ⟨v, List.mem_cons_of_mem _ hv, heq⟩

lemma exists_mem_mergeFrom (s : Segment γ) (l : List (Segment γ)) :
    ∃ u ∈ mergeFrom s l, u.start = s.start := by
  induction l generalizing s with
  | nil => exact ⟨s, List.mem_singleton_self s, rfl⟩
  | cons t l ih =>
    rw [mergeFrom]
    split_ifs
    · exact ih ⟨s.start, t.stop, s.tag⟩
    · exact ⟨s, List.mem_cons_self, rfl⟩

/-- Joining neighbours neither makes nor removes an overlap. -/
lemma sorted_mergeFrom {s : Segment γ} {l : List (Segment γ)}
    (hn : ∀ t ∈ s :: l, t.start < t.stop) : Sorted (mergeFrom s l) ↔ Sorted (s :: l) := by
  induction l generalizing s with
  | nil => exact Iff.rfl
  | cons t l ih =>
    obtain ⟨hs, hn⟩ := List.forall_mem_cons.mp hn
    obtain ⟨ht, hl⟩ := List.forall_mem_cons.mp hn
    rw [mergeFrom]
    split_ifs with hjoin
    · have hjoined : s.start < t.stop := by omega
      rw [ih (List.forall_mem_cons.mpr ⟨hjoined, hl⟩), sorted_cons, sorted_cons, sorted_cons,
        List.forall_mem_cons]
      constructor
      · rintro ⟨-, hbelow, hsorted⟩
        exact ⟨hs, ⟨hjoin.1.le, fun u hu => hjoin.1.le.trans (ht.le.trans (hbelow u hu))⟩, ht,
          hbelow, hsorted⟩
      · rintro ⟨-, -, -, hbelow, hsorted⟩
        exact ⟨hjoined, hbelow, hsorted⟩
    · rw [sorted_cons, ih hn, sorted_cons (s := s), List.forall_mem_cons]
      constructor
      · rintro ⟨-, hbelow, hsorted⟩
        obtain ⟨u, hu, hstart⟩ := exists_mem_mergeFrom t l
        have hst : s.stop ≤ t.start := hstart ▸ hbelow u hu
        refine ⟨hs, ⟨hst, fun v hv => ?_⟩, hsorted⟩
        exact hst.trans (ht.le.trans ((sorted_cons.mp hsorted).2.1 v hv))
      · rintro ⟨-, ⟨hst, hbelow⟩, hsorted⟩
        refine ⟨hs, fun u hu => ?_, hsorted⟩
        obtain ⟨v, hv, hstart, -⟩ := mem_mergeFrom hu
        rw [hstart]
        obtain rfl | hv := List.mem_cons.mp hv
        · exact hst
        · exact hbelow v hv

lemma separated_mergeFrom {s : Segment γ} {l : List (Segment γ)} (h : Sorted (s :: l)) :
    Separated (mergeFrom s l) := by
  induction l generalizing s with
  | nil => exact List.pairwise_singleton _ _
  | cons t l ih =>
    obtain ⟨hs, hbelow, htl⟩ := sorted_cons.mp h
    obtain ⟨ht, hbelowt, hl⟩ := sorted_cons.mp htl
    rw [mergeFrom]
    split_ifs with hjoin
    · exact ih (sorted_cons.mpr ⟨hs.trans (hjoin.1.trans_lt ht), hbelowt, hl⟩)
    · refine separated_cons.mpr ⟨fun u hu hstop htag => ?_, ih htl⟩
      obtain ⟨v, hv, hstart, hvtag⟩ := mem_mergeFrom hu
      obtain rfl | hv := List.mem_cons.mp hv
      · exact hjoin ⟨hstop.trans hstart, htag.trans hvtag⟩
      · have hst := hbelow t List.mem_cons_self
        have htv := hbelowt v hv
        omega

lemma tagAt_mergeFrom {s : Segment γ} {l : List (Segment γ)} (h : Sorted (s :: l)) (a : ℤ) :
    tagAt (mergeFrom s l) a = tagAt (s :: l) a := by
  induction l generalizing s with
  | nil => rfl
  | cons t l ih =>
    obtain ⟨hs, hbelow, htl⟩ := sorted_cons.mp h
    obtain ⟨ht, hbelowt, hl⟩ := sorted_cons.mp htl
    rw [mergeFrom]
    split_ifs with hjoin
    · obtain ⟨hst, htag⟩ := hjoin
      have hjoined : Sorted (⟨s.start, t.stop, s.tag⟩ :: l) :=
        sorted_cons.mpr ⟨hs.trans (hst.trans_lt ht), hbelowt, hl⟩
      have hcov : Covers ⟨s.start, t.stop, s.tag⟩ a ↔ s.Covers a ∨ t.Covers a := by
        simp only [Covers]
        omega
      rw [ih hjoined, tagAt_cons, tagAt_cons, tagAt_cons]
      by_cases hsa : s.Covers a
      · rw [if_pos (hcov.mpr (.inl hsa)), if_pos hsa]
      · rw [if_neg hsa]
        by_cases hta : t.Covers a
        · rw [if_pos (hcov.mpr (.inr hta)), if_pos hta, htag]
        · rw [if_neg (fun h => (hcov.mp h).elim hsa hta), if_neg hta]
    · rw [tagAt_cons, tagAt_cons s, ih htl]

end Merge

/-! ### Painting -/

/-- Each segment is put under those before it. -/
def paint (l : List (Segment γ)) : List (Segment γ) :=
  l.foldl (fun v s => fill s.tag v s.start s.stop) []

lemma paint_append_singleton (l : List (Segment γ)) (s : Segment γ) :
    paint (l ++ [s]) = fill s.tag (paint l) s.start s.stop := by
  simp [paint]

lemma paint_map (f : γ → δ) (l : List (Segment γ)) :
    paint (l.map (mapTag f)) = (paint l).map (mapTag f) := by
  induction l using List.reverseRecOn with
  | nil => rfl
  | append_singleton l s ih =>
    rw [List.map_append, List.map_singleton, paint_append_singleton, paint_append_singleton, ih,
      tag_mapTag, start_mapTag, stop_mapTag, fill_map]

/-- The segments with their positions in the tags. -/
def numbered (l : List (Segment γ)) : List (Segment (ℕ × γ)) :=
  l.zipIdx.map fun p => ⟨p.1.start, p.1.stop, (p.2, p.1.tag)⟩

lemma numbered_append_singleton (l : List (Segment γ)) (s : Segment γ) :
    numbered (l ++ [s]) = numbered l ++ [⟨s.start, s.stop, (l.length, s.tag)⟩] := by
  simp [numbered, List.zipIdx_append]

lemma map_numbered (l : List (Segment γ)) : (numbered l).map (mapTag Prod.snd) = l := by
  induction l using List.reverseRecOn with
  | nil => rfl
  | append_singleton l s ih =>
    rw [numbered_append_singleton, List.map_append, ih]
    rfl

lemma mem_numbered {l : List (Segment γ)} {s : Segment (ℕ × γ)} (h : s ∈ numbered l) :
    ∃ t, l[s.tag.1]? = some t ∧ s.tag.2 = t.tag := by
  obtain ⟨p, hp, rfl⟩ := List.mem_map.mp h
  exact ⟨p.1, List.mem_zipIdx_iff_getElem?.mp hp, rfl⟩

/-- The position of the first segment that covers an address. -/
def owner (l : List (Segment γ)) (a : ℤ) : Option ℕ := (tagAt (numbered l) a).map Prod.fst

lemma owner_eq_some {l : List (Segment γ)} {a : ℤ} {j : ℕ} :
    owner l a = some j ↔ ∃ c, tagAt (numbered l) a = some (j, c) := by
  simp [owner]

lemma tagAt_numbered_inj {l : List (Segment γ)} {a b : ℤ} {c d : ℕ × γ}
    (hc : tagAt (numbered l) a = some c) (hd : tagAt (numbered l) b = some d) (h : c.1 = d.1) :
    c = d := by
  obtain ⟨s, hs, -, rfl⟩ := exists_of_tagAt hc
  obtain ⟨t, ht, -, rfl⟩ := exists_of_tagAt hd
  obtain ⟨u, hu, hsu⟩ := mem_numbered hs
  obtain ⟨v, hv, htv⟩ := mem_numbered ht
  rw [h, hv, Option.some.injEq] at hu
  exact Prod.ext h (by rw [hsu, htv, hu])

/-- No segment starts in the middle of what is visible of one before it: the address it starts at and
the one below do not have the same owner. -/
def StartsClear (l : List (Segment γ)) : Prop :=
  ∀ i, ∀ h : i < l.length, l[i].start < l[i].stop →
    owner (l.take i) (l[i].start - 1) = owner (l.take i) l[i].start →
      owner (l.take i) l[i].start = none

instance (l : List (Segment γ)) : Decidable (StartsClear l) :=
  inferInstanceAs (Decidable (∀ i, ∀ h : i < l.length, l[i].start < l[i].stop →
    owner (l.take i) (l[i].start - 1) = owner (l.take i) l[i].start →
      owner (l.take i) l[i].start = none))

lemma startsClear_append_singleton (l : List (Segment γ)) (s : Segment γ) :
    StartsClear (l ++ [s]) ↔ StartsClear l ∧
      (s.start < s.stop → owner l (s.start - 1) = owner l s.start → owner l s.start = none) := by
  constructor
  · intro h
    constructor
    · intro i hi
      have hi' := h i (by simp; omega)
      rwa [List.getElem_append_left hi, List.take_append_of_le_length hi.le] at hi'
    · have hs := h l.length (by simp)
      simpa using hs
  · rintro ⟨hl, hs⟩ i hi
    rw [List.length_append, List.length_singleton] at hi
    obtain hi | rfl : i < l.length ∨ i = l.length := by omega
    · rw [List.getElem_append_left hi, List.take_append_of_le_length hi.le]
      exact hl i hi
    · simpa using hs

/-- What `paint` keeps of numbered segments that start clear. -/
structure Painted (l : List (Segment γ)) (v : List (Segment (ℕ × γ))) : Prop where
  sorted : Sorted v
  separated : Separated v
  number : ∀ t ∈ v, t.tag.1 < l.length
  tagAt : ∀ a, tagAt v a = tagAt (numbered l) a

lemma Painted.clear_iff {l : List (Segment γ)} {v : List (Segment (ℕ × γ))} (h : Painted l v)
    (b : ℤ) : Clear v b ↔ (owner l (b - 1) = owner l b → owner l b = none) := by
  rw [Segment.clear_iff h.sorted h.separated]
  simp only [h.tagAt]
  constructor
  · intro hne heq
    cases hb : owner l b with
    | none => rfl
    | some j =>
      rw [hb] at heq
      obtain ⟨c, hc⟩ := owner_eq_some.mp heq
      obtain ⟨d, hd⟩ := owner_eq_some.mp hb
      exact absurd (tagAt_numbered_inj hd hc rfl ▸ hd) (hne _ hc)
  · intro hown c hc hd
    have h₁ : owner l (b - 1) = some c.1 := owner_eq_some.mpr ⟨c.2, hc⟩
    have h₂ : owner l b = some c.1 := owner_eq_some.mpr ⟨c.2, hd⟩
    rw [hown (h₁.trans h₂.symm)] at h₂
    cases h₂

lemma painted_nil : Painted ([] : List (Segment γ)) [] :=
  ⟨sorted_nil, .nil, by simp, fun _ => rfl⟩

lemma Painted.append_singleton {l : List (Segment γ)} {v : List (Segment (ℕ × γ))} {s : Segment γ}
    (h : Painted l v) (hs : s.start ≤ s.stop) (hc : s.start < s.stop → Clear v s.start) :
    Painted (l ++ [s]) (fill (l.length, s.tag) v s.start s.stop) := by
  obtain heq | hlt := hs.eq_or_lt
  · rw [← heq, fill_self]
    refine ⟨h.sorted, h.separated, fun t ht => ?_, fun a => ?_⟩
    · have := h.number t ht
      rw [List.length_append]
      omega
    · have hcov : ¬ Covers (⟨s.start, s.stop, (l.length, s.tag)⟩ : Segment (ℕ × γ)) a :=
        fun hcov => by
          have := hcov.1
          have := hcov.2
          dsimp only at *
          omega
      rw [h.tagAt, numbered_append_singleton, tagAt_append, tagAt_cons, if_neg hcov, tagAt_nil,
        Option.or_none]
  · refine ⟨h.sorted.fill hs (hc hlt), h.separated.fill h.sorted hs fun t ht heq => ?_, fun t ht => ?_,
      fun a => ?_⟩
    · have := h.number t ht
      rw [heq] at this
      exact lt_irrefl _ this
    · rw [List.length_append, List.length_singleton]
      obtain ht | ⟨htag, -⟩ := mem_fill hs h.sorted.nonempty ht
      · exact (h.number t ht).trans (Nat.lt_succ_self _)
      · rw [htag]
        exact Nat.lt_succ_self _
    · rw [tagAt_fill h.sorted hs (hc hlt), h.tagAt, numbered_append_singleton, tagAt_append, tagAt_cons,
        tagAt_nil]
      rfl

lemma painted_numbered {l : List (Segment γ)} (hl : ∀ s ∈ l, s.start ≤ s.stop)
    (hc : StartsClear l) : Painted l (paint (numbered l)) := by
  induction l using List.reverseRecOn with
  | nil => exact painted_nil
  | append_singleton l s ih =>
    obtain ⟨hcl, hcs⟩ := (startsClear_append_singleton l s).mp hc
    have hpainted := ih (fun t ht => hl t (List.mem_append_left _ ht)) hcl
    rw [numbered_append_singleton, paint_append_singleton]
    exact hpainted.append_singleton (hl s (by simp)) fun hlt => (hpainted.clear_iff _).mpr (hcs hlt)

lemma paint_eq_map (l : List (Segment γ)) : paint l = (paint (numbered l)).map (mapTag Prod.snd) := by
  rw [← paint_map, map_numbered]

/-- Where every segment starts clear, the first one that covers an address decides. -/
theorem tagAt_paint {l : List (Segment γ)} (hl : ∀ s ∈ l, s.start ≤ s.stop) (hc : StartsClear l)
    (a : ℤ) : tagAt (paint l) a = tagAt l a := by
  rw [paint_eq_map, tagAt_map, (painted_numbered hl hc).tagAt, ← tagAt_map, map_numbered]

/-- The result of painting is sorted exactly when every segment starts clear. -/
theorem sorted_paint {l : List (Segment γ)} (hl : ∀ s ∈ l, s.start ≤ s.stop) :
    Sorted (paint l) ↔ StartsClear l := by
  rw [paint_eq_map, sorted_map]
  refine ⟨fun hsorted => ?_, fun hc => (painted_numbered hl hc).sorted⟩
  induction l using List.reverseRecOn with
  | nil => exact fun i hi => absurd hi (Nat.not_lt_zero i)
  | append_singleton l s ih =>
    have hl' : ∀ t ∈ l, t.start ≤ t.stop := fun t ht => hl t (List.mem_append_left _ ht)
    rw [numbered_append_singleton, paint_append_singleton] at hsorted
    have hcl := ih hl' (hsorted.of_sublist (sublist_fill _ _ _ _))
    have hpainted := painted_numbered hl' hcl
    refine (startsClear_append_singleton l s).mpr ⟨hcl, fun hlt => ?_⟩
    rw [← hpainted.clear_iff]
    by_contra hclear
    exact not_sorted_fill hpainted.sorted hlt hclear hsorted

end Segment

end Limbo.Lib
