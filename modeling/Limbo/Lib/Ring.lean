import Limbo.Lib.Memory

/-!
# Rings

A range of a memory whose end is followed by its beginning. `ring` reads some cells of it from a
start on, and `cells` reads cells that follow each other in the memory. What is read from a ring is
one segment, or two when it goes over the end. Cells are stored in a ring by `copy`, into one or two
segments.
-/

namespace Limbo.Lib

/-- `n` cells from `p` on. -/
def cells (data : Memory) (p n : ℕ) : List UInt8 := (List.range n).map fun i => data (p + i)

/-- `n` cells of the ring of the first `size` cells, from `p` on. -/
def ring (data : Memory) (size p n : ℕ) : List UInt8 :=
  (List.range n).map fun i => data ((p + i) % size)

section Cells

variable {data data' : Memory} {p q n k : ℕ}

@[simp] lemma length_cells : (cells data p n).length = n := by simp [cells]

@[simp] lemma cells_zero : cells data p 0 = [] := rfl

lemma cells_add : cells data p (n + k) = cells data p n ++ cells data (p + n) k := by
  simp [cells, List.range_add, Function.comp_def, Nat.add_assoc]

lemma cells_take (h : k ≤ n) : (cells data p n).take k = cells data p k := by
  obtain ⟨m, rfl⟩ := Nat.exists_eq_add_of_le h
  rw [cells_add, List.take_left' length_cells]

lemma cells_drop (h : k ≤ n) : (cells data p n).drop k = cells data (p + k) (n - k) := by
  obtain ⟨m, rfl⟩ := Nat.exists_eq_add_of_le h
  rw [cells_add, List.drop_left' length_cells, Nat.add_sub_cancel_left]

lemma cells_congr (h : ∀ i < n, data (p + i) = data' (q + i)) :
    cells data p n = cells data' q n :=
  List.map_congr_left fun i hi => h i (List.mem_range.mp hi)

/-- What has been copied is read. -/
lemma cells_copy {src : Memory} : cells (copy data p src q n) p n = cells src q n :=
  cells_congr fun i hi => by rw [copy_of_mem ⟨by omega, by omega⟩, Nat.add_sub_cancel_left]

/-- A list as a memory. -/
lemma cells_getD {src : List UInt8} (h : n ≤ src.length) :
    cells (fun i => src.getD i 0) 0 n = src.take n := by
  refine List.ext_getElem (by simp [h]) fun i hi hi' => ?_
  have hlt : i < src.length := by
    rw [length_cells] at hi
    omega
  simp [cells, hlt]

/-- Other cells are not copied to. -/
lemma cells_copy_of_apart {src : Memory} {p' m : ℕ} (h : p' + m ≤ p ∨ p + n ≤ p') :
    cells (copy data p src q n) p' m = cells data p' m :=
  cells_congr fun i hi => copy_of_not_mem (by omega)

end Cells

section Ring

variable {data data' : Memory} {size p n k : ℕ}

@[simp] lemma length_ring : (ring data size p n).length = n := by simp [ring]

@[simp] lemma ring_zero : ring data size p 0 = [] := rfl

lemma ring_add : ring data size p (n + k) = ring data size p n ++ ring data size (p + n) k := by
  simp [ring, List.range_add, Function.comp_def, Nat.add_assoc]

lemma ring_mod : ring data size (p % size) n = ring data size p n := by
  simp [ring]

lemma ring_take (h : k ≤ n) : (ring data size p n).take k = ring data size p k := by
  obtain ⟨m, rfl⟩ := Nat.exists_eq_add_of_le h
  rw [ring_add, List.take_left' length_ring]

lemma ring_drop (h : k ≤ n) : (ring data size p n).drop k = ring data size (p + k) (n - k) := by
  obtain ⟨m, rfl⟩ := Nat.exists_eq_add_of_le h
  rw [ring_add, List.drop_left' length_ring, Nat.add_sub_cancel_left]

lemma ring_congr (h : ∀ i < n, data ((p + i) % size) = data' ((p + i) % size)) :
    ring data size p n = ring data' size p n :=
  List.map_congr_left fun i hi => h i (List.mem_range.mp hi)

/-- Before the end, a ring is read as a cells. -/
lemma ring_eq_cells (h : p + n ≤ size) : ring data size p n = cells data p n :=
  List.map_congr_left fun i hi => by
    rw [Nat.mod_eq_of_lt]
    have hlt := List.mem_range.mp hi
    omega

/-- Over the end, it is read as two segments. -/
lemma ring_eq_append (hp : p ≤ size) (hend : size ≤ p + n) (hn : p + n ≤ 2 * size) :
    ring data size p n = cells data p (size - p) ++ cells data 0 (p + n - size) := by
  have hsplit : n = (size - p) + (p + n - size) := by omega
  have hstart : p + (size - p) = size := by omega
  conv_lhs => rw [hsplit]
  rw [ring_add, ring_eq_cells (by omega), hstart, ← ring_mod, Nat.mod_self,
    ring_eq_cells (by omega)]

/-- Cells that follow each other in the ring are read apart. -/
lemma add_mod_ne {i j : ℕ} (hlt : i < j) (hsize : j < i + size) : (p + i) % size ≠ (p + j) % size := by
  intro heq
  have hdvd : size ∣ p + j - (p + i) := (Nat.modEq_iff_dvd' (by omega)).mp heq
  have hle := Nat.le_of_dvd (by omega) hdvd
  omega

/-- What is stored after the first cells that are read is read after them. -/
lemma ring_copy {src : Memory} {r q : ℕ} (hp : p = (r + k) % size) (hend : p + n ≤ size)
    (hroom : k + n ≤ size) :
    ring (copy data p src q n) size r (k + n) = ring data size r k ++ cells src q n := by
  have hfirst : ring (copy data p src q n) size r k = ring data size r k := by
    refine ring_congr fun i hi => copy_of_not_mem fun ⟨hle, hlt⟩ => ?_
    have hcell : (r + (k + ((r + i) % size - p))) % size = (r + i) % size := by
      rw [← Nat.add_assoc, ← Nat.mod_add_mod, ← hp, Nat.add_sub_cancel' hle, Nat.mod_mod]
    exact add_mod_ne (by omega) (by omega) hcell.symm
  rw [ring_add, hfirst, ← ring_mod (p := r + k), ← hp, ring_eq_cells hend, cells_copy]

end Ring

end Limbo.Lib
