import Limbo.Topology.Rendering

/-!
# The difference of two flat views

`address_space_update_topology_pass()` goes through the ranges of the old view and of the new one at
the same time. The first pass reports the ranges that are gone, the second one those that are new and,
for those that are in both, whether logging starts or stops.
-/

namespace Limbo.Topology

open Limbo.Lib Limbo.Lib.Segment

/-- The callbacks of a `MemoryListener` that are given a range. -/
inductive RegionCallback
  | regionAdd
  | regionDel
  | regionNop
  | logStart
  | logStop
deriving DecidableEq, Repr

def flatrangeEqual (a b : FlatRange) : Bool :=
  a.mr = b.mr ∧ a.addr = b.addr ∧ a.offsetInRegion = b.offsetInRegion ∧ a.readable = b.readable ∧
    a.readonly = b.readonly

/-- What the second pass reports of a range that is in both views. -/
def keptCallbacks (frold frnew : FlatRange) : List (RegionCallback × FlatRange) :=
  (.regionNop, frnew) ::
    if frold.dirtyLogMask ≠ 0 ∧ frnew.dirtyLogMask = 0 then [(.logStop, frnew)]
    else if frnew.dirtyLogMask ≠ 0 ∧ frold.dirtyLogMask = 0 then [(.logStart, frnew)]
    else []

/-- `address_space_update_topology_pass(as, old_view, new_view, adding)` -/
def addressSpaceUpdateTopologyPass (adding : Bool) :
    List FlatRange → List FlatRange → List (RegionCallback × FlatRange)
  | [], [] => []
  | frold :: old, [] =>
    (if adding then [] else [(.regionDel, frold)]) ++ addressSpaceUpdateTopologyPass adding old []
  | [], frnew :: new =>
    (if adding then [(.regionAdd, frnew)] else []) ++ addressSpaceUpdateTopologyPass adding [] new
  | frold :: old, frnew :: new =>
    if frold.addr.start < frnew.addr.start ∨
        frold.addr.start = frnew.addr.start ∧ ¬ flatrangeEqual frold frnew then
      (if adding then [] else [(.regionDel, frold)]) ++
        addressSpaceUpdateTopologyPass adding old (frnew :: new)
    else if flatrangeEqual frold frnew then
      (if adding then keptCallbacks frold frnew else []) ++
        addressSpaceUpdateTopologyPass adding old new
    else
      (if adding then [(.regionAdd, frnew)] else []) ++
        addressSpaceUpdateTopologyPass adding (frold :: old) new
termination_by old new => old.length + new.length

/-! ### The passes as set differences -/

lemma flatrangeEqual_iff {a b : FlatRange} : flatrangeEqual a b = true ↔
    a.mr = b.mr ∧ a.addr = b.addr ∧ a.offsetInRegion = b.offsetInRegion ∧ a.readable = b.readable ∧
      a.readonly = b.readonly := by
  simp [flatrangeEqual]

lemma start_eq_of_flatrangeEqual {a b : FlatRange} (h : flatrangeEqual a b) :
    a.addr.start = b.addr.start := by
  rw [(flatrangeEqual_iff.mp h).2.1]

/-- The ranges start one behind the other. -/
def Increasing (view : List FlatRange) : Prop :=
  view.Pairwise fun a b => a.addr.start < b.addr.start

lemma Disjoint.increasing {view : List FlatRange} (h : Disjoint view) : Increasing view := by
  have hp : view.Pairwise fun a b => a.segment.stop ≤ b.segment.start :=
    List.pairwise_map.mp h.ordered
  refine hp.imp_of_mem fun {a b} ha _ hab => ?_
  exact lt_of_lt_of_le (h.nonempty _ (List.mem_map_of_mem ha)) hab

/-- The range of `view` that an update takes for the same as `fr`. -/
def sameIn (view : List FlatRange) (fr : FlatRange) : Option FlatRange :=
  view.find? fun fr' => flatrangeEqual fr' fr

lemma sameIn_cons_of_ne {fr' fr : FlatRange} {view : List FlatRange}
    (h : fr'.addr.start ≠ fr.addr.start) : sameIn (fr' :: view) fr = sameIn view fr := by
  have hne : ¬ flatrangeEqual fr' fr = true := fun heq => h (start_eq_of_flatrangeEqual heq)
  exact List.find?_cons_of_neg hne

lemma sameIn_cons_of_equal {fr' fr : FlatRange} {view : List FlatRange} (h : flatrangeEqual fr' fr) :
    sameIn (fr' :: view) fr = some fr' := List.find?_cons_of_pos h

lemma sameIn_eq_none {view : List FlatRange} {fr : FlatRange}
    (h : ∀ fr' ∈ view, fr'.addr.start ≠ fr.addr.start) : sameIn view fr = none :=
  List.find?_eq_none.mpr fun fr' hfr' heq => h fr' hfr' (start_eq_of_flatrangeEqual heq)

lemma flatrangeEqual_comm (a b : FlatRange) : flatrangeEqual a b = flatrangeEqual b a := by
  rw [Bool.eq_iff_iff, flatrangeEqual_iff, flatrangeEqual_iff]
  simp only [eq_comm]

lemma increasing_cons {fr : FlatRange} {view : List FlatRange} : Increasing (fr :: view) ↔
    (∀ fr' ∈ view, fr.addr.start < fr'.addr.start) ∧ Increasing view := List.pairwise_cons

section Pass

variable {frold frnew : FlatRange} {old new : List FlatRange}

/-- The range of the old view is gone. -/
def Gone (frold frnew : FlatRange) : Prop :=
  frold.addr.start < frnew.addr.start ∨
    frold.addr.start = frnew.addr.start ∧ ¬ flatrangeEqual frold frnew = true

lemma Gone.sameIn_eq_none (h : Gone frold frnew) (hnew : Increasing (frnew :: new)) :
    sameIn (frnew :: new) frold = none := by
  obtain ⟨hlt, -⟩ := increasing_cons.mp hnew
  refine List.find?_eq_none.mpr fun fr hfr heq => ?_
  have hstart := start_eq_of_flatrangeEqual heq
  obtain h | ⟨h, hne⟩ := h
  · obtain rfl | hfr := List.mem_cons.mp hfr
    · omega
    · have := hlt fr hfr
      omega
  · obtain rfl | hfr := List.mem_cons.mp hfr
    · exact hne (flatrangeEqual_comm _ _ ▸ heq)
    · have := hlt fr hfr
      omega

lemma Gone.sameIn_cons (h : Gone frold frnew) (hnew : Increasing (frnew :: new)) :
    ∀ fr ∈ frnew :: new, sameIn (frold :: old) fr = sameIn old fr := by
  obtain ⟨hlt, -⟩ := increasing_cons.mp hnew
  intro fr hfr
  have hne : ¬ flatrangeEqual frold fr = true := by
    intro heq
    have hstart := start_eq_of_flatrangeEqual heq
    obtain rfl | hfr := List.mem_cons.mp hfr
    · obtain h | ⟨-, hne⟩ := h
      · omega
      · exact hne heq
    · have := hlt fr hfr
      obtain h | ⟨h, -⟩ := h <;> omega
  exact List.find?_cons_of_neg hne

/-- A range that is neither gone nor kept is new, and starts before those of the old view. -/
lemma start_lt_of_not_gone (h : ¬ Gone frold frnew) (h' : ¬ flatrangeEqual frold frnew = true) :
    frnew.addr.start < frold.addr.start := by
  obtain ⟨hge, hne⟩ := not_or.mp h
  have hne' : frold.addr.start ≠ frnew.addr.start := fun heq => hne ⟨heq, h'⟩
  omega

/-- The first pass reports the ranges that are not in the new view, in the order of the old one. -/
lemma pass_deleting (hold : Increasing old) (hnew : Increasing new) :
    addressSpaceUpdateTopologyPass false old new =
      (old.filter fun fr => (sameIn new fr).isNone).map (Prod.mk .regionDel) := by
  induction old, new using addressSpaceUpdateTopologyPass.induct with
  | case1 => simp [addressSpaceUpdateTopologyPass]
  | case2 frold old ih =>
    obtain ⟨-, hold⟩ := increasing_cons.mp hold
    simp [addressSpaceUpdateTopologyPass, ih hold hnew, sameIn]
  | case3 frnew new ih =>
    obtain ⟨-, hnew⟩ := increasing_cons.mp hnew
    simp [addressSpaceUpdateTopologyPass, ih hold hnew]
  | case4 frold old frnew new h ih =>
    obtain ⟨-, hold⟩ := increasing_cons.mp hold
    have hnone := Gone.sameIn_eq_none h hnew
    rw [addressSpaceUpdateTopologyPass, if_pos h, ih hold hnew,
      List.filter_cons_of_pos (by rw [hnone]; rfl)]
    rfl
  | case5 frold old frnew new h h' ih =>
    obtain ⟨hlt, hold⟩ := increasing_cons.mp hold
    obtain ⟨-, hnew'⟩ := increasing_cons.mp hnew
    have hstart := start_eq_of_flatrangeEqual h'
    have hsome : sameIn (frnew :: new) frold = some frnew :=
      sameIn_cons_of_equal (flatrangeEqual_comm _ _ ▸ h')
    have hrest : ∀ fr ∈ old, (sameIn (frnew :: new) fr).isNone = (sameIn new fr).isNone := by
      intro fr hfr
      have := hlt fr hfr
      rw [sameIn_cons_of_ne (by omega)]
    rw [addressSpaceUpdateTopologyPass, if_neg h, if_pos h', ih hold hnew',
      List.filter_cons_of_neg (by rw [hsome]; simp), List.filter_congr hrest]
    rfl
  | case6 frold old frnew new h h' ih =>
    obtain ⟨hlt, -⟩ := increasing_cons.mp hold
    obtain ⟨-, hnew'⟩ := increasing_cons.mp hnew
    have hstart := start_lt_of_not_gone h h'
    have hrest : ∀ fr ∈ frold :: old,
        (sameIn (frnew :: new) fr).isNone = (sameIn new fr).isNone := by
      intro fr hfr
      obtain rfl | hfr := List.mem_cons.mp hfr
      · rw [sameIn_cons_of_ne (by omega)]
      · have := hlt fr hfr
        rw [sameIn_cons_of_ne (by omega)]
    rw [addressSpaceUpdateTopologyPass, if_neg h, if_neg h', ih hold hnew', List.filter_congr hrest]
    rfl

/-- What the second pass reports of a range of the new view. -/
def addingCallbacks (old : List FlatRange) (fr : FlatRange) : List (RegionCallback × FlatRange) :=
  (sameIn old fr).elim [(.regionAdd, fr)] fun frold => keptCallbacks frold fr

/-- The second pass reports every range of the new view in its order: as new, or as kept. -/
lemma pass_adding (hold : Increasing old) (hnew : Increasing new) :
    addressSpaceUpdateTopologyPass true old new = new.flatMap (addingCallbacks old) := by
  induction old, new using addressSpaceUpdateTopologyPass.induct with
  | case1 => simp [addressSpaceUpdateTopologyPass]
  | case2 frold old ih =>
    obtain ⟨-, hold⟩ := increasing_cons.mp hold
    simp [addressSpaceUpdateTopologyPass, ih hold hnew]
  | case3 frnew new ih =>
    obtain ⟨-, hnew⟩ := increasing_cons.mp hnew
    simp [addressSpaceUpdateTopologyPass, ih hold hnew, addingCallbacks, sameIn]
  | case4 frold old frnew new h ih =>
    obtain ⟨-, hold⟩ := increasing_cons.mp hold
    have hrest : ∀ fr ∈ frnew :: new,
        addingCallbacks (frold :: old) fr = addingCallbacks old fr := by
      intro fr hfr
      rw [addingCallbacks, addingCallbacks, Gone.sameIn_cons h hnew fr hfr]
    rw [addressSpaceUpdateTopologyPass, if_pos h, ih hold hnew, List.flatMap_congr hrest]
    rfl
  | case5 frold old frnew new h h' ih =>
    obtain ⟨-, hold'⟩ := increasing_cons.mp hold
    obtain ⟨hlt, hnew⟩ := increasing_cons.mp hnew
    have hstart := start_eq_of_flatrangeEqual h'
    have hrest : ∀ fr ∈ new, addingCallbacks (frold :: old) fr = addingCallbacks old fr := by
      intro fr hfr
      have := hlt fr hfr
      rw [addingCallbacks, addingCallbacks, sameIn_cons_of_ne (by omega)]
    rw [addressSpaceUpdateTopologyPass, if_neg h, if_pos h', ih hold' hnew, List.flatMap_cons,
      List.flatMap_congr hrest, addingCallbacks, sameIn_cons_of_equal h']
    rfl
  | case6 frold old frnew new h h' ih =>
    obtain ⟨hlt, -⟩ := increasing_cons.mp hold
    obtain ⟨-, hnew⟩ := increasing_cons.mp hnew
    have hstart := start_lt_of_not_gone h h'
    have hnone : sameIn (frold :: old) frnew = none := by
      refine sameIn_eq_none fun fr hfr => ?_
      obtain rfl | hfr := List.mem_cons.mp hfr
      · omega
      · have := hlt fr hfr
        omega
    rw [addressSpaceUpdateTopologyPass, if_neg h, if_neg h', ih hold hnew, List.flatMap_cons,
      addingCallbacks, hnone]
    rfl

end Pass

end Limbo.Topology
