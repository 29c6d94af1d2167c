import ElectronixMes.Timeline.Span
import Mathlib.Data.List.Chain

/-!
# Labelled tilings

A tiling whose tiles carry a label says what holds at each instant. Different tilings can
say the same, but not when it is fixed where a label goes on over two tiles: the tilings
that are cut inside a label exactly at its marks are determined by what they say.
-/

namespace ElectronixMes.Timeline

variable {α ι σ : Type*} [LinearOrder α] {span : ι → Span α} {label : ι → σ}
  {mark : σ → α → Prop} {a b t : α} {l m : List ι}

/-- Two tiles of a tiling that share an instant are one tile. -/
theorem Tiles.eq_of_mem (h : Tiles span a b l) {i j : ι} (hi : i ∈ l) (hj : j ∈ l)
    (hti : t ∈ span i) (htj : t ∈ span j) : i = j := by
  induction l generalizing a with
  | nil => cases hi
  | cons k rest ih =>
      have happart {u : ι} (hu : u ∈ rest) (hk : t ∈ span k) : t ∉ span u :=
        Span.Apart.notMem (Or.inl (h.2.2.bounds hu).1) hk
      rcases List.mem_cons.mp hi with rfl | hirest
      · rcases List.mem_cons.mp hj with rfl | hjrest
        · rfl
        · exact absurd htj (happart hjrest hti)
      · rcases List.mem_cons.mp hj with rfl | hjrest
        · exact absurd hti (happart hirest htj)
        · exact ih h.2.2 hirest hjrest

/-- The first tile that contains an instant is any tile that does. -/
theorem Tiles.find?_eq (h : Tiles span a b l) {i : ι} (hi : i ∈ l) (ht : t ∈ span i) :
    l.find? (fun j => t ∈ span j) = some i := by
  obtain ⟨j, hj⟩ : ∃ j, l.find? (fun j => t ∈ span j) = some j := by
    rw [← Option.isSome_iff_exists]
    exact List.find?_isSome.mpr ⟨i, hi, decide_eq_true ht⟩
  have htj : t ∈ span j := by simpa using List.find?_some hj
  rw [hj, h.eq_of_mem (List.mem_of_find?_eq_some hj) hi htj ht]

/-- Of two tiles that meet, the first stands right before the second. -/
theorem Tiles.rel_of_meet {R : ι → ι → Prop} (h : Tiles span a b l) (hchain : l.IsChain R)
    {i j : ι} (hi : i ∈ l) (hj : j ∈ l) (hmeet : (span i).hi = (span j).lo) : R i j := by
  induction l generalizing a with
  | nil => cases hi
  | cons k rest ih =>
      obtain ⟨hlo, hproper, hrest⟩ := h
      rcases List.mem_cons.mp hj with rfl | hjrest
      · -- nothing ends where the first tile starts
        have hlt : (span j).lo < (span i).hi := by
          rcases List.mem_cons.mp hi with rfl | hirest
          · exact hlo.trans_lt hproper
          · obtain ⟨hle, hi', -⟩ := hrest.bounds hirest
            exact (hlo.trans_lt hproper).trans_le (hle.trans hi'.le)
        exact absurd hmeet hlt.ne'
      · rcases List.mem_cons.mp hi with rfl | hirest
        · cases rest with
          | nil => cases hjrest
          | cons m rest =>
              rcases List.mem_cons.mp hjrest with rfl | hjtail
              · exact (List.isChain_cons_cons.mp hchain).1
              · obtain ⟨hm, hproper', hrest'⟩ := hrest
                exact absurd hmeet (hproper'.trans_le (hrest'.bounds hjtail).1).ne
        · exact ih hrest hchain.tail hirest hjrest

/-- Neighbours with one label meet at a mark of it, and no tile has a mark of its label
inside. -/
structure Reduced (span : ι → Span α) (label : ι → σ) (mark : σ → α → Prop) (l : List ι) :
    Prop where
  joints : l.IsChain fun i j => label i = label j → mark (label i) (span j).lo
  inside : ∀ i ∈ l, ∀ t, (span i).lo < t → t < (span i).hi → ¬ mark (label i) t

theorem Reduced.tail {i : ι} (h : Reduced span label mark (i :: l)) :
    Reduced span label mark l where
  joints := h.joints.tail
  inside := fun j hj => h.inside j (List.mem_cons_of_mem i hj)

/-- A first tile does not end inside the first tile of a tiling that says the same. -/
theorem Reduced.not_ends_before {i j : ι}
    (hl : Tiles span a b (i :: l)) (hm : Tiles span a b (j :: m))
    (hlr : Reduced span label mark (i :: l)) (hmr : Reduced span label mark (j :: m))
    (hagree : ∀ i' ∈ i :: l, ∀ t ∈ span i', t ∈ span j → label i' = label j) :
    ¬ (span i).hi < (span j).hi := by
  intro hlt
  obtain ⟨hlo, hi, htail⟩ := hl
  obtain ⟨hlo', hj, htail'⟩ := hm
  cases l with
  | nil =>
      have hend : (span i).hi = b := htail
      exact absurd (hlt.trans_le htail'.le) (not_lt.mpr hend.ge)
  | cons k rest =>
      -- the next tile starts inside `j`, under its label, and so at a mark
      obtain ⟨hk, hkhi, -⟩ := htail
      have hmeet : (span i).hi ∈ span j := ⟨hlo'.le.trans hi.le, hlt⟩
      have hlabel : label i = label j :=
        hagree i List.mem_cons_self a ⟨hlo.le, hi⟩ ⟨hlo'.le, hj⟩
      have hnext : label k = label j :=
        hagree k (by simp) (span i).hi ⟨hk.le, hkhi⟩ hmeet
      have hmark := (List.isChain_cons_cons.mp hlr.joints).1 (hlabel.trans hnext.symm)
      rw [hk, hlabel] at hmark
      exact hmr.inside j List.mem_cons_self _ (hlo'.trans_lt hi) hlt hmark

/-- Reduced tilings that say the same are the same. -/
theorem Reduced.unique (hl : Tiles span a b l) (hm : Tiles span a b m)
    (hlr : Reduced span label mark l) (hmr : Reduced span label mark m)
    (hagree : ∀ i ∈ l, ∀ j ∈ m, ∀ t ∈ span i, t ∈ span j → label i = label j) :
    l.map (fun i => (span i, label i)) = m.map fun i => (span i, label i) := by
  induction l generalizing a m with
  | nil =>
      cases m with
      | nil => rfl
      | cons j m =>
          have hend : a = b := hl
          exact absurd (hm.2.1.trans_le hm.2.2.le) (not_lt.mpr hend.ge)
  | cons i l ih =>
      cases m with
      | nil =>
          have hend : a = b := hm
          exact absurd (hl.2.1.trans_le hl.2.2.le) (not_lt.mpr hend.ge)
      | cons j m =>
          have hlt : ¬ (span i).hi < (span j).hi :=
            Reduced.not_ends_before hl hm hlr hmr fun i' hi' t ht htj =>
              hagree i' hi' j List.mem_cons_self t ht htj
          have hgt : ¬ (span j).hi < (span i).hi :=
            Reduced.not_ends_before hm hl hmr hlr fun j' hj' t ht hti =>
              (hagree i List.mem_cons_self j' hj' t hti ht).symm
          obtain ⟨hlo, hi, hltail⟩ := hl
          obtain ⟨hlo', hj, hmtail⟩ := hm
          have hhi : (span i).hi = (span j).hi := le_antisymm (not_lt.mp hgt) (not_lt.mp hlt)
          have hspan : span i = span j := Span.ext (hlo.trans hlo'.symm) hhi
          have hlabel : label i = label j :=
            hagree i List.mem_cons_self j List.mem_cons_self a ⟨hlo.le, hi⟩ ⟨hlo'.le, hj⟩
          rw [List.map_cons, List.map_cons, hspan, hlabel]
          rw [← hhi] at hmtail
          rw [ih hltail hmtail hlr.tail hmr.tail]
          intro i' hi' j' hj'
          exact hagree i' (List.mem_cons_of_mem i hi') j' (List.mem_cons_of_mem j hj')

end ElectronixMes.Timeline
