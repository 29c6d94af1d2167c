import ElectronixMes.Serde.Json
import Mathlib.Data.List.Sort
import Mathlib.Data.String.Basic

/-!
# Members under ascending keys

The members of a map as a list of pairs whose keys ascend, so that a key occurs
once and two maps are equal when they answer every lookup alike.
-/

namespace ElectronixMes.Serde

variable {κ α : Type*} [LinearOrder κ]

/-- The keys ascend. -/
def Ascending (l : List (κ × α)) : Prop := l.Pairwise fun a b => a.1 < b.1

instance (l : List (κ × α)) : Decidable (Ascending l) :=
  inferInstanceAs (Decidable (l.Pairwise fun a b => a.1 < b.1))

namespace Ascending

variable {l l' : List (κ × α)} {k : κ} {v : α}

theorem nil : Ascending ([] : List (κ × α)) := List.Pairwise.nil

theorem singleton (k : κ) (v : α) : Ascending [(k, v)] := List.pairwise_singleton _ _

theorem cons_iff {p : κ × α} : Ascending (p :: l) ↔ (∀ q ∈ l, p.1 < q.1) ∧ Ascending l :=
  List.pairwise_cons

theorem filter (h : Ascending l) (p : κ × α → Bool) : Ascending (l.filter p) :=
  List.Pairwise.filter p h

/-- Only the keys decide. -/
theorem of_keys {β : Type*} {m : List (κ × β)} (h : Ascending l)
    (hkeys : (m.map Prod.fst).Sublist (l.map Prod.fst)) : Ascending m := by
  have hl : (l.map Prod.fst).Pairwise (· < ·) := List.pairwise_map.mpr h
  exact List.pairwise_map.mp (hl.sublist hkeys)

variable [BEq κ] [LawfulBEq κ]

omit [LinearOrder κ] in
theorem lookup_cons (p : κ × α) (l : List (κ × α)) (k : κ) [Decidable (k = p.1)] :
    (p :: l).lookup k = if k = p.1 then some p.2 else l.lookup k := by
  by_cases hk : k = p.1
  · rw [List.lookup_cons, if_pos hk, beq_iff_eq.mpr hk]
  · rw [List.lookup_cons, if_neg hk, beq_eq_false_iff_ne.mpr hk]

/-- A lookup answers what is stored under the key. -/
theorem lookup_eq_some (h : Ascending l) : l.lookup k = some v ↔ (k, v) ∈ l := by
  induction l with
  | nil => simp
  | cons p rest ih =>
      obtain ⟨hlt, hrest⟩ := cons_iff.mp h
      rw [lookup_cons, List.mem_cons]
      by_cases hk : k = p.1
      · have hnot : (k, v) ∉ rest := by
          intro hmem
          exact absurd (hlt _ hmem) (by simp [hk])
        simp only [hk, if_true, Option.some.injEq] at hnot ⊢
        simp [hnot, Prod.ext_iff, eq_comm]
      · have hne : (k, v) ≠ p := by
          rintro rfl
          exact hk rfl
        simp [hk, hne, ih hrest]

omit [LinearOrder κ] in
theorem lookup_eq_none [DecidableEq κ] : l.lookup k = none ↔ ∀ p ∈ l, p.1 ≠ k := by
  induction l with
  | nil => simp
  | cons p rest ih =>
      rw [lookup_cons]
      by_cases hk : k = p.1
      · simp [hk]
      · simp [hk, ih, Ne.symm hk]

/-- Maps that answer alike are equal. -/
theorem ext (h : Ascending l) (h' : Ascending l') (hlookup : ∀ k, l.lookup k = l'.lookup k) :
    l = l' := by
  have : Std.Antisymm fun a b : κ × α => a.1 < b.1 := ⟨fun _ _ hab hba => absurd hab hba.asymm⟩
  have : Std.Irrefl fun a b : κ × α => a.1 < b.1 := ⟨fun a => lt_irrefl a.1⟩
  apply List.Pairwise.eq_of_mem_iff h h'
  rintro ⟨k, v⟩
  rw [← h.lookup_eq_some, ← h'.lookup_eq_some, hlookup]

theorem lookup_filter (keep : κ → Bool) (l : List (κ × α)) (k : κ) :
    (l.filter fun p => keep p.1).lookup k = if keep k then l.lookup k else none := by
  induction l with
  | nil => simp
  | cons p rest ih =>
      rw [List.filter_cons, lookup_cons]
      by_cases hkeep : keep p.1 = true
      · rw [if_pos hkeep, lookup_cons, ih]
        by_cases hk : k = p.1
        · simp [hk, hkeep]
        · simp [hk]
      · rw [if_neg hkeep, ih]
        by_cases hk : k = p.1
        · simp [hk, hkeep]
        · simp [hk]

end Ascending

section Objects

mutual

/-- The keys of every object in the value ascend. -/
def Json.Ordered : Json → Prop
  | .obj fields => Ascending fields ∧ fieldsOrdered fields
  | .arr items => itemsOrdered items
  | _ => True

def itemsOrdered : List Json → Prop
  | [] => True
  | v :: rest => v.Ordered ∧ itemsOrdered rest

def fieldsOrdered : List (String × Json) → Prop
  | [] => True
  | (_, v) :: rest => v.Ordered ∧ fieldsOrdered rest

end

/-- A value as the JSON library holds it, whose objects are ordered maps. -/
structure Value where
  json : Json
  ordered : json.Ordered

/-- An object of the JSON library. -/
structure JsonMap where
  fields : List (String × Json)
  ascending : Ascending fields

namespace JsonMap

def toJson (m : JsonMap) : Json := .obj m.fields

/-- The members under some of the keys. -/
def restrict (m : JsonMap) (keys : List String) : JsonMap where
  fields := m.fields.filter fun p => keys.contains p.1
  ascending := m.ascending.filter _

theorem lookup_restrict (m : JsonMap) (keys : List String) (k : String) :
    (m.restrict keys).fields.lookup k = if k ∈ keys then m.fields.lookup k else none := by
  rw [restrict, Ascending.lookup_filter (fun k => keys.contains k)]
  simp

end JsonMap

theorem ordered_of_lookup {fields : List (String × Json)} (h : fieldsOrdered fields)
    {k : String} {v : Json} (hv : fields.lookup k = some v) : v.Ordered := by
  induction fields with
  | nil => simp at hv
  | cons p rest ih =>
      obtain ⟨hp, hrest⟩ := h
      rw [Ascending.lookup_cons] at hv
      split at hv
      · cases hv
        exact hp
      · exact ih hrest hv

/-- A member of an ordered object is ordered. -/
theorem Json.Ordered.get? {v w : Json} (h : v.Ordered) {k : String} (hw : v.get? k = some w) :
    w.Ordered := by
  cases v with
  | obj fields => exact ordered_of_lookup h.2 hw
  | null | bool | int | float | str | arr => cases hw

end Objects

end ElectronixMes.Serde
