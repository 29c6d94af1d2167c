import ElectronixMes.Relational.Table

/-!
# Unique constraints

A constraint says which two rows may not stand in one table; two rows with `NULL` in a column
need not clash, so it is a relation and not a key. An insert or an update that would break one
of the constraints of its table names the first of them.
-/

namespace ElectronixMes.Relational

/-- A named constraint and the rows that it does not let stand together. -/
structure UniqueConstraint (ρ : Type*) where
  name : String
  clash : ρ → ρ → Bool
  symm : ∀ r s, clash r s = clash s r

variable {ρ κ : Type*} [Keyed ρ κ]

open Keyed (key)

/-- No two rows of the table clash. -/
def Table.Separate (constraints : List (UniqueConstraint ρ)) (t : Table ρ) : Prop :=
  ∀ c ∈ constraints, ∀ r ∈ t, ∀ s ∈ t, c.clash r s = true → key r = key s

instance (constraints : List (UniqueConstraint ρ)) (t : Table ρ) [DecidableEq κ] :
    Decidable (t.Separate constraints) :=
  inferInstanceAs (Decidable (∀ c ∈ constraints, ∀ r ∈ t.rows, ∀ s ∈ t.rows,
    c.clash r s = true → key r = key s))

/-- The first constraint that a row breaks next to some others. -/
def firstBroken (constraints : List (UniqueConstraint ρ)) (others : List ρ) (r : ρ) :
    Option String :=
  (constraints.find? fun c => others.any (c.clash r)).map UniqueConstraint.name

omit [Keyed ρ κ] in
theorem firstBroken_eq_none {constraints : List (UniqueConstraint ρ)} {others : List ρ} {r : ρ} :
    firstBroken constraints others r = none ↔
      ∀ c ∈ constraints, ∀ s ∈ others, c.clash r s = false := by
  simp [firstBroken]

namespace Table

variable {t t' : Table ρ} {constraints : List (UniqueConstraint ρ)} {r : ρ}

/-- Fewer rows clash less. -/
theorem Separate.of_subset (h : t.Separate constraints) (hsub : ∀ r ∈ t', r ∈ t) :
    t'.Separate constraints :=
  fun c hc r hr s hs => h c hc r (hsub r hr) s (hsub s hs)

theorem Separate.delete (h : t.Separate constraints) (p : ρ → Bool) :
    (t.delete p).Separate constraints :=
  h.of_subset fun _ hr => (mem_delete.mp hr).1

variable [DecidableEq κ]

theorem Separate.insert? (h : t.Separate constraints) (hins : t.insert? r = some t')
    (hfree : firstBroken constraints t.rows r = none) : t'.Separate constraints := by
  rw [firstBroken_eq_none] at hfree
  intro c hc a ha b hb hclash
  rcases (mem_insert? hins).mp ha with ha | rfl
  · rcases (mem_insert? hins).mp hb with hb | rfl
    · exact h c hc a ha b hb hclash
    · rw [c.symm, hfree c hc a ha] at hclash
      cases hclash
  · rcases (mem_insert? hins).mp hb with hb | rfl
    · rw [hfree c hc b hb] at hclash
      cases hclash
    · rfl

/-- A row may take the place of the one with its key when it clashes with no other. -/
theorem Separate.put (h : t.Separate constraints)
    (hfree : firstBroken constraints (t.rows.filter fun s => key s ≠ key r) r = none) :
    (t.put r).Separate constraints := by
  rw [firstBroken_eq_none] at hfree
  have hother : ∀ s ∈ t, key s ≠ key r → s ∈ t.rows.filter fun s => key s ≠ key r :=
    fun s hs hne => List.mem_filter.mpr ⟨hs, by simpa using hne⟩
  intro c hc a ha b hb hclash
  rcases mem_put.mp ha with rfl | ⟨hat, hane⟩
  · rcases mem_put.mp hb with rfl | ⟨hbt, hbne⟩
    · rfl
    · rw [hfree c hc b (hother b hbt hbne)] at hclash
      cases hclash
  · rcases mem_put.mp hb with rfl | ⟨hbt, hbne⟩
    · rw [c.symm, hfree c hc a (hother a hat hane)] at hclash
      cases hclash
    · exact h c hc a hat b hbt hclash

/-! ## Presence of a key -/

omit [DecidableEq κ] in
/-- Some row has the key. -/
def Has (t : Table ρ) (k : κ) : Prop := ∃ r ∈ t, key r = k

instance (t : Table ρ) (k : κ) : Decidable (t.Has k) :=
  inferInstanceAs (Decidable (∃ r ∈ t.rows, key r = k))

omit [DecidableEq κ] in
/-- What holds of every row can be tested. -/
instance (t : Table ρ) (p : ρ → Prop) [DecidablePred p] : Decidable (∀ r ∈ t, p r) :=
  inferInstanceAs (Decidable (∀ r ∈ t.rows, p r))

theorem isSome_lookup {k : κ} : (t.lookup k).isSome = true ↔ t.Has k := by
  rw [Option.isSome_iff_exists]
  simp only [lookup_eq_some]
  rfl

theorem Has.insert? {k : κ} (h : t.Has k) (hins : t.insert? r = some t') : t'.Has k := by
  obtain ⟨s, hs, hk⟩ := h
  exact ⟨s, (mem_insert? hins).mpr (Or.inl hs), hk⟩

/-- A write takes no key away. -/
theorem Has.put {k : κ} (h : t.Has k) (r : ρ) : (t.put r).Has k := by
  obtain ⟨s, hs, hk⟩ := h
  by_cases hsr : key s = key r
  · exact ⟨r, mem_put_self t r, hsr ▸ hk⟩
  · exact ⟨s, mem_put.mpr (Or.inr ⟨hs, hsr⟩), hk⟩

omit [DecidableEq κ] in
/-- A delete takes away the keys of the rows it names only. -/
theorem Has.delete {k : κ} {p : ρ → Bool} (h : t.Has k)
    (hp : ∀ s ∈ t, key s = k → p s = false) : (t.delete p).Has k := by
  obtain ⟨s, hs, hk⟩ := h
  exact ⟨s, mem_delete.mpr ⟨hs, hp s hs hk⟩, hk⟩

end Table

end ElectronixMes.Relational
