import Mathlib.Data.List.Nodup

/-!
# Tables with a primary key

A table is the list of its rows in insertion order, together with the proof
that no two rows share their primary key. The operations are the ones SQL
statements need: a keyed read, an insert that fails on a taken key, an update
that keeps every key, a delete by predicate, and the write of an upsert.
-/

namespace ElectronixMes.Relational

/-- The primary-key column of a row type. -/
class Keyed (ρ : Type*) (κ : outParam Type*) where
  key : ρ → κ

/-- The rows of a table, no two of which share their primary key. -/
@[ext] structure Table (ρ : Type*) {κ : Type*} [Keyed ρ κ] where
  rows : List ρ
  unique : (rows.map Keyed.key).Nodup

namespace Table

variable {ρ κ : Type*} [Keyed ρ κ]

open Keyed (key)

instance : EmptyCollection (Table ρ) := ⟨⟨[], List.nodup_nil⟩⟩

instance : Membership ρ (Table ρ) := ⟨fun t r => r ∈ t.rows⟩

instance [DecidableEq ρ] : DecidableEq (Table ρ) := fun s t =>
  decidable_of_iff (s.rows = t.rows) Table.ext_iff.symm

instance [DecidableEq ρ] (r : ρ) (t : Table ρ) : Decidable (r ∈ t) :=
  inferInstanceAs (Decidable (r ∈ t.rows))

@[simp] theorem mem_rows {t : Table ρ} {r : ρ} : r ∈ t.rows ↔ r ∈ t := Iff.rfl

@[simp] theorem notMem_empty (r : ρ) : r ∉ (∅ : Table ρ) := List.not_mem_nil

theorem mem_mk {rows : List ρ} {h : (rows.map key).Nodup} {r : ρ} :
    r ∈ (⟨rows, h⟩ : Table ρ) ↔ r ∈ rows := Iff.rfl

/-- Two rows of one table with the same key are the same row. -/
theorem eq_of_key_eq {t : Table ρ} {r s : ρ} (hr : r ∈ t) (hs : s ∈ t)
    (h : key r = key s) : r = s :=
  List.inj_on_of_nodup_map t.unique hr hs h

theorem nodup_rows (t : Table ρ) : t.rows.Nodup := List.Nodup.of_map key t.unique

section Delete

/-- `DELETE ... WHERE p`. -/
def delete (t : Table ρ) (p : ρ → Bool) : Table ρ where
  rows := t.rows.filter fun r => !p r
  unique := (List.filter_sublist.map key).nodup t.unique

@[simp] theorem mem_delete {t : Table ρ} {p : ρ → Bool} {r : ρ} :
    r ∈ t.delete p ↔ r ∈ t ∧ p r = false := by
  simp [delete, mem_mk]

end Delete

section Modify

/-- `UPDATE ... SET f` over every row, for an `f` that leaves the key alone. -/
def modify (t : Table ρ) (f : ρ → ρ) (hf : ∀ r, key (f r) = key r) : Table ρ where
  rows := t.rows.map f
  unique := by
    have hkeys : (t.rows.map f).map key = t.rows.map key := by
      simp [hf]
    rw [hkeys]
    exact t.unique

@[simp] theorem mem_modify {t : Table ρ} {f : ρ → ρ} {hf : ∀ r, key (f r) = key r} {r : ρ} :
    r ∈ t.modify f hf ↔ ∃ s ∈ t, f s = r := by
  simp [modify, mem_mk]

end Modify

section Project

variable {σ : Type*} [Keyed σ κ]

/-- The rows seen through some of their columns, the key among them. -/
def project (t : Table ρ) (f : ρ → σ) (hf : ∀ r, key (f r) = key r) : Table σ where
  rows := t.rows.map f
  unique := by
    have hkeys : (t.rows.map f).map key = t.rows.map key := by
      simp [hf]
    rw [hkeys]
    exact t.unique

theorem keys_project (t : Table ρ) (f : ρ → σ) (hf : ∀ r, key (f r) = key r) :
    (t.project f hf).rows.map key = t.rows.map key := by
  simp [project, hf]

theorem project_delete {t : Table ρ} {f : ρ → σ} {hf : ∀ r, key (f r) = key r} {p : ρ → Bool}
    {q : σ → Bool} (h : ∀ r, q (f r) = p r) :
    (t.delete p).project f hf = (t.project f hf).delete q := by
  apply Table.ext
  simp only [project, delete, List.filter_map, Function.comp_def, h]

end Project

variable [DecidableEq κ]

section Lookup

/-- `SELECT ... WHERE key = k`. -/
def lookup (t : Table ρ) (k : κ) : Option ρ :=
  t.rows.find? fun r => key r = k

theorem lookup_eq_some {t : Table ρ} {k : κ} {r : ρ} :
    t.lookup k = some r ↔ r ∈ t ∧ key r = k := by
  constructor
  · intro h
    exact ⟨List.mem_of_find?_eq_some h, by simpa using List.find?_some h⟩
  · rintro ⟨hr, rfl⟩
    obtain ⟨s, hs⟩ : ∃ s, t.lookup (key r) = some s := by
      rw [← Option.isSome_iff_exists]
      exact List.find?_isSome.mpr ⟨r, hr, by simp⟩
    have hkey : key s = key r := by simpa using List.find?_some hs
    rw [hs, eq_of_key_eq (List.mem_of_find?_eq_some hs) hr hkey]

theorem lookup_eq_none {t : Table ρ} {k : κ} :
    t.lookup k = none ↔ ∀ r ∈ t, key r ≠ k := by
  simp [lookup]

theorem lookup_of_mem {t : Table ρ} {r : ρ} (h : r ∈ t) : t.lookup (key r) = some r :=
  lookup_eq_some.mpr ⟨h, rfl⟩

theorem lookup_modify {t : Table ρ} {f : ρ → ρ} {hf : ∀ r, key (f r) = key r} (k : κ) :
    (t.modify f hf).lookup k = (t.lookup k).map f := by
  unfold lookup modify
  rw [List.find?_map]
  simp only [Function.comp_def, hf]

theorem lookup_project {σ : Type*} [Keyed σ κ] {t : Table ρ} {f : ρ → σ}
    {hf : ∀ r, key (f r) = key r} (k : κ) : (t.project f hf).lookup k = (t.lookup k).map f := by
  unfold lookup project
  rw [List.find?_map]
  simp only [Function.comp_def, hf]

theorem lookup_delete (t : Table ρ) (p : ρ → Bool) (k : κ) :
    (t.delete p).lookup k = (t.lookup k).filter fun r => !p r := by
  ext r
  rw [lookup_eq_some, mem_delete, Option.filter_eq_some_iff, lookup_eq_some]
  simp only [Bool.not_eq_true']
  tauto

end Lookup

section Insert

/-- `INSERT`, which fails when the primary key is taken. -/
def insert? (t : Table ρ) (r : ρ) : Option (Table ρ) :=
  if h : key r ∈ t.rows.map key then none
  else some
    { rows := t.rows ++ [r]
      unique := by
        rw [List.map_append, List.map_singleton]
        exact t.unique.append (List.nodup_singleton _) (by simpa using h) }

theorem rows_insert? {t t' : Table ρ} {r : ρ} (h : t.insert? r = some t') :
    t'.rows = t.rows ++ [r] := by
  unfold insert? at h
  split at h
  · cases h
  · cases h
    rfl

theorem mem_insert? {t t' : Table ρ} {r s : ρ} (h : t.insert? r = some t') :
    s ∈ t' ↔ s ∈ t ∨ s = r := by
  rw [← mem_rows, rows_insert? h]
  simp

theorem insert?_eq_none {t : Table ρ} {r : ρ} :
    t.insert? r = none ↔ ∃ s ∈ t, key s = key r := by
  unfold insert?
  split
  · rename_i h
    simpa using h
  · rename_i h
    simpa using h

theorem key_ne_of_insert? {t t' : Table ρ} {r : ρ} (h : t.insert? r = some t') :
    ∀ s ∈ t, key s ≠ key r := by
  intro s hs heq
  have hnone : t.insert? r = none := insert?_eq_none.mpr ⟨s, hs, heq⟩
  rw [hnone] at h
  cases h

/-- A row with a free key is inserted. -/
theorem exists_insert? {t : Table ρ} {r : ρ} (h : ∀ s ∈ t, key s ≠ key r) :
    ∃ t', t.insert? r = some t' := by
  rw [← Option.ne_none_iff_exists']
  intro hnone
  obtain ⟨s, hs, hkey⟩ := insert?_eq_none.mp hnone
  exact h s hs hkey

/-- Insert several rows; a taken key fails them all. -/
def insertAll? (t : Table ρ) (rs : List ρ) : Option (Table ρ) := rs.foldlM insert? t

theorem insertAll?_concat {t t' : Table ρ} {rs : List ρ} (h : t.insertAll? rs = some t') (r : ρ) :
    t.insertAll? (rs ++ [r]) = t'.insert? r := by
  unfold insertAll? at h ⊢
  rw [List.foldlM_append, h]
  simp

theorem rows_insertAll? {t t' : Table ρ} {rs : List ρ} (h : t.insertAll? rs = some t') :
    t'.rows = t.rows ++ rs := by
  induction rs generalizing t with
  | nil =>
      cases h
      exact (List.append_nil _).symm
  | cons r rest ih =>
      unfold insertAll? at h
      rw [List.foldlM_cons, Option.bind_eq_bind, Option.bind_eq_some_iff] at h
      obtain ⟨inserted, hins, hrest⟩ := h
      rw [ih hrest, rows_insert? hins, List.append_assoc]
      rfl

theorem key_ne_of_insertAll? {t t' : Table ρ} {rs : List ρ} (h : t.insertAll? rs = some t') :
    ∀ r ∈ rs, ∀ s ∈ t, key s ≠ key r := by
  intro r hr s hs heq
  have hunique := t'.unique
  rw [rows_insertAll? h, List.map_append] at hunique
  exact (List.nodup_append.mp hunique).2.2 _ (List.mem_map_of_mem hs) _ (List.mem_map_of_mem hr) heq

theorem lookup_of_insert? {t t' : Table ρ} {r : ρ} (h : t.insert? r = some t') :
    t.lookup (key r) = none :=
  lookup_eq_none.mpr (key_ne_of_insert? h)

theorem lookup_insert?_self {t t' : Table ρ} {r : ρ} (h : t.insert? r = some t') :
    t'.lookup (key r) = some r :=
  lookup_of_mem ((mem_insert? h).mpr (Or.inr rfl))

theorem lookup_insert? {t t' : Table ρ} {r : ρ} (h : t.insert? r = some t') (k : κ) :
    t'.lookup k = if k = key r then some r else t.lookup k := by
  split
  · rename_i hk
    subst hk
    exact lookup_insert?_self h
  · rename_i hk
    ext s
    rw [lookup_eq_some, lookup_eq_some, mem_insert? h]
    constructor
    · rintro ⟨hs | rfl, hkey⟩
      · exact ⟨hs, hkey⟩
      · exact absurd hkey.symm hk
    · rintro ⟨hs, hkey⟩
      exact ⟨Or.inl hs, hkey⟩

end Insert

section Put

/-- The write of an upsert: the row with this key is replaced in place, or the
row is appended when no row has its key. -/
def put (t : Table ρ) (r : ρ) : Table ρ :=
  if h : key r ∈ t.rows.map key then
    t.modify (fun s => if key s = key r then r else s) (by
      intro s
      by_cases hs : key s = key r <;> simp [hs])
  else
    { rows := t.rows ++ [r]
      unique := by
        rw [List.map_append, List.map_singleton]
        exact t.unique.append (List.nodup_singleton _) (by simpa using h) }

theorem mem_put {t : Table ρ} {r s : ρ} :
    s ∈ t.put r ↔ s = r ∨ s ∈ t ∧ key s ≠ key r := by
  unfold put
  split
  · rename_i h
    obtain ⟨o, ho, hkey⟩ := List.mem_map.mp h
    rw [mem_modify]
    constructor
    · rintro ⟨u, hu, rfl⟩
      by_cases hk : key u = key r
      · exact Or.inl (by simp [hk])
      · exact Or.inr (by simpa [hk] using hu)
    · rintro (rfl | ⟨hs, hk⟩)
      · exact ⟨o, ho, by simp [hkey]⟩
      · exact ⟨s, hs, by simp [hk]⟩
  · rename_i h
    rw [mem_mk, List.mem_append, List.mem_singleton, mem_rows]
    have hne : s ∈ t → key s ≠ key r := fun hs heq => h (heq ▸ List.mem_map_of_mem hs)
    tauto

theorem mem_put_self (t : Table ρ) (r : ρ) : r ∈ t.put r := mem_put.mpr (Or.inl rfl)

theorem lookup_put_self (t : Table ρ) (r : ρ) : (t.put r).lookup (key r) = some r :=
  lookup_of_mem (mem_put_self t r)

/-- A write leaves every other key's row alone. -/
theorem lookup_put_of_ne {t : Table ρ} {r : ρ} {k : κ} (h : k ≠ key r) :
    (t.put r).lookup k = t.lookup k := by
  ext s
  rw [lookup_eq_some, lookup_eq_some, mem_put]
  constructor
  · rintro ⟨rfl | ⟨hs, -⟩, rfl⟩
    · exact absurd rfl h
    · exact ⟨hs, rfl⟩
  · rintro ⟨hs, rfl⟩
    exact ⟨Or.inr ⟨hs, h⟩, rfl⟩

theorem lookup_put (t : Table ρ) (r : ρ) (k : κ) :
    (t.put r).lookup k = if k = key r then some r else t.lookup k := by
  split
  · rename_i hk
    subst hk
    exact lookup_put_self t r
  · rename_i hk
    exact lookup_put_of_ne hk

/-- A write that leaves a column of its row alone leaves the column of the table alone. -/
theorem map_rows_put {β : Type*} {t : Table ρ} {r s : ρ} (hr : r ∈ t) (hkey : key s = key r)
    {f : ρ → β} (hf : f s = f r) : (t.put s).rows.map f = t.rows.map f := by
  have hmem : key s ∈ t.rows.map key := hkey ▸ List.mem_map_of_mem hr
  unfold put
  rw [dif_pos hmem]
  simp only [modify, List.map_map]
  apply List.map_congr_left
  intro u hu
  by_cases hk : key u = key s
  · rw [Function.comp_apply, if_pos hk, hf, eq_of_key_eq hr hu (hkey.symm.trans hk.symm)]
  · rw [Function.comp_apply, if_neg hk]

end Put

section Projection

variable {σ : Type*} [Keyed σ κ] {t t' : Table ρ} {f : ρ → σ} {hf : ∀ r, key (f r) = key r}
  {r r' : ρ}

theorem project_put : (t.put r).project f hf = (t.project f hf).put (f r) := by
  apply Table.ext
  unfold put
  by_cases h : key r ∈ t.rows.map key
  · rw [dif_pos h, dif_pos (by rw [keys_project, hf]; exact h)]
    simp only [project, modify, List.map_map]
    apply List.map_congr_left
    intro s _
    by_cases hs : key s = key r <;> simp [hf, hs]
  · rw [dif_neg h, dif_neg (by rw [keys_project, hf]; exact h)]
    simp [project]

theorem project_insert? (h : t.insert? r = some t') :
    (t.project f hf).insert? (f r) = some (t'.project f hf) := by
  have hfree : key (f r) ∉ (t.project f hf).rows.map key := by
    rw [keys_project, hf]
    intro hmem
    obtain ⟨s, hs, hkey⟩ := List.mem_map.mp hmem
    exact key_ne_of_insert? h s hs hkey
  obtain ⟨u, hu⟩ := exists_insert? fun s hs hkey => hfree (hkey ▸ List.mem_map_of_mem hs)
  rw [hu]
  apply congrArg some
  apply Table.ext
  rw [rows_insert? hu]
  simp only [project, rows_insert? h, List.map_append, List.map_singleton]

/-- Tables that look alike take rows that look alike, both or neither. -/
theorem insert?_alike (ht : t.project f hf = t'.project f hf) (hr : f r = f r') :
    t.insert? r = none ∧ t'.insert? r' = none ∨
      ∃ u u', t.insert? r = some u ∧ t'.insert? r' = some u' ∧
        u.project f hf = u'.project f hf := by
  have hkey : key r = key r' := by rw [← hf r, hr, hf r']
  have hkeys : t.rows.map key = t'.rows.map key := by
    rw [← keys_project t f hf, ht, keys_project]
  by_cases h : key r ∈ t.rows.map key
  · refine Or.inl ⟨?_, ?_⟩
    · rw [insert?, dif_pos h]
    · rw [insert?, dif_pos (by rw [← hkeys, ← hkey]; exact h)]
  · obtain ⟨u, hu⟩ := exists_insert? (t := t) (r := r) fun s hs hs' =>
      h (hs' ▸ List.mem_map_of_mem hs)
    obtain ⟨u', hu'⟩ := exists_insert? (t := t') (r := r') fun s hs hs' => h (by
      rw [hkeys, hkey, ← hs']
      exact List.mem_map_of_mem hs)
    refine Or.inr ⟨u, u', hu, hu', ?_⟩
    have hsame : (t.project f hf).insert? (f r) = some (u.project f hf) := project_insert? hu
    rw [hr, ht, project_insert? hu'] at hsame
    exact (Option.some.inj hsame).symm

end Projection

end Table

end ElectronixMes.Relational
