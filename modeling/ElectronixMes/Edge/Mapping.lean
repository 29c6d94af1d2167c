import ElectronixMes.Edge.ErpExport
import ElectronixMes.Serde.Members

/-!
# The round trip of a field mapping (crates/mes-erp/src/mapping.rs)

A mapping renames the members of a record on the way out and back. Both ways
visit the canonical fields in order and write under the name of the other side,
so two fields that share their external name read each other's value back.
-/

namespace ElectronixMes.Edge

open Serde

section Insert

variable {l : List (String × Json)} {k : String} {v : Json}

theorem lookup_insertMember (k : String) (v : Json) (l : List (String × Json)) (k' : String) :
    (insertMember k v l).lookup k' = if k' = k then some v else l.lookup k' := by
  induction l with
  | nil => rw [insertMember, Ascending.lookup_cons]
  | cons p rest ih =>
      obtain ⟨key, w⟩ := p
      rw [insertMember]
      split
      · rename_i hk
        simp only [Ascending.lookup_cons, ← hk]
        by_cases h : k' = k <;> simp [h]
      · rename_i hk
        split
        · rw [Ascending.lookup_cons]
        · simp only [Ascending.lookup_cons, ih]
          by_cases h : k' = key
          · simp [h, Ne.symm hk]
          · simp [h]

theorem mem_insertMember {p : String × Json} (h : p ∈ insertMember k v l) :
    p = (k, v) ∨ p ∈ l := by
  induction l with
  | nil => simpa [insertMember] using h
  | cons q rest ih =>
      rw [insertMember] at h
      split at h
      · rcases List.mem_cons.mp h with h | h
        · exact Or.inl h
        · exact Or.inr (List.mem_cons_of_mem q h)
      · split at h
        · simpa using h
        · rcases List.mem_cons.mp h with h | h
          · exact Or.inr (h ▸ List.mem_cons_self)
          · rcases ih h with h | h
            · exact Or.inl h
            · exact Or.inr (List.mem_cons_of_mem q h)

theorem ascending_insertMember (h : Ascending l) : Ascending (insertMember k v l) := by
  induction l with
  | nil => exact Ascending.singleton k v
  | cons q rest ih =>
      obtain ⟨hlt, hrest⟩ := Ascending.cons_iff.mp h
      rw [insertMember]
      split
      · rename_i hk
        apply Ascending.cons_iff.mpr
        exact ⟨fun p hp => hk ▸ hlt p hp, hrest⟩
      · rename_i hk
        split
        · rename_i hlt'
          apply Ascending.cons_iff.mpr
          refine ⟨?_, h⟩
          intro p hp
          rcases List.mem_cons.mp hp with rfl | hp
          · exact hlt'
          · exact hlt'.trans (hlt p hp)
        · rename_i hge
          apply Ascending.cons_iff.mpr
          refine ⟨?_, ih hrest⟩
          intro p hp
          rcases mem_insertMember hp with rfl | hp
          · exact lt_of_le_of_ne (not_lt.mp hge) (Ne.symm hk)
          · exact hlt p hp

end Insert

section Export

variable {r : Json} {out : List (String × Json)} {fields : List (String × String)}

/-- The loop of an export over some of the fields. -/
def exportFields (r : Json) (fields : List (String × String)) (out : List (String × Json)) :
    List (String × Json) :=
  fields.foldl (fun out f =>
    match r.get? f.1 with
    | some v => insertMember f.2 v out
    | none => out) out

theorem toExternal_eq (m : FieldMapping) (r : Json) :
    m.toExternal r = .obj (exportFields r m.fields []) := rfl

/-- A field writes under its external name, when the record has it. -/
theorem lookup_exportFields_cons (f : String × String) (k : String) :
    exportFields r (f :: fields) out = exportFields r fields (exportFields r [f] out) ∧
      (exportFields r [f] out).lookup k =
        if k = f.2 then r.get? f.1 <|> out.lookup k else out.lookup k := by
  refine ⟨rfl, ?_⟩
  simp only [exportFields, List.foldl_cons, List.foldl_nil]
  cases r.get? f.1 with
  | none => simp
  | some v => simp [lookup_insertMember]

theorem ascending_exportFields (h : Ascending out) : Ascending (exportFields r fields out) := by
  induction fields generalizing out with
  | nil => exact h
  | cons f rest ih =>
      apply ih
      dsimp only
      split
      · exact ascending_insertMember h
      · exact h

/-- An external name is written exactly when a field of that name is in the record. -/
theorem isSome_lookup_exportFields (k : String) :
    ((exportFields r fields out).lookup k).isSome ↔
      (out.lookup k).isSome ∨ ∃ f ∈ fields, f.2 = k ∧ (r.get? f.1).isSome := by
  induction fields generalizing out with
  | nil => simp [exportFields]
  | cons f rest ih =>
      obtain ⟨hloop, hfirst⟩ := @lookup_exportFields_cons r out rest f k
      rw [hloop, ih, hfirst]
      by_cases hk : k = f.2
      · cases hget : r.get? f.1 <;> simp [hk, hget]
      · simp [hk, Ne.symm hk]

theorem lookup_exportFields_of_ne {k : String} (h : ∀ f ∈ fields, f.2 ≠ k) :
    (exportFields r fields out).lookup k = out.lookup k := by
  induction fields generalizing out with
  | nil => rfl
  | cons f rest ih =>
      obtain ⟨hloop, hfirst⟩ := @lookup_exportFields_cons r out rest f k
      have hk : k ≠ f.2 := (h f List.mem_cons_self).symm
      rw [hloop, ih fun g hg => h g (List.mem_cons_of_mem f hg), hfirst, if_neg hk]

/-- When no two fields share their external name, each name gets its field's member. -/
theorem lookup_exportFields {f : String × String} (hf : f ∈ fields)
    (hone : ∀ g ∈ fields, g.2 = f.2 → g.1 = f.1) :
    (exportFields r fields out).lookup f.2 = (r.get? f.1 <|> out.lookup f.2) := by
  induction fields generalizing out with
  | nil => exact absurd hf List.not_mem_nil
  | cons g rest ih =>
      obtain ⟨hloop, hfirst⟩ :=
        @lookup_exportFields_cons r out rest g f.2
      have hrest : ∀ h ∈ rest, h.2 = f.2 → h.1 = f.1 :=
        fun h hh => hone h (List.mem_cons_of_mem g hh)
      rw [hloop]
      by_cases hmem : f ∈ rest
      · rw [ih hmem hrest, hfirst]
        split
        · rename_i hname
          rw [hone g List.mem_cons_self hname.symm]
          cases r.get? f.1 <;> simp
        · rfl
      · obtain rfl : f = g := (List.mem_cons.mp hf).resolve_right hmem
        rw [lookup_exportFields_of_ne, hfirst, if_pos rfl]
        intro g hg hname
        have hsame : g = f := Prod.ext (hrest g hg hname) hname
        exact hmem (hsame ▸ hg)

end Export

section Import

/-- The loop of an import over some of the fields. -/
def importFields (x : Json) (fields : List (String × String)) : List (String × Json) :=
  fields.filterMap fun f => (x.get? f.2).map fun v => (f.1, v)

theorem keys_importFields (x : Json) (fields : List (String × String)) :
    ((importFields x fields).map Prod.fst).Sublist (fields.map Prod.fst) := by
  induction fields with
  | nil => exact List.Sublist.refl []
  | cons f rest ih =>
      rw [importFields, List.filterMap_cons]
      cases x.get? f.2 with
      | none => exact ih.cons f.1
      | some v => exact ih.cons_cons f.1

theorem ascending_importFields {fields : List (String × String)} (h : Ascending fields)
    (x : Json) : Ascending (importFields x fields) :=
  h.of_keys (keys_importFields x fields)

/-- A canonical name reads the member under its external name. -/
theorem lookup_importFields {fields : List (String × String)} (h : Ascending fields) (x : Json)
    (k : String) : (importFields x fields).lookup k = (fields.lookup k).bind x.get? := by
  induction fields with
  | nil => rfl
  | cons f rest ih =>
      obtain ⟨hlt, hrest⟩ := Ascending.cons_iff.mp h
      rw [importFields, List.filterMap_cons, Ascending.lookup_cons]
      by_cases hk : k = f.1
      · rw [if_pos hk, Option.bind_some]
        cases x.get? f.2 with
        | none =>
            apply Ascending.lookup_eq_none.mpr
            intro p hp
            have hkey : p.1 ∈ rest.map Prod.fst :=
              (keys_importFields x rest).subset (List.mem_map_of_mem hp)
            obtain ⟨g, hg, hname⟩ := List.mem_map.mp hkey
            rw [← hname, hk]
            exact (hlt g hg).ne'
        | some v => rw [Option.map_some, Ascending.lookup_cons, if_pos hk]
      · rw [if_neg hk, ← ih hrest]
        cases x.get? f.2 with
        | none => rfl
        | some v => rw [Option.map_some, Ascending.lookup_cons, if_neg hk, importFields]

end Import

section Mapping

variable {v : Value} {m : FieldMapping}

theorem keys_of_mapM {fields : List (String × Json)} {mapped : List (String × String)}
    {read : String × Json → Except String (String × String)}
    (hread : ∀ f g, read f = .ok g → g.1 = f.1) (h : fields.mapM read = .ok mapped) :
    mapped.map Prod.fst = fields.map Prod.fst := by
  induction fields generalizing mapped with
  | nil =>
      cases h
      rfl
  | cons f rest ih =>
      rw [List.mapM_cons, Db.bind_eq_ok] at h
      obtain ⟨g, hg, h⟩ := h
      obtain ⟨more, hmore, h⟩ := Db.bind_eq_ok.mp h
      cases h
      rw [List.map_cons, List.map_cons, hread f g hg, ih hmore]

/-- The fields of an accepted mapping are in the order of their canonical names. -/
theorem ascending_of_fromJson (h : FieldMapping.fromJson v.json = .ok m) :
    Ascending m.fields := by
  unfold FieldMapping.fromJson at h
  split at h
  · rename_i fields hobj
    obtain ⟨mapped, hmapped, h⟩ := Db.bind_eq_ok.mp h
    cases h
    have hordered : (Json.obj fields).Ordered := by
      rw [← hobj]
      cases hget : v.json.get? "fields" with
      | none => exact v.ordered
      | some w => exact v.ordered.get? hget
    apply hordered.1.of_keys
    rw [keys_of_mapM _ hmapped]
    intro f g hfg
    split at hfg
    · cases hfg
      rfl
    · cases hfg
  · cases h

/-- No two canonical fields have the same external name. -/
def FieldMapping.OneToOne (m : FieldMapping) : Prop :=
  ∀ f ∈ m.fields, ∀ g ∈ m.fields, f.2 = g.2 → f.1 = g.1

def FieldMapping.canonicalFields (m : FieldMapping) : List String := m.fields.map Prod.fst

def FieldMapping.externalFields (m : FieldMapping) : List String := m.fields.map Prod.snd

theorem lookup_toExternal (h : m.OneToOne) (r : Json) {f : String × String} (hf : f ∈ m.fields) :
    (exportFields r m.fields []).lookup f.2 = r.get? f.1 := by
  rw [lookup_exportFields hf fun g hg hname => h g hg f hf hname]
  cases r.get? f.1 <;> simp

/-- With different external names a canonical record comes back as far as it is mapped. -/
theorem FieldMapping.OneToOne.canonical (h : m.OneToOne) (hm : Ascending m.fields)
    (r : JsonMap) :
    m.toCanonical (m.toExternal r.toJson) = (r.restrict m.canonicalFields).fields := by
  apply Ascending.ext
  · exact ascending_importFields hm _
  · exact (r.restrict m.canonicalFields).ascending
  · intro k
    change (importFields _ m.fields).lookup k = _
    rw [lookup_importFields hm, JsonMap.lookup_restrict]
    cases hk : m.fields.lookup k with
    | none =>
        have hnot : k ∉ m.canonicalFields := by
          intro hmem
          obtain ⟨f, hf, hname⟩ := List.mem_map.mp hmem
          exact Ascending.lookup_eq_none.mp hk f hf hname
        rw [if_neg hnot, Option.bind_none]
    | some e =>
        have hf : (k, e) ∈ m.fields := hm.lookup_eq_some.mp hk
        have hmem : k ∈ m.canonicalFields := List.mem_map_of_mem hf
        rw [if_pos hmem, Option.bind_some]
        exact lookup_toExternal h r.toJson hf

theorem FieldMapping.OneToOne.external (h : m.OneToOne) (hm : Ascending m.fields)
    (x : JsonMap) :
    m.toExternal (.obj (m.toCanonical x.toJson)) = (x.restrict m.externalFields).toJson := by
  rw [toExternal_eq, JsonMap.toJson]
  congr 1
  apply Ascending.ext
  · exact ascending_exportFields Ascending.nil
  · exact (x.restrict m.externalFields).ascending
  · intro k
    rw [JsonMap.lookup_restrict]
    by_cases hk : k ∈ m.externalFields
    · obtain ⟨f, hf, rfl⟩ := List.mem_map.mp hk
      rw [if_pos hk, lookup_toExternal h _ hf]
      change (importFields _ m.fields).lookup f.1 = _
      rw [lookup_importFields hm, hm.lookup_eq_some.mpr hf]
      rfl
    · rw [if_neg hk, ← Option.not_isSome_iff_eq_none, isSome_lookup_exportFields]
      rintro (hnil | ⟨f, hf, hname, -⟩)
      · cases hnil
      · exact hk (hname ▸ List.mem_map_of_mem hf)

/-- Of two fields with one external name, a record with the first alone gains the second. -/
theorem oneToOne_of_roundtrip (hm : Ascending m.fields)
    (h : ∀ r : JsonMap,
      m.toCanonical (m.toExternal r.toJson) = (r.restrict m.canonicalFields).fields) :
    m.OneToOne := by
  intro f hf g hg hname
  by_contra hne
  let r : JsonMap := ⟨[(f.1, .null)], Ascending.singleton f.1 Json.null⟩
  have hget : r.toJson.get? f.1 = some .null := by
    change List.lookup f.1 [(f.1, Json.null)] = _
    rw [Ascending.lookup_cons, if_pos rfl]
  have hgained : ((importFields (m.toExternal r.toJson) m.fields).lookup g.1).isSome := by
    rw [lookup_importFields hm, hm.lookup_eq_some.mpr hg, Option.bind_some]
    change ((exportFields r.toJson m.fields []).lookup g.2).isSome
    rw [isSome_lookup_exportFields]
    apply Or.inr
    refine ⟨f, hf, hname, ?_⟩
    rw [hget]
    rfl
  have hmissing : (r.restrict m.canonicalFields).fields.lookup g.1 = none := by
    rw [JsonMap.lookup_restrict]
    split
    · change List.lookup g.1 [(f.1, Json.null)] = none
      rw [Ascending.lookup_cons, if_neg (Ne.symm hne)]
      rfl
    · rfl
  rw [show importFields (m.toExternal r.toJson) m.fields = _ from h r, hmissing] at hgained
  cases hgained

/-- A canonical record survives the way out and back exactly under a mapping without two
fields of one external name; then an external record survives the way in and back. -/
theorem mapping_roundtrip_iff {v : Value} {m : FieldMapping}
    (h : FieldMapping.fromJson v.json = .ok m) :
    ((∀ r : JsonMap,
        m.toCanonical (m.toExternal r.toJson) = (r.restrict m.canonicalFields).fields) ↔
      m.OneToOne) ∧
    (m.OneToOne → ∀ x : JsonMap,
      m.toExternal (.obj (m.toCanonical x.toJson)) = (x.restrict m.externalFields).toJson) := by
  have hm := ascending_of_fromJson h
  refine ⟨⟨oneToOne_of_roundtrip hm, ?_⟩, ?_⟩
  · intro hone
    exact hone.canonical hm
  · intro hone
    exact hone.external hm

/-- The vocabulary of an ERP for three fields of an order. -/
def orderVocabulary : FieldMapping :=
  ⟨[("part_id", "Item"), ("qty_ordered", "Qty"), ("wo_number", "OrderNo")]⟩

def orderVocabularyJson : Value where
  json := .obj [("fields", .obj (orderVocabulary.fields.map fun f => (f.1, .str f.2)))]
  ordered := by
    refine ⟨Ascending.singleton _ _, ⟨?_, trivial, trivial, trivial, trivial⟩, trivial⟩
    apply Ascending.of_keys (l := orderVocabulary.fields)
    · decide
    · exact List.Sublist.refl _

theorem mapping_roundtrip_orders :
    orderVocabulary.OneToOne ∧ ∀ r : JsonMap,
      orderVocabulary.toCanonical (orderVocabulary.toExternal r.toJson) =
        (r.restrict ["part_id", "qty_ordered", "wo_number"]).fields := by
  have hone : orderVocabulary.OneToOne := by
    unfold FieldMapping.OneToOne
    decide
  have hread : FieldMapping.fromJson orderVocabularyJson.json = .ok orderVocabulary := rfl
  exact ⟨hone, (mapping_roundtrip_iff hread).1.mpr hone⟩

end Mapping

end ElectronixMes.Edge
