import ElectronixMes.Serde.Json

/-!
# Tagged variants

The reader of a tagged variant sees the whole object, or the whole array, at once. Of an object
it takes the members it knows in any order, refuses one that stands twice, and passes over the
others. Of an array the tag comes first and the fields follow in their order, no more of them
than there are. A reader is described by what is `found` for each field.
-/

namespace ElectronixMes.Serde

/-- The values under a key, in order. -/
def under (fields : List (String × Json)) (k : String) : List Json :=
  (fields.filter fun p => p.1 = k).map Prod.snd

/-- What a variant is read from: the members of an object, or the elements behind the tag. -/
inductive Body where
  | members (fields : List (String × Json))
  | elements (items : List Json)

namespace Body

/-- The values for the field of a name and a place. -/
def found : Body → String → ℕ → List Json
  | members fields, k, _ => under fields k
  | elements items, _, i => items[i]?.toList

/-- An array holds nothing behind the last field. -/
def ended {α : Type} (body : Body) (n : ℕ) (x : α) : Option α :=
  match body with
  | members _ => some x
  | elements items => if items.length ≤ n then some x else none

end Body

section Readers

variable {α : Type} (body : Body) (k : String) (i : ℕ) (read : Json → Option α)

/-- A field without a default. -/
def Body.required : Option α :=
  match body.found k i with
  | [v] => read v
  | _ => none

/-- A field with a default. -/
def Body.defaulted (default : α) : Option α :=
  match body.found k i with
  | [] => some default
  | [v] => read v
  | _ => none

/-- An `Option` without a default: of an object, unlike of an array, it may be left out. -/
def Body.optional : Option (Option α) :=
  match body with
  | .members _ => body.defaulted k i (Json.asOption read) none
  | .elements _ => body.required k i (Json.asOption read)

end Readers

/-- The tag of a variant, and what the variant is read from. -/
def tagged (tag : String) : Json → Option (String × Body)
  | .obj fields => ((Body.members fields).required tag 0 Json.asString).map (·, .members fields)
  | .arr (v :: items) => v.asString.map (·, .elements items)
  | _ => none

variable {fields ms : List (String × Json)} {k : String}

theorem asString_eq_some {v : Json} {s : String} : v.asString = some s ↔ v = .str s := by
  cases v <;> simp [Json.asString]

theorem asOption_asString {v : Json} {o : Option String} :
    Json.asOption Json.asString v = some o ↔ v = optStringToJson o := by
  constructor
  · intro h
    cases v with
    | null =>
        obtain rfl : none = o := by simpa [Json.asOption] using h
        rfl
    | str s =>
        obtain rfl : some s = o := by simpa [Json.asOption, Json.asString] using h
        rfl
    | bool | int | float | arr | obj => simp [Json.asOption, Json.asString] at h
  · rintro rfl
    exact asOption_optStringToJson o

section Readers

variable {α : Type} {body : Body} {i : ℕ} {read : Json → Option α} {write : α → Json}
  {x default : α}

theorem Body.required_eq_some (hread : ∀ v x, read v = some x ↔ v = write x) :
    body.required k i read = some x ↔ body.found k i = [write x] := by
  unfold Body.required
  split
  · rename_i v heq
    rw [heq, hread, List.cons.injEq, and_iff_left rfl]
  · rename_i hnot
    constructor
    · intro h
      cases h
    · intro h
      exact absurd h (hnot _)

theorem Body.defaulted_eq_some (hread : ∀ v x, read v = some x ↔ v = write x) :
    body.defaulted k i read default = some x ↔
      body.found k i = [write x] ∨ body.found k i = [] ∧ x = default := by
  unfold Body.defaulted
  split
  · rename_i heq
    simp [heq, eq_comm]
  · rename_i v heq
    simp [heq, hread]
  · rename_i hnil hnot
    constructor
    · intro h
      cases h
    · rintro (h | h)
      · exact absurd h (hnot _)
      · exact absurd h.1 hnil

/-- The tag of an object is a member among the others. -/
theorem tagged_obj {tag name : String} :
    tagged tag (.obj fields) = some (name, body) ↔
      under fields tag = [.str name] ∧ body = .members fields := by
  rw [tagged, Option.map_eq_some_iff]
  constructor
  · rintro ⟨s, hs, heq⟩
    cases heq
    exact ⟨(Body.required_eq_some fun _ _ => asString_eq_some).mp hs, rfl⟩
  · rintro ⟨hs, rfl⟩
    exact ⟨name, (Body.required_eq_some fun _ _ => asString_eq_some).mpr hs, rfl⟩

/-- The tag of an array is its first element. -/
theorem tagged_arr {tag name : String} {items : List Json} :
    tagged tag (.arr items) = some (name, body) ↔
      ∃ rest, items = .str name :: rest ∧ body = .elements rest := by
  cases items with
  | nil => simp [tagged]
  | cons v rest =>
      rw [tagged, Option.map_eq_some_iff]
      constructor
      · rintro ⟨s, hs, heq⟩
        cases heq
        exact ⟨rest, by rw [asString_eq_some.mp hs], rfl⟩
      · rintro ⟨rest', heq, rfl⟩
        cases heq
        exact ⟨name, rfl, rfl⟩

end Readers

/-! ## The members that are known -/

/-- The members under some keys, key by key. -/
theorem filter_perm_flatMap_under {keys : List String} (hkeys : keys.Nodup) :
    (fields.filter fun p => p.1 ∈ keys).Perm
      (keys.flatMap fun k => (under fields k).map fun v => (k, v)) := by
  induction keys with
  | nil => simp
  | cons k keys ih =>
      obtain ⟨hk, hrest⟩ := List.nodup_cons.mp hkeys
      have hfirst : (fields.filter fun p => p.1 ∈ k :: keys).filter (fun p => p.1 = k) =
          (under fields k).map fun v => (k, v) := by
        rw [List.filter_filter, under, List.map_map]
        have hsame : (fields.filter fun p => p.1 = k).map ((fun v => (k, v)) ∘ Prod.snd) =
            (fields.filter fun p => p.1 = k).map id := by
          apply List.map_congr_left
          intro p hp
          have hpk : p.1 = k := by simpa using (List.mem_filter.mp hp).2
          rw [Function.comp_apply, ← hpk, id]
        rw [hsame, List.map_id]
        apply List.filter_congr
        intro p _
        by_cases hpk : p.1 = k <;> simp [hpk]
      have hothers : (fields.filter fun p => p.1 ∈ k :: keys).filter (fun p => !(p.1 = k : Bool)) =
          fields.filter fun p => p.1 ∈ keys := by
        rw [List.filter_filter]
        apply List.filter_congr
        intro p _
        by_cases hpk : p.1 = k
        · simp [hpk, hk]
        · simp [hpk]
      rw [List.flatMap_cons, ← hfirst]
      refine (List.filter_append_perm (fun p : String × Json => p.1 = k) _).symm.trans ?_
      rw [hothers]
      exact (ih hrest).append_left _

theorem under_perm (h : fields.Perm ms) (k : String) : (under fields k).Perm (under ms k) :=
  (h.filter _).map _

theorem under_filter {keys : List String} (hk : k ∈ keys) :
    under (fields.filter fun p => p.1 ∈ keys) k = under fields k := by
  unfold under
  rw [List.filter_filter]
  congr 1
  apply List.filter_congr
  intro p _
  by_cases hpk : p.1 = k <;> simp [hpk, hk]

/-- The known members are some given ones in some order exactly when under each known key
stands what is given for it, as long as no key is given twice. -/
theorem filter_perm_iff {keys : List String} (hkeys : keys.Nodup)
    (hms : ∀ p ∈ ms, p.1 ∈ keys) (hone : ∀ k ∈ keys, (under ms k).length ≤ 1) :
    (fields.filter fun p => p.1 ∈ keys).Perm ms ↔ ∀ k ∈ keys, under fields k = under ms k := by
  constructor
  · intro h k hk
    have hperm := under_perm h k
    rw [under_filter hk] at hperm
    have hlen := hone k hk
    cases hunder : under ms k with
    | nil => rwa [hunder, List.perm_nil] at hperm
    | cons v rest =>
        rw [hunder, List.length_cons] at hlen
        obtain rfl : rest = [] := List.eq_nil_of_length_eq_zero (by omega)
        rwa [hunder, List.perm_singleton] at hperm
  · intro h
    have hall : ms.filter (fun p => p.1 ∈ keys) = ms := by
      rw [List.filter_eq_self]
      intro p hp
      simpa using hms p hp
    have hsame : (keys.flatMap fun k => (under fields k).map fun v => (k, v)) =
        keys.flatMap fun k => (under ms k).map fun v => (k, v) :=
      List.flatMap_congr fun k hk => by rw [h k hk]
    have hback := @filter_perm_flatMap_under ms keys hkeys
    rw [hall, ← hsame] at hback
    exact (filter_perm_flatMap_under hkeys).trans hback.symm

end ElectronixMes.Serde
