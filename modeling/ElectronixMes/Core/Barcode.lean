import ElectronixMes.Text.Segments

/-!
# Barcodes

The `EMX1|<type>|<id>` format: a fixed first field, a short type code and the id of the
entity, between bars. Only the first two bars delimit, so the id may hold more of them.
-/

namespace ElectronixMes.Core.Barcode

open Text

/-- The first field of every barcode. -/
def codePrefix : String := "EMX1"

/-- Encode an entity into a barcode string. -/
def encode (typeCode id : String) : String :=
  codePrefix ++ "|" ++ typeCode ++ "|" ++ id

/-- Parse a barcode into its type code and its id. -/
def parse (code : String) : Option (String × String) :=
  match (splitn (· == '|') 3 code.toList).map String.ofList with
  | first :: typeCode :: id :: _ =>
      if first ≠ codePrefix ∨ typeCode = "" ∨ id = "" then none else some (typeCode, id)
  | _ => none

variable {code first typeCode id : String}

theorem isWord_bar_iff {w : List Char} : IsWord (· == '|') w ↔ '|' ∉ w := by
  constructor
  · intro h hmem
    exact absurd (h '|' hmem) (by simp)
  · intro h c hc
    apply beq_eq_false_iff_ne.mpr
    intro hbar
    exact h (hbar ▸ hc)

/-- A code falls into three fields at its first two bars. -/
theorem splitn_bar_iff {w₁ w₂ w₃ s : List Char} {ws : List (List Char)} :
    splitn (· == '|') 3 s = w₁ :: w₂ :: w₃ :: ws ↔
      '|' ∉ w₁ ∧ '|' ∉ w₂ ∧ ws = [] ∧ s = w₁ ++ '|' :: (w₂ ++ '|' :: w₃) := by
  rw [splitn_eq_cons_cons_iff, isWord_bar_iff]
  constructor
  · intro hfirst
    obtain ⟨hw₁, c, rest, hc, hs, hrest⟩ := hfirst
    rw [splitn_eq_cons_cons_iff, isWord_bar_iff] at hrest
    obtain ⟨hw₂, d, last, hd, hrest, hlast⟩ := hrest
    obtain ⟨hw₃, hws⟩ := List.cons.inj hlast
    rw [beq_iff_eq] at hc hd
    subst hc hd hrest hw₃
    exact ⟨hw₁, hw₂, hws.symm, hs⟩
  · intro hfields
    obtain ⟨hw₁, hw₂, hws, hs⟩ := hfields
    refine ⟨hw₁, '|', _, beq_self_eq_true _, hs, ?_⟩
    rw [splitn_eq_cons_cons_iff, isWord_bar_iff]
    exact ⟨hw₂, '|', w₃, beq_self_eq_true _, rfl, by rw [splitn_one, hws]⟩

theorem bar_notMem_codePrefix : '|' ∉ codePrefix.toList := by decide

theorem toList_encode (typeCode id : String) :
    (encode typeCode id).toList =
      codePrefix.toList ++ '|' :: (typeCode.toList ++ '|' :: id.toList) := by
  have hbar : "|".toList = ['|'] := rfl
  simp only [encode, String.toList_append, hbar, List.append_assoc, List.cons_append,
    List.nil_append]

/-- What `parse` reads, field by field. -/
theorem parse_eq_some_iff :
    parse code = some (typeCode, id) ↔
      ∃ ws, splitn (· == '|') 3 code.toList
          = codePrefix.toList :: typeCode.toList :: id.toList :: ws
        ∧ typeCode ≠ "" ∧ id ≠ "" := by
  unfold parse
  constructor
  · intro hparse
    split at hparse
    · rename_i first' typeCode' id' rest hsplit
      split at hparse
      · exact absurd hparse (Option.some_ne_none _).symm
      · rename_i hfields
        rw [not_or, not_or, not_not] at hfields
        obtain ⟨hfirst, htype, hid⟩ := hfields
        obtain ⟨rfl, rfl⟩ := Prod.mk.inj (Option.some.inj hparse)
        -- the pieces themselves, back from the texts made of them
        have hpieces := congrArg (List.map String.toList) hsplit
        rw [List.map_map, hfirst] at hpieces
        have htexts : String.toList ∘ String.ofList = fun w => w := by
          funext w
          simp
        rw [htexts, List.map_id'] at hpieces
        exact ⟨_, hpieces, htype, hid⟩
    · exact absurd hparse (Option.some_ne_none _).symm
  · intro hread
    obtain ⟨ws, hsplit, htype, hid⟩ := hread
    rw [hsplit]
    simp [htype, hid]

/-- `parse` accepts exactly the codes of a type without a bar and an id, both non-empty. -/
theorem parse_iff :
    parse code = some (typeCode, id) ↔
      typeCode ≠ "" ∧ '|' ∉ typeCode.toList ∧ id ≠ "" ∧ code = encode typeCode id := by
  rw [parse_eq_some_iff]
  constructor
  · intro hread
    obtain ⟨ws, hsplit, htype, hid⟩ := hread
    obtain ⟨-, hbar, -, hcode⟩ := splitn_bar_iff.mp hsplit
    rw [← toList_encode] at hcode
    exact ⟨htype, hbar, hid, String.toList_inj.mp hcode⟩
  · intro hfields
    obtain ⟨htype, hbar, hid, hcode⟩ := hfields
    refine ⟨[], ?_, htype, hid⟩
    rw [splitn_bar_iff, hcode, toList_encode]
    exact ⟨bar_notMem_codePrefix, hbar, rfl, rfl⟩

theorem parse_encode (htype : typeCode ≠ "") (hbar : '|' ∉ typeCode.toList) (hid : id ≠ "") :
    parse (encode typeCode id) = some (typeCode, id) :=
  parse_iff.mpr ⟨htype, hbar, hid, rfl⟩

theorem encode_of_parse {entity : String × String} (h : parse code = some entity) :
    encode entity.1 entity.2 = code :=
  (parse_iff.mp h).2.2.2.symm

/-- The grammar of barcodes: what is accepted, and that parsing and encoding undo one
another on it. -/
theorem barcode_grammar :
    (∀ code typeCode id : String, parse code = some (typeCode, id) ↔
        typeCode ≠ "" ∧ '|' ∉ typeCode.toList ∧ id ≠ "" ∧ code = encode typeCode id)
      ∧ (∀ typeCode id : String, typeCode ≠ "" → '|' ∉ typeCode.toList → id ≠ "" →
          parse (encode typeCode id) = some (typeCode, id))
      ∧ (∀ (code : String) (entity : String × String), parse code = some entity →
          encode entity.1 entity.2 = code)
      ∧ ∀ (code₁ code₂ : String) (entity₁ entity₂ : String × String),
          parse code₁ = some entity₁ → parse code₂ = some entity₂ → entity₁ ≠ entity₂ →
            code₁ ≠ code₂ ∧ encode entity₁.1 entity₁.2 ≠ encode entity₂.1 entity₂.2 := by
  refine ⟨fun _ _ _ => parse_iff, fun _ _ htype hbar hid => parse_encode htype hbar hid,
    fun _ _ hparse => encode_of_parse hparse, ?_⟩
  intro code₁ code₂ entity₁ entity₂ hparse₁ hparse₂ hne
  have hcodes : code₁ ≠ code₂ := by
    intro hcode
    rw [hcode, hparse₂] at hparse₁
    exact hne (Option.some.inj hparse₁).symm
  refine ⟨hcodes, ?_⟩
  rw [encode_of_parse hparse₁, encode_of_parse hparse₂]
  exact hcodes

-- the id keeps the bars behind the second one
example : parse "EMX1|SER|a|b" = some ("SER", "a|b") := by decide

end ElectronixMes.Core.Barcode
