import ElectronixMes.Db.RepoTrace

/-!
# A trace lists shortest distances

The rows of the recursive query are the walks of up to 64 edges, on any genealogy, cyclic
or not. A row is joined with one number at most, so a group is an entity, and it stands at
the length of a shortest walk. A walk back along the edges has the length of the walk, so
the two directions list the same distances.
-/

namespace ElectronixMes.Db

open Relational ElectronixMes.Graph

/-- The parent consumed the child. -/
def Consumed (db : Database) (parent child : Entity) : Prop :=
  ∃ g ∈ db.genealogy, g.parent = parent ∧ g.child = child

/-- The nodes are the entities within 64 edges, each once and at its least distance. -/
structure ListsDistances (r : Entity → Entity → Prop) (e : Entity) (nodes : List TraceNode) :
    Prop where
  reached : ∀ y, (∃ n ∈ nodes, n.entity = y) ↔ ∃ k, 1 ≤ k ∧ k ≤ 64 ∧ Walk r k e y
  once : (nodes.map TraceNode.entity).Nodup
  shortest : ∀ n ∈ nodes, IsLeast {k | 1 ≤ k ∧ Walk r k e n.entity} n.depth

section Trace

variable {db : Database} {next : Entity → List Entity} {r : Entity → Entity → Prop} {e y : Entity}
  {d : ℕ}

theorem mem_childrenOf {a b : Entity} : b ∈ childrenOf db a ↔ Consumed db a b := by
  simp [childrenOf, Consumed, and_assoc]

theorem mem_parentsOf {a b : Entity} : b ∈ parentsOf db a ↔ Consumed db b a := by
  simp only [parentsOf, Consumed, List.mem_map, List.mem_filter, decide_eq_true_eq, and_assoc,
    Table.mem_rows]
  exact exists_congr fun g => and_congr_right fun _ => and_comm

/-- A recorded edge adds itself and nothing else. -/
theorem consumed_addGenealogy {parentType parentId childType childId : String} {a b : Entity} :
    Consumed (addGenealogy db parentType parentId childType childId) a b ↔
      Consumed db a b ∨ (a = (parentType, parentId) ∧ b = (childType, childId)) := by
  let row : GenealogyRow := ⟨parentType, parentId, childType, childId⟩
  have hmem (g : GenealogyRow) :
      g ∈ (addGenealogy db parentType parentId childType childId).genealogy ↔
        g ∈ db.genealogy ∨ g = row := by
    show g ∈ (db.genealogy.insert? row).getD db.genealogy ↔ _
    cases hins : db.genealogy.insert? row with
    | none =>
        obtain ⟨s, hs, hkey⟩ := Table.insert?_eq_none.mp hins
        obtain rfl : s = row := hkey
        rw [Option.getD_none]
        exact (or_iff_left_of_imp fun heq => heq ▸ hs).symm
    | some genealogy =>
        rw [Option.getD_some]
        exact Table.mem_insert? hins
  unfold Consumed
  constructor
  · rintro ⟨g, hg, rfl, rfl⟩
    rcases (hmem g).mp hg with hg | rfl
    · exact Or.inl ⟨g, hg, rfl, rfl⟩
    · exact Or.inr ⟨rfl, rfl⟩
  · rintro (⟨g, hg, ha, hb⟩ | ⟨rfl, rfl⟩)
    · exact ⟨g, (hmem g).mpr (Or.inl hg), ha, hb⟩
    · exact ⟨row, (hmem row).mpr (Or.inr rfl), rfl, rfl⟩

/-- The query's rows before they are grouped. -/
theorem mem_rows_iff (hr : ∀ a b, b ∈ next a ↔ r a b) :
    (y, d) ∈ walkRows next 1 63 (next e) ↔ 1 ≤ d ∧ d ≤ 64 ∧ Walk r d e y := by
  rw [mem_walkRows hr]
  simp only [hr, ← walk_succ_iff]
  constructor
  · rintro ⟨k, hk, rfl, hwalk⟩
    rw [Nat.add_comm]
    exact ⟨by omega, by omega, hwalk⟩
  · rintro ⟨hlo, hhi, hwalk⟩
    obtain ⟨k, rfl⟩ := Nat.exists_eq_add_of_le hlo
    rw [Nat.add_comm] at hwalk
    exact ⟨k, by omega, rfl, hwalk⟩

/-- The nodes of a trace. -/
theorem mem_trace (hr : ∀ a b, b ∈ next a ↔ r a b) {n : TraceNode} :
    n ∈ trace db next e ↔
      n.refNo = refNo db n.entity ∧
        IsLeast {k | 1 ≤ k ∧ k ≤ 64 ∧ Walk r k e n.entity} n.depth := by
  have hrows (key : Entity × Option String) (k : ℕ) :
      (key, k) ∈ (walkRows next 1 63 (next e)).map (fun row => ((row.1, refNo db row.1), row.2)) ↔
        key.2 = refNo db key.1 ∧ 1 ≤ k ∧ k ≤ 64 ∧ Walk r k e key.1 := by
    rw [← mem_rows_iff hr, List.mem_map]
    constructor
    · rintro ⟨row, hrow, heq⟩
      cases heq
      exact ⟨rfl, hrow⟩
    · rintro ⟨hno, hrow⟩
      exact ⟨(key.1, k), hrow, by rw [← hno]⟩
  unfold trace
  rw [List.mem_insertionSort, List.mem_map]
  constructor
  · rintro ⟨⟨key, k⟩, hgroup, rfl⟩
    have hleast := mem_groupMin.mp hgroup
    have hno : key.2 = refNo db key.1 := ((hrows key k).mp hleast.1).1
    refine ⟨hno, ((hrows key k).mp hleast.1).2, ?_⟩
    intro j hj
    exact hleast.2 ((hrows key j).mpr ⟨hno, hj⟩)
  · rintro ⟨hno, hleast⟩
    refine ⟨((n.entity, n.refNo), n.depth), ?_, rfl⟩
    rw [mem_groupMin]
    refine ⟨(hrows _ _).mpr ⟨hno, hleast.1⟩, ?_⟩
    intro j hj
    exact hleast.2 ((hrows _ j).mp hj).2

/-- A trace lists the distances along its direction. -/
theorem trace_listsDistances (hr : ∀ a b, b ∈ next a ↔ r a b) :
    ListsDistances r e (trace db next e) where
  reached := by
    intro y
    constructor
    · rintro ⟨n, hn, rfl⟩
      exact ⟨n.depth, ((mem_trace hr).mp hn).2.1⟩
    · rintro ⟨k, hk⟩
      have hex : ∃ k, 1 ≤ k ∧ k ≤ 64 ∧ Walk r k e y := ⟨k, hk⟩
      classical
      refine ⟨⟨y.1, y.2, refNo db y, Nat.find hex⟩, (mem_trace hr).mpr ⟨rfl, ?_⟩, rfl⟩
      exact ⟨Nat.find_spec hex, fun j hj => Nat.find_min' hex hj⟩
  once := by
    -- nodes of one entity have one number and one least distance
    have hinj : ∀ m ∈ trace db next e, ∀ n ∈ trace db next e, m.entity = n.entity → m = n := by
      intro m hm n hn heq
      obtain ⟨hno, hleast⟩ := (mem_trace hr).mp hm
      obtain ⟨hno', hleast'⟩ := (mem_trace hr).mp hn
      rw [heq] at hno hleast
      have hdepth : m.depth = n.depth := hleast.unique hleast'
      have hnumber : m.refNo = n.refNo := hno.trans hno'.symm
      obtain ⟨htype, hid⟩ := Prod.ext_iff.mp heq
      exact TraceNode.ext htype hid hnumber hdepth
    refine List.Nodup.map_on (fun m hm n hn => hinj m hm n hn) ?_
    unfold trace
    rw [(List.perm_insertionSort _ _).nodup_iff]
    refine List.Nodup.map ?_ (List.Nodup.of_map Prod.fst (nodup_groupMin _))
    rintro ⟨⟨⟨t, i⟩, no⟩, k⟩ ⟨⟨⟨t', i'⟩, no'⟩, k'⟩ heq
    simpa [and_assoc] using heq
  shortest := by
    intro n hn
    obtain ⟨⟨hlo, hhi, hwalk⟩, hleast⟩ := ((mem_trace hr).mp hn).2
    refine ⟨⟨hlo, hwalk⟩, ?_⟩
    rintro j ⟨hj, hwalk'⟩
    by_cases hfar : j ≤ 64
    · exact hleast ⟨hj, hfar, hwalk'⟩
    · exact hhi.trans (not_le.mp hfar).le

/-- Traces compute shortest distances in either direction, and the same ones. -/
theorem traces_shortest (db : Database) :
    (∀ t i, ListsDistances (Consumed db) (t, i) (traceBackward db t i)) ∧
      (∀ t i, ListsDistances (fun child parent => Consumed db parent child) (t, i)
        (traceForward db t i)) ∧
      ∀ t i t' i' d,
        (∃ n ∈ traceBackward db t i, n.entity = (t', i') ∧ n.depth = d) ↔
          ∃ n ∈ traceForward db t' i', n.entity = (t, i) ∧ n.depth = d := by
  have hback : ∀ a b, b ∈ childrenOf db a ↔ Consumed db a b := fun a b => mem_childrenOf
  have hforth : ∀ a b, b ∈ parentsOf db a ↔ Consumed db b a := fun a b => mem_parentsOf
  refine ⟨fun t i => trace_listsDistances hback, fun t i => trace_listsDistances hforth, ?_⟩
  have hlisted {next : Entity → List Entity} {r : Entity → Entity → Prop}
      (hr : ∀ a b, b ∈ next a ↔ r a b) (e y : Entity) (d : ℕ) :
      (∃ n ∈ trace db next e, n.entity = y ∧ n.depth = d) ↔
        IsLeast {k | 1 ≤ k ∧ k ≤ 64 ∧ Walk r k e y} d := by
    constructor
    · rintro ⟨n, hn, rfl, rfl⟩
      exact ((mem_trace hr).mp hn).2
    · intro hleast
      exact ⟨⟨y.1, y.2, refNo db y, d⟩, (mem_trace hr).mpr ⟨rfl, hleast⟩, rfl, rfl⟩
  intro t i t' i' d
  unfold traceBackward traceForward
  rw [hlisted hback, hlisted hforth]
  simp only [walk_flip_iff]

/-- Two lots that went into each other. -/
example :
    traceBackward
        { genealogy := ⟨[⟨"lot", "a", "lot", "b"⟩, ⟨"lot", "b", "lot", "a"⟩], by decide⟩ }
        "lot" "a" =
      [⟨"lot", "b", none, 1⟩, ⟨"lot", "a", none, 2⟩] := by
  decide +kernel

end Trace

end ElectronixMes.Db
