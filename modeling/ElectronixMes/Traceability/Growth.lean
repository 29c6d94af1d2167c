import ElectronixMes.Traceability.Distances

/-!
# Traces while the genealogy grows

Nothing removes an edge of the genealogy, so a recall that found a unit once finds it ever
after, at no greater depth. One recorded edge changes a depth to that of the best detour over
it. The order in which edges are recorded, and how often, does not matter.
-/

namespace ElectronixMes.Db

open Relational ElectronixMes.Graph

/-- The assembly and the component of a recorded edge. -/
abbrev Edge := Entity × Entity

def record (db : Database) (g : Edge) : Database :=
  addGenealogy db g.1.1 g.1.2 g.2.1 g.2.2

section Growth

variable {db : Database} {next : Entity → List Entity} {r : Entity → Entity → Prop}
  {e y : Entity} {d : ℕ}

/-- What a trace lists, by its depths. -/
def Lists (nodes : List TraceNode) (y : Entity) (d : ℕ) : Prop :=
  ∃ n ∈ nodes, n.entity = y ∧ n.depth = d

theorem lists_iff (hr : ∀ a b, b ∈ next a ↔ r a b) :
    Lists (trace db next e) y d ↔ IsLeast {k | 1 ≤ k ∧ k ≤ 64 ∧ Walk r k e y} d := by
  constructor
  · rintro ⟨n, hn, rfl, rfl⟩
    exact ((mem_trace hr).mp hn).2
  · intro hleast
    exact ⟨⟨y.1, y.2, refNo db y, d⟩, (mem_trace hr).mpr ⟨rfl, hleast⟩, rfl, rfl⟩

theorem lists_traceBackward {t i : String} :
    Lists (traceBackward db t i) y d ↔
      IsLeast {k | 1 ≤ k ∧ k ≤ 64 ∧ Walk (Consumed db) k (t, i) y} d :=
  lists_iff fun _ _ => mem_childrenOf

/-- Forward, the same walks are taken from their other end. -/
theorem lists_traceForward {t i : String} :
    Lists (traceForward db t i) y d ↔
      IsLeast {k | 1 ≤ k ∧ k ≤ 64 ∧ Walk (Consumed db) k y (t, i)} d := by
  unfold traceForward
  have hparents : ∀ a b, b ∈ parentsOf db a ↔ Consumed db b a := fun _ _ => mem_parentsOf
  rw [lists_iff hparents]
  simp only [walk_flip_iff]

theorem consumed_record (g : Edge) : Consumed (record db g) = withEdge (Consumed db) g.1 g.2 := by
  funext a b
  exact propext consumed_addGenealogy

theorem consumed_foldl (run : List Edge) {a b : Entity} :
    Consumed (run.foldl record db) a b ↔ Consumed db a b ∨ (a, b) ∈ run := by
  induction run generalizing db with
  | nil => simp
  | cons g rest ih =>
      have hedge : (a, b) = g ↔ a = g.1 ∧ b = g.2 := Prod.ext_iff
      rw [List.foldl_cons, ih, consumed_record, withEdge, or_assoc, List.mem_cons, hedge]

/-- More walks reach the same ends, and no farther. -/
theorem lists_of_walks {s : Entity → Entity → Prop} {nodes nodes' : List TraceNode}
    {a b : Entity} (hnodes : Lists nodes y d ↔ IsLeast {k | 1 ≤ k ∧ k ≤ 64 ∧ Walk r k a b} d)
    (hnodes' : ∀ d', Lists nodes' y d' ↔ IsLeast {k | 1 ≤ k ∧ k ≤ 64 ∧ Walk s k a b} d')
    (hrs : ∀ x z, r x z → s x z) (h : Lists nodes y d) : ∃ d' ≤ d, Lists nodes' y d' := by
  obtain ⟨⟨hlo, hhi, hwalk⟩, -⟩ := hnodes.mp h
  have hex : ∃ k, 1 ≤ k ∧ k ≤ 64 ∧ Walk s k a b := ⟨d, hlo, hhi, hwalk.mono hrs⟩
  classical
  refine ⟨Nat.find hex, Nat.find_min' hex ⟨hlo, hhi, hwalk.mono hrs⟩, ?_⟩
  rw [hnodes']
  exact ⟨Nat.find_spec hex, fun j hj => Nat.find_min' hex hj⟩

/-- Over every run of recorded edges a trace in either direction keeps what it listed, at no
greater depth. Two runs that record the same edges, in any order and any number of times, list
the same. And one edge more brings an entity to the least of its old depth and the depth of the
detours over this edge. -/
theorem traces_grow (db : Database) (run : List Edge) (t i : String) :
    (∀ y d, Lists (traceBackward db t i) y d →
      ∃ d' ≤ d, Lists (traceBackward (run.foldl record db) t i) y d') ∧
    (∀ y d, Lists (traceForward db t i) y d →
      ∃ d' ≤ d, Lists (traceForward (run.foldl record db) t i) y d') ∧
    (∀ run' : List Edge, (∀ g, g ∈ run' ↔ g ∈ run) → ∀ y d,
      (Lists (traceBackward (run'.foldl record db) t i) y d ↔
        Lists (traceBackward (run.foldl record db) t i) y d) ∧
      (Lists (traceForward (run'.foldl record db) t i) y d ↔
        Lists (traceForward (run.foldl record db) t i) y d)) ∧
    ∀ g y d,
      (Lists (traceBackward (record (run.foldl record db) g) t i) y d ↔
        IsLeast {k | 1 ≤ k ∧ k ≤ 64 ∧ (Walk (Consumed (run.foldl record db)) k (t, i) y ∨
          ∃ a b, k = a + 1 + b ∧ Walk (Consumed (run.foldl record db)) a (t, i) g.1 ∧
            Walk (Consumed (run.foldl record db)) b g.2 y)} d) ∧
      (Lists (traceForward (record (run.foldl record db) g) t i) y d ↔
        IsLeast {k | 1 ≤ k ∧ k ≤ 64 ∧ (Walk (Consumed (run.foldl record db)) k y (t, i) ∨
          ∃ a b, k = a + 1 + b ∧ Walk (Consumed (run.foldl record db)) a y g.1 ∧
            Walk (Consumed (run.foldl record db)) b g.2 (t, i))} d) := by
  have hkeep : ∀ x z, Consumed db x z → Consumed (run.foldl record db) x z :=
    fun x z h => (consumed_foldl run).mpr (Or.inl h)
  refine ⟨?_, ?_, ?_, ?_⟩
  · intro y d h
    exact lists_of_walks lists_traceBackward (fun _ => lists_traceBackward) hkeep h
  · intro y d h
    exact lists_of_walks lists_traceForward (fun _ => lists_traceForward) hkeep h
  · intro run' hsame y d
    have hconsumed : Consumed (run'.foldl record db) = Consumed (run.foldl record db) := by
      funext a b
      rw [eq_iff_iff, consumed_foldl, consumed_foldl, hsame]
    constructor
    · rw [lists_traceBackward, lists_traceBackward, hconsumed]
    · rw [lists_traceForward, lists_traceForward, hconsumed]
  · intro g y d
    rw [lists_traceBackward, lists_traceForward, consumed_record]
    exact ⟨isLeast_withEdge le_rfl, isLeast_withEdge le_rfl⟩

end Growth

end ElectronixMes.Db
