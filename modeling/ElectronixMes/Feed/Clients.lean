import ElectronixMes.Feed.Requests
import ElectronixMes.Transition.Run

/-!
# Clients of the feed

Requests to an edge and the turns of a client of `/ws`, in any order. The client subscribes at
some moment of the edge's life; it may be slow, and then misses events. What it reads is what
was published, from its subscription on and in order.
-/

namespace ElectronixMes.Feed

open Db DncBridge Edge Relational Serde Transition

/-- An edge and one of its clients. -/
structure State where
  floor : Floor
  client : Client

inductive Move where
  | request (r : Request)
  | read

section Runs

variable (ft : FloatText)

def step (s : State) : Move → State
  | .request r => { s with floor := s.floor.serve r }
  | .read => { s with client := forward ft s.floor.published s.client }

/-- The state after a run from the moment the client subscribes. -/
def after (f : Floor) (run : List Move) : State :=
  run.foldl (step ft) ⟨f, subscribe f.published⟩

/-- The events a client has read. -/
def eventsRead (client : Client) : List WsEvent := client.frames.filterMap (readFrame ft)

end Runs

/-- The client is not so slow that it misses events. -/
def KeepsUp (s : State) : Move → Prop
  | .request _ => True
  | .read => s.floor.published.length ≤ s.client.next + channelSize

instance (s : State) : (m : Move) → Decidable (KeepsUp s m)
  | .request _ => inferInstanceAs (Decidable True)
  | .read => inferInstanceAs (Decidable (_ ≤ _))

/-- The client has read all there is. -/
def CaughtUp (s : State) : Prop := s.client.next = s.floor.published.length

/-- What is published since a moment announces what has changed since then. -/
def Announced (f : Floor) (s : State) : Prop :=
  ∃ events, s.floor.published = f.published ++ events ∧
    Changes (viewOf f.db) events (viewOf s.floor.db)

/-- A client that subscribed at a moment has its frames from the channel. -/
def Taking (ft : FloatText) (f : Floor) (s : State) : Prop :=
  ∃ got, s.client.frames = got.map (frameOf ft) ∧
    Took channelSize f.published.length s.floor.published s.client.next got

/-- The frames of a client that keeps up are all there were before its next one. -/
def Complete (ft : FloatText) (f : Floor) (s : State) : Prop :=
  s.client.frames =
    ((s.floor.published.take s.client.next).drop f.published.length).map (frameOf ft)

section Invariants

variable {ft : FloatText} {f : Floor} {s : State}

theorem announced_after (ft : FloatText) (hparented : Parented (viewOf f.db)) (run : List Move) :
    Announced f (after ft f run) := by
  have hstep : ∀ (moves : List Move) s, Announced f s →
      Announced f (moves.foldl (step ft) s) := by
    intro moves
    induction moves with
    | nil => exact fun s h => h
    | cons m rest ih =>
        rintro s ⟨events, hpublished, hchanges⟩
        apply ih
        cases m with
        | request r =>
            have hserved := serve_changes s.floor.db s.floor.dnc (hchanges.parented hparented) r
            refine ⟨events ++ (serve s.floor.db s.floor.dnc r).2, ?_, hchanges.trans hserved⟩
            rw [← List.append_assoc, ← hpublished]
            rfl
        | read => exact ⟨events, hpublished, hchanges⟩
  exact hstep run _ ⟨[], (List.append_nil _).symm, .refl⟩

theorem taking_start (ft : FloatText) (f : Floor) : Taking ft f ⟨f, subscribe f.published⟩ :=
  ⟨[], rfl, took_start channelSize f.published⟩

theorem Taking.step (h : Taking ft f s) (m : Move) : Taking ft f (step ft s m) := by
  obtain ⟨got, hframes, htook⟩ := h
  cases m with
  | request r => exact ⟨got, hframes, htook.send _⟩
  | read =>
      refine ⟨got ++ (recv channelSize s.floor.published s.client.next).1.toList, ?_, ?_⟩
      · rw [Feed.step, forward_eq, List.map_append, ← hframes]
      · rw [Feed.step, forward_eq]
        exact htook.recv

theorem taking_after (ft : FloatText) (f : Floor) (run : List Move) :
    Taking ft f (after ft f run) := by
  have hstep : ∀ (moves : List Move) s, Taking ft f s →
      Taking ft f (moves.foldl (Feed.step ft) s) := by
    intro moves
    induction moves with
    | nil => exact fun s h => h
    | cons m rest ih => exact fun s h => ih _ (h.step m)
  exact hstep run _ (taking_start ft f)

theorem complete_start (ft : FloatText) (f : Floor) :
    Complete ft f ⟨f, subscribe f.published⟩ := by
  simp [Complete, subscribe]

theorem Complete.step (h : Complete ft f s) (htaking : Taking ft f s) {m : Move}
    (hkeeps : KeepsUp s m) : Complete ft f (step ft s m) := by
  obtain ⟨got, -, htook⟩ := htaking
  cases m with
  | request r =>
      have hsame : (s.floor.published ++ (serve s.floor.db s.floor.dnc r).2).take s.client.next =
          s.floor.published.take s.client.next := List.take_append_of_le_length htook.le
      change s.client.frames = _
      rw [h, Feed.step, Floor.serve, hsame]
  | read =>
      change (forward ft s.floor.published s.client).frames =
        List.map (frameOf ft) (List.drop _ (List.take
          (forward ft s.floor.published s.client).next s.floor.published))
      rw [forward_eq, ← recv_of_kept hkeeps htook.start_le, List.map_append, ← h]

theorem complete_after {run : List Move}
    (hkeeps : Along (step ft) KeepsUp ⟨f, subscribe f.published⟩ run) :
    Complete ft f (after ft f run) := by
  have hboth : Taking ft f (after ft f run) ∧ Complete ft f (after ft f run) := by
    refine hkeeps.invariant (I := fun s => Taking ft f s ∧ Complete ft f s) ?_
      ⟨taking_start ft f, complete_start ft f⟩
    rintro s m ⟨htaking, hcomplete⟩ hkept
    exact ⟨htaking.step m, hcomplete.step htaking hkept⟩
  exact hboth.2

/-- Events are read from their frames, but for what the texts keep of their figures. -/
theorem eventsRead_of_frames (hft : ∀ x, ft.Legible x) {client : Client} {got : List WsEvent}
    (hframes : client.frames = got.map (frameOf ft)) :
    eventsRead ft client = got.map (WsEvent.reread ft) := by
  rw [eventsRead, hframes, List.filterMap_map]
  calc
    got.filterMap (readFrame ft ∘ frameOf ft) = got.filterMap (some ∘ WsEvent.reread ft) :=
      List.filterMap_congr fun e _ => readFrame_frameOf hft e
    _ = got.map (WsEvent.reread ft) := congrFun List.filterMap_eq_map got

theorem eventsRead_of_complete (hft : ∀ x, ft.Legible x) (h : Complete ft f s) :
    eventsRead ft s.client =
      ((s.floor.published.take s.client.next).drop f.published.length).map
        (WsEvent.reread ft) :=
  eventsRead_of_frames hft h

/-- Nothing that a client derives from the events but for the figures is different. -/
theorem foldl_reread {β : Type*} {apply : β → WsEvent → β}
    (happly : ∀ b e, apply b (e.reread ft) = apply b e) (events : List WsEvent) (b : β) :
    (events.map (WsEvent.reread ft)).foldl apply b = events.foldl apply b := by
  rw [List.foldl_map]
  exact congrArg (fun g => events.foldl g b) (funext fun b => funext fun e => happly b e)

end Invariants

/-! ## A shift -/

/-- A released order of two operations, the first at a press and the second with a program. -/
def workshop : Floor where
  db :=
    { workCenters := ⟨[⟨"press", none, "area"⟩], by decide⟩
      workOrders := ⟨[⟨"w", "WO-1", "p", none, ⟨1, 0⟩, 0, "released", none, none, none, 0, 0⟩],
        by decide⟩
      woOperations := ⟨[⟨"a", "w", none, 10, some "press", "pending", 0, 0, none, none⟩,
        ⟨"b", "w", none, 20, none, "pending", 0, 0, none, none⟩], by decide⟩
      programs := ⟨[⟨"g", none, some "p", "O1000", none, 0⟩], by decide⟩ }
  dnc := TcpDncClient.new
  published := []

/-- The first operation is counted and done, and the program of the second is fetched. -/
def shift : List Move :=
  [.request (.startOp 1 "a"), .read, .request (.recordCount 2 3 "k" "a" ⟨1, 0, none, none⟩), .read,
    .request (.completeOp none 4 "t" "a"), .read, .read, .read, .read, .read,
    .request (.daemonEvent 5 "r" (.transferCompleted "tcp-0")), .read]

/-- Zero and one have their texts; any other number is shown as a half. -/
def coarseFloats : FloatText where
  print x := if x = 0 then "0.0".toList else if x = 1 then "1.0".toList else "0.5".toList
  read w := if w = "0.0".toList then some 0 else if w = "1.0".toList then some 1 else some (1 / 2)

theorem legible_coarseFloats (x : ℚ) : coarseFloats.Legible x := by
  unfold FloatText.Legible coarseFloats
  dsimp only
  split
  · exact ⟨by decide, List.all_eq_true.mp (by decide), 0, rfl⟩
  · split
    · exact ⟨by decide, List.all_eq_true.mp (by decide), 1, rfl⟩
    · exact ⟨by decide, List.all_eq_true.mp (by decide), 1 / 2, rfl⟩

theorem parented_workshop : Parented (viewOf workshop.db) := by
  intro opId workOrderId h
  obtain ⟨o, ho, rfl⟩ := Option.map_eq_some_iff.mp h
  have hmem := (Table.lookup_eq_some.mp ho).1
  rcases List.mem_cons.mp hmem with rfl | hmem
  · rfl
  · obtain rfl := List.mem_singleton.mp hmem
    rfl

theorem published_shift : (after coarseFloats workshop shift).floor.published =
    [.workOrderStatusChanged "w" "in_progress", .operationStarted "w" "a", .countRecorded "a" 1 0,
      .oeeSnapshot "press" 0 0 1 0, .operationCompleted "w" "a",
      .dncTransferScheduled "t" "g" "O1000" (some "b"), .dncTransferCompleted "t"] := by
  decide +kernel

theorem keepsUp_shift :
    Along (step coarseFloats) KeepsUp ⟨workshop, subscribe workshop.published⟩ shift := by
  decide

theorem caughtUp_shift : CaughtUp (after coarseFloats workshop shift) := by
  rw [CaughtUp]
  decide +kernel

section Delivery

variable {ft : FloatText} {f : Floor} {run : List Move}

/-- Whatever its pace, a client reads each frame, and only what was published since it
subscribed, in order and nothing twice; of the figures it reads what their texts say. When it
has read all there is, it has read the newest events, as many as the channel holds. One that
keeps up reads everything. -/
theorem frames_delivered (hft : ∀ x, ft.Legible x) :
    (∀ frame ∈ (after ft f run).client.frames, (readFrame ft frame).isSome) ∧
    (eventsRead ft (after ft f run).client).Sublist
      (((after ft f run).floor.published.drop f.published.length).map (WsEvent.reread ft)) ∧
    (CaughtUp (after ft f run) →
      ((after ft f run).floor.published.drop
          (max f.published.length ((after ft f run).floor.published.length - channelSize))).map
            (WsEvent.reread ft) <:+
        eventsRead ft (after ft f run).client) ∧
    (Along (step ft) KeepsUp ⟨f, subscribe f.published⟩ run →
      eventsRead ft (after ft f run).client =
        (((after ft f run).floor.published.take (after ft f run).client.next).drop
          f.published.length).map (WsEvent.reread ft)) := by
  obtain ⟨got, hframes, htook⟩ := taking_after ft f run
  have hread := eventsRead_of_frames hft hframes
  refine ⟨?_, ?_, ?_, ?_⟩
  · intro frame hframe
    rw [hframes] at hframe
    obtain ⟨e, -, rfl⟩ := List.mem_map.mp hframe
    rw [readFrame_frameOf hft e]
    rfl
  · rw [hread]
    exact (htook.sublist.trans ((List.take_sublist _ _).drop _)).map _
  · intro hcaught
    rw [hread]
    rw [CaughtUp] at hcaught
    rw [hcaught] at htook
    exact htook.newest_suffix.map _
  · intro hkeeps
    exact eventsRead_of_complete hft (complete_after hkeeps)

theorem frames_delivered_shift :
    eventsRead coarseFloats (after coarseFloats workshop shift).client =
      [.workOrderStatusChanged "w" "in_progress", .operationStarted "w" "a",
        .countRecorded "a" 1 0, .oeeSnapshot "press" 0 0 1 0, .operationCompleted "w" "a",
        .dncTransferScheduled "t" "g" "O1000" (some "b"), .dncTransferCompleted "t"] := by
  have hread := (frames_delivered legible_coarseFloats).2.2.2 keepsUp_shift
  rw [hread, published_shift, caughtUp_shift.trans (congrArg List.length published_shift)]
  rfl

theorem apply_reread (ft : FloatText) (shown : Mirror) (e : WsEvent) :
    Mirror.apply shown (e.reread ft) = Mirror.apply shown e := by
  cases e <;> rfl

end Delivery

end ElectronixMes.Feed
