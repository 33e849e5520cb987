import Soapy.Lib.SampleLog

/-! # Blocks that wait for a reader

What a reader saw so far, and the blocks that it gets next. They begin where it is, or behind
a gap. The reader must be told of a gap that is pending before it gets a block.
-/

namespace Soapy.Lib

variable {α : Type*} {edge : Nat → Prop} {stream more data : List α} {log : List (Seen α)}
  {pending : Bool} {b : Block α} {blocks : List (Block α)} {stop : Nat}

theorem InOrder.edge_of_free {pos : Nat} (order : InOrder edge stream log pos true) : edge pos := by
  cases order with
  | gap _ at_edge => exact at_edge

theorem Block.Of.stop_le (of : b.Of stream) (within : b.start ≤ stream.length) :
    b.stop ≤ stream.length := by
  have short := of.length_le
  rw [List.length_drop] at short
  unfold Block.stop
  omega

/-- The blocks are the samples of the stream in front of place `stop` that were not seen. -/
structure Ready (edge : Nat → Prop) (stream : List α) (log : List (Seen α)) (pending : Bool)
    (blocks : List (Block α)) (stop : Nat) : Prop where
  reads : ∃ pos free a, InOrder edge stream log pos free ∧ MayFollow edge pos (free || pending) a ∧
    (pending = true → edge pos) ∧ Chained true a blocks stop
  of : ∀ b ∈ blocks, b.Of stream
  within : stop ≤ stream.length

namespace Ready

theorem start : Ready edge ([] : List α) [] false [] 0 := by
  constructor
  · exact ⟨0, false, 0, .nil, .here 0, nofun, rfl⟩
  · nofun
  · exact Nat.le_refl 0

theorem grow (ready : Ready edge stream log pending blocks stop) :
    Ready edge (stream ++ more) log pending blocks stop := by
  obtain ⟨pos, free, a, order, follows, told, chained⟩ := ready.reads
  constructor
  · exact ⟨pos, free, a, order.grow, follows, told, chained⟩
  · intro b member
    exact (ready.of b member).grow
  · have within := ready.within
    rw [List.length_append]
    omega

theorem push (ready : Ready edge stream log pending blocks stop) (of : b.Of stream)
    (next : b.start = stop) : Ready edge stream log pending (blocks ++ [b]) b.stop := by
  obtain ⟨pos, free, a, order, follows, told, chained⟩ := ready.reads
  constructor
  · exact ⟨pos, free, a, order, follows, told, chained.push next⟩
  · intro c member
    rcases List.mem_append.mp member with old | new
    · exact ready.of c old
    · obtain rfl := List.mem_singleton.mp new
      exact of
  · apply of.stop_le
    rw [next]
    exact ready.within

theorem arrives (ready : Ready edge stream log pending blocks stream.length) :
    Ready edge (stream ++ data) log pending (blocks ++ [⟨stream.length, data⟩])
      (stream ++ data).length := by
  have pushed := ready.grow.push (Block.of_end stream data) rfl
  rw [List.length_append]
  exact pushed

theorem skip (ready : Ready edge stream log pending (b :: blocks) stop) (from_edge : edge b.start)
    (to_edge : edge b.stop) : Ready edge stream log true blocks stop := by
  obtain ⟨pos, free, a, order, follows, told, first, chained⟩ := ready.reads
  simp only [if_true] at first
  subst first
  have at_edge : edge pos := by
    cases pending with
    | true => exact told rfl
    | false =>
      cases free with
      | true => exact order.edge_of_free
      | false =>
        rw [← follows.exactly rfl]
        exact from_edge
  constructor
  · refine ⟨pos, free, b.stop, order, ?_, fun _ => at_edge, chained⟩
    rw [Bool.or_true]
    exact .behind (Nat.le_trans follows.after (Nat.le_add_right _ _)) to_edge
  · intro c member
    exact ready.of c (List.mem_cons_of_mem _ member)
  · exact ready.within

theorem tell (ready : Ready edge stream log true blocks stop) :
    Ready edge stream (log ++ [.gap]) false blocks stop := by
  obtain ⟨pos, free, a, order, follows, told, chained⟩ := ready.reads
  constructor
  · refine ⟨pos, true, a, .gap order (told rfl), ?_, nofun, chained⟩
    rw [Bool.or_true] at follows
    exact follows
  · exact ready.of
  · exact ready.within

theorem read {k : Nat} (ready : Ready edge stream log false (b :: blocks) stop)
    (within : k ≤ b.data.length) :
    Ready edge stream (log ++ [.samples (b.take k)]) false (b.drop k :: blocks) stop := by
  obtain ⟨pos, free, a, order, follows, told, first, chained⟩ := ready.reads
  simp only [if_true] at first
  subst first
  rw [Bool.or_false] at follows
  have of := ready.of b List.mem_cons_self
  constructor
  · refine ⟨(b.drop k).start, false, (b.drop k).start, order.read of follows within, .here _, nofun,
      rfl, ?_⟩
    rw [Block.drop_stop within]
    exact chained
  · intro c member
    cases member with
    | head => exact of.drop k
    | tail _ later => exact ready.of c (List.mem_cons_of_mem _ later)
  · exact ready.within

theorem finish (ready : Ready edge stream log pending (b :: blocks) stop) (none : b.data = []) :
    Ready edge stream log pending blocks stop := by
  obtain ⟨pos, free, a, order, follows, told, first, chained⟩ := ready.reads
  simp only [if_true] at first
  subst first
  have ends : b.stop = b.start := by simp [Block.stop, none]
  rw [ends] at chained
  constructor
  · exact ⟨pos, free, b.start, order, follows, told, chained⟩
  · intro c member
    exact ready.of c (List.mem_cons_of_mem _ member)
  · exact ready.within

theorem shorten {front back : List (Block α)}
    (ready : Ready edge stream log pending (front ++ back) stop) :
    ∃ stop', Ready edge stream log pending front stop' := by
  obtain ⟨pos, free, a, order, follows, told, chained⟩ := ready.reads
  obtain ⟨e, first, le⟩ := chained.front
  refine ⟨e, ?_, ?_, ?_⟩
  · exact ⟨pos, free, a, order, follows, told, first⟩
  · intro c member
    exact ready.of c (List.mem_append_left _ member)
  · exact Nat.le_trans le ready.within

theorem drain (ready : Ready anywhere stream log pending blocks stop) :
    Ready anywhere stream (log ++ [.gap]) false [] stream.length := by
  obtain ⟨pos, free, a, order, follows, told, chained⟩ := ready.reads
  constructor
  · refine ⟨pos, true, stream.length, .gap order trivial, ?_, nofun, rfl⟩
    have behind := Nat.le_trans follows.after (Nat.le_trans chained.le ready.within)
    exact .behind behind trivial
  · nofun
  · exact Nat.le_refl _

theorem in_order (ready : Ready edge stream log pending blocks stop) :
    ∃ pos free, InOrder edge stream log pos free := by
  obtain ⟨pos, free, a, order, -⟩ := ready.reads
  exact ⟨pos, free, order⟩

end Ready

end Soapy.Lib
