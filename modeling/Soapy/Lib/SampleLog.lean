import Mathlib

/-! # Samples that are read in order

A block of samples stands at a place of the stream it was cut out of. A reader is given
blocks, and now and then it is told of a gap. It reads in order when each block begins where
the last one ended, or somewhere behind when a gap was told of in between.
-/

namespace Soapy.Lib

variable {α : Type*}

structure Block (α : Type*) where
  start : Nat
  data : List α

namespace Block

variable {b : Block α} {stream more : List α}

def stop (b : Block α) : Nat := b.start + b.data.length

def Of (stream : List α) (b : Block α) : Prop := b.data <+: stream.drop b.start

def take (k : Nat) (b : Block α) : Block α := ⟨b.start, b.data.take k⟩

def drop (k : Nat) (b : Block α) : Block α := ⟨b.start + k, b.data.drop k⟩

theorem Of.grow (of : b.Of stream) : b.Of (stream ++ more) := by
  unfold Of
  rw [List.drop_append]
  exact of.trans (List.prefix_append _ _)

theorem Of.take (of : b.Of stream) (k : Nat) : (b.take k).Of stream :=
  (List.take_prefix k b.data).trans of

theorem Of.drop (of : b.Of stream) (k : Nat) : (b.drop k).Of stream := by
  obtain ⟨rest, whole⟩ := of
  refine ⟨rest.drop (k - b.data.length), ?_⟩
  change b.data.drop k ++ rest.drop (k - b.data.length) = stream.drop (b.start + k)
  rw [← List.drop_append, whole, List.drop_drop]

theorem of_end (stream data : List α) : Of (stream ++ data) ⟨stream.length, data⟩ := by
  simp [Of]

theorem take_stop (b : Block α) (k : Nat) : (b.take k).stop = b.start + min k b.data.length := by
  simp [take, stop]

theorem drop_stop {k : Nat} (within : k ≤ b.data.length) : (b.drop k).stop = b.stop := by
  simp only [drop, stop, List.length_drop]
  omega

@[simp] theorem drop_zero (b : Block α) : b.drop 0 = b := rfl

theorem take_drop (b : Block α) (j k : Nat) : ((b.drop j).drop k) = b.drop (j + k) := by
  simp [drop, List.drop_drop, Nat.add_assoc]

end Block

/-- The blocks stand one behind the other from place `a` to place `e`, without a gap where
    `tight` says so. -/
def Chained (tight : Bool) : Nat → List (Block α) → Nat → Prop
  | a, [], e => if tight then a = e else a ≤ e
  | a, b :: bs, e => (if tight then a = b.start else a ≤ b.start) ∧ Chained tight b.stop bs e

namespace Chained

variable {tight : Bool} {a e : Nat} {b : Block α} {bs : List (Block α)}

theorem loosen (chained : Chained tight a bs e) : Chained false a bs e := by
  induction bs generalizing a with
  | nil =>
    cases tight with
    | false => exact chained
    | true => exact Nat.le_of_eq chained
  | cons b bs ih =>
    refine ⟨?_, ih chained.2⟩
    cases tight with
    | false => exact chained.1
    | true => exact Nat.le_of_eq chained.1

theorem push (chained : Chained tight a bs e) (next : b.start = e) :
    Chained tight a (bs ++ [b]) b.stop := by
  induction bs generalizing a with
  | nil =>
    subst next
    refine ⟨chained, ?_⟩
    cases tight with
    | false => exact Nat.le_refl _
    | true => rfl
  | cons c bs ih => exact ⟨chained.1, ih chained.2⟩

theorem grow {e' : Nat} (chained : Chained false a bs e) (later : e ≤ e') :
    Chained false a bs e' := by
  induction bs generalizing a with
  | nil => exact Nat.le_trans chained later
  | cons c bs ih => exact ⟨chained.1, ih chained.2⟩

theorem le (chained : Chained tight a bs e) : a ≤ e := by
  have loose := chained.loosen
  clear chained
  induction bs generalizing a with
  | nil => exact loose
  | cons c bs ih =>
    have here : a ≤ c.start := loose.1
    have rest := ih loose.2
    unfold Block.stop at rest
    omega

theorem front {front back : List (Block α)} (chained : Chained tight a (front ++ back) e) :
    ∃ e', Chained tight a front e' ∧ e' ≤ e := by
  induction front generalizing a with
  | nil =>
    refine ⟨a, ?_, chained.le⟩
    cases tight with
    | false => exact Nat.le_refl a
    | true => rfl
  | cons c front ih =>
    obtain ⟨e', rest, le⟩ := ih chained.2
    exact ⟨e', ⟨chained.1, rest⟩, le⟩

theorem skip {front : List (Block α)} (chained : Chained false a (front ++ bs) e) :
    Chained false a bs e := by
  induction front generalizing a with
  | nil => exact chained
  | cons c front ih =>
    have rest := ih chained.2
    have here : a ≤ c.stop := Nat.le_trans chained.1 (Nat.le_add_right _ _)
    cases bs with
    | nil => exact Nat.le_trans here rest
    | cons b bs => exact ⟨Nat.le_trans here rest.1, rest.2⟩

theorem earlier {a' : Nat} (chained : Chained false a bs e) (before : a' ≤ a) :
    Chained false a' bs e := by
  cases bs with
  | nil => exact Nat.le_trans before chained
  | cons b bs => exact ⟨Nat.le_trans before chained.1, chained.2⟩

end Chained

/-- What a reader sees: samples, or that some may be missing. -/
inductive Seen (α : Type*) where
  | samples (b : Block α)
  | gap

/-- The next samples may stand at place `start`, behind a gap where `free` says so. A gap
    reaches from edge to edge. -/
structure MayFollow (edge : Nat → Prop) (pos : Nat) (free : Bool) (start : Nat) : Prop where
  after : pos ≤ start
  exactly : free = false → start = pos
  whole : free = true → edge start

/-- Any place is an edge. -/
abbrev anywhere : Nat → Prop := fun _ => True

variable {edge : Nat → Prop}

theorem MayFollow.here (pos : Nat) : MayFollow edge pos false pos :=
  ⟨Nat.le_refl pos, fun _ => rfl, nofun⟩

theorem MayFollow.behind {pos start : Nat} (after : pos ≤ start) (at_edge : edge start) :
    MayFollow edge pos true start :=
  ⟨after, nofun, fun _ => at_edge⟩

/-- The reader saw samples of the stream in order, the last one in front of place `pos`. The
    next ones may stand behind a gap where `free` says so. -/
inductive InOrder (edge : Nat → Prop) (stream : List α) : List (Seen α) → Nat → Bool → Prop where
  | nil : InOrder edge stream [] 0 false
  | samples {log pos free} {b : Block α} : InOrder edge stream log pos free → b.Of stream →
      MayFollow edge pos free b.start → InOrder edge stream (log ++ [.samples b]) b.stop false
  | gap {log pos free} : InOrder edge stream log pos free → edge pos →
      InOrder edge stream (log ++ [.gap]) pos true

namespace InOrder

variable {stream more : List α} {log : List (Seen α)} {pos : Nat} {free : Bool}

theorem grow (order : InOrder edge stream log pos free) : InOrder edge (stream ++ more) log pos free := by
  induction order with
  | nil => exact .nil
  | samples _ of follows ih => exact .samples ih of.grow follows
  | gap _ at_edge ih => exact .gap ih at_edge

theorem before_samples (log : List (Seen α)) {b : Block α}
    (order : InOrder edge stream (log ++ [.samples b]) pos free) :
    ∃ pos' free', InOrder edge stream log pos' free' ∧ MayFollow edge pos' free' b.start ∧ pos = b.stop ∧
      free = false := by
  generalize whole : log ++ [.samples b] = seen at order
  cases order with
  | nil => simp at whole
  | @samples log' pos' free' c before of follows =>
    obtain ⟨rfl, last⟩ := List.append_inj' whole rfl
    obtain rfl := Seen.samples.inj (List.singleton_inj.mp last)
    exact ⟨pos', free', before, follows, rfl, rfl⟩
  | gap before at_edge =>
    obtain ⟨-, last⟩ := List.append_inj' whole rfl
    cases List.singleton_inj.mp last

theorem before_gap (log : List (Seen α)) (order : InOrder edge stream (log ++ [.gap]) pos free) :
    ∃ free', InOrder edge stream log pos free' ∧ edge pos := by
  generalize whole : log ++ [.gap] = seen at order
  cases order with
  | nil => simp at whole
  | samples before of follows =>
    obtain ⟨-, last⟩ := List.append_inj' whole rfl
    cases List.singleton_inj.mp last
  | @gap log' pos' free' before at_edge =>
    obtain ⟨rfl, -⟩ := List.append_inj' whole rfl
    exact ⟨free', before, at_edge⟩

theorem of_append {front back : List (Seen α)} (order : InOrder edge stream (front ++ back) pos free) :
    ∃ pos' free', InOrder edge stream front pos' free' := by
  generalize whole : front ++ back = seen at order
  induction order generalizing back with
  | nil =>
    obtain ⟨rfl, -⟩ := List.append_eq_nil_iff.mp whole
    exact ⟨0, false, .nil⟩
  | samples before of follows ih =>
    rcases List.eq_nil_or_concat back with rfl | ⟨back', last, rfl⟩
    · rw [List.append_nil] at whole
      rw [whole]
      exact ⟨_, _, .samples before of follows⟩
    · rw [List.concat_eq_append, ← List.append_assoc] at whole
      exact ih (List.append_inj' whole rfl).1
  | gap before at_edge ih =>
    rcases List.eq_nil_or_concat back with rfl | ⟨back', last, rfl⟩
    · rw [List.append_nil] at whole
      rw [whole]
      exact ⟨_, _, .gap before at_edge⟩
    · rw [List.concat_eq_append, ← List.append_assoc] at whole
      exact ih (List.append_inj' whole rfl).1

theorem read (order : InOrder edge stream log pos free) {b : Block α} (of : b.Of stream)
    (follows : MayFollow edge pos free b.start) {k : Nat} (within : k ≤ b.data.length) :
    InOrder edge stream (log ++ [.samples (b.take k)]) (b.drop k).start false := by
  have stop : (b.take k).stop = (b.drop k).start := by
    rw [Block.take_stop, Nat.min_eq_left within]
    rfl
  rw [← stop]
  exact .samples order (of.take k) follows

end InOrder

end Soapy.Lib
