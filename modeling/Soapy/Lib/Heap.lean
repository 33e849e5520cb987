import Soapy.Lib.Action

/-! # Allocated blocks

The blocks that a program has allocated, in the order of their allocation. The address of a block
is its number, counted from one, so that zero is the null pointer, and no address is used twice.
An allocation can be refused, and a use of memory that is not allocated is undefined.
-/

namespace Soapy.Lib

inductive HeapError where
  | bad_alloc
  | undefined
deriving DecidableEq

/-- A block that was freed is `none`. `freed` are the addresses in the order of their release. -/
structure Heap (β : Type) where
  blocks : List (Option β)
  calls : Nat
  freed : List Nat

namespace Heap

variable {β : Type}

def empty : Heap β := ⟨[], 0, []⟩

def at? (h : Heap β) (p : Nat) : Option β :=
  match p with
  | 0 => none
  | i + 1 => (h.blocks[i]?).join

def next (h : Heap β) : Nat := h.blocks.length + 1

def push (h : Heap β) (b : β) : Heap β :=
  { h with blocks := h.blocks ++ [some b], calls := h.calls + 1 }

def pushAll (h : Heap β) (bs : List β) : Heap β := bs.foldl push h

def update (h : Heap β) (p : Nat) (b : Option β) : Heap β :=
  { h with blocks := h.blocks.set (p - 1) b }

def release (h : Heap β) (p : Nat) : Heap β :=
  { h.update p none with freed := h.freed ++ [p] }

def releaseAll (h : Heap β) (ps : List Nat) : Heap β := ps.foldl release h

def alloc (refuses : Nat → Bool) (b : β) : Action (Heap β) HeapError Nat := fun h =>
  if refuses h.calls then (.error .bad_alloc, { h with calls := h.calls + 1 })
  else (.ok h.next, h.push b)

def read (p : Nat) : Action (Heap β) HeapError β := fun h =>
  match h.at? p with
  | some b => (.ok b, h)
  | none => (.error .undefined, h)

def write (p : Nat) (b : β) : Action (Heap β) HeapError Unit := fun h =>
  match h.at? p with
  | some _ => (.ok (), h.update p (some b))
  | none => (.error .undefined, h)

/-- `free(p)`, which does nothing for a null pointer. -/
def free (p : Nat) : Action (Heap β) HeapError Unit := fun h =>
  if p = 0 then (.ok (), h)
  else
    match h.at? p with
    | some _ => (.ok (), h.release p)
    | none => (.error .undefined, h)

/-- `malloc`, which returns null where `alloc` throws. -/
def malloc (refuses : Nat → Bool) (b : β) : Action (Heap β) HeapError Nat := fun h =>
  if refuses h.calls then (.ok 0, { h with calls := h.calls + 1 })
  else (.ok h.next, h.push b)

def readNullable (p : Nat) : Action (Heap β) HeapError (Option β) :=
  if p = 0 then pure none else some <$> read p

/-- `realloc(p)`: a block with what `resize` makes of the old one, which is freed, or null and the
    old block stays. A null pointer has no old block. -/
def realloc (refuses : Nat → Bool) (resize : Option β → Option β) (p : Nat) :
    Action (Heap β) HeapError Nat := do
  let old ← readNullable p
  match resize old with
  | none => .stop .undefined
  | some b =>
    let q ← malloc refuses b
    if q = 0 then pure 0
    else do
      free p
      pure q

/-- Every block stays as it is. -/
def Extends (h h' : Heap β) : Prop := ∀ p b, h.at? p = some b → h'.at? p = some b

/-- The addresses are different, and every one is that of a block. -/
structure Owned (h : Heap β) (ps : List Nat) : Prop where
  distinct : ps.Nodup
  live : ∀ p ∈ ps, ∃ b, h.at? p = some b

variable {h : Heap β} {p q : Nat} {b : β}

variable {refuses : Nat → Bool} {Q : Nat → Heap β → Prop} {R : HeapError → Heap β → Prop}

theorem wp_alloc
    (made : Q h.next (h.push b))
    (refused : refuses h.calls = true → R .bad_alloc { h with calls := h.calls + 1 }) :
    Action.wp (alloc refuses b) Q R h := by
  unfold Action.wp alloc
  cases call : refuses h.calls with
  | true => exact refused call
  | false => exact made

@[simp] theorem next_push : (h.push b).next = h.next + 1 := by
  simp [next, push]

variable (bs : List β)

@[simp] theorem next_pushAll : (h.pushAll bs).next = h.next + bs.length := by
  induction bs generalizing h with
  | nil => rfl
  | cons b bs ih =>
    have rest := @ih (h.push b)
    rw [next_push] at rest
    rw [pushAll, List.foldl_cons, List.length_cons]
    exact rest.trans (by omega)

@[simp] theorem freed_pushAll : (h.pushAll bs).freed = h.freed := by
  induction bs generalizing h with
  | nil => rfl
  | cons b bs ih => exact @ih (h.push b)

theorem blocks_pushAll : (h.pushAll bs).blocks = h.blocks ++ bs.map some := by
  induction bs generalizing h with
  | nil => exact (List.append_nil _).symm
  | cons b bs ih =>
    have rest := @ih (h.push b)
    exact rest.trans (List.append_assoc h.blocks [some b] (bs.map some))

theorem pushAll_append (cs : List β) : (h.pushAll bs).pushAll cs = h.pushAll (bs ++ cs) :=
  List.foldl_append.symm

theorem at?_pushAll {i : Nat} (there : p = h.next + i) :
    (h.pushAll bs).at? p = bs[i]? := by
  subst there
  have place : h.next + i = h.blocks.length + i + 1 := by
    rw [next]
    omega
  rw [place, at?, blocks_pushAll, List.getElem?_append_right (Nat.le_add_right _ _),
    Nat.add_sub_cancel_left, List.getElem?_map]
  cases bs[i]? with
  | none => rfl
  | some b => rfl

theorem update_pushAll (b' : β) (bs : List β) :
    (h.pushAll (b :: bs)).update h.next (some b') = h.pushAll (b' :: bs) := by
  have calls : ∀ (bs : List β) (g : Heap β), (g.pushAll bs).calls = g.calls + bs.length := by
    intro bs
    induction bs with
    | nil => exact fun _ => rfl
    | cons c cs ih =>
      intro g
      have rest := ih (g.push c)
      rw [pushAll, List.foldl_cons, List.length_cons]
      exact rest.trans (by simp [push]; omega)
  have whole : ∀ g g' : Heap β, g.blocks = g'.blocks → g.calls = g'.calls → g.freed = g'.freed →
      g = g' := by
    rintro ⟨_, _, _⟩ ⟨_, _, _⟩ rfl rfl rfl
    rfl
  apply whole
  · simp [update, blocks_pushAll, next]
  · exact (calls bs (h.push b)).trans (calls bs (h.push b')).symm
  · rw [update, freed_pushAll, freed_pushAll]

theorem read_ok (live : h.at? p = some b) : read p h = (.ok b, h) := by
  rw [read, live]

theorem write_ok {b' : β} (live : h.at? p = some b') :
    write p b h = (.ok (), h.update p (some b)) := by
  rw [write, live]

theorem at?_release_other (other : q ≠ p) (some : p ≠ 0) : (h.release p).at? q = h.at? q := by
  cases q with
  | zero => rfl
  | succ i =>
    have apart : p - 1 ≠ i := by omega
    simp only [at?, release, update]
    rw [List.getElem?_set_ne apart]

theorem at?_releaseAll_other {ps : List Nat} (other : q ∉ ps) (some : 0 ∉ ps) :
    (h.releaseAll ps).at? q = h.at? q := by
  induction ps generalizing h with
  | nil => rfl
  | cons p ps ih =>
    rw [List.mem_cons, not_or] at other some
    have rest := @ih (h.release p) other.2 some.2
    exact rest.trans (at?_release_other other.1 (Ne.symm some.1))

theorem freed_releaseAll (ps : List Nat) : (h.releaseAll ps).freed = h.freed ++ ps := by
  induction ps generalizing h with
  | nil => exact (List.append_nil _).symm
  | cons p ps ih =>
    have rest := @ih (h.release p)
    exact rest.trans (List.append_assoc h.freed [p] ps)

theorem releaseAll_append (ps qs : List Nat) :
    (h.releaseAll ps).releaseAll qs = h.releaseAll (ps ++ qs) := List.foldl_append.symm

theorem not_null (live : h.at? p = some b) : p ≠ 0 := by
  rintro rfl
  cases live

theorem at?_update_other (other : q ≠ p) (some : p ≠ 0) (b : Option β) :
    (h.update p b).at? q = h.at? q := by
  cases q with
  | zero => rfl
  | succ i =>
    have apart : p - 1 ≠ i := by omega
    simp only [at?, update]
    rw [List.getElem?_set_ne apart]

theorem at?_update (live : h.at? p = some b) (b' : β) : (h.update p (some b')).at? p = some b' := by
  cases p with
  | zero => cases live
  | succ i =>
    have inside : i < h.blocks.length := by
      by_contra beyond
      simp [at?, List.getElem?_eq_none (not_lt.mp beyond)] at live
    simp [at?, update, inside]

namespace Extends

variable {h' : Heap β}

theorem trans {h'' : Heap β} (first : h.Extends h') (second : h'.Extends h'') :
    h.Extends h'' := fun p b live => second p b (first p b live)

theorem push (h : Heap β) (b : β) : h.Extends (h.push b) := by
  intro p b' live
  cases p with
  | zero => cases live
  | succ i =>
    have inside : i < h.blocks.length := by
      by_contra beyond
      simp [at?, List.getElem?_eq_none (not_lt.mp beyond)] at live
    simpa [at?, Heap.push, List.getElem?_append_left inside] using live

theorem absent (extends' : h.Extends h') (fresh : h'.at? p = none) :
    h.at? p = none := by
  cases here : h.at? p with
  | none => rfl
  | some b =>
    rw [extends' p b here] at fresh
    cases fresh

theorem release (extends' : h.Extends h') (fresh : h.at? q = none) (some : q ≠ 0) :
    h.Extends (h'.release q) := by
  intro p b live
  have other : p ≠ q := by
    rintro rfl
    rw [fresh] at live
    cases live
  rw [at?_release_other other some]
  exact extends' p b live

end Extends

theorem at?_next (h : Heap β) : h.at? h.next = none := by
  simp [at?, next]

theorem free_null (h : Heap β) : free 0 h = (.ok (), h) := rfl

theorem free_ok (live : h.at? p = some b) : free p h = (.ok (), h.release p) := by
  rw [free, if_neg (not_null live), live]

theorem wp_malloc
    (refused : (∃ n, refuses n = true) → ∀ h', h.Extends h' → Q 0 h')
    (made : ∀ q h', h.at? q = none → h'.at? q = some b → h.Extends h' → Q q h') :
    Action.wp (malloc refuses b) Q R h := by
  unfold Action.wp malloc
  cases call : refuses h.calls with
  | true => exact refused ⟨_, call⟩ _ fun _ _ live => live
  | false =>
    exact made _ _ (at?_next h) (at?_pushAll [b] (Nat.add_zero h.next).symm) (.push h b)

theorem wp_realloc {resize : Option β → Option β}
    (resized : resize (h.at? p) = some b) (valid : p = 0 ∨ ∃ old, h.at? p = some old)
    (refused : (∃ n, refuses n = true) → ∀ h', h.Extends h' → Q 0 h')
    (made : ∀ q h', h.at? q = none → h'.at? q = some b →
      (∀ p' b, p' ≠ p → h.at? p' = some b → h'.at? p' = some b) → Q q h') :
    Action.wp (realloc refuses resize p) Q R h := by
  have looked : readNullable p h = (.ok (h.at? p), h) := by
    unfold readNullable
    rcases valid with rfl | ⟨old, live⟩
    · rfl
    · rw [if_neg (not_null live), live]
      exact (Action.bind_ok (read_ok live)).trans rfl
  rw [realloc, Action.wp_bind]
  apply Action.wp_of_ok looked
  simp only [resized]
  rw [Action.wp_bind]
  apply wp_malloc
  · intro call h' extends'
    exact refused call h' extends'
  · intro q h' fresh block extends'
    rw [if_neg (not_null block), Action.wp_bind]
    rcases valid with rfl | ⟨old, live⟩
    · exact Action.wp_of_ok rfl (made q h' fresh block fun p' b _ live => extends' p' b live)
    · have other : q ≠ p := by
        rintro rfl
        rw [fresh] at live
        cases live
      have some := not_null live
      apply Action.wp_of_ok (free_ok (extends' p old live))
      refine made q (h'.release p) fresh ?_ ?_
      · rw [at?_release_other other some]
        exact block
      · intro p' b apart live'
        rw [at?_release_other apart some]
        exact extends' p' b live'

namespace Owned

variable {ps qs : List Nat}

theorem not_null (owned : Owned h ps) : 0 ∉ ps := by
  intro null
  obtain ⟨b, here⟩ := owned.live 0 null
  cases here

theorem left (owned : Owned h (ps ++ qs)) : Owned h ps where
  distinct := (List.nodup_append'.mp owned.distinct).1
  live p member := owned.live p (List.mem_append_left _ member)

theorem right (owned : Owned h (ps ++ qs)) : Owned (h.releaseAll ps) qs where
  distinct := (List.nodup_append'.mp owned.distinct).2.1
  live q member := by
    have other : q ∉ ps := fun member' =>
      (List.nodup_append'.mp owned.distinct).2.2 member' member
    rw [at?_releaseAll_other other owned.left.not_null]
    exact owned.live q (List.mem_append_right _ member)

theorem free_ok (owned : Owned h (p :: ps)) : free p h = (.ok (), h.release p) := by
  obtain ⟨b, here⟩ := owned.live p List.mem_cons_self
  have some : p ≠ 0 := by
    rintro rfl
    cases here
  rw [free, if_neg some, here]

theorem tail (owned : Owned h (p :: ps)) : Owned (h.release p) ps := @right _ h [p] ps owned

theorem of_pushAll :
    Owned (h.pushAll bs) (List.range' h.next bs.length) where
  distinct := List.nodup_range'
  live p member := by
    rw [List.mem_range'_1] at member
    obtain ⟨i, there⟩ := Nat.exists_eq_add_of_le member.1
    have inside : i < bs.length := by omega
    exact ⟨bs[i], (at?_pushAll bs there).trans (List.getElem?_eq_getElem inside)⟩

theorem perm (owned : Owned h ps) (same : ps.Perm qs) : Owned h qs where
  distinct := same.nodup_iff.mp owned.distinct
  live q member := owned.live q (same.mem_iff.mpr member)

end Owned

theorem forEach_free {α : Type} {f : α → Action (Heap β) HeapError Unit} {address : α → Nat}
    (keep : Heap β → Prop) {as : List α}
    (kept : ∀ a ∈ as, ∀ h, keep h → keep (h.release (address a)))
    (frees : ∀ a ∈ as, ∀ h, keep h → f a h = free (address a) h)
    (start : keep h) (owned : Owned h (as.map address)) :
    Action.forEach f as h = (.ok (), h.releaseAll (as.map address)) := by
  induction as generalizing h with
  | nil => rfl
  | cons a as ih =>
    have freed : f a h = (.ok (), h.release (address a)) :=
      (frees a List.mem_cons_self h start).trans owned.free_ok
    have rest := ih (fun a' member => kept a' (List.mem_cons_of_mem _ member))
      (fun a' member => frees a' (List.mem_cons_of_mem _ member))
      (kept a List.mem_cons_self h start) owned.tail
    rw [Action.forEach, Action.bind_ok freed]
    exact rest

end Heap

end Soapy.Lib
