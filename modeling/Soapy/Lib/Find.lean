import Mathlib

/-! # Searching in a text

The first place where a pattern stands, as `std::string::find` gives it, and what stands in front
of it and behind.
-/

namespace Soapy.Lib

variable {α : Type*} [DecidableEq α]

def find (pattern : List α) : List α → Option Nat
  | [] => if pattern = [] then some 0 else none
  | a :: text =>
    if pattern.isPrefixOf (a :: text) then some 0 else (find pattern text).map (· + 1)

/-- `find(pattern, pos)`. -/
def findFrom (pattern : List α) (pos : Nat) (text : List α) : Option Nat :=
  (find pattern (text.drop pos)).map (pos + ·)

/-- The pattern stands between these two, and nowhere before. -/
structure FoundAt (pattern text front back : List α) : Prop where
  whole : text = front ++ pattern ++ back
  first : ∀ front' back', text = front' ++ pattern ++ back' → front.length ≤ front'.length

variable {pattern text front back : List α}

omit [DecidableEq α] in
theorem FoundAt.unique {front' back' : List α} (found : FoundAt pattern text front back)
    (found' : FoundAt pattern text front' back') : front = front' ∧ back = back' := by
  have same : front.length = front'.length :=
    Nat.le_antisymm (found.first front' back' found'.whole) (found'.first front back found.whole)
  have whole := found.whole.symm.trans found'.whole
  rw [List.append_assoc, List.append_assoc] at whole
  obtain ⟨fronts, rest⟩ := List.append_inj whole same
  exact ⟨fronts, List.append_cancel_left rest⟩

omit [DecidableEq α] in
theorem FoundAt.cons {a : α} (found : FoundAt pattern text front back)
    (apart : ¬ pattern <+: a :: text) : FoundAt pattern (a :: text) (a :: front) back := by
  refine ⟨by rw [found.whole]; rfl, ?_⟩
  intro front' back' whole
  cases front' with
  | nil => exact absurd ⟨back', whole.symm⟩ apart
  | cons b front' =>
    have rest := (List.cons.inj whole).2
    exact Nat.succ_le_succ (found.first front' back' rest)

omit [DecidableEq α] in
theorem FoundAt.behind {a : α} {before : List α} (found : FoundAt (a :: pattern) text front back)
    (none : a ∉ before) :
    FoundAt (a :: pattern) (before ++ text) (before ++ front) back := by
  induction before with
  | nil => exact found
  | cons b before ih =>
    rw [List.mem_cons, not_or] at none
    apply FoundAt.cons (ih none.2)
    rintro ⟨rest, whole⟩
    exact none.1 (List.cons.inj whole).1

omit [DecidableEq α] in
theorem foundAt_of_not_mem {a : α} (none : a ∉ front) :
    FoundAt (a :: pattern) (front ++ a :: pattern ++ back) front back := by
  refine ⟨rfl, ?_⟩
  intro front' back' whole
  by_contra short
  rw [Nat.not_le] at short
  have here : (front ++ a :: pattern ++ back)[front'.length]? = some a := by
    rw [whole, List.append_assoc, List.getElem?_append_right (Nat.le_refl _), Nat.sub_self]
    rfl
  rw [List.append_assoc, List.getElem?_append_left short] at here
  exact none (List.mem_of_getElem? here)

omit [DecidableEq α] in
theorem infix_of_apart {a : α} {more before behind : List α}
    (same : before ++ pattern ++ behind = front ++ a :: more) (none : a ∉ pattern)
    (first : before.length ≤ front.length) : pattern <:+: front := by
  have fits : before.length + pattern.length ≤ front.length := by
    by_contra late
    have here : (front ++ a :: more)[front.length]? = some a := by
      rw [List.getElem?_append_right (Nat.le_refl _), Nat.sub_self]
      rfl
    rw [← same, List.append_assoc, List.getElem?_append_right first,
      List.getElem?_append_left (by omega)] at here
    exact none (List.mem_of_getElem? here)
  have left : before ++ pattern <+: front ++ a :: more := ⟨behind, same⟩
  have right : front <+: front ++ a :: more := List.prefix_append ..
  obtain ⟨rest, whole⟩ := List.prefix_of_prefix_length_le left right
    (by rw [List.length_append]; exact fits)
  exact ⟨before, rest, whole⟩

omit [DecidableEq α] in
theorem foundAt_of_once {a : α} (once : a ∉ pattern) (none : ¬ a :: pattern <:+: front) :
    FoundAt (a :: pattern) (front ++ a :: pattern ++ back) front back := by
  refine ⟨rfl, ?_⟩
  intro front' back' whole
  by_contra short
  rw [Nat.not_le] at short
  by_cases fits : front'.length + (a :: pattern).length ≤ front.length
  · have left : front' ++ a :: pattern <+: front ++ a :: pattern ++ back := ⟨back', whole.symm⟩
    have right : front <+: front ++ a :: pattern ++ back := by
      rw [List.append_assoc]
      exact List.prefix_append ..
    obtain ⟨rest, inside⟩ := List.prefix_of_prefix_length_le left right
      (by rw [List.length_append]; exact fits)
    exact none ⟨front', rest, inside⟩
  · -- Both places overlap, so the first character comes again.
    have here : (front ++ a :: pattern ++ back)[front.length]? = some a := by
      rw [List.append_assoc, List.getElem?_append_right (Nat.le_refl _), Nat.sub_self]
      rfl
    obtain ⟨k, place⟩ : ∃ k, front.length = front'.length + (k + 1) :=
      ⟨front.length - front'.length - 1, by omega⟩
    rw [List.length_cons] at fits
    rw [whole, List.append_assoc, place, List.getElem?_append_right (Nat.le_add_right _ _),
      Nat.add_sub_cancel_left, List.cons_append, List.getElem?_cons_succ,
      List.getElem?_append_left (by omega)] at here
    exact once (List.mem_of_getElem? here)

omit [DecidableEq α] in
theorem infix_around {a : α} (none : a ∉ pattern) (found : pattern <:+: front ++ a :: back) :
    pattern <:+: front ∨ pattern <:+: back := by
  obtain ⟨before, behind, whole⟩ := found
  by_cases first : before.length ≤ front.length
  · exact .inl (infix_of_apart whole none first)
  · obtain ⟨rest, split⟩ : front ++ [a] <+: before := by
      apply @List.prefix_of_prefix_length_le _ _ _ (front ++ a :: back)
      · exact ⟨back, by rw [List.append_assoc]; rfl⟩
      · exact ⟨pattern ++ behind, by rw [← List.append_assoc]; exact whole⟩
      · rw [List.length_append]
        exact Nat.lt_of_not_le first
    refine .inr ⟨rest, behind, ?_⟩
    rw [← split] at whole
    simp only [List.append_assoc, List.cons_append, List.nil_append] at whole ⊢
    exact (List.cons.inj (List.append_cancel_left whole)).2

omit [DecidableEq α] in
theorem infix_behind {a : α} (none : a ∉ front) (found : a :: pattern <:+: front ++ back) :
    a :: pattern <:+: back := by
  obtain ⟨before, behind, whole⟩ := found
  have later : front.length ≤ before.length := by
    by_contra short
    rw [Nat.not_le] at short
    have here : (front ++ back)[before.length]? = some a := by
      rw [← whole, List.append_assoc, List.getElem?_append_right (Nat.le_refl _), Nat.sub_self]
      rfl
    rw [List.getElem?_append_left short] at here
    exact none (List.mem_of_getElem? here)
  obtain ⟨rest, rfl⟩ : front <+: before := by
    apply @List.prefix_of_prefix_length_le _ _ _ (front ++ back)
    · exact List.prefix_append ..
    · exact ⟨a :: pattern ++ behind, by rw [← List.append_assoc]; exact whole⟩
    · exact later
  refine ⟨rest, behind, ?_⟩
  simp only [List.append_assoc] at whole ⊢
  exact List.append_cancel_left whole

theorem find_eq_none_iff : find pattern text = none ↔ ¬ pattern <:+: text := by
  induction text with
  | nil => simp [find]
  | cons a text ih =>
    rw [find, List.infix_cons_iff, not_or, ← ih]
    by_cases here : pattern.isPrefixOf (a :: text) = true
    · rw [if_pos here]
      simp [List.isPrefixOf_iff_prefix.mp here]
    · rw [if_neg here, Option.map_eq_none_iff]
      exact (and_iff_right fun first => here (List.isPrefixOf_iff_prefix.mpr first)).symm

theorem find_eq_some_iff {pos : Nat} :
    find pattern text = some pos ↔ ∃ front back, FoundAt pattern text front back ∧
      front.length = pos := by
  induction text generalizing pos with
  | nil =>
    rw [find]
    by_cases empty : pattern = []
    · rw [if_pos empty, Option.some.injEq]
      constructor
      · rintro rfl
        exact ⟨[], [], ⟨by simp [empty], fun _ _ _ => Nat.zero_le _⟩, rfl⟩
      · rintro ⟨front, back, found, rfl⟩
        exact (Nat.le_zero.mp (found.first [] [] (by simp [empty]))).symm
    · rw [if_neg empty]
      constructor
      · nofun
      · rintro ⟨front, back, found, -⟩
        have whole := found.whole
        simp [empty] at whole
  | cons a text ih =>
    rw [find]
    by_cases here : pattern.isPrefixOf (a :: text) = true
    · obtain ⟨back, split⟩ := List.isPrefixOf_iff_prefix.mp here
      rw [if_pos here, Option.some.injEq]
      constructor
      · rintro rfl
        exact ⟨[], back, ⟨split.symm, fun _ _ _ => Nat.zero_le _⟩, rfl⟩
      · rintro ⟨front, back', found, rfl⟩
        exact (Nat.le_zero.mp (found.first [] back split.symm)).symm
    · have apart : ¬ pattern <+: a :: text := fun first =>
        here (List.isPrefixOf_iff_prefix.mpr first)
      rw [if_neg here, Option.map_eq_some_iff]
      constructor
      · rintro ⟨before, found, rfl⟩
        obtain ⟨front, back, place, rfl⟩ := ih.mp found
        exact ⟨a :: front, back, place.cons apart, rfl⟩
      · rintro ⟨front, back, place, rfl⟩
        cases front with
        | nil => exact absurd ⟨back, place.whole.symm⟩ apart
        | cons b front =>
          have rest := (List.cons.inj place.whole).2
          refine ⟨front.length, ih.mpr ⟨front, back, ⟨rest, ?_⟩, rfl⟩, rfl⟩
          intro front' back' whole
          have first := place.first (a :: front') back' (by rw [whole]; rfl)
          exact Nat.le_of_succ_le_succ first

theorem find_eq_zero_iff : find pattern text = some 0 ↔ pattern <+: text := by
  rw [find_eq_some_iff]
  constructor
  · rintro ⟨front, back, found, none⟩
    rw [List.length_eq_zero_iff] at none
    subst none
    exact ⟨back, found.whole.symm⟩
  · rintro ⟨back, whole⟩
    exact ⟨[], back, ⟨whole.symm, fun _ _ _ => Nat.zero_le _⟩, rfl⟩

theorem exists_foundAt (found : pattern <:+: text) :
    ∃ front back, FoundAt pattern text front back := by
  cases search : find pattern text with
  | none => exact absurd found (find_eq_none_iff.mp search)
  | some pos =>
    obtain ⟨front, back, place, -⟩ := find_eq_some_iff.mp search
    exact ⟨front, back, place⟩

end Soapy.Lib
