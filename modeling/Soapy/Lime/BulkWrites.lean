import Soapy.Lime.LMS7002M

/-! # Writes in bulk

Batches that are sent as they are, and what a list of writes leaves in the two banks.
-/

namespace Soapy.Lime

def RegistersMap.asChip (m : RegistersMap) : Chip := ⟨m.mChannelA, m.mChannelB⟩

theorem RegistersMap.asChip_cell (m : RegistersMap) (c : Cell) : m.asChip.cell c = m.cell c := by
  obtain ⟨bank, a⟩ := c
  cases bank <;> rfl

namespace LMS7002M

variable {s : LMS7002M} {writes : List (UInt16 × UInt16)}

theorem gather_forced (writes : List (UInt16 × UInt16)) (b : Batch) (known : b.mac = b.map.mac) :
    (writes.foldl (Batch.add true) b).map.asChip = b.map.asChip.writeAll writes ∧
      (writes.foldl (Batch.add true) b).data =
        b.data ++ writes.map fun w => writeWord w.1 w.2 := by
  induction writes generalizing b with
  | nil => exact ⟨rfl, (List.append_nil _).symm⟩
  | cons w rest ih =>
    obtain ⟨map, data⟩ := ih (b.add true w) (Batch.add_mac known true w).2
    have stored : (b.add true w).map.asChip = b.map.asChip.write w.1 w.2 := by
      apply Chip.ext_cell
      intro c
      have mac : b.map.asChip.mac = b.mac := known.symm
      rw [RegistersMap.asChip_cell, Batch.add_map, RegistersMap.store_cell, Chip.write_cell, mac,
        RegistersMap.asChip_cell]
    have sent : (b.add true w).data = b.data ++ [writeWord w.1 w.2] := rfl
    constructor
    · rw [List.foldl_cons, map, stored]
      rfl
    · rw [List.foldl_cons, data, sent, List.append_assoc]
      rfl

theorem takeWords_writes (chip : Chip) (small : ∀ w ∈ writes, w.1 < 0x8000) :
    chip.takeWords (writes.map fun w => writeWord w.1 w.2) = chip.writeAll writes := by
  induction writes generalizing chip with
  | nil => rfl
  | cons w rest ih =>
    rw [List.forall_mem_cons] at small
    rw [List.map_cons, Chip.takeWords, List.foldl_cons, wordAddress_writeWord _ small.1,
      wordData_writeWord]
    exact ih _ small.2

theorem spiWriteBatch_forced (s : LMS7002M) (small : ∀ w ∈ writes, w.1 < 0x8000) :
    (s.spiWriteBatch writes true 0).2.mRegistersMap.asChip =
        s.mRegistersMap.asChip.writeAll writes ∧
      (s.spiWriteBatch writes true 0).2.chip = s.chip.writeAll writes ∧
      (s.spiWriteBatch writes true 0).2.useCache = s.useCache := by
  obtain ⟨map, data⟩ := gather_forced writes ⟨s.mRegistersMap, s.mRegistersMap.mac, []⟩ rfl
  have words : (s.gather writes true).data = writes.map fun w => writeWord w.1 w.2 := data
  unfold spiWriteBatch
  by_cases nothing : (s.gather writes true).data = []
  · have empty : writes = [] := by
      rw [words] at nothing
      exact List.map_eq_nil_iff.mp nothing
    simp only [nothing, if_true]
    exact ⟨map, by rw [empty]; rfl, trivial⟩
  · simp only [nothing, if_false, if_true]
    exact ⟨map, by rw [words, takeWords_writes _ small], trivial⟩

end LMS7002M

namespace Chip

variable {chip : Chip} {addrs : List UInt16} {f : UInt16 → UInt16}

theorem writeAll_bankA (sorted : addrs.Pairwise (· < ·))
    (selects : macAddress ∈ addrs → f macAddress &&& 0x0003 = 1)
    (selected : chip.mac = 1 ∨ macAddress ∈ addrs) (c : Cell) :
    (chip.writeAll (addrs.map fun a => (a, f a))).cell c =
      if c.1 = .a ∧ c.2 ∈ addrs then f c.2 else chip.cell c := by
  induction addrs generalizing chip with
  | nil => simp [writeAll]
  | cons a rest ih =>
    rw [List.pairwise_cons] at sorted
    have one : Lime.selected chip.mac a = {(.a, a)} := by
      by_cases low : a < 0x0100
      · exact selected_low low _
      · have here : chip.mac = 1 := by
          cases selected with
          | inl here => exact here
          | inr later =>
            exfalso
            cases List.mem_cons.mp later with
            | inl head => exact low (head ▸ by decide)
            | inr tail => exact low (UInt16.lt_trans (sorted.1 _ tail) (by decide))
        ext d
        obtain ⟨bank, x⟩ := d
        cases bank with
        | a => simp [Lime.selected, selectsA, here]
        | b =>
          have apart : (1 : UInt16) &&& 2 = 0 := by decide
          simp [Lime.selected, selectsB, here, apart]
    have next : (chip.write a (f a)).mac = 1 ∨ macAddress ∈ rest := by
      rw [Chip.mac_eq, Chip.write_cell]
      by_cases here : a = macAddress
      · subst here
        rw [if_pos (macCell_selected _)]
        exact .inl (selects List.mem_cons_self)
      · rw [if_neg (not_macCell_selected here _)]
        cases selected with
        | inl same => exact .inl same
        | inr later => exact .inr ((List.mem_cons.mp later).resolve_left (Ne.symm here))
    rw [List.map_cons, writeAll, List.foldl_cons]
    refine (ih sorted.2 (fun later => selects (List.mem_cons_of_mem _ later)) next).trans ?_
    rw [Chip.write_cell]
    have member : c ∈ Lime.selected chip.mac a ↔ c = (.a, a) := by
      rw [one]
      rfl
    obtain ⟨bank, x⟩ := c
    cases bank with
    | a =>
      by_cases later : x ∈ rest
      · simp [later]
      · by_cases here : x = a
        · subst here
          simp [later, member]
        · simp [later, member, here]
    | b => simp [member]

theorem writeAll_bankB (high : ∀ a ∈ addrs, ¬ a < 0x0100) (selected : chip.mac = 2) (c : Cell) :
    (chip.writeAll (addrs.map fun a => (a, f a))).cell c =
      if c.1 = .b ∧ c.2 ∈ addrs then f c.2 else chip.cell c := by
  induction addrs generalizing chip with
  | nil => simp [writeAll]
  | cons a rest ih =>
    rw [List.forall_mem_cons] at high
    have apart : a ≠ macAddress := by
      intro here
      exact high.1 (here ▸ by decide)
    have next : (chip.write a (f a)).mac = 2 := by
      rw [Chip.mac_eq, Chip.write_cell, if_neg (not_macCell_selected apart _)]
      exact selected
    have member : c ∈ Lime.selected chip.mac a ↔ c = (.b, a) := by
      obtain ⟨bank, x⟩ := c
      cases bank with
      | a =>
        have apart : (2 : UInt16) &&& 1 = 0 := by decide
        simp [Lime.selected, selectsA, selected, high.1, apart]
      | b => simp [Lime.selected, selectsB, selected, high.1]
    rw [List.map_cons, writeAll, List.foldl_cons]
    refine (ih high.2 next).trans ?_
    rw [Chip.write_cell]
    obtain ⟨bank, x⟩ := c
    cases bank with
    | a => simp [member]
    | b =>
      by_cases later : x ∈ rest
      · simp [later]
      · by_cases here : x = a
        · subst here
          simp [later, member]
        · simp [later, member, here]

variable {writes : List (UInt16 × UInt16)} {c : Cell}

theorem writeAll_append (chip : Chip) (first second : List (UInt16 × UInt16)) :
    chip.writeAll (first ++ second) = (chip.writeAll first).writeAll second :=
  List.foldl_append

theorem writeAll_outside (outside : ∀ w ∈ writes, w.1 ≠ c.2) :
    (chip.writeAll writes).cell c = chip.cell c := by
  induction writes generalizing chip with
  | nil => rfl
  | cons w rest ih =>
    rw [List.forall_mem_cons] at outside
    rw [writeAll, List.foldl_cons]
    refine (ih outside.2).trans ?_
    rw [write_cell, if_neg fun member => outside.1 member.1.symm]

theorem writeAll_mac (outside : ∀ w ∈ writes, w.1 ≠ macAddress) :
    (chip.writeAll writes).mac = chip.mac := by
  rw [mac_eq, writeAll_outside (c := macCell) outside, mac_eq]

theorem writeAll_lowB (chip : Chip) (writes : List (UInt16 × UInt16)) {a : UInt16}
    (low : a < 0x0100) : (chip.writeAll writes).cell (.b, a) = chip.cell (.b, a) := by
  induction writes generalizing chip with
  | nil => rfl
  | cons w rest ih =>
    rw [writeAll, List.foldl_cons]
    refine (ih _).trans ?_
    rw [write_cell, if_neg]
    intro member
    obtain ⟨here, selects⟩ := member
    simp only [selectsB, decide_eq_true_eq] at selects
    exact selects.2 (here ▸ low)

theorem writeAll_both (selected : chip.mac = 3) {first second : List (UInt16 × UInt16)}
    {a value : UInt16} (before : ∀ w ∈ first, w.1 ≠ macAddress) (after : ∀ w ∈ second, w.1 ≠ a)
    (high : ¬ a < 0x0100) (bank : Bank) :
    (chip.writeAll (first ++ (a, value) :: second)).cell (bank, a) = value := by
  have both : (3 : UInt16) &&& 1 ≠ 0 ∧ (3 : UInt16) &&& 2 ≠ 0 := by decide
  rw [writeAll_append, writeAll, List.foldl_cons]
  refine (writeAll_outside (c := (bank, a)) after).trans ?_
  rw [write_cell, if_pos]
  rw [writeAll_mac before, selected]
  cases bank with
  | a => exact ⟨rfl, by simp [selectsA, both.1]⟩
  | b => exact ⟨rfl, by simp [selectsB, both.2, high]⟩

theorem write_mac (chip : Chip) (value : UInt16) :
    (chip.write macAddress value).mac = value &&& 0x0003 ∧
      (chip.write macAddress value).cell macCell = value ∧
      ∀ c, c ≠ macCell → (chip.write macAddress value).cell c = chip.cell c := by
  have here : (chip.write macAddress value).cell macCell = value := by
    rw [write_cell, if_pos (macCell_selected _)]
  refine ⟨by rw [mac_eq, here], here, ?_⟩
  intro c other
  rw [write_cell, if_neg]
  rw [selected_low (by decide)]
  exact other

theorem write_keepsMac {a : UInt16} (other : a ≠ macAddress) (chip : Chip) (value : UInt16) :
    (chip.write a value).mac = chip.mac := by
  rw [mac_eq, write_cell, if_neg (not_macCell_selected other _), mac_eq]

theorem write_bankA (mac : chip.mac = 1) (a value : UInt16) (c : Cell) :
    (chip.write a value).cell c = if c = (.a, a) then value else chip.cell c := by
  have apart : (1 : UInt16) &&& 2 = 0 := by decide
  have member : c ∈ Lime.selected chip.mac a ↔ c = (.a, a) := by
    obtain ⟨bank, x⟩ := c
    cases bank with
    | a => simp [Lime.selected, selectsA, mac]
    | b => simp [Lime.selected, selectsB, mac, apart]
  rw [write_cell, if_congr member rfl rfl]

theorem write_both (mac : chip.mac = 3) {a : UInt16} (high : ¬ a < 0x0100) (value : UInt16)
    (c : Cell) : (chip.write a value).cell c = if c.2 = a then value else chip.cell c := by
  have both : (3 : UInt16) &&& 1 ≠ 0 ∧ (3 : UInt16) &&& 2 ≠ 0 := by decide
  have member : c ∈ Lime.selected chip.mac a ↔ c.2 = a := by
    obtain ⟨bank, x⟩ := c
    cases bank with
    | a => simp [Lime.selected, selectsA, mac, both.1]
    | b => simp [Lime.selected, selectsB, mac, both.2, high]
  rw [write_cell, if_congr member rfl rfl]

end Chip

end Soapy.Lime
