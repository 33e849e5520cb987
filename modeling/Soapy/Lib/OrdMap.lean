import Soapy.Lib.Bytes

/-! # Ordered maps

`std::map` seen from outside: the entries in strictly increasing key order.
Insertion through `operator[]` replaces the value of a key that is present.
Byte strings compare as `std::string` does, by unsigned characters.
-/

namespace Soapy.Lib

abbrev byteOrder : LinearOrder UInt8 where
  le_refl a := UInt8.le_refl a
  le_trans a b c hab hbc := UInt8.le_trans hab hbc
  le_antisymm a b hab hba := UInt8.le_antisymm hab hba
  le_total a b := UInt8.le_total a b
  lt_iff_le_not_ge a b := by
    simp only [UInt8.lt_iff_toNat_lt, UInt8.le_iff_toNat_le]
    omega
  toDecidableLE := inferInstance
  toDecidableEq := inferInstance
  toDecidableLT := inferInstance

instance bytesOrder : LinearOrder Bytes := @List.instLinearOrder _ byteOrder

/-- Keys in strictly increasing order, so a key occurs at most once. -/
structure OrdMap (κ ν : Type) [LinearOrder κ] where
  entries : List (κ × ν)
  sorted : entries.Pairwise (fun a b => a.1 < b.1)

namespace OrdMap

variable {κ ν : Type} [LinearOrder κ]

@[ext] theorem ext {m m' : OrdMap κ ν} (h : m.entries = m'.entries) : m = m' := by
  cases m
  cases m'
  simp_all

instance [DecidableEq ν] : DecidableEq (OrdMap κ ν) := fun m m' =>
  decidable_of_iff (m.entries = m'.entries) ⟨ext, congrArg entries⟩

def empty : OrdMap κ ν := ⟨[], .nil⟩

def insertEntry (k : κ) (v : ν) : List (κ × ν) → List (κ × ν)
  | [] => [(k, v)]
  | (k', v') :: rest =>
    if k < k' then (k, v) :: (k', v') :: rest
    else if k = k' then (k, v) :: rest
    else (k', v') :: insertEntry k v rest

variable {l : List (κ × ν)}

theorem mem_insertEntry {k : κ} {v : ν} {e : κ × ν}
    (h : e ∈ insertEntry k v l) : e = (k, v) ∨ e ∈ l := by
  induction l with
  | nil => simpa [insertEntry] using h
  | cons head rest ih =>
    rw [insertEntry] at h
    split at h
    · simpa using h
    · split at h
      · rcases List.mem_cons.mp h with rfl | h
        · exact .inl rfl
        · exact .inr (List.mem_cons_of_mem _ h)
      · rcases List.mem_cons.mp h with rfl | h
        · exact .inr List.mem_cons_self
        · exact (ih h).imp_right (List.mem_cons_of_mem _)

variable (k : κ) (v : ν)

theorem insertEntry_sorted
    (h : l.Pairwise (fun a b => a.1 < b.1)) :
    (insertEntry k v l).Pairwise (fun a b => a.1 < b.1) := by
  induction l with
  | nil => simp [insertEntry]
  | cons head rest ih =>
    obtain ⟨below, tail⟩ := List.pairwise_cons.mp h
    rw [insertEntry]
    split
    · rename_i before
      refine List.pairwise_cons.mpr ⟨?_, h⟩
      intro e member
      rcases List.mem_cons.mp member with rfl | member
      · exact before
      · exact lt_trans before (below e member)
    · split
      · rename_i same
        refine List.pairwise_cons.mpr ⟨?_, tail⟩
        intro e member
        exact same ▸ below e member
      · rename_i notBefore notSame
        refine List.pairwise_cons.mpr ⟨?_, ih tail⟩
        intro e member
        rcases mem_insertEntry member with rfl | member
        · exact lt_of_le_of_ne (not_lt.mp notBefore) (Ne.symm notSame)
        · exact below e member

/-- `m[k] = v`. -/
def insert (m : OrdMap κ ν) (k : κ) (v : ν) : OrdMap κ ν :=
  ⟨insertEntry k v m.entries, insertEntry_sorted k v m.sorted⟩

/-- `m.find(k)`. -/
def find? (m : OrdMap κ ν) (k : κ) : Option ν :=
  (m.entries.find? (fun e => e.1 = k)).map Prod.snd

/-- `m.erase(k)`. -/
def erase (m : OrdMap κ ν) (k : κ) : OrdMap κ ν :=
  ⟨m.entries.filter (fun e => e.1 ≠ k), m.sorted.filter _⟩

theorem insertEntry_above {k : κ} {v : ν} (above : ∀ e ∈ l, e.1 < k) :
    insertEntry k v l = l ++ [(k, v)] := by
  induction l with
  | nil => rfl
  | cons head rest ih =>
    have first := above head List.mem_cons_self
    rw [insertEntry, if_neg (not_lt.mpr first.le), if_neg (ne_of_gt first),
      ih (fun e member => above e (List.mem_cons_of_mem _ member))]
    rfl

variable (m : OrdMap κ ν)

theorem insert_above (k : κ) (v : ν) (above : ∀ e ∈ m.entries, e.1 < k) :
    (m.insert k v).entries = m.entries ++ [(k, v)] :=
  insertEntry_above above

theorem find?_above {m : OrdMap κ ν} {k : κ} (above : ∀ e ∈ m.entries, e.1 < k) :
    m.find? k = none := by
  rw [find?, Option.map_eq_none_iff, List.find?_eq_none]
  intro e member
  simpa using ne_of_lt (above e member)

theorem insertEntry_last {k : κ} (v' : ν) (below : ∀ e ∈ l, e.1 < k) :
    insertEntry k v' (l ++ [(k, v)]) = l ++ [(k, v')] := by
  induction l with
  | nil => simp [insertEntry]
  | cons head rest ih =>
    have first := below head List.mem_cons_self
    rw [List.cons_append, insertEntry, if_neg (not_lt.mpr first.le), if_neg (ne_of_gt first),
      ih (fun e member => below e (List.mem_cons_of_mem _ member))]
    rfl

theorem below_last {m : OrdMap κ ν} {k : κ} {v : ν}
    (last : m.entries = l ++ [(k, v)]) : ∀ e ∈ l, e.1 < k := by
  have sorted := m.sorted
  rw [last, List.pairwise_append] at sorted
  exact fun e member => sorted.2.2 e member _ List.mem_cons_self

theorem insert_last {m : OrdMap κ ν} {k : κ} {v : ν} (v' : ν)
    (last : m.entries = l ++ [(k, v)]) : (m.insert k v').entries = l ++ [(k, v')] := by
  have replaced := insertEntry_last v v' (below_last last)
  rwa [← last] at replaced

theorem find?_split {m : OrdMap κ ν} {k : κ} {v : ν} (found : m.find? k = some v) :
    ∃ before after, m.entries = before ++ (k, v) :: after ∧
      (m.erase k).entries = before ++ after := by
  obtain ⟨e, first, rfl⟩ := Option.map_eq_some_iff.mp found
  obtain ⟨holds, before, after, split, _⟩ := List.find?_eq_some_iff_append.mp first
  have key : e.1 = k := by simpa using holds
  have sorted := m.sorted
  rw [split, List.pairwise_append, List.pairwise_cons] at sorted
  obtain ⟨_, ⟨above, _⟩, below⟩ := sorted
  subst key
  refine ⟨before, after, split, ?_⟩
  have keepBefore : before.filter (fun x => x.1 ≠ e.1) = before := by
    refine List.filter_eq_self.mpr (fun x member => ?_)
    simpa using ne_of_lt (below x member e List.mem_cons_self)
  have keepAfter : after.filter (fun x => x.1 ≠ e.1) = after := by
    refine List.filter_eq_self.mpr (fun x member => ?_)
    simpa using ne_of_gt (above x member)
  simp only [erase, split, List.filter_append, List.filter_cons, keepBefore, keepAfter]
  simp

theorem foldl_insert_above (l : List (κ × ν))
    (sorted : (m.entries ++ l).Pairwise (fun a b => a.1 < b.1)) :
    (l.foldl (fun m e => m.insert e.1 e.2) m).entries = m.entries ++ l := by
  induction l generalizing m with
  | nil => rw [List.append_nil]; rfl
  | cons e rest ih =>
    have above : ∀ x ∈ m.entries, x.1 < e.1 := fun x member =>
      (List.pairwise_append.mp sorted).2.2 x member e List.mem_cons_self
    have inserted := m.insert_above e.1 e.2 above
    have next : (m.insert e.1 e.2).entries ++ rest = m.entries ++ e :: rest := by
      rw [inserted, List.append_assoc]
      rfl
    rw [List.foldl_cons, ih (m.insert e.1 e.2) (next ▸ sorted), next]

theorem foldl_insert_entries :
    m.entries.foldl (fun m e => m.insert e.1 e.2) empty = m :=
  ext (foldl_insert_above empty m.entries m.sorted)

/-! ## Looking up

`find?` after each of the operations, so that a map is used through `find?` alone. -/

@[simp] theorem find?_empty : (empty : OrdMap κ ν).find? k = none := rfl

theorem find?_insertEntry (k' : κ) (v : ν) (l : List (κ × ν)) :
    ((insertEntry k v l).find? (fun e => e.1 = k')).map Prod.snd =
      if k' = k then some v else (l.find? (fun e => e.1 = k')).map Prod.snd := by
  induction l with
  | nil =>
    by_cases same : k' = k
    · simp [insertEntry, same]
    · simp [insertEntry, same, Ne.symm same]
  | cons head rest ih =>
    simp only [insertEntry]
    split
    · by_cases same : k' = k
      · simp [same]
      · simp [same, Ne.symm same]
    · split
      · rename_i here
        by_cases same : k' = k
        · simp [same]
        · simp [same, Ne.symm same, ← here]
      · rename_i notBefore notSame
        by_cases first : head.1 = k'
        · have other : k' ≠ k := fun same => notSame (same ▸ first.symm)
          simp [first, other]
        · simpa [first] using ih

theorem find?_insert (k k' : κ) (v : ν) :
    (m.insert k v).find? k' = if k' = k then some v else m.find? k' :=
  find?_insertEntry k k' v m.entries

theorem find?_erase (k k' : κ) :
    (m.erase k).find? k' = if k' = k then none else m.find? k' := by
  simp only [find?, erase, List.find?_filter]
  by_cases same : k' = k
  · rw [if_pos same, Option.map_eq_none_iff, List.find?_eq_none]
    intro e member
    simp [same]
  · rw [if_neg same]
    congr 2
    funext e
    by_cases here : e.1 = k'
    · simp [here, same]
    · simp [here]

/-- `m.erase(k)` for every `k` of a list. -/
def eraseAll (m : OrdMap κ ν) (keys : List κ) : OrdMap κ ν := keys.foldl erase m

theorem find?_eraseAll (keys : List κ) (k : κ) :
    (m.eraseAll keys).find? k = if k ∈ keys then none else m.find? k := by
  induction keys generalizing m with
  | nil => simp [eraseAll]
  | cons head rest ih =>
    have step := ih (m.erase head)
    simp only [eraseAll, List.foldl_cons] at step ⊢
    rw [step, find?_erase]
    by_cases first : k = head <;> by_cases later : k ∈ rest <;> simp [first, later]

def mapValues (f : ν → ν) (m : OrdMap κ ν) : OrdMap κ ν where
  entries := m.entries.map (fun e => (e.1, f e.2))
  sorted := List.pairwise_map.mpr m.sorted

theorem find?_mapValues (f : ν → ν) (m : OrdMap κ ν) (k : κ) :
    (m.mapValues f).find? k = (m.find? k).map f := by
  simp only [find?, mapValues, List.find?_map, Option.map_map, Function.comp_def]

/-- The keys whose value passes a test, in order. -/
def keysWhere (p : ν → Bool) (m : OrdMap κ ν) : List κ :=
  (m.entries.filter (fun e => p e.2)).map Prod.fst

theorem find?_eq_some_iff (k : κ) (v : ν) :
    m.find? k = some v ↔ (k, v) ∈ m.entries := by
  constructor
  · intro found
    obtain ⟨before, after, split, _⟩ := find?_split found
    rw [split]
    exact List.mem_append_right _ List.mem_cons_self
  · intro member
    obtain ⟨before, after, split⟩ := List.append_of_mem member
    have sorted := m.sorted
    rw [split, List.pairwise_append] at sorted
    have earlier : before.find? (fun e => e.1 = k) = none := by
      rw [List.find?_eq_none]
      intro e inside
      simpa using ne_of_lt (sorted.2.2 e inside _ List.mem_cons_self)
    simp [find?, split, List.find?_append, earlier]

theorem mem_insert (k : κ) (v : ν) (e : κ × ν) :
    e ∈ (m.insert k v).entries ↔ e = (k, v) ∨ e.1 ≠ k ∧ e ∈ m.entries := by
  obtain ⟨k', v'⟩ := e
  rw [← find?_eq_some_iff, ← find?_eq_some_iff, find?_insert]
  by_cases same : k' = k
  · simp [same, eq_comm]
  · simp [same]

theorem mem_keysWhere (p : ν → Bool) (m : OrdMap κ ν) (k : κ) :
    k ∈ m.keysWhere p ↔ ∃ v, m.find? k = some v ∧ p v = true := by
  simp only [keysWhere, List.mem_map, List.mem_filter, find?_eq_some_iff]
  constructor
  · rintro ⟨⟨k', v⟩, ⟨member, passes⟩, rfl⟩
    exact ⟨v, member, passes⟩
  · rintro ⟨v, member, passes⟩
    exact ⟨(k, v), ⟨member, passes⟩, rfl⟩

theorem nodup : m.entries.Nodup :=
  m.sorted.imp fun {a b} (below : a.1 < b.1) (equal : a = b) => ne_of_lt below (equal ▸ rfl)

theorem ext_find? {m m' : OrdMap κ ν} (same : ∀ k, m.find? k = m'.find? k) : m = m' := by
  have members : ∀ e, e ∈ m.entries ↔ e ∈ m'.entries := by
    intro e
    rw [← find?_eq_some_iff m e.1 e.2, ← find?_eq_some_iff m' e.1 e.2, same]
  have perm := (List.perm_ext_iff_of_nodup m.nodup m'.nodup).mpr members
  refine ext (perm.eq_of_pairwise ?_ m.sorted m'.sorted)
  intro a b _ _ below above
  exact absurd below (lt_asymm above)

section Copy

variable {κ' : Type} [LinearOrder κ']

/-- Assign the values of the keys that pass a test, under another key. -/
def copyWhere (p : κ → Bool) (f : κ → κ') (entries : List (κ × ν)) (out : OrdMap κ' ν) :
    OrdMap κ' ν :=
  entries.foldl (fun out e => if p e.1 then out.insert (f e.1) e.2 else out) out

omit [LinearOrder κ] in
theorem copyWhere_cons (p : κ → Bool) (f : κ → κ') (e : κ × ν) (rest : List (κ × ν))
    (out : OrdMap κ' ν) : copyWhere p f (e :: rest) out =
      copyWhere p f rest (if p e.1 then out.insert (f e.1) e.2 else out) := rfl

omit [LinearOrder κ] in
theorem find?_copyWhere_none {p : κ → Bool} {f : κ → κ'} {entries : List (κ × ν)} {k : κ'}
    (none : ∀ e ∈ entries, p e.1 = true → f e.1 ≠ k) (out : OrdMap κ' ν) :
    (copyWhere p f entries out).find? k = out.find? k := by
  induction entries generalizing out with
  | nil => rfl
  | cons e rest ih =>
    rw [copyWhere_cons, ih (fun e member => none e (List.mem_cons_of_mem _ member))]
    split
    · rename_i passes
      have other := none e List.mem_cons_self passes
      rw [find?_insert, if_neg (Ne.symm other)]
    · rfl

theorem find?_copyWhere_some {p : κ → Bool} {f : κ → κ'} {m : OrdMap κ ν} {k : κ} {v : ν}
    (found : m.find? k = some v) (passes : p k = true)
    (alone : ∀ k', p k' = true → f k' = f k → k' = k) (out : OrdMap κ' ν) :
    (copyWhere p f m.entries out).find? (f k) = some v := by
  obtain ⟨before, after, split, _⟩ := find?_split found
  have sorted := m.sorted
  rw [split, List.pairwise_append, List.pairwise_cons] at sorted
  have later : ∀ e ∈ after, p e.1 = true → f e.1 ≠ f k := fun e member passes same =>
    ne_of_gt (sorted.2.1.1 e member) (alone e.1 passes same)
  have parts : copyWhere p f m.entries out =
      copyWhere p f ((k, v) :: after) (copyWhere p f before out) := by
    rw [split, copyWhere, List.foldl_append]
    rfl
  rw [parts, copyWhere_cons, find?_copyWhere_none later, if_pos passes, find?_insert, if_pos rfl]

end Copy

/-- `operator<` of two maps compares their entries in key order. -/
abbrev lexOrder [LinearOrder ν] : LinearOrder (OrdMap κ ν) :=
  LinearOrder.lift' (fun m => m.entries.map toLex) (by
    intro m m' same
    exact ext (List.map_injective_iff.mpr toLex.injective same))

end OrdMap

end Soapy.Lib
