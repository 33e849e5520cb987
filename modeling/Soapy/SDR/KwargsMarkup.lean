import Soapy.Multi.Names
import Soapy.Remote.Defs

/-! # Kwargs as text

`KwargsFromString` reads a markup such as "driver=rtl, serial=1" in one pass, and
`KwargsToString` writes one. `trim` is the loop that SoapyMultiSDR has around `isspace` too.
-/

namespace Soapy.SDR

open Lib
open Soapy.Remote (Kwargs)
open Soapy.Multi (isspace comma trim Clean trim_clean trim_blank csvJoin_behind)

def equals : UInt8 := 61

/-- The locals of `KwargsFromString`. -/
structure Reading where
  kwargs : Kwargs
  inKey : Bool
  key : Bytes
  val : Bytes

namespace Reading

/-- Nothing was read since the last assignment. -/
def start (kwargs : Kwargs) : Reading := ⟨kwargs, true, [], []⟩

/-- What a character does to the flag and the two texts. -/
def take (r : Reading) (ch : UInt8) : Reading :=
  if r.inKey then
    if ch = equals then { r with inKey := false }
    else if ch = comma then { r with inKey := true }
    else { r with key := r.key ++ [ch] }
  else
    if ch = comma then { r with inKey := true }
    else { r with val := r.val ++ [ch] }

def assign (r : Reading) : Reading :=
  let key := trim r.key
  let val := trim r.val
  { r with
    kwargs := if key = [] then r.kwargs else r.kwargs.insert key val
    key := []
    val := [] }

/-- The loop body for one character. -/
def each (r : Reading) (ch : UInt8) (last : Bool) : Reading :=
  let r := r.take ch
  if r.inKey && (r.val ≠ [] || ch = comma) || last then r.assign else r

def run : Reading → Bytes → Kwargs
  | r, [] => r.kwargs
  | r, ch :: rest => (r.each ch rest.isEmpty).run rest

end Reading

def KwargsFromString (markup : Bytes) : Kwargs := (Reading.start OrdMap.empty).run markup

def written (pair : Bytes × Bytes) : Bytes := pair.1 ++ ascii "=" ++ pair.2

def KwargsToString (args : Kwargs) : Bytes :=
  args.entries.foldl
    (fun markup pair => (if markup = [] then markup else markup ++ ascii ", ") ++ written pair) []

/-- The text in front of the first '='. -/
def itemKey (item : Bytes) : Bytes := item.takeWhile (fun ch => ch ≠ equals)

/-- The text behind the first '='. -/
def itemVal (item : Bytes) : Bytes := (item.dropWhile (fun ch => ch ≠ equals)).tail

def assignItem (kwargs : Kwargs) (item : Bytes) : Kwargs :=
  if trim (itemKey item) = [] then kwargs
  else kwargs.insert (trim (itemKey item)) (trim (itemVal item))

variable {item : Bytes}

theorem items_no_equals (none : equals ∉ item) :
    itemKey item = item ∧ itemVal item = [] := by
  have all : ∀ ch ∈ item, decide (ch ≠ equals) = true := by
    intro ch member
    have other : ch ≠ equals := fun same => none (same ▸ member)
    simpa using other
  constructor
  · exact List.takeWhile_eq_self_iff.mpr all
  · rw [itemVal, List.dropWhile_eq_nil_iff.mpr all]
    rfl

theorem items_equals {key : Bytes} (none : equals ∉ key) (val : Bytes) :
    itemKey (key ++ equals :: val) = key ∧ itemVal (key ++ equals :: val) = val := by
  have all : ∀ ch ∈ key, decide (ch ≠ equals) = true := by
    intro ch member
    have other : ch ≠ equals := fun same => none (same ▸ member)
    simpa using other
  constructor
  · rw [itemKey, List.takeWhile_append_of_pos all]
    simp
  · rw [itemVal, List.dropWhile_append_of_pos all]
    simp

inductive Inside (kwargs : Kwargs) : Bytes → Reading → Prop where
  | key {front} : equals ∉ front → Inside kwargs front ⟨kwargs, true, front, []⟩
  | val {key val} : equals ∉ key →
      Inside kwargs (key ++ equals :: val) ⟨kwargs, false, key, val⟩

theorem inside_start (kwargs : Kwargs) : Inside kwargs [] (Reading.start kwargs) :=
  .key List.not_mem_nil

variable {ch : UInt8}

namespace Inside

variable {kwargs : Kwargs} {front : Bytes} {r : Reading}

section

variable (inside : Inside kwargs front r)
include inside

theorem take (other : ch ≠ comma) :
    Inside kwargs (front ++ [ch]) (r.take ch) := by
  cases inside with
  | key none =>
    by_cases here : ch = equals
    · subst here
      exact .val none
    · have next : equals ∉ front ++ [ch] := by simp [none, Ne.symm here]
      have taken : Reading.take ⟨kwargs, true, front, []⟩ ch =
          ⟨kwargs, true, front ++ [ch], []⟩ := by
        simp [Reading.take, here, other]
      rw [taken]
      exact .key next
  | @val key val none =>
    have taken : Reading.take ⟨kwargs, false, key, val⟩ ch =
        ⟨kwargs, false, key, val ++ [ch]⟩ := by
      simp [Reading.take, other]
    rw [taken, List.append_assoc]
    exact .val none

theorem quiet (other : ch ≠ comma) :
    r.each ch false = r.take ch := by
  have next := inside.take other
  unfold Reading.each
  generalize front ++ [ch] = front' at next
  generalize r.take ch = r' at next
  cases next with
  | key none => simp [other]
  | val none => simp

theorem assign :
    r.assign = ⟨assignItem kwargs front, r.inKey, [], []⟩ := by
  cases inside with
  | key none =>
    obtain ⟨same_key, same_val⟩ := items_no_equals none
    rw [assignItem, same_key, same_val]
    rfl
  | @val key val none =>
    obtain ⟨same_key, same_val⟩ := items_equals none val
    rw [assignItem, same_key, same_val]
    rfl

theorem at_comma (last : Bool) :
    r.each comma last = Reading.start (assignItem kwargs front) := by
  have taken : r.take comma = { r with inKey := true } := by
    cases inside with
    | key none => rfl
    | val none => rfl
  have assigned : Reading.assign { r with inKey := true } =
      Reading.start (assignItem kwargs front) :=
    congrArg (fun r : Reading => { r with inKey := true }) inside.assign
  unfold Reading.each
  rw [taken]
  simpa using assigned

theorem run_item (no_comma : comma ∉ item)
    (some : item ≠ []) : r.run item = assignItem kwargs (front ++ item) := by
  induction item generalizing front r with
  | nil => exact absurd rfl some
  | cons ch item ih =>
    rw [List.mem_cons, not_or] at no_comma
    have other : ch ≠ comma := Ne.symm no_comma.1
    have next := inside.take other
    cases item with
    | nil =>
      have assigned := next.assign
      simp [Reading.run, Reading.each, assigned]
    | cons ch' item =>
      have rest := ih next no_comma.2 (List.cons_ne_nil _ _)
      rw [Reading.run, List.isEmpty_cons, inside.quiet other, rest, List.append_assoc]
      rfl

theorem run_comma (no_comma : comma ∉ item) (rest : Bytes) : r.run (item ++ comma :: rest) =
      (Reading.start (assignItem kwargs (front ++ item))).run rest := by
  induction item generalizing front r with
  | nil => rw [List.nil_append, Reading.run, inside.at_comma, List.append_nil]
  | cons ch item ih =>
    rw [List.mem_cons, not_or] at no_comma
    have other : ch ≠ comma := Ne.symm no_comma.1
    have more : (item ++ comma :: rest).isEmpty = false := by simp
    rw [List.cons_append, Reading.run, more, inside.quiet other,
      ih (inside.take other) no_comma.2, List.append_assoc]
    rfl

end

end Inside

theorem run_item (kwargs : Kwargs) (no_comma : comma ∉ item) :
    (Reading.start kwargs).run item = assignItem kwargs item := by
  cases item with
  | nil => rfl
  | cons ch item => exact (inside_start kwargs).run_item no_comma (List.cons_ne_nil _ _)

theorem run_comma (kwargs : Kwargs) (no_comma : comma ∉ item) (rest : Bytes) :
    (Reading.start kwargs).run (item ++ comma :: rest) =
      (Reading.start (assignItem kwargs item)).run rest :=
  (inside_start kwargs).run_comma no_comma rest

structure CleanKey (key : Bytes) : Prop extends Clean key where
  some : key ≠ []
  no_equals : equals ∉ key

def CleanEntry (pair : Bytes × Bytes) : Prop := CleanKey pair.1 ∧ Clean pair.2

theorem mem_trim {v : Bytes} (member : ch ∈ trim v) : ch ∈ v := by
  have inside : ch ∈ v.dropWhile isspace := (List.rdropWhile_prefix isspace _).mem member
  exact (List.dropWhile_suffix isspace).mem inside

theorem clean_trim {v : Bytes} (no_comma : comma ∉ v) : Clean (trim v) where
  no_comma member := no_comma (mem_trim member)
  front := by
    have front : trim v <+: v.dropWhile isspace := List.rdropWhile_prefix isspace _
    have stops := List.head?_dropWhile_not isspace v
    cases trimmed : trim v with
    | nil => rfl
    | cons ch rest =>
      obtain ⟨behind, whole⟩ := front
      rw [← whole, trimmed] at stops
      have visible : isspace ch = false := by simpa using stops
      rw [List.dropWhile_cons, if_neg (by simp [visible])]
  back := by
    have same : (trim v).rdropWhile isspace = trim v :=
      List.rdropWhile_idempotent isspace (v.dropWhile isspace)
    rw [← List.reverse_inj, List.reverse_reverse]
    exact same

theorem clean_assignItem {kwargs : Kwargs} (clean : ∀ pair ∈ kwargs.entries, CleanEntry pair) (no_comma : comma ∉ item) :
    ∀ pair ∈ (assignItem kwargs item).entries, CleanEntry pair := by
  have in_key : ∀ ch ∈ itemKey item, ch ∈ item ∧ ch ≠ equals := by
    intro ch member
    have other := List.mem_takeWhile_imp member
    exact ⟨(List.takeWhile_prefix _).mem member, by simpa using other⟩
  have in_val : ∀ ch ∈ itemVal item, ch ∈ item := fun ch member =>
    (List.dropWhile_suffix _).mem (List.mem_of_mem_tail member)
  rw [assignItem]
  split
  · exact clean
  · rename_i some
    intro pair member
    rcases OrdMap.mem_insertEntry member with rfl | member
    · have key := clean_trim (fun inside => no_comma (in_key _ inside).1)
      have val := clean_trim (fun inside => no_comma (in_val _ inside))
      have no_equals : equals ∉ trim (itemKey item) := fun inside =>
        (in_key _ (mem_trim inside)).2 rfl
      exact ⟨⟨key, some, no_equals⟩, val⟩
    · exact clean pair member

theorem comma_cases (text : Bytes) :
    comma ∉ text ∨ ∃ item rest, comma ∉ item ∧ text = item ++ comma :: rest := by
  by_cases member : comma ∈ text
  · obtain ⟨item, rest, split, first⟩ := List.eq_append_cons_of_mem member
    exact .inr ⟨item, rest, first, split⟩
  · exact .inl member

theorem clean_run {kwargs : Kwargs} (clean : ∀ pair ∈ kwargs.entries, CleanEntry pair)
    (text : Bytes) : ∀ pair ∈ ((Reading.start kwargs).run text).entries, CleanEntry pair := by
  rcases comma_cases text with no_comma | ⟨item, rest, no_comma, rfl⟩
  · rw [run_item kwargs no_comma]
    exact clean_assignItem clean no_comma
  · have shorter : rest.length < (item ++ comma :: rest).length := by
      simp
      omega
    rw [run_comma kwargs no_comma rest]
    exact clean_run (clean_assignItem clean no_comma) rest
termination_by text.length

theorem KwargsFromString_clean (markup : Bytes) :
    ∀ pair ∈ (KwargsFromString markup).entries, CleanEntry pair :=
  clean_run (fun _ member => absurd member List.not_mem_nil) markup

section Written

variable {pair : Bytes × Bytes}

theorem written_no_comma (clean : CleanEntry pair) : comma ∉ written pair := by
  have key := clean.1.no_comma
  have val := clean.2.no_comma
  have sign : comma ∉ ascii "=" := by decide
  simp only [written, List.mem_append, not_or]
  exact ⟨⟨key, sign⟩, val⟩

theorem assign_written (clean : CleanEntry pair) (kwargs : Kwargs) :
    assignItem kwargs (written pair) = kwargs.insert pair.1 pair.2 := by
  have split : written pair = pair.1 ++ equals :: pair.2 := by
    rw [written, List.append_assoc]
    rfl
  obtain ⟨key, val⟩ := items_equals clean.1.no_equals pair.2
  rw [assignItem, split, key, val, trim_clean clean.1.toClean, trim_clean clean.2,
    if_neg clean.1.some]

theorem assign_blank (clean : CleanEntry pair) (kwargs : Kwargs) :
    assignItem kwargs (32 :: written pair) = kwargs.insert pair.1 pair.2 := by
  have split : 32 :: written pair = (32 :: pair.1) ++ equals :: pair.2 := by
    rw [written, List.append_assoc]
    rfl
  have none : equals ∉ 32 :: pair.1 := by
    intro member
    cases member with
    | tail _ inside => exact clean.1.no_equals inside
  obtain ⟨key, val⟩ := items_equals none pair.2
  rw [assignItem, split, key, val, trim_blank clean.1.toClean, trim_clean clean.2,
    if_neg clean.1.some]

end Written

theorem run_written (kwargs : Kwargs) (no_comma : comma ∉ item)
    {rest : List (Bytes × Bytes)} (clean : ∀ pair ∈ rest, CleanEntry pair) :
    (Reading.start kwargs).run (item ++ rest.flatMap (fun pair => ascii ", " ++ written pair)) =
      rest.foldl (fun m pair => m.insert pair.1 pair.2) (assignItem kwargs item) := by
  induction rest generalizing kwargs item with
  | nil =>
    rw [List.flatMap_nil, List.append_nil]
    exact run_item kwargs no_comma
  | cons pair rest ih =>
    have here := clean pair List.mem_cons_self
    have blank : comma ∉ 32 :: written pair := by
      intro member
      cases member with
      | tail _ inside => exact written_no_comma here inside
    have split : item ++ (pair :: rest).flatMap (fun pair => ascii ", " ++ written pair) =
        item ++ comma :: (32 :: written pair ++
          rest.flatMap (fun pair => ascii ", " ++ written pair)) := by
      simp [List.flatMap_cons, ascii, comma]
    have later := ih (assignItem kwargs item) blank
      (fun pair member => clean pair (List.mem_cons_of_mem _ member))
    rw [split, run_comma kwargs no_comma, later, assign_blank here]
    rfl

theorem KwargsToString_cons {m : Kwargs} {first : Bytes × Bytes} {rest : List (Bytes × Bytes)}
    (entries : m.entries = first :: rest) : KwargsToString m =
      written first ++ rest.flatMap (fun pair => ascii ", " ++ written pair) := by
  have some : written first ≠ [] := by simp [written, ascii]
  have behind := @csvJoin_behind _ (rest.map written) some
  rw [List.foldl_map, List.flatMap_map] at behind
  rw [KwargsToString, entries, List.foldl_cons]
  exact behind

theorem read_written {m : Kwargs} (clean : ∀ pair ∈ m.entries, CleanEntry pair) :
    KwargsFromString (KwargsToString m) = m := by
  have rebuilt := m.foldl_insert_entries
  cases entries : m.entries with
  | nil =>
    have empty : m = OrdMap.empty := OrdMap.ext entries
    rw [empty]
    rfl
  | cons first rest =>
    rw [entries] at clean rebuilt
    have here := clean first List.mem_cons_self
    rw [KwargsToString_cons entries, KwargsFromString,
      run_written OrdMap.empty (written_no_comma here)
        (fun pair member => clean pair (List.mem_cons_of_mem _ member)),
      assign_written here]
    exact rebuilt

/-- Text that was read once is a fixed point, and a map is read back when it is clean. -/
theorem kwargs_markup :
    (∀ s, KwargsFromString (KwargsToString (KwargsFromString s)) = KwargsFromString s) ∧
    ∀ m : Kwargs, KwargsFromString (KwargsToString m) = m ↔
      ∀ pair ∈ m.entries, CleanEntry pair := by
  constructor
  · intro s
    exact read_written (KwargsFromString_clean s)
  · intro m
    constructor
    · intro back pair member
      rw [← back] at member
      exact KwargsFromString_clean _ pair member
    · exact read_written

end Soapy.SDR
