import Soapy.Lib.Stopping
import Soapy.Remote.Registration

/-! # Arguments for several devices

What is found for each device goes into one set of arguments, with the keys as `name[index]`, and
comes out again when the devices are opened. The stop key keeps a device from opening further ones.
-/

namespace Soapy.Multi

open Lib
open Soapy.Remote (Kwargs renamed)

/-- `SOAPY_MULTI_KWARG_STOP`. -/
def kwargStop : Bytes := ascii "soapy_multi_no_deeper"

/-- `SOAPY_MULTI_KWARG_PREFIX`. -/
def kwargPrefix : Bytes := ascii "multi:"

/-- The keys that the first loop copies as they are. -/
def notMulti (key : Bytes) : Bool :=
  !isIndexedName key && key ≠ ascii "driver" && key ≠ ascii "type" && find kwargPrefix key = none

/-- The keys of the second loop, which does not ask `isIndexedName`. -/
def prefixed (key : Bytes) : Bool := find kwargPrefix key = some 0

/-- `key.substr(offset)`. -/
def stripped (key : Bytes) : Bytes := key.drop kwargPrefix.length

/-- A turn of the third loop. -/
def copyIndexed (index : Nat) (argsOut : Kwargs) (pair : Bytes × Bytes) : Except Stop Kwargs :=
  if isIndexedName pair.1 then
    (splitIndexedName pair.1).map (fun split =>
      if split.2 = index then argsOut.insert split.1 pair.2 else argsOut)
  else .ok argsOut

/-- `translateArgs` for one index. -/
def translateArgsAt (args : Kwargs) (index : Nat) : Except Stop Kwargs :=
  let argsOut := OrdMap.empty.insert kwargStop []
  let argsOut := OrdMap.copyWhere notMulti id args.entries argsOut
  let argsOut := OrdMap.copyWhere prefixed stripped args.entries argsOut
  args.entries.foldlM (copyIndexed index) argsOut

/-- `int(index)`. -/
def toInt (index : Nat) : Int := (index : Int).bmod (2 ^ 32)

def raiseIndex (maxIndex : Int) (pair : Bytes × Bytes) : Except Stop Int :=
  if isIndexedName pair.1 then
    (splitIndexedName pair.1).map (fun split =>
      if toInt split.2 > maxIndex then toInt split.2 else maxIndex)
  else .ok maxIndex

def translateArgs (args : Kwargs) : Except Stop (List Kwargs) := do
  let maxIndex ← args.entries.foldlM raiseIndex (-1)
  (List.range (maxIndex + 1).toNat).mapM (translateArgsAt args)

/-- The loop of `findMultiSDR` over what was found for each device, from `index` on. -/
def gather (index : Nat) : List Kwargs → Kwargs → Kwargs
  | [], result0 => result0
  | results_i :: rest, result0 =>
    gather (index + 1) rest
      (OrdMap.copyWhere (fun _ => true) (toIndexedName · index) results_i.entries result0)

/-- What `findMultiSDR` makes of the arguments found for each device. -/
def resultArgs (found : List Kwargs) : Kwargs :=
  let resultArgs := (gather 0 found OrdMap.empty).erase kwargStop
  let resultArgs := renamed (ascii "driver") (ascii "multi:driver") resultArgs
  renamed (ascii "type") (ascii "multi:type") resultArgs

def findMultiSDR (enumerate : Kwargs → List Kwargs) (args : Kwargs) :
    Except Stop (List Kwargs) := do
  let argses ← translateArgs args
  return match argses.mapM (fun args_i => (enumerate args_i).head?) with
    | some (first :: rest) => [resultArgs (first :: rest)]
    | _ => []

/-- A result of `Device::enumerate` names the driver that found it. -/
def enumerated (found : List Kwargs) : Kwargs :=
  (resultArgs found).insert (ascii "driver") (ascii "multi")

/-- The arguments together with the stop key. -/
def withStop (args : Kwargs) : Kwargs :=
  if args.find? kwargStop = none then args.insert kwargStop [] else args

/-- The indices fit an `int`, and a key with the prefix of one device comes out under a name that
    every device has itself. -/
structure Separate (sets : List Kwargs) : Prop where
  fits : sets.length ≤ 2 ^ 31
  apart : ∀ args ∈ sets, ∀ j other, sets[j]? = some other → ∀ key,
    other.find? (kwargPrefix ++ key) ≠ none → args.find? (toIndexedName key j) ≠ none

theorem digit_byte {c : Char} (digit : c.isDigit = true) :
    isdigit c.toNat.toUInt8 = true ∧ c.toNat.toUInt8.toNat = c.toNat := by
  rw [Char.isDigit, Bool.and_eq_true, decide_eq_true_iff, decide_eq_true_iff] at digit
  have low : 48 ≤ c.toNat := UInt32.le_iff_toNat_le.mp digit.1
  have high : c.toNat ≤ 57 := UInt32.le_iff_toNat_le.mp digit.2
  have byte : c.toNat.toUInt8.toNat = c.toNat :=
    UInt8.toNat_ofNat_of_lt' (Nat.lt_of_le_of_lt high (by decide))
  exact ⟨by simp [isdigit, UInt8.le_iff_toNat_le, byte, low, high], byte⟩

theorem index_digits (index : Nat) : (∀ ch ∈ ascii (toString index), isdigit ch = true) ∧
    value (ascii (toString index)) = index := by
  have digits : (toString index).toList = Nat.toDigits 10 index := by
    rw [Nat.toString_eq_repr, Nat.toList_repr]
  have digit : ∀ c ∈ Nat.toDigits 10 index, c.isDigit = true := fun c member =>
    Nat.isDigit_of_mem_toDigits (by decide) (by decide) member
  constructor
  · intro ch member
    rw [ascii, digits] at member
    obtain ⟨c, inside, rfl⟩ := List.mem_map.mp member
    exact (digit_byte (digit c inside)).1
  · have folded : ∀ (l : List Char), (∀ c ∈ l, c.isDigit = true) → ∀ acc,
        (l.map (fun c => c.toNat.toUInt8)).foldl (fun acc ch => acc * 10 + (ch.toNat - 48)) acc =
          Nat.ofDigitChars 10 l acc := by
      intro l
      induction l with
      | nil => simp
      | cons c l ih =>
        intro digit acc
        rw [List.map_cons, List.foldl_cons, ih fun c inside => digit c (.tail _ inside),
          (digit_byte (digit c List.mem_cons_self)).2, Nat.ofDigitChars_cons, Nat.mul_comm]
        rfl
    rw [value, ascii, digits, folded _ digit, Nat.ofDigitChars_ten_toDigits]

theorem toIndexedName_indexed (name : Bytes) (index : Nat) :
    Indexed (toIndexedName name index) name (ascii (toString index)) [] :=
  ⟨by simp [toIndexedName], (index_digits index).1, nofun, nofun⟩

theorem splitIndexedName_toIndexedName (name : Bytes) {index : Nat} (fits : index < 2 ^ 64) :
    splitIndexedName (toIndexedName name index) = .ok (name, index) := by
  have some : ascii (toString index) ≠ [] := by
    intro none
    rw [ascii, List.map_eq_nil_iff, Nat.toString_eq_repr, Nat.toList_repr] at none
    exact Nat.toDigits_ne_nil none
  rw [(toIndexedName_indexed name index).split, stoul_digits (index_digits index).1, if_neg some,
    (index_digits index).2, if_pos fits]
  rfl

theorem toIndexedName_injective {name name' : Bytes} {index index' : Nat}
    (same : toIndexedName name index = toIndexedName name' index') :
    name = name' ∧ index = index' := by
  have first := toIndexedName_indexed name index
  have second := toIndexedName_indexed name' index'
  rw [same] at first
  have length : name.length = name'.length :=
    Option.some.inj (first.open_last.symm.trans second.open_last)
  have parts := first.whole.symm.trans second.whole
  simp only [List.append_assoc] at parts
  obtain ⟨names, behind⟩ := List.append_inj parts length
  have digits := List.append_cancel_right (List.cons.inj behind).2
  refine ⟨names, ?_⟩
  rw [← (index_digits index).2, ← (index_digits index').2, digits]

theorem not_toIndexedName {key : Bytes} (plain : isIndexedName key = false) (name : Bytes)
    (index : Nat) : key ≠ toIndexedName name index := by
  rintro rfl
  rw [(toIndexedName_indexed name index).is_indexed] at plain
  cases plain

def plainName (key : Bytes) : Bytes := key.take ((find_last_of openBracket key).getD 0)

theorem plainName_toIndexedName (name : Bytes) (index : Nat) :
    plainName (toIndexedName name index) = name := by
  have whole : toIndexedName name index =
      name ++ ([openBracket] ++ ascii (toString index) ++ [closeBracket]) := by
    simp [toIndexedName]
  rw [plainName, (toIndexedName_indexed name index).open_last, Option.getD_some, whole]
  exact List.take_left

theorem prefixed_iff {key : Bytes} : prefixed key = true ↔ kwargPrefix <+: key := by
  rw [prefixed, decide_eq_true_iff, find_eq_zero_iff]

theorem prefixed_toIndexedName {name : Bytes} {index : Nat} :
    kwargPrefix <+: toIndexedName name index ↔ kwargPrefix <+: name := by
  constructor
  · intro found
    obtain ⟨back, whole⟩ := found
    rw [toIndexedName, List.append_assoc, List.append_assoc] at whole
    rcases List.append_eq_append_iff.mp whole with ⟨inside, rfl, -⟩ | ⟨inside, split, behind⟩
    · exact List.prefix_append _ _
    · cases inside with
      | nil => exact ⟨[], by rw [split, List.append_nil, List.append_nil]⟩
      | cons bracket rest =>
        have member : openBracket ∈ kwargPrefix := by
          rw [split, ← (List.cons.inj behind).1]
          exact List.mem_append_right _ List.mem_cons_self
        exact absurd member (by decide)
  · intro first
    rw [toIndexedName, List.append_assoc, List.append_assoc]
    exact first.trans (List.prefix_append _ _)

theorem stripped_toIndexedName (name : Bytes) (index : Nat) :
    stripped (toIndexedName (kwargPrefix ++ name) index) = toIndexedName name index := by
  simp only [toIndexedName, stripped, List.append_assoc]
  exact List.drop_left

section

variable {sets : List Kwargs} {args : Kwargs} {name v : Bytes} {i index : Nat}

theorem gather_none {key : Bytes} {out : Kwargs}
    (other : ∀ j args, sets[j]? = some args → ∀ name, args.find? name ≠ none →
      toIndexedName name (index + j) ≠ key) :
    (gather index sets out).find? key = out.find? key := by
  induction sets generalizing index out with
  | nil => rfl
  | cons first rest ih =>
    have later := @ih (index + 1)
      (OrdMap.copyWhere (fun _ => true) (toIndexedName · index) first.entries out)
      (fun j args here name found => by
        rw [Nat.add_right_comm]
        exact other (j + 1) args here name found)
    rw [gather, later]
    apply OrdMap.find?_copyWhere_none
    intro e member _
    apply other 0 first rfl
    rw [(first.find?_eq_some_iff e.1 e.2).mpr member]
    exact Option.some_ne_none _

theorem gather_some {out : Kwargs} (here : sets[i]? = some args) (found : args.find? name = some v) :
    (gather index sets out).find? (toIndexedName name (index + i)) = some v := by
  induction sets generalizing index i out with
  | nil => cases here
  | cons first rest ih =>
    rw [gather]
    cases i with
    | zero =>
      obtain rfl := Option.some.inj here
      rw [gather_none]
      · exact OrdMap.find?_copyWhere_some found rfl
          (fun _ _ same => (toIndexedName_injective same).1) out
      · intro j args _ name' _ same
        have := (toIndexedName_injective same).2
        omega
    | succ i =>
      rw [← Nat.add_assoc, Nat.add_right_comm]
      exact ih here

theorem renamed_absent {key key' : Bytes} (none : args.find? key = none) :
    renamed key key' args = args := by
  rw [renamed, none]

theorem resultArgs_eq (found : List Kwargs) : resultArgs found = gather 0 found OrdMap.empty := by
  have absent : ∀ key, isIndexedName key = false →
      (gather 0 found OrdMap.empty).find? key = none := fun key plain =>
    gather_none fun _ _ _ name _ => (not_toIndexedName plain name _).symm
  have erased : (gather 0 found OrdMap.empty).erase kwargStop = gather 0 found OrdMap.empty := by
    apply OrdMap.ext_find?
    intro key
    rw [OrdMap.find?_erase]
    split
    · rename_i same
      rw [same, absent _ (by decide)]
    · rfl
  simp only [resultArgs, erased]
  rw [renamed_absent (absent (ascii "driver") (by decide)),
    renamed_absent (absent (ascii "type") (by decide))]

theorem enumerated_some (here : sets[i]? = some args) (found : args.find? name = some v) :
    (enumerated sets).find? (toIndexedName name i) = some v := by
  have gathered := @gather_some sets args name v i 0 OrdMap.empty here found
  rw [enumerated, OrdMap.find?_insert, if_neg (not_toIndexedName (by decide) _ _).symm,
    resultArgs_eq, ← gathered, Nat.zero_add]

theorem enumerated_cases {e : Bytes × Bytes} (member : e ∈ (enumerated sets).entries) :
    e.1 = ascii "driver" ∨ ∃ i args name, sets[i]? = some args ∧ args.find? name ≠ none ∧
      e.1 = toIndexedName name i := by
  rw [enumerated, resultArgs_eq, OrdMap.mem_insert] at member
  by_contra other
  push Not at other
  have absent : (gather 0 sets OrdMap.empty).find? e.1 = none :=
    gather_none fun j args here name found same =>
      other.2 j args name here found (by rw [← same, Nat.zero_add])
  rcases member with rfl | ⟨-, member⟩
  · exact other.1 rfl
  · rw [(OrdMap.find?_eq_some_iff _ e.1 e.2).mpr member] at absent
    cases absent

def copied (sets : List Kwargs) (index : Nat) : Kwargs :=
  OrdMap.copyWhere (fun key => key = toIndexedName (plainName key) index) plainName
    (enumerated sets).entries
    (OrdMap.copyWhere prefixed stripped (enumerated sets).entries
      (OrdMap.copyWhere notMulti id (enumerated sets).entries
        (OrdMap.empty.insert kwargStop [])))

theorem translateArgsAt_eq (fits : sets.length ≤ 2 ^ 64) (index : Nat) :
    translateArgsAt (enumerated sets) index = .ok (copied sets index) := by
  apply foldlM_done
  intro argsOut e member
  rcases enumerated_cases member with driver | ⟨i, args, name, here, -, indexed⟩
  · have other : ¬ e.1 = toIndexedName (plainName e.1) index := by
      rw [driver]
      exact not_toIndexedName (by decide) _ _
    have plain : isIndexedName e.1 = false := by
      rw [driver]
      decide
    simp [copyIndexed, plain, other]
  · have inside := (List.getElem?_eq_some_iff.mp here).1
    have name_of : plainName e.1 = name := by rw [indexed, plainName_toIndexedName]
    have split : splitIndexedName e.1 = .ok (name, i) := by
      rw [indexed]
      exact splitIndexedName_toIndexedName name (by omega)
    have this_index : e.1 = toIndexedName name index ↔ i = index := by
      rw [indexed]
      exact ⟨fun same => (toIndexedName_injective same).2, fun same => by rw [same]⟩
    have accepted : isIndexedName e.1 = true := by
      rw [indexed, (toIndexedName_indexed name i).is_indexed]
    rw [copyIndexed, if_pos accepted, split]
    simp [Except.map, name_of, ← this_index]

theorem copied_some (here : sets[index]? = some args) (found : args.find? name = some v) :
    (copied sets index).find? name = some v := by
  have present := enumerated_some here found
  have own := plainName_toIndexedName name index
  have copied := OrdMap.find?_copyWhere_some
    (p := fun key => key = toIndexedName (plainName key) index) (f := plainName) present
    (by rw [decide_eq_true_iff, own])
    (fun key passes same => by rw [of_decide_eq_true passes, same, own])
    (OrdMap.copyWhere prefixed stripped (enumerated sets).entries
      (OrdMap.copyWhere notMulti id (enumerated sets).entries
        (OrdMap.empty.insert kwargStop [])))
  rwa [own] at copied

/-- A name that the device does not have comes from the first two loops. -/
theorem copied_none (here : sets[index]? = some args) (absent : args.find? name = none) :
    (copied sets index).find? name =
      (OrdMap.copyWhere prefixed stripped (enumerated sets).entries
        (OrdMap.copyWhere notMulti id (enumerated sets).entries
          (OrdMap.empty.insert kwargStop []))).find? name := by
  apply OrdMap.find?_copyWhere_none
  intro e member passes same
  have canonical := of_decide_eq_true passes
  rw [same] at canonical
  rcases enumerated_cases member with driver | ⟨i, args', name', here', found, indexed⟩
  · rw [driver] at canonical
    exact not_toIndexedName (by decide) _ _ canonical
  · obtain ⟨rfl, rfl⟩ := toIndexedName_injective (indexed.symm.trans canonical)
    obtain rfl := Option.some.inj (here.symm.trans here')
    exact found absent

theorem copied_extra {other : Kwargs} {j : Nat} {key : Bytes} (here : sets[index]? = some args)
    (there : sets[j]? = some other) (found : other.find? (kwargPrefix ++ key) = some v)
    (absent : args.find? (toIndexedName key j) = none) :
    (copied sets index).find? (toIndexedName key j) = some v := by
  have present := enumerated_some there found
  have passes : prefixed (toIndexedName (kwargPrefix ++ key) j) = true :=
    prefixed_iff.mpr (prefixed_toIndexedName.mpr (List.prefix_append _ _))
  rw [copied_none here absent, ← stripped_toIndexedName]
  apply OrdMap.find?_copyWhere_some present passes
  intro key' passes' same
  obtain ⟨back, rfl⟩ := prefixed_iff.mp passes'
  have strips : stripped (kwargPrefix ++ back) = back := List.drop_left
  rw [strips, stripped_toIndexedName] at same
  rw [same]
  simp [toIndexedName]

theorem copied_absent (separate : Separate sets) (here : sets[index]? = some args)
    (absent : args.find? name = none) :
    (copied sets index).find? name = (OrdMap.empty.insert kwargStop ([] : Bytes)).find? name := by
  have member := List.mem_of_getElem? here
  rw [copied_none here absent, OrdMap.find?_copyWhere_none, OrdMap.find?_copyWhere_none]
  · intro e inside passes
    simp only [notMulti, Bool.and_eq_true, Bool.not_eq_true', decide_eq_true_iff] at passes
    rcases enumerated_cases inside with driver | ⟨i, _, _, _, _, indexed⟩
    · exact absurd driver passes.1.1.2
    · exact absurd indexed (not_toIndexedName passes.1.1.1 _ _)
  · intro e inside passes same
    have first := prefixed_iff.mp passes
    rcases enumerated_cases inside with driver | ⟨j, other, key, there, found, indexed⟩
    · rw [driver] at first
      exact absurd first (by decide)
    · rw [indexed, prefixed_toIndexedName] at first
      obtain ⟨rest, rfl⟩ := first
      rw [indexed, stripped_toIndexedName] at same
      exact separate.apart args member j other there rest found (same ▸ absent)

theorem find?_withStop (args : Kwargs) (name : Bytes) : (withStop args).find? name =
    (args.find? name).or ((OrdMap.empty.insert kwargStop ([] : Bytes)).find? name) := by
  rw [withStop, OrdMap.find?_insert]
  cases found : args.find? kwargStop with
  | none =>
    rw [if_pos rfl, OrdMap.find?_insert]
    split
    · rename_i same
      rw [same, found]
      rfl
    · exact (Option.or_none).symm
  | some v =>
    rw [if_neg (Option.some_ne_none v)]
    split
    · rename_i same
      rw [same, found]
      rfl
    · exact (Option.or_none).symm

theorem copied_eq (separate : Separate sets) (here : sets[index]? = some args) :
    copied sets index = withStop args := by
  apply OrdMap.ext_find?
  intro name
  rw [find?_withStop]
  cases found : args.find? name with
  | none => exact copied_absent separate here found
  | some v => exact copied_some here found

theorem raised {l : List (Bytes × Bytes)} {n : Nat} {m : Int} (small : n ≤ 2 ^ 31)
    (shape : ∀ e ∈ l, e.1 = ascii "driver" ∨ ∃ i name, i < n ∧ e.1 = toIndexedName name i)
    (start : m < n) : ∃ m', l.foldlM raiseIndex m = .ok m' ∧ m ≤ m' ∧ m' < n ∧
      ∀ i name v, i < n → (toIndexedName name i, v) ∈ l → i ≤ m' := by
  induction l generalizing m with
  | nil => exact ⟨m, rfl, Int.le_refl _, start, nofun⟩
  | cons e l ih =>
    have later := fun m start => @ih m (fun e inside => shape e (.tail _ inside)) start
    rcases shape e List.mem_cons_self with driver | ⟨i, name, inside, indexed⟩
    · have step : raiseIndex m e = .ok m := by
        rw [raiseIndex, driver]
        rfl
      obtain ⟨m', run, above, below, raised⟩ := later m start
      refine ⟨m', by rw [List.foldlM_cons, step]; exact run, above, below, ?_⟩
      intro i name v inside member
      rcases List.mem_cons.mp member with rfl | member
      · exact absurd driver.symm (not_toIndexedName (by decide) _ _)
      · exact raised i name v inside member
    · have plain : toInt i = i := Int.bmod_eq_of_le (by omega) (by omega)
      have greater : (if (i : Int) > m then (i : Int) else m) = max m i := by split <;> omega
      have step : raiseIndex m e = .ok (max m i) := by
        rw [raiseIndex, indexed, if_pos (toIndexedName_indexed name i).is_indexed,
          splitIndexedName_toIndexedName name (by omega)]
        simp only [Except.map, plain, greater]
      obtain ⟨m', run, above, below, raised⟩ := later (max m i) (by omega)
      refine ⟨m', by rw [List.foldlM_cons, step]; exact run, by omega, below, ?_⟩
      intro i' name' v inside' member
      rcases List.mem_cons.mp member with same | member
      · have := (toIndexedName_injective ((congrArg Prod.fst same).trans indexed)).2
        omega
      · exact raised i' name' v inside' member

theorem raised_small {l : List (Bytes × Bytes)} {m m' : Int}
    (run : l.foldlM raiseIndex m = .ok m') (start : m < 2 ^ 31) : m' < 2 ^ 31 := by
  induction l generalizing m with
  | nil => exact Except.ok.inj run ▸ start
  | cons e l ih =>
    rw [List.foldlM_cons] at run
    cases step : raiseIndex m e with
    | error stop => rw [step] at run; cases run
    | ok next =>
      rw [step] at run
      apply ih run
      rw [raiseIndex] at step
      split at step
      · cases split : splitIndexedName e.1 with
        | error stop => rw [split] at step; cases step
        | ok pair =>
          have top : toInt pair.2 < 2 ^ 31 := Int.bmod_lt (by decide)
          rw [split] at step
          rw [← Except.ok.inj step]
          dsimp only
          split
          · exact top
          · exact start
      · exact Except.ok.inj step ▸ start

theorem mapM_length {l : List Nat} {f : Nat → Except Stop Kwargs} {result : List Kwargs}
    (run : l.mapM f = .ok result) : result.length = l.length := by
  induction l generalizing result with
  | nil => rw [← Except.ok.inj run]; rfl
  | cons a l ih =>
    rw [List.mapM_cons] at run
    cases here : f a with
    | error stop => rw [here] at run; cases run
    | ok b =>
      cases later : l.mapM f with
      | error stop => rw [here, later] at run; cases run
      | ok rest =>
        rw [here, later] at run
        rw [← Except.ok.inj run, List.length_cons, List.length_cons, ih later]

theorem translateArgs_length {result : List Kwargs} (run : translateArgs args = .ok result) :
    result.length ≤ 2 ^ 31 := by
  rw [translateArgs] at run
  cases folded : args.entries.foldlM raiseIndex (-1) with
  | error stop => rw [folded] at run; cases run
  | ok maxIndex =>
    have small := raised_small folded (by decide)
    rw [folded] at run
    have length := mapM_length run
    rw [List.length_range] at length
    omega

theorem translateArgs_enumerated (some : sets ≠ []) (fits : sets.length ≤ 2 ^ 31)
    (driver : ∀ args ∈ sets, args.find? (ascii "driver") ≠ none) :
    translateArgs (enumerated sets) = .ok ((List.range sets.length).map (copied sets)) := by
  obtain ⟨maxIndex, run, -, below, above⟩ := @raised (enumerated sets).entries sets.length (-1)
    fits (fun e member => (enumerated_cases member).imp_right
      fun ⟨i, _, name, here, _, indexed⟩ =>
        ⟨i, name, (List.getElem?_eq_some_iff.mp here).1, indexed⟩) (by omega)
  have pos := List.length_pos_iff.mpr some
  have here := List.getElem?_eq_getElem (Nat.sub_lt pos Nat.one_pos)
  obtain ⟨v, found⟩ := Option.ne_none_iff_exists'.mp (driver _ (List.mem_of_getElem? here))
  have last := above (sets.length - 1) (ascii "driver") v (by omega)
    ((OrdMap.find?_eq_some_iff _ _ _).mp (enumerated_some here found))
  have count : (maxIndex + 1).toNat = sets.length := by omega
  rw [translateArgs, run]
  simp only [bind, Except.bind]
  rw [count]
  exact mapM_done fun index _ => translateArgsAt_eq (by omega) index

end

/-- The sets come back exactly when the indices fit and no key with the prefix of the driver
    spreads over the devices. Names and indices always come back. -/
theorem translateArgs_iff (sets : List Kwargs) (some : sets ≠ [])
    (driver : ∀ args ∈ sets, args.find? (ascii "driver") ≠ none) :
    (translateArgs (enumerated sets) = .ok (sets.map withStop) ↔ Separate sets) ∧
    ∀ (name : Bytes) (index : Nat), index < 2 ^ 64 →
      splitIndexedName (toIndexedName name index) = .ok (name, index) := by
  refine ⟨⟨fun back => ?_, fun separate => ?_⟩,
    fun name _ fits => splitIndexedName_toIndexedName name fits⟩
  · have fits := translateArgs_length back
    rw [List.length_map] at fits
    refine ⟨fits, ?_⟩
    intro args member j other there key found absent
    obtain ⟨v, found⟩ := Option.ne_none_iff_exists'.mp found
    obtain ⟨index, here⟩ := List.mem_iff_getElem?.mp member
    have inside := (List.getElem?_eq_some_iff.mp here).1
    have lists := Except.ok.inj ((translateArgs_enumerated some fits driver).symm.trans back)
    have same : copied sets index = withStop args := by
      have at_index := congrArg (fun l => l[index]?) lists
      simpa [here, List.getElem?_range inside] using at_index
    have extra := copied_extra here there found absent
    have no_stop : toIndexedName key j ≠ kwargStop :=
      (not_toIndexedName (by decide) key j).symm
    have plain : (OrdMap.empty.insert kwargStop ([] : Bytes)).find? (toIndexedName key j) = none :=
      (OrdMap.find?_insert _ _ _ _).trans (if_neg no_stop)
    rw [same, find?_withStop, absent, plain] at extra
    cases extra
  · rw [translateArgs_enumerated some separate.fits driver]
    congr 1
    apply List.ext_getElem?
    intro i
    by_cases inside : i < sets.length
    · have here := List.getElem?_eq_getElem inside
      simp [here, List.getElem?_range inside, copied_eq separate here]
    · simp [inside]

theorem translateArgs_two :
    let dongle (serial : Bytes) : Kwargs :=
      (OrdMap.empty.insert (ascii "driver") (ascii "rtlsdr")).insert (ascii "serial") serial
    let sets := [dongle [49], dongle [50]]
    sets ≠ [] ∧ (∀ args ∈ sets, args.find? (ascii "driver") ≠ none) ∧
      translateArgs (enumerated sets) = .ok (sets.map withStop) ∧
      splitIndexedName (toIndexedName (ascii "test") 123) = .ok (ascii "test", 123) := by
  intro dongle sets
  have driver : ∀ args ∈ sets, args.find? (ascii "driver") ≠ none := by decide
  have back := translateArgs_iff sets (List.cons_ne_nil _ _) driver
  refine ⟨List.cons_ne_nil _ _, driver, back.1.mpr ⟨by decide, ?_⟩, back.2 _ 123 (by decide)⟩
  intro args _ j other there key found
  have other : ∀ name, ¬ kwargPrefix <+: name → kwargPrefix ++ key ≠ name :=
    fun _ apart same => apart (same ▸ List.prefix_append _ _)
  have none : ∀ serial : Bytes, ((OrdMap.empty.insert (ascii "driver") (ascii "rtlsdr")).insert
      (ascii "serial") serial).find? (kwargPrefix ++ key) = none := fun serial => by
    rw [OrdMap.find?_insert, if_neg (other _ (by decide)), OrdMap.find?_insert,
      if_neg (other _ (by decide))]
    rfl
  match j with
  | 0 | 1 => obtain rfl := Option.some.inj there; exact absurd (none _) found
  | _ + 2 => cases there

/-- A `multi:` key of the second device shows up at the first one. -/
theorem translateArgs_spreads :
    let first : Kwargs := OrdMap.empty.insert (ascii "driver") (ascii "rtlsdr")
    let second := first.insert (ascii "multi:type") (ascii "a")
    ∃ args rest, translateArgs (enumerated [first, second]) = .ok (args :: rest) ∧
      args.find? (toIndexedName (ascii "type") 1) = some (ascii "a") ∧ args ≠ withStop first := by
  intro first second
  have absent : ∀ key : Bytes, isIndexedName key = false →
      (OrdMap.empty.insert key (ascii "rtlsdr")).find? (toIndexedName (ascii "type") 1) = none :=
    fun key plain => (OrdMap.find?_insert ..).trans (if_neg (not_toIndexedName plain _ _).symm)
  have extra : (copied [first, second] 0).find? (toIndexedName (ascii "type") 1) =
      some (ascii "a") :=
    copied_extra rfl (j := 1) rfl (by decide) (absent (ascii "driver") (by decide))
  refine ⟨_, _, translateArgs_enumerated nofun (by decide) (by decide), extra, ?_⟩
  intro same
  rw [same, find?_withStop, absent _ (by decide)] at extra
  rw [OrdMap.find?_insert, if_neg (not_toIndexedName (by decide) _ _).symm] at extra
  cases extra

end Soapy.Multi
