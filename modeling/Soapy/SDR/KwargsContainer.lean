import Soapy.SDR.ArgInfo

/-! # Keyword arguments for C

A container of keys and values in two arrays of C strings, that grow by one element at a time. Each
of the allocations may return null on its own.
-/

namespace Soapy.SDR

open Lib
open Soapy.Remote (Kwargs)

/-- The text of a C string. -/
abbrev CString : Type := { s : Bytes // 0 ∉ s }

/-- `std::string::c_str`, as a C function reads it. -/
def cString (s : Bytes) : CString :=
  ⟨s.takeWhile (· ≠ 0), takeWhile_whole s⟩

structure SoapySDRKwargs where
  size : Nat
  keys : Nat
  vals : Nat
  deriving DecidableEq

/-- The container after `memset`. -/
def zeroKwargs : SoapySDRKwargs := ⟨0, 0, 0⟩

/-- The text at an address. -/
def readString (p : Nat) : HeapCall Bytes := fun h =>
  match stringAt h p with
  | some s => (.ok s, h)
  | none => (.error .undefined, h)

def strdup (refuses : Nat → Bool) (s : CString) : HeapCall Nat :=
  Heap.malloc refuses (stringBlock s.1)

/-- An array cut or stretched to so many pointers. -/
def resizePointers (n : Nat) : Option Block → Option Block
  | none => some (.pointers (List.replicate n 0))
  | some (.pointers ps) => some (.pointers (ps.take n ++ List.replicate (n - ps.length) 0))
  | some (.chars _) => none

/-- The loops over the keys: the first index with the given key, among so many from `i` on. -/
def findKey (keys : Nat) (key : CString) : Nat → Nat → HeapCall (Option Nat)
  | 0, _ => pure none
  | n + 1, i => do
    let p ← pointerAt keys i
    let k ← readString p
    if k = key.1 then pure (some i)
    else findKey keys key n (i + 1)

def SoapySDRKwargs_set (refuses : Nat → Bool) (args : SoapySDRKwargs) (key val : CString) :
    HeapCall (Int × SoapySDRKwargs) := do
  match ← findKey args.keys key args.size 0 with
  | some i =>
    let new_val ← strdup refuses val
    if new_val = 0 then pure (-1, args)
    else do
      Heap.free (← pointerAt args.vals i)
      setPointer args.vals i new_val
      pure (0, args)
  | none =>
    let new_keys ← Heap.realloc refuses (resizePointers (args.size + 1)) args.keys
    let new_vals ← Heap.realloc refuses (resizePointers (args.size + 1)) args.vals
    let args := { args with
      keys := if new_keys ≠ 0 then new_keys else args.keys
      vals := if new_vals ≠ 0 then new_vals else args.vals }
    if new_keys = 0 ∨ new_vals = 0 then pure (-1, args)
    else do
      let new_key ← strdup refuses key
      let new_val ← strdup refuses val
      if new_key = 0 ∨ new_val = 0 then do
        Heap.free new_key
        Heap.free new_val
        pure (-1, args)
      else do
        setPointer args.keys args.size new_key
        setPointer args.vals args.size new_val
        pure (0, { args with size := args.size + 1 })

def SoapySDRKwargs_get (args : SoapySDRKwargs) (key : CString) : HeapCall Nat := do
  match ← findKey args.keys key args.size 0 with
  | some i => pointerAt args.vals i
  | none => pure 0

def SoapySDRKwargs_clear (args : SoapySDRKwargs) : HeapCall SoapySDRKwargs := do
  SoapySDRStrings_clear args.keys args.size
  SoapySDRStrings_clear args.vals args.size
  pure ⟨0, 0, 0⟩

/-- The loop of `toKwargs` over the entries of a container, so many from `i` on. -/
def copyEntries (args : SoapySDRKwargs) : Nat → Nat → Kwargs → HeapCall Kwargs
  | 0, _, out => pure out
  | n + 1, i, out => do
    let key ← readString (← pointerAt args.keys i)
    let val ← readString (← pointerAt args.vals i)
    copyEntries args n (i + 1) (out.insert key val)

/-- `toKwargs` of a C container, or of null. -/
def toKwargs : Option SoapySDRKwargs → HeapCall Kwargs
  | none => pure .empty
  | some args => copyEntries args args.size 0 .empty

/-- The loop of `toKwargs` over the entries of a map. -/
def setEntries (refuses : Nat → Bool) :
    List (Bytes × Bytes) → SoapySDRKwargs → HeapCall SoapySDRKwargs
  | [], out => pure out
  | it :: rest, out => do
    let (code, out) ← SoapySDRKwargs_set refuses out (cString it.1) (cString it.2)
    if code ≠ 0 then .stop .bad_alloc
    else setEntries refuses rest out

/-- `toKwargs` of a C++ map. -/
def toSoapySDRKwargs (refuses : Nat → Bool) (args : Kwargs) : HeapCall SoapySDRKwargs :=
  setEntries refuses args.entries zeroKwargs

/-- Calls of `SoapySDRKwargs_set` one after the other, and their results. -/
def setAll (refuses : Nat → Bool) :
    List (CString × CString) → SoapySDRKwargs → HeapCall (List Int × SoapySDRKwargs)
  | [], args => pure ([], args)
  | (key, val) :: calls, args => do
    let (code, args) ← SoapySDRKwargs_set refuses args key val
    let (codes, args) ← setAll refuses calls args
    pure (code :: codes, args)

/-- The map that the calls make, going by their results. -/
def recorded : List (CString × CString) → List Int → Kwargs → Kwargs
  | (key, val) :: calls, code :: codes, m =>
    recorded calls codes (if code = 0 then m.insert key.1 val.1 else m)
  | _, _, m => m

/-- `args.keys[i]`, as text. -/
def keyText (h : Heap Block) (args : SoapySDRKwargs) (i : Nat) : Option Bytes :=
  match h.at? args.keys with
  | some (.pointers ps) => ps[i]?.bind (stringAt h)
  | _ => none

def mapOf (entries : List (Bytes × Bytes)) : Kwargs :=
  entries.foldl (fun out e => out.insert e.1 e.2) .empty

/-- The first pointers of an array, which is null where there is none yet. -/
def HoldsPointers (h : Heap Block) (p : Nat) (ps : List Nat) : Prop :=
  (p = 0 ∧ ps = []) ∨ ∃ spare, h.at? p = some (.pointers (ps ++ spare))

/-- The container has these entries, their strings at `kps` and `vps`. -/
structure Stores (h : Heap Block) (args : SoapySDRKwargs) (kps vps : List Nat)
    (entries : List (Bytes × Bytes)) : Prop where
  size : args.size = entries.length
  keys : HoldsPointers h args.keys kps
  vals : HoldsPointers h args.vals vps
  keyStrings : kps.map h.at? = entries.map fun e => some (stringBlock e.1)
  valStrings : vps.map h.at? = entries.map fun e => some (stringBlock e.2)
  apart : args.keys = args.vals → args.keys = 0
  distinct : (kps ++ vps).Nodup
  keysDistinct : (entries.map Prod.fst).Nodup
  plain : ∀ e ∈ entries, 0 ∉ e.1 ∧ 0 ∉ e.2

def Represents (h : Heap Block) (args : SoapySDRKwargs) (m : Kwargs) : Prop :=
  ∃ kps vps entries, Stores h args kps vps entries ∧ mapOf entries = m

/-- What a call of `SoapySDRKwargs_set` leaves, by its result. -/
def Sets (refuses : Nat → Bool) (m : Kwargs) (key val : CString) (result : Int × SoapySDRKwargs)
    (h : Heap Block) : Prop :=
  (result.1 = -1 ∧ (∃ n, refuses n = true) ∧ Represents h result.2 m) ∨
    (result.1 = 0 ∧ Represents h result.2 (m.insert key.1 val.1))

theorem mapOf_append (entries : List (Bytes × Bytes)) (e : Bytes × Bytes) :
    mapOf (entries ++ [e]) = (mapOf entries).insert e.1 e.2 := List.foldl_append

theorem find?_mapOf {entries : List (Bytes × Bytes)} (distinct : (entries.map Prod.fst).Nodup)
    (k v : Bytes) : (mapOf entries).find? k = some v ↔ (k, v) ∈ entries := by
  induction entries using List.reverseRecOn with
  | nil => simp [mapOf]
  | append_singleton entries e ih =>
    rw [List.map_append, List.nodup_append'] at distinct
    have new : e.1 ∉ entries.map Prod.fst := fun old => distinct.2.2 old (by simp)
    rw [mapOf_append, OrdMap.find?_insert, List.mem_append, List.mem_singleton, ← ih distinct.1]
    by_cases same : k = e.1
    · have absent : ¬ (mapOf entries).find? k = some v := by
        rw [ih distinct.1]
        intro old
        exact new (same ▸ List.mem_map_of_mem old)
      rw [if_pos same]
      constructor
      · intro here
        exact .inr (Prod.ext same (Option.some.inj here).symm)
      · rintro (old | rfl)
        · exact absurd old absent
        · rfl
    · rw [if_neg same]
      constructor
      · exact .inl
      · rintro (old | rfl)
        · exact old
        · exact absurd rfl same

theorem mapOf_replace {before after : List (Bytes × Bytes)} {k old : Bytes}
    (distinct : ((before ++ (k, old) :: after).map Prod.fst).Nodup) (v : Bytes) :
    mapOf (before ++ (k, v) :: after) = (mapOf (before ++ (k, old) :: after)).insert k v := by
  have distinct' : ((before ++ (k, v) :: after).map Prod.fst).Nodup := by
    simpa only [List.map_append, List.map_cons] using distinct
  apply OrdMap.ext_find?
  intro x
  rw [OrdMap.find?_insert]
  by_cases same : x = k
  · rw [if_pos same, same, find?_mapOf distinct']
    simp
  · rw [if_neg same]
    apply Option.ext
    intro w
    rw [find?_mapOf distinct', find?_mapOf distinct]
    simp [same]

section

variable {h : Heap Block} {p : Nat} {ps : List Nat}

theorem readString_ok {s : Bytes} (block : h.at? p = some (stringBlock s)) (plain : 0 ∉ s) :
    readString p h = (.ok s, h) := by
  rw [readString, stringAt_block block plain]

theorem HoldsPointers.pointerAt {out : Nat} {before after : List Nat}
    (holds : HoldsPointers h out (before ++ p :: after)) :
    pointerAt out before.length h = (.ok p, h) := by
  rcases holds with ⟨-, none⟩ | ⟨spare, array⟩
  · simp at none
  · exact pointerAt_ok array (by simp)

theorem setPointer_ok {out i : Nat} (array : h.at? out = some (.pointers ps))
    (inside : i < ps.length) (p : Nat) :
    setPointer out i p h = (.ok (), h.update out (some (.pointers (ps.set i p)))) := by
  rw [setPointer, Action.bind_ok (Heap.read_ok array)]
  simp only [if_pos inside]
  exact Heap.write_ok array

end

namespace Stores

variable {h : Heap Block} {args : SoapySDRKwargs} {kps vps : List Nat}
  {entries before after : List (Bytes × Bytes)} {e : Bytes × Bytes}

section

variable (stores : Stores h args kps vps (before ++ e :: after))
include stores

theorem entry :
    ∃ kb kp ka vb vp va, kps = kb ++ kp :: ka ∧ vps = vb ++ vp :: va ∧
      kb.length = before.length ∧ vb.length = before.length ∧
      h.at? kp = some (stringBlock e.1) ∧ h.at? vp = some (stringBlock e.2) := by
  have keys := stores.keyStrings
  have vals := stores.valStrings
  rw [List.map_append, List.map_cons] at keys vals
  obtain ⟨kb, kr, rfl, kb', kr'⟩ := List.map_eq_append_iff.mp keys
  obtain ⟨vb, vr, rfl, vb', vr'⟩ := List.map_eq_append_iff.mp vals
  obtain ⟨kp, ka, rfl, key, -⟩ := List.map_eq_cons_iff.mp kr'
  obtain ⟨vp, va, rfl, val, -⟩ := List.map_eq_cons_iff.mp vr'
  refine ⟨kb, kp, ka, vb, vp, va, rfl, rfl, ?_, ?_, key, val⟩
  · simpa using congrArg List.length kb'
  · simpa using congrArg List.length vb'

theorem keyAt :
    ∃ p, pointerAt args.keys before.length h = (.ok p, h) ∧ readString p h = (.ok e.1, h) := by
  obtain ⟨kb, kp, ka, -, -, -, rfl, -, length, -, key, -⟩ := stores.entry
  exact ⟨kp, length ▸ stores.keys.pointerAt, readString_ok key (stores.plain e (by simp)).1⟩

theorem valAt :
    ∃ p, pointerAt args.vals before.length h = (.ok p, h) ∧ readString p h = (.ok e.2, h) ∧
      stringAt h p = some e.2 ∧ p ≠ 0 := by
  obtain ⟨-, -, -, vb, vp, va, -, rfl, -, length, -, val⟩ := stores.entry
  have plain := (stores.plain e (by simp)).2
  exact ⟨vp, length ▸ stores.vals.pointerAt, readString_ok val plain, stringAt_block val plain,
    Heap.not_null val⟩

end

/-- By induction on the entries that are still to be looked at. -/
theorem findKey_ok (key : CString) (rest : List (Bytes × Bytes)) (before : List (Bytes × Bytes))
    (stores : Stores h args kps vps (before ++ rest)) :
    (∃ skipped old after, rest = skipped ++ (key.1, old) :: after ∧
      findKey args.keys key rest.length before.length h =
        (.ok (some (before ++ skipped).length), h)) ∨
    (∀ e ∈ rest, e.1 ≠ key.1) ∧
      findKey args.keys key rest.length before.length h = (.ok none, h) := by
  induction rest generalizing before with
  | nil => exact .inr ⟨by simp, rfl⟩
  | cons e rest ih =>
    obtain ⟨p, pointer, text⟩ := stores.keyAt
    have looked : findKey args.keys key (e :: rest).length before.length h =
        (if e.1 = key.1 then pure (some before.length)
          else findKey args.keys key rest.length (before.length + 1) :
            HeapCall (Option Nat)) h := by
      rw [List.length_cons, findKey, Action.bind_ok pointer, Action.bind_ok text]
    by_cases same : e.1 = key.1
    · refine .inl ⟨[], e.2, rest, by rw [← same]; rfl, ?_⟩
      rw [looked, if_pos same, List.append_nil]
      rfl
    · rw [looked, if_neg same]
      have stores' : Stores h args kps vps ((before ++ [e]) ++ rest) := by
        rwa [List.append_assoc]
      have next : (before ++ [e]).length = before.length + 1 := by simp
      rcases ih (before ++ [e]) stores' with ⟨skipped, old, after, rfl, found⟩ | ⟨absent, ended⟩
      · refine .inl ⟨e :: skipped, old, after, rfl, ?_⟩
        rw [next, List.append_assoc] at found
        exact found
      · rw [next] at ended
        refine .inr ⟨?_, ended⟩
        intro e' mem
        cases mem with
        | head => exact same
        | tail _ mem => exact absent e' mem

section

variable (stores : Stores h args kps vps entries)
include stores

theorem live {p : Nat} (mem : p ∈ kps ++ vps) :
    ∃ s, h.at? p = some (.chars s) := by
  have block : ∀ {ps : List Nat} {f : Bytes × Bytes → Bytes},
      ps.map h.at? = entries.map (fun e => some (stringBlock (f e))) → p ∈ ps →
        ∃ s, h.at? p = some (.chars s) := by
    intro ps f same inside
    have there : h.at? p ∈ ps.map h.at? := List.mem_map_of_mem inside
    rw [same] at there
    obtain ⟨e, -, block⟩ := List.mem_map.mp there
    exact ⟨f e ++ [0], block.symm⟩
  cases List.mem_append.mp mem with
  | inl mem => exact block stores.keyStrings mem
  | inr mem => exact block stores.valStrings mem

theorem kps_length : kps.length = args.size := by
  have length := congrArg List.length stores.keyStrings
  rw [List.length_map, List.length_map] at length
  exact length.trans stores.size.symm

theorem vps_length : vps.length = args.size := by
  have length := congrArg List.length stores.valStrings
  rw [List.length_map, List.length_map] at length
  exact length.trans stores.size.symm

theorem frame {h' : Heap Block} {keys vals : Nat}
    (keys' : HoldsPointers h' keys kps) (vals' : HoldsPointers h' vals vps)
    (apart' : keys = vals → keys = 0) (strings : ∀ p ∈ kps ++ vps, h'.at? p = h.at? p) :
    Stores h' { args with keys := keys, vals := vals } kps vps entries :=
  { stores with
    keys := keys'
    vals := vals'
    apart := apart'
    keyStrings := by
      rw [← stores.keyStrings]
      exact List.map_congr_left fun p mem => strings p (List.mem_append_left _ mem)
    valStrings := by
      rw [← stores.valStrings]
      exact List.map_congr_left fun p mem => strings p (List.mem_append_right _ mem) }

end

end Stores

theorem string_not_pointers {h : Heap Block} {p a : Nat} {s : Bytes} {ps : List Nat}
    (string : h.at? p = some (stringBlock s)) (array : h.at? a = some (.pointers ps)) : p ≠ a := by
  rintro rfl
  rw [string] at array
  cases array

theorem HoldsPointers.mono {h h' : Heap Block} {p : Nat} {ps : List Nat}
    (holds : HoldsPointers h p ps) (same : ∀ b, h.at? p = some b → h'.at? p = some b) :
    HoldsPointers h' p ps := by
  rcases holds with null | ⟨spare, array⟩
  · exact .inl null
  · exact .inr ⟨spare, same _ array⟩

theorem Stores.extend {h h' : Heap Block} {args : SoapySDRKwargs} {kps vps : List Nat}
    {entries : List (Bytes × Bytes)} (stores : Stores h args kps vps entries)
    (extends' : h.Extends h') : Stores h' args kps vps entries := by
  apply stores.frame (stores.keys.mono (extends' _)) (stores.vals.mono (extends' _)) stores.apart
  intro p mem
  obtain ⟨s, block⟩ := stores.live mem
  rw [block, extends' p _ block]

theorem resizePointers_eq {h : Heap Block} {p : Nat} {ps : List Nat}
    (holds : HoldsPointers h p ps) :
    ∃ x, resizePointers (ps.length + 1) (h.at? p) = some (.pointers (ps ++ [x])) := by
  rcases holds with ⟨rfl, rfl⟩ | ⟨spare, array⟩
  · exact ⟨0, rfl⟩
  · rw [array]
    cases spare with
    | nil => exact ⟨0, by simp [resizePointers, List.take_of_length_le]⟩
    | cons x spare =>
      refine ⟨x, ?_⟩
      have none : ps.length + 1 - (ps.length + (spare.length + 1)) = 0 := by omega
      simp [resizePointers, List.take_append, List.take_of_length_le, none]

theorem wp_grow {refuses : Nat → Bool} {h : Heap Block} {p : Nat} {ps : List Nat}
    (holds : HoldsPointers h p ps) :
    Action.wp (Heap.realloc refuses (resizePointers (ps.length + 1)) p)
      (fun q h' => (q = 0 ∧ (∃ n, refuses n = true) ∧ h.Extends h') ∨ ∃ x, h.at? q = none ∧
        h'.at? q = some (.pointers (ps ++ [x])) ∧
        ∀ p' b, p' ≠ p → h.at? p' = some b → h'.at? p' = some b)
      (fun _ _ => False) h := by
  obtain ⟨x, resized⟩ := resizePointers_eq holds
  apply Heap.wp_realloc resized
  · rcases holds with ⟨null, -⟩ | ⟨spare, array⟩
    · exact .inl null
    · exact .inr ⟨_, array⟩
  · intro call h' extends'
    exact .inl ⟨rfl, call, extends'⟩
  · intro q h' fresh block others
    exact .inr ⟨x, fresh, block, others⟩

namespace Stores

variable {h : Heap Block} {args : SoapySDRKwargs} {kps vps : List Nat}
  {entries : List (Bytes × Bytes)} {refuses : Nat → Bool}

section

variable (stores : Stores h args kps vps entries)
include stores

theorem other_array {p a : Nat} {qs : List Nat}
    (holds : HoldsPointers h a qs) (mem : p ∈ kps ++ vps) : p ≠ a := by
  rintro rfl
  obtain ⟨s, block⟩ := stores.live mem
  rcases holds with ⟨null, -⟩ | ⟨spare, array⟩
  · exact Heap.not_null block null
  · rw [block] at array
    cases array

theorem unused {p : Nat} (fresh : h.at? p = none) :
    p ∉ kps ++ vps := by
  intro mem
  obtain ⟨s, block⟩ := stores.live mem
  rw [fresh] at block
  cases block

theorem wp_growKeys :
    Action.wp (Heap.realloc refuses (resizePointers (args.size + 1)) args.keys)
      (fun q h' => Stores h' { args with keys := if q ≠ 0 then q else args.keys } kps vps entries ∧
        (q = 0 → ∃ n, refuses n = true) ∧ (q ≠ 0 → ∃ x, h'.at? q = some (.pointers (kps ++ [x]))))
      (fun _ _ => False) h := by
  have grown := @wp_grow refuses _ _ _ stores.keys
  rw [stores.kps_length] at grown
  refine Action.wp_mono grown ?_ fun _ _ impossible => impossible
  rintro q h' (⟨rfl, call, extends'⟩ | ⟨x, fresh, block, others⟩)
  · exact ⟨stores.extend extends', fun _ => call, fun some => absurd rfl some⟩
  · have some := Heap.not_null block
    simp only [ne_eq, some, not_false_eq_true, if_true]
    refine ⟨?_, fun null => null.elim, fun _ => ⟨x, block⟩⟩
    apply stores.frame (.inr ⟨[x], block⟩)
    · rcases stores.vals with null | ⟨spare, array⟩
      · exact .inl null
      · refine .inr ⟨spare, others _ _ ?_ array⟩
        intro same
        exact Heap.not_null array (same.trans (stores.apart same.symm))
    · rintro rfl
      rcases stores.vals with ⟨null, -⟩ | ⟨spare, array⟩
      · exact null
      · rw [fresh] at array
        cases array
    · intro p mem
      obtain ⟨s, string⟩ := stores.live mem
      rw [string]
      exact others p _ (stores.other_array stores.keys mem) string

theorem wp_growVals :
    Action.wp (Heap.realloc refuses (resizePointers (args.size + 1)) args.vals)
      (fun q h' => Stores h' { args with vals := if q ≠ 0 then q else args.vals } kps vps entries ∧
        (∀ b, h.at? args.keys = some b → h'.at? args.keys = some b) ∧
        (q = 0 → ∃ n, refuses n = true) ∧ (q ≠ 0 → ∃ x, h'.at? q = some (.pointers (vps ++ [x]))))
      (fun _ _ => False) h := by
  have grown := @wp_grow refuses _ _ _ stores.vals
  rw [stores.vps_length] at grown
  refine Action.wp_mono grown ?_ fun _ _ impossible => impossible
  rintro q h' (⟨rfl, call, extends'⟩ | ⟨x, fresh, block, others⟩)
  · exact ⟨stores.extend extends', fun b => extends' _ b, fun _ => call,
      fun some => absurd rfl some⟩
  · have some := Heap.not_null block
    simp only [ne_eq, some, not_false_eq_true, if_true]
    have kept : ∀ b, h.at? args.keys = Option.some b → h'.at? args.keys = Option.some b := by
      intro b array
      refine others _ _ ?_ array
      intro same
      exact Heap.not_null array (stores.apart same)
    refine ⟨?_, kept, fun null => null.elim, fun _ => ⟨x, block⟩⟩
    apply stores.frame (stores.keys.mono kept) (.inr ⟨[x], block⟩)
    · rintro rfl
      rcases stores.keys with ⟨null, -⟩ | ⟨spare, array⟩
      · exact null
      · rw [fresh] at array
        cases array
    · intro p mem
      obtain ⟨s, string⟩ := stores.live mem
      rw [string]
      exact others p _ (stores.other_array stores.vals mem) string

end

end Stores

section

variable {h : Heap Block} {args : SoapySDRKwargs} {kps vps : List Nat}
  {entries : List (Bytes × Bytes)} {refuses : Nat → Bool} {key val : CString}

theorem wp_strdup {Q : Nat → Heap Block → Prop} {R : HeapError → Heap Block → Prop}
    (refused : (∃ n, refuses n = true) → ∀ h', h.Extends h' → Q 0 h')
    (made : ∀ q h', h.at? q = none → h'.at? q = some (stringBlock val.1) → h.Extends h' → Q q h') :
    Action.wp (strdup refuses val) Q R h := Heap.wp_malloc refused made

theorem Stores.replace {before after : List (Bytes × Bytes)} {old : Bytes}
    (stores : Stores h args kps vps (before ++ (key.1, old) :: after)) {q : Nat} {h' : Heap Block}
    (fresh : h.at? q = none) (block : h'.at? q = some (stringBlock val.1))
    (extends' : h.Extends h') :
    ∃ vp h'', pointerAt args.vals before.length h' = (.ok vp, h') ∧
      Heap.free vp h' = (.ok (), h'.release vp) ∧
      setPointer args.vals before.length q (h'.release vp) = (.ok (), h'') ∧
      ∃ vps', Stores h'' args kps vps' (before ++ (key.1, val.1) :: after) := by
  have stores' := stores.extend extends'
  obtain ⟨kb, kp, ka, vb, vp, va, rfl, rfl, -, length, -, string⟩ := stores'.entry
  have valsArray := stores'.vals
  rcases valsArray with ⟨-, none⟩ | ⟨spare, array⟩
  · simp at none
  have some := Heap.not_null string
  have string' : ∃ s, h.at? vp = Option.some (.chars s) := stores.live (by simp)
  obtain ⟨s, there⟩ := string'
  have other : q ≠ vp := by
    rintro rfl
    rw [fresh] at there
    cases there
  have arrayOther : args.vals ≠ vp := (stores'.other_array stores'.vals (by simp)).symm
  have array' : (h'.release vp).at? args.vals =
      Option.some (.pointers (vb ++ vp :: va ++ spare)) := by
    rw [Heap.at?_release_other arrayOther some]
    exact array
  have set : (vb ++ vp :: va ++ spare).set before.length q = vb ++ q :: va ++ spare := by
    rw [← length]
    simp
  have stored := setPointer_ok (i := before.length) array' (by simp; omega) q
  rw [set] at stored
  obtain ⟨h'', written⟩ : ∃ h'', h'' = (h'.release vp).update args.vals
      (Option.some (.pointers (vb ++ q :: va ++ spare))) := ⟨_, rfl⟩
  rw [← written] at stored
  refine ⟨vp, h'', length ▸ stores'.vals.pointerAt, Heap.free_ok string, stored, vb ++ q :: va, ?_⟩
  have same : ∀ p, p ≠ vp → p ≠ args.vals → h''.at? p = h'.at? p := by
    intro p other other'
    rw [written, Heap.at?_update_other other' (Heap.not_null array),
      Heap.at?_release_other other some]
  have distinct := stores'.distinct
  rw [← List.append_assoc, List.nodup_middle, List.nodup_cons] at distinct
  have kept : ∀ p ∈ (kb ++ kp :: ka) ++ vb ++ va, h''.at? p = h'.at? p := by
    intro p mem
    refine same p (fun here => distinct.1 (here ▸ mem)) (stores'.other_array stores'.vals ?_)
    simp only [List.mem_append, List.mem_cons] at mem ⊢
    tauto
  have new : h''.at? q = Option.some (stringBlock val.1) := by
    rw [same q other (string_not_pointers block array), block]
  have unused : q ∉ (kb ++ kp :: ka) ++ vb ++ va := by
    intro mem
    refine stores.unused fresh ?_
    simp only [List.mem_append, List.mem_cons] at mem ⊢
    tauto
  have values := stores'.valStrings
  rw [List.map_append, List.map_append] at values
  obtain ⟨front, back⟩ := List.append_inj values (by simpa using length)
  simp only [List.map_cons, List.cons.injEq] at back
  exact
    { size := by simpa using stores'.size
      keys := stores'.keys.mono fun b keys => by
        rw [same]
        · exact keys
        · exact (stores'.other_array stores'.keys (by simp)).symm
        · exact fun here => Heap.not_null keys (stores'.apart here)
      vals := .inr ⟨spare, written ▸ Heap.at?_update array' _⟩
      keyStrings := by
        calc (kb ++ kp :: ka).map h''.at? = (kb ++ kp :: ka).map h'.at? :=
              List.map_congr_left fun p mem => kept p
                (List.mem_append_left _ (List.mem_append_left _ mem))
          _ = (before ++ (key.1, old) :: after).map fun e => Option.some (stringBlock e.1) :=
              stores'.keyStrings
          _ = (before ++ (key.1, val.1) :: after).map fun e => Option.some (stringBlock e.1) := by
              rw [List.map_append, List.map_append, List.map_cons, List.map_cons]
      valStrings := by
        rw [List.map_append, List.map_cons, List.map_append, List.map_cons, new, ← front, ← back.2]
        congr 1
        · exact List.map_congr_left fun p mem => kept p
            (List.mem_append_left _ (List.mem_append_right _ mem))
        · congr 1
          exact List.map_congr_left fun p mem => kept p (List.mem_append_right _ mem)
      apart := stores'.apart
      distinct := by
        rw [← List.append_assoc, List.nodup_middle, List.nodup_cons]
        exact ⟨unused, distinct.2⟩
      keysDistinct := by simpa only [List.map_append, List.map_cons] using stores'.keysDistinct
      plain := by
        intro e mem
        rcases List.mem_append.mp mem with mem | mem
        · exact stores'.plain e (List.mem_append_left _ mem)
        · cases mem with
          | head => exact ⟨key.2, val.2⟩
          | tail _ mem =>
            exact stores'.plain e (List.mem_append_right _ (List.mem_cons_of_mem _ mem)) }

theorem Stores.append (stores : Stores h args kps vps entries)
    (new : ∀ e ∈ entries, e.1 ≠ key.1) {x y : Nat}
    (keys : h.at? args.keys = some (.pointers (kps ++ [x])))
    (vals : h.at? args.vals = some (.pointers (vps ++ [y]))) {kp vp : Nat} {h' : Heap Block}
    (freshKey : h.at? kp = none) (freshVal : h.at? vp = none) (two : kp ≠ vp)
    (keyBlock : h'.at? kp = some (stringBlock key.1))
    (valBlock : h'.at? vp = some (stringBlock val.1)) (extends' : h.Extends h') :
    ∃ h₁ h₂, setPointer args.keys args.size kp h' = (.ok (), h₁) ∧
      setPointer args.vals args.size vp h₁ = (.ok (), h₂) ∧
      Stores h₂ { args with size := args.size + 1 } (kps ++ [kp]) (vps ++ [vp])
        (entries ++ [(key.1, val.1)]) := by
  have stores' := stores.extend extends'
  have keys' := extends' _ _ keys
  have vals' := extends' _ _ vals
  have other : args.vals ≠ args.keys := fun same =>
    Heap.not_null keys (stores.apart same.symm)
  have storedKey := setPointer_ok (i := args.size) keys' (by simp [stores.kps_length]) kp
  have setKey : (kps ++ [x]).set args.size kp = kps ++ [kp] := by
    rw [← stores.kps_length]
    simp
  rw [setKey] at storedKey
  obtain ⟨h₁, first⟩ : ∃ h₁, h₁ = h'.update args.keys (some (.pointers (kps ++ [kp]))) := ⟨_, rfl⟩
  rw [← first] at storedKey
  have vals₁ : h₁.at? args.vals = some (.pointers (vps ++ [y])) := by
    rw [first, Heap.at?_update_other other (Heap.not_null keys)]
    exact vals'
  have storedVal := setPointer_ok (i := args.size) vals₁ (by simp [stores.vps_length]) vp
  have setVal : (vps ++ [y]).set args.size vp = vps ++ [vp] := by
    rw [← stores.vps_length]
    simp
  rw [setVal] at storedVal
  obtain ⟨h₂, second⟩ : ∃ h₂, h₂ = h₁.update args.vals (some (.pointers (vps ++ [vp]))) := ⟨_, rfl⟩
  rw [← second] at storedVal
  refine ⟨h₁, h₂, storedKey, storedVal, ?_⟩
  have same : ∀ p, p ≠ args.keys → p ≠ args.vals → h₂.at? p = h'.at? p := by
    intro p other₁ other₂
    rw [second, Heap.at?_update_other other₂ (Heap.not_null vals), first,
      Heap.at?_update_other other₁ (Heap.not_null keys)]
  have kept : ∀ p ∈ kps ++ vps, h₂.at? p = h'.at? p := fun p mem =>
    same p (stores.other_array stores.keys mem) (stores.other_array stores.vals mem)
  have string {p : Nat} {s : Bytes} (block : h'.at? p = some (stringBlock s)) :
      h₂.at? p = some (stringBlock s) :=
    (same p (string_not_pointers block keys') (string_not_pointers block vals')).trans block
  have keyAt₂ := string keyBlock
  have valAt₂ := string valBlock
  exact
    { size := by simpa using stores.size
      keys := by
        refine .inr ⟨[], ?_⟩
        rw [second, Heap.at?_update_other other.symm (Heap.not_null vals), first,
          Heap.at?_update keys', List.append_nil]
      vals := .inr ⟨[], by rw [second, Heap.at?_update vals₁, List.append_nil]⟩
      keyStrings := by
        rw [List.map_append, List.map_append, ← stores'.keyStrings, List.map_singleton, keyAt₂]
        congr 1
        exact List.map_congr_left fun p mem => kept p (List.mem_append_left _ mem)
      valStrings := by
        rw [List.map_append, List.map_append, ← stores'.valStrings, List.map_singleton, valAt₂]
        congr 1
        exact List.map_congr_left fun p mem => kept p (List.mem_append_right _ mem)
      apart := stores.apart
      distinct := by
        rw [List.append_assoc, List.singleton_append, List.nodup_middle, ← List.append_assoc,
          List.nodup_cons, List.nodup_append']
        refine ⟨?_, stores.distinct, List.nodup_singleton _, ?_⟩
        · intro mem
          rcases List.mem_append.mp mem with mem | mem
          · exact stores.unused freshKey mem
          · exact two (List.mem_singleton.mp mem)
        · intro p mem last
          exact stores.unused freshVal (List.mem_singleton.mp last ▸ mem)
      keysDistinct := by
        rw [List.map_append, List.nodup_append']
        refine ⟨stores.keysDistinct, List.nodup_singleton _, ?_⟩
        intro k mem last
        obtain ⟨e, inside, rfl⟩ := List.mem_map.mp mem
        exact new e inside (List.mem_singleton.mp last)
      plain := by
        intro e mem
        rcases List.mem_append.mp mem with mem | mem
        · exact stores.plain e mem
        · rw [List.mem_singleton] at mem
          rw [mem]
          exact ⟨key.2, val.2⟩ }

theorem Stores.wp_set (stores : Stores h args kps vps entries) :
    Action.wp (SoapySDRKwargs_set refuses args key val) (Sets refuses (mapOf entries) key val)
      (fun _ _ => False) h := by
  have same {args' : SoapySDRKwargs} {h' : Heap Block} (call : ∃ n, refuses n = true)
      (stores' : Stores h' args' kps vps entries) :
      Sets refuses (mapOf entries) key val (-1, args') h' :=
    .inl ⟨rfl, call, kps, vps, entries, stores', rfl⟩
  have found := stores.findKey_ok key entries []
  rw [SoapySDRKwargs_set, Action.wp_bind]
  rw [stores.size]
  rcases found with ⟨before, old, after, rfl, found⟩ | ⟨new, found⟩
  · apply Action.wp_of_ok found
    dsimp only
    rw [Action.wp_bind]
    apply wp_strdup
    · intro call h' extends'
      exact same call (stores.extend extends')
    · intro q h' fresh block extends'
      obtain ⟨vp, h'', pointer, freed, stored, vps', stores'⟩ :=
        stores.replace fresh block extends'
      rw [if_neg (Heap.not_null block), Action.wp_bind]
      apply Action.wp_of_ok pointer
      rw [Action.wp_bind]
      apply Action.wp_of_ok freed
      rw [Action.wp_bind]
      apply Action.wp_of_ok stored
      exact .inr ⟨rfl, kps, vps', _, stores', mapOf_replace stores.keysDistinct val.1⟩
  · apply Action.wp_of_ok found
    dsimp only
    rw [Action.wp_bind, ← stores.size]
    refine Action.wp_mono stores.wp_growKeys ?_ fun _ _ impossible => impossible
    rintro new_keys h₁ ⟨stores₁, keysCall, keys⟩
    rw [Action.wp_bind]
    refine Action.wp_mono stores₁.wp_growVals ?_ fun _ _ impossible => impossible
    rintro new_vals h₂ ⟨stores₂, keptKeys, valsCall, vals⟩
    dsimp only at stores₂ ⊢
    split
    · rename_i null
      exact same (null.elim keysCall valsCall) stores₂
    rename_i both
    rw [not_or] at both
    obtain ⟨x, keysArray⟩ := keys both.1
    obtain ⟨y, valsArray⟩ := vals both.2
    simp only [ne_eq, both.1, both.2, not_false_eq_true, if_true] at stores₂ keptKeys ⊢
    have keysArray₂ := keptKeys _ keysArray
    rw [Action.wp_bind]
    apply wp_strdup
    · intro call h₃ extends₃
      rw [Action.wp_bind]
      apply wp_strdup
      · intro _ h₄ extends₄
        exact same call (stores₂.extend (extends₃.trans extends₄))
      · intro vp h₄ fresh block extends₄
        rw [if_pos (.inl rfl), Action.wp_bind]
        apply Action.wp_of_ok (Heap.free_null h₄)
        rw [Action.wp_bind]
        apply Action.wp_of_ok (Heap.free_ok block)
        exact same call (stores₂.extend
          ((extends₃.trans extends₄).release (extends₃.absent fresh) (Heap.not_null block)))
    · intro kp h₃ freshKey keyBlock extends₃
      rw [Action.wp_bind]
      apply wp_strdup
      · intro call h₄ extends₄
        rw [if_pos (.inr rfl), Action.wp_bind]
        apply Action.wp_of_ok (Heap.free_ok (extends₄ _ _ keyBlock))
        rw [Action.wp_bind]
        apply Action.wp_of_ok (Heap.free_null (h₄.release kp))
        exact same call (stores₂.extend
          ((extends₃.trans extends₄).release freshKey (Heap.not_null keyBlock)))
      · intro vp h₄ freshVal valBlock extends₄
        have two : kp ≠ vp := by
          rintro rfl
          rw [keyBlock] at freshVal
          cases freshVal
        obtain ⟨h₅, h₆, first, second, stores₆⟩ := stores₂.append new keysArray₂ valsArray freshKey
          (extends₃.absent freshVal) two (extends₄ _ _ keyBlock) valBlock (extends₃.trans extends₄)
        rw [if_neg (not_or.mpr ⟨Heap.not_null keyBlock, Heap.not_null valBlock⟩), Action.wp_bind]
        apply Action.wp_of_ok first
        rw [Action.wp_bind]
        apply Action.wp_of_ok second
        exact .inr ⟨rfl, _, _, _, stores₆, mapOf_append _ _⟩

end

theorem represents_zero (h : Heap Block) : Represents h zeroKwargs .empty :=
  ⟨[], [], [], ⟨rfl, .inl ⟨rfl, rfl⟩, .inl ⟨rfl, rfl⟩, rfl, rfl, fun _ => rfl, .nil, .nil,
    fun _ mem => nomatch mem⟩, rfl⟩

section

variable {h : Heap Block} {args : SoapySDRKwargs} {m : Kwargs} {refuses : Nat → Bool}

theorem Represents.wp_set (represents : Represents h args m) (key val : CString) :
    Action.wp (SoapySDRKwargs_set refuses args key val) (Sets refuses m key val)
      (fun _ _ => False) h := by
  obtain ⟨kps, vps, entries, stores, rfl⟩ := represents
  exact stores.wp_set

theorem Represents.wp_setAll (calls : List (CString × CString)) (represents : Represents h args m) :
    Action.wp (setAll refuses calls args) (fun result h' => result.1.length = calls.length ∧
        (∀ code ∈ result.1, code = 0 ∨ code = -1) ∧
        Represents h' result.2 (recorded calls result.1 m))
      (fun _ _ => False) h := by
  induction calls generalizing args m h with
  | nil => exact ⟨rfl, fun _ mem => (List.not_mem_nil mem).elim, represents⟩
  | cons call calls ih =>
    rw [setAll, Action.wp_bind]
    refine Action.wp_mono (represents.wp_set call.1 call.2) ?_ fun _ _ impossible => impossible
    rintro ⟨code, args'⟩ h' (⟨rfl, -, failed⟩ | ⟨rfl, made⟩)
    · rw [Action.wp_bind]
      refine Action.wp_mono (ih failed) ?_ fun _ _ impossible => impossible
      rintro ⟨codes, args''⟩ h'' ⟨length, each, rest⟩
      exact ⟨congrArg (· + 1) length, List.forall_mem_cons.mpr ⟨.inr rfl, each⟩, rest⟩
    · rw [Action.wp_bind]
      refine Action.wp_mono (ih made) ?_ fun _ _ impossible => impossible
      rintro ⟨codes, args''⟩ h'' ⟨length, each, rest⟩
      exact ⟨congrArg (· + 1) length, List.forall_mem_cons.mpr ⟨.inl rfl, each⟩, rest⟩

theorem Represents.get (represents : Represents h args m) (key : CString) :
    ∃ p, SoapySDRKwargs_get args key h = (.ok p, h) ∧
      match m.find? key.1 with
      | some v => p ≠ 0 ∧ stringAt h p = some v
      | none => p = 0 := by
  obtain ⟨kps, vps, entries, stores, rfl⟩ := represents
  have found := stores.findKey_ok key entries []
  rw [SoapySDRKwargs_get, stores.size]
  rcases found with ⟨before, v, after, rfl, found⟩ | ⟨absent, found⟩
  · obtain ⟨p, pointer, -, text, some⟩ := stores.valAt
    have there : (mapOf (before ++ (key.1, v) :: after)).find? key.1 = .some v :=
      (find?_mapOf stores.keysDistinct _ _).mpr (by simp)
    refine ⟨p, (Action.bind_ok found).trans pointer, ?_⟩
    rw [there]
    exact ⟨some, text⟩
  · have missing : (mapOf entries).find? key.1 = none := by
      apply Option.eq_none_iff_forall_ne_some.mpr
      intro v here
      exact absent _ ((find?_mapOf stores.keysDistinct _ _).mp here) rfl
    refine ⟨0, Action.bind_ok found, ?_⟩
    rw [missing]

theorem Stores.copyEntries {kps vps : List Nat} (rest before : List (Bytes × Bytes))
    (stores : Stores h args kps vps (before ++ rest)) :
    copyEntries args rest.length before.length (mapOf before) h =
      (.ok (mapOf (before ++ rest)), h) := by
  induction rest generalizing before with
  | nil =>
    rw [List.append_nil]
    rfl
  | cons e rest ih =>
    obtain ⟨kp, keyPointer, key⟩ := stores.keyAt
    obtain ⟨vp, valPointer, val, -⟩ := stores.valAt
    rw [List.append_cons] at stores
    have next := ih (before ++ [e]) stores
    rw [List.length_append, List.append_assoc, mapOf_append] at next
    rw [List.length_cons, Soapy.SDR.copyEntries, Action.bind_ok keyPointer, Action.bind_ok key,
      Action.bind_ok valPointer, Action.bind_ok val]
    exact next

theorem Represents.toKwargs (represents : Represents h args m) :
    toKwargs (some args) h = (.ok m, h) := by
  obtain ⟨kps, vps, entries, stores, rfl⟩ := represents
  have copied := stores.copyEntries entries []
  rw [Soapy.SDR.toKwargs, stores.size]
  exact copied

theorem Stores.keyText {kps vps : List Nat} {before after : List (Bytes × Bytes)}
    {e : Bytes × Bytes} (stores : Stores h args kps vps (before ++ e :: after)) :
    keyText h args before.length = some e.1 := by
  obtain ⟨kb, kp, ka, -, -, -, rfl, -, length, -, key, -⟩ := stores.entry
  have keys := stores.keys
  rcases keys with ⟨-, none⟩ | ⟨spare, array⟩
  · simp at none
  · rw [Soapy.SDR.keyText, array, ← length]
    simpa using stringAt_block key (stores.plain e (by simp)).1

theorem Represents.keys (represents : Represents h args m) :
    ∃ keys : List Bytes, (List.range args.size).map (keyText h args) = keys.map some ∧
      keys.Nodup := by
  obtain ⟨kps, vps, entries, stores, rfl⟩ := represents
  refine ⟨entries.map Prod.fst, ?_, stores.keysDistinct⟩
  apply List.ext_getElem
  · simp [stores.size]
  · intro i inside _
    rw [List.length_map, List.length_range, stores.size] at inside
    have split : entries = entries.take i ++ entries[i] :: entries.drop (i + 1) := by
      rw [List.getElem_cons_drop, List.take_append_drop]
    have stores' := stores
    rw [split] at stores'
    have text := stores'.keyText
    rw [List.length_take, Nat.min_eq_left (Nat.le_of_lt inside)] at text
    simpa using text

theorem cString_plain {s : Bytes} (plain : 0 ∉ s) : (cString s).1 = s :=
  List.takeWhile_eq_self_iff.mpr fun _ mem => decide_eq_true fun zero => plain (zero ▸ mem)

theorem Represents.setEntries (willing : ∀ n, refuses n = false)
    (entries : List (Bytes × Bytes)) (plain : ∀ e ∈ entries, 0 ∉ e.1 ∧ 0 ∉ e.2)
    (represents : Represents h args m) :
    ∃ out h', setEntries refuses entries args h = (.ok out, h') ∧
      Represents h' out (entries.foldl (fun m e => m.insert e.1 e.2) m) := by
  induction entries generalizing args m h with
  | nil => exact ⟨args, h, rfl, represents⟩
  | cons e entries ih =>
    obtain ⟨⟨code, args'⟩, h', made, failed | stored⟩ :=
      Action.ok_of_wp (@Represents.wp_set _ _ _ refuses represents (cString e.1) (cString e.2))
    · obtain ⟨-, ⟨n, call⟩, -⟩ := failed
      rw [willing n] at call
      cases call
    · obtain ⟨rfl, represents'⟩ := stored
      have here := plain e List.mem_cons_self
      rw [cString_plain here.1, cString_plain here.2] at represents'
      obtain ⟨out, h'', rest, final⟩ :=
        ih (fun e mem => plain e (List.mem_cons_of_mem _ mem)) represents'
      refine ⟨out, h'', ?_, final⟩
      rw [Soapy.SDR.setEntries, Action.bind_ok made]
      exact rest

end

section

variable {h : Heap Block} {args : SoapySDRKwargs} {kps vps : List Nat}
  {entries : List (Bytes × Bytes)}

end

/-- Whatever allocations fail, the container is the map that the results tell of; and a map becomes
    a container and comes back. -/
theorem kwargs_refines_map (refuses : Nat → Bool) (h : Heap Block) :
    (∀ calls : List (CString × CString), ∃ codes args h',
      setAll refuses calls zeroKwargs h = (.ok (codes, args), h') ∧
      codes.length = calls.length ∧ (∀ code ∈ codes, code = 0 ∨ code = -1) ∧
      (∃ keys : List Bytes, (List.range args.size).map (keyText h' args) = keys.map some ∧
        keys.Nodup) ∧
      (∀ key : CString, ∃ p, SoapySDRKwargs_get args key h' = (.ok p, h') ∧
        match (recorded calls codes .empty).find? key.1 with
        | some v => p ≠ 0 ∧ stringAt h' p = some v
        | none => p = 0) ∧
      toKwargs (some args) h' = (.ok (recorded calls codes .empty), h')) ∧
    ((∀ n, refuses n = false) → ∀ m : Kwargs, (∀ e ∈ m.entries, 0 ∉ e.1 ∧ 0 ∉ e.2) →
      ∃ out h', toSoapySDRKwargs refuses m h = (.ok out, h') ∧
        toKwargs (some out) h' = (.ok m, h')) := by
  constructor
  · intro calls
    obtain ⟨⟨codes, args⟩, h', ran, length, each, represents⟩ :=
      Action.ok_of_wp ((represents_zero h).wp_setAll calls)
    exact ⟨codes, args, h', ran, length, each, represents.keys, represents.get,
      represents.toKwargs⟩
  · intro willing m plain
    obtain ⟨out, h', made, represents⟩ := (represents_zero h).setEntries willing m.entries plain
    rw [OrdMap.foldl_insert_entries] at represents
    exact ⟨out, h', made, represents.toKwargs⟩

end Soapy.SDR
