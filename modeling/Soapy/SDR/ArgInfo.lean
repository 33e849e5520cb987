import Soapy.Lib.Heap
import Soapy.Remote.Defs

/-! # Argument infos for C

An argument info becomes a C structure whose strings and string lists are allocated. The list of
options and the list of their names have one length field between them: both lists write it when
they are built, and both are read and freed with it.
-/

namespace Soapy.SDR

open Lib
open Soapy.Remote (ArgInfo ArgType Range)

/-- What is allocated: a C string, or an array of pointers to C strings. -/
inductive Block where
  | chars (s : Bytes)
  | pointers (ps : List Nat)
deriving DecidableEq

abbrev HeapCall (α : Type) : Type := Action (Heap Block) HeapError α

/-- The strings are null where none was stored, and so are the lists. -/
structure SoapySDRArgInfo where
  key : Nat
  value : Nat
  name : Nat
  description : Nat
  units : Nat
  type : ArgType
  range : Range
  numOptions : Nat
  options : Nat
  optionNames : Nat

/-- `out[i]`. -/
def pointerAt (out i : Nat) : HeapCall Nat := do
  match ← Heap.read out with
  | .pointers ps =>
    match ps[i]? with
    | some p => pure p
    | none => .stop .undefined
  | .chars _ => .stop .undefined

/-- `out[i] = p`. -/
def setPointer (out i p : Nat) : HeapCall Unit := do
  match ← Heap.read out with
  | .pointers ps =>
    if i < ps.length then Heap.write out (.pointers (ps.set i p)) else .stop .undefined
  | .chars _ => .stop .undefined

def SoapySDRStrings_clear (elems length : Nat) : HeapCall Unit := do
  Action.forEach (fun i => do Heap.free (← pointerAt elems i)) (List.range length)
  Heap.free elems

def SoapySDRArgInfo_clear (info : SoapySDRArgInfo) : HeapCall SoapySDRArgInfo := do
  Heap.free info.key
  Heap.free info.value
  Heap.free info.name
  Heap.free info.description
  Heap.free info.units
  SoapySDRStrings_clear info.options info.numOptions
  SoapySDRStrings_clear info.optionNames info.numOptions
  pure { info with
    key := 0, value := 0, name := 0, description := 0, units := 0, options := 0, optionNames := 0,
    numOptions := 0 }

/-- `callocArrayType`, for an array that is given with its zeros. `refuses n` says that the
    allocator returns null to its call `n`. -/
def callocArrayType (refuses : Nat → Bool) (zeros : Block) : HeapCall Nat :=
  Heap.alloc refuses zeros

def toCString (refuses : Nat → Bool) (s : Bytes) : HeapCall Nat := do
  let out ← callocArrayType refuses (.chars (List.replicate (s.length + 1) 0))
  -- the copy leaves the last zero
  Heap.write out (.chars (s ++ [0]))
  pure out

/-- The loop of `toStrArray` from index `i` on. -/
def storeStrings (refuses : Nat → Bool) (out : Nat) : (i : Nat) → List Bytes → HeapCall Unit
  | _, [] => pure ()
  | i, s :: rest => do
    Action.rescue
      (do
        let p ← toCString refuses s
        setPointer out i p)
      (fun
        | .bad_alloc => do
          SoapySDRStrings_clear out i
          .stop .bad_alloc
        | .undefined => .stop .undefined)
    storeStrings refuses out (i + 1) rest

def toStrArray (refuses : Nat → Bool) (strs : List Bytes) : HeapCall (Nat × Nat) := do
  let out ← callocArrayType refuses (.pointers (List.replicate strs.length 0))
  storeStrings refuses out 0 strs
  pure (out, strs.length)

/-- The local variable `out` of `toArgInfo` beside the heap. -/
structure Frame where
  heap : Heap Block
  out : SoapySDRArgInfo

def onHeap {α : Type} (call : HeapCall α) : Action Frame HeapError α := fun s =>
  ((call s.heap).1, { s with heap := (call s.heap).2 })

/-- `out.field = call(…)`: the assignment comes after the call. -/
def assign {α : Type} (call : HeapCall α) (field : α → SoapySDRArgInfo → SoapySDRArgInfo) :
    Action Frame HeapError Unit := do
  let a ← onHeap call
  .modify (fun s => { s with out := field a s.out })

/-- The structure after `memset`. -/
def zeroArgInfo : SoapySDRArgInfo :=
  ⟨0, 0, 0, 0, 0, .ofInt 0, ⟨.zero, .zero, .zero⟩, 0, 0, 0⟩

/-- The `try` of `toArgInfo`. -/
def buildArgInfo (refuses : Nat → Bool) (info : ArgInfo) : Action Frame HeapError Unit := do
  assign (toCString refuses info.key) (fun p out => { out with key := p })
  assign (toCString refuses info.value) (fun p out => { out with value := p })
  assign (toCString refuses info.name) (fun p out => { out with name := p })
  assign (toCString refuses info.description) (fun p out => { out with description := p })
  assign (toCString refuses info.units) (fun p out => { out with units := p })
  assign (pure info.type) (fun type out => { out with type })
  assign (pure info.range) (fun range out => { out with range })
  assign (toStrArray refuses info.options) (fun (p, length) out =>
    { out with options := p, numOptions := length })
  assign (toStrArray refuses info.optionNames) (fun (p, length) out =>
    { out with optionNames := p, numOptions := length })

/-- The `catch` of `toArgInfo`. -/
def clearAndThrow : HeapError → Action Frame HeapError Unit
  | .bad_alloc => do
    let s ← .get
    assign (SoapySDRArgInfo_clear s.out) (fun cleared _ => cleared)
    .stop .bad_alloc
  | .undefined => .stop .undefined

def toArgInfo (refuses : Nat → Bool) (info : ArgInfo) : HeapCall SoapySDRArgInfo := fun h =>
  match (buildArgInfo refuses info).rescue clearAndThrow ⟨h, zeroArgInfo⟩ with
  | (.ok (), s) => (.ok s.out, s.heap)
  | (.error e, s) => (.error e, s.heap)

def stringAt (h : Heap Block) (p : Nat) : Option Bytes :=
  match h.at? p with
  | some (.chars s) => if 0 ∈ s then some (s.takeWhile (· ≠ 0)) else none
  | _ => none

/-- `info.options[i]`. -/
def optionAt (h : Heap Block) (info : SoapySDRArgInfo) (i : Nat) : Option Bytes :=
  match h.at? info.options with
  | some (.pointers ps) => ps[i]?.bind (stringAt h)
  | _ => none

/-- The structure `out` that was built from `info`, while the heap went from `h` to `h'`. -/
structure Exposes (info : ArgInfo) (h : Heap Block) (out : SoapySDRArgInfo) (h' : Heap Block) :
    Prop where
  options : (List.range out.numOptions).map (optionAt h' out) = info.options.map some
  named : ∃ ps, h'.at? out.optionNames = some (.pointers ps) ∧ out.numOptions ≤ ps.length
  /-- The clear frees the blocks that came with the structure, each of them once. -/
  cleared : ∃ none h'' ps, SoapySDRArgInfo_clear out h' = (.ok none, h'') ∧
    h''.freed = h'.freed ++ ps ∧ ps.Perm (List.range' h.next (h'.next - h.next))

def Refused (refuses : Nat → Bool) {σ : Type} (_ : HeapError) (_ : σ) : Prop :=
  ∃ n, refuses n = true

def stringBlock (s : Bytes) : Block := .chars (s ++ [0])

/-- The blocks of a string array whose first one is at `out`. -/
def arrayBlocks (out : Nat) (strs : List Bytes) : List Block :=
  .pointers (List.range' (out + 1) strs.length) :: strs.map stringBlock

@[simp] theorem length_arrayBlocks (out : Nat) (strs : List Bytes) :
    (arrayBlocks out strs).length = strs.length + 1 := by
  simp [arrayBlocks]

variable {s : Bytes} {out : SoapySDRArgInfo}

section

variable {refuses : Nat → Bool} {h : Heap Block}

theorem wp_toCString {Q : Nat → Heap Block → Prop} (made : Q h.next (h.push (stringBlock s))) :
    Action.wp (toCString refuses s) Q (Refused refuses) h := by
  rw [toCString, Action.wp_bind]
  apply Heap.wp_alloc
  · have zeros := Heap.at?_pushAll (h := h) [.chars (List.replicate (s.length + 1) 0)]
      (Nat.add_zero h.next).symm
    have written := Heap.update_pushAll (h := h) (b := .chars (List.replicate (s.length + 1) 0))
      (stringBlock s) []
    rw [Action.wp_bind]
    apply Action.wp_of_ok (Heap.write_ok zeros)
    exact written ▸ made
  · intro call
    exact ⟨h.calls, call⟩

/-- The heap in the loop of `toStrArray`: the array is there, and some of its strings. -/
def filled (h : Heap Block) (done rest : List Bytes) : Heap Block :=
  h.pushAll (.pointers (List.range' (h.next + 1) done.length ++ List.replicate rest.length 0) ::
    done.map stringBlock)

theorem wp_setPointer {Q : Unit → Heap Block → Prop} {done rest : List Bytes}
    (stored : Q () (filled h (done ++ [s]) rest)) :
    Action.wp (setPointer h.next done.length (filled h done (s :: rest)).next) Q
      (Refused refuses) ((filled h done (s :: rest)).push (stringBlock s)) := by
  have more : (filled h done (s :: rest)).push (stringBlock s) = h.pushAll (.pointers
      (List.range' (h.next + 1) done.length ++ List.replicate (rest.length + 1) 0) ::
        (done ++ [s]).map stringBlock) := by
    rw [List.map_append, ← List.cons_append, ← Heap.pushAll_append]
    rfl
  have array := Heap.at?_pushAll (h := h) (.pointers (List.range' (h.next + 1) done.length ++
    List.replicate (rest.length + 1) 0) :: (done ++ [s]).map stringBlock)
    (Nat.add_zero h.next).symm
  have place : (filled h done (s :: rest)).next = h.next + 1 + done.length := by
    simp [filled]
    omega
  have inside : done.length <
      (List.range' (h.next + 1) done.length ++ List.replicate (rest.length + 1) 0).length := by
    simp
  have entry : (List.range' (h.next + 1) done.length ++ List.replicate (rest.length + 1) 0).set
      done.length (h.next + 1 + done.length) =
        List.range' (h.next + 1) (done ++ [s]).length ++ List.replicate rest.length 0 := by
    rw [List.set_append_right _ _ (by simp), List.length_range', Nat.sub_self,
      List.replicate_succ, List.set_cons_zero, List.length_append, List.length_singleton,
      List.range'_concat, List.append_assoc, Nat.one_mul]
    rfl
  rw [more, place, setPointer, Action.wp_bind]
  apply Action.wp_of_ok (Heap.read_ok array)
  change Action.wp (if _ then _ else _) _ _ _
  rw [if_pos inside, entry]
  apply Action.wp_of_ok (Heap.write_ok array)
  rw [Heap.update_pushAll]
  exact stored

theorem wp_storeStrings {Q : Unit → Heap Block → Prop} (done rest : List Bytes)
    (stored : Q () (filled h (done ++ rest) [])) :
    Action.wp (storeStrings refuses h.next done.length rest) Q (Refused refuses)
      (filled h done rest) := by
  induction rest generalizing done with
  | nil =>
    rw [List.append_nil] at stored
    exact stored
  | cons s rest ih =>
    rw [List.append_cons] at stored
    rw [storeStrings, Action.wp_bind, Action.wp_rescue]
    have next := ih (done ++ [s]) stored
    rw [List.length_append, List.length_singleton] at next
    have one : Action.wp
        (do
          let p ← toCString refuses s
          setPointer h.next done.length p)
        (fun _ => Action.wp (storeStrings refuses h.next (done.length + 1) rest) Q
          (Refused refuses))
        (Refused refuses) (filled h done (s :: rest)) := by
      rw [Action.wp_bind]
      exact wp_toCString (wp_setPointer next)
    apply Action.wp_mono one (fun _ _ ends => ends)
    intro e h' refused
    -- the handler throws on, whatever became of the strings before
    cases e with
    | bad_alloc =>
      change Action.wp (_ >>= fun _ => _) _ _ _
      rw [Action.wp_bind]
      exact Action.wp_of_forall (fun _ _ => refused) (fun _ _ => refused)
    | undefined => exact refused

theorem wp_toStrArray {Q : Nat × Nat → Heap Block → Prop} {strs : List Bytes}
    (made : Q (h.next, strs.length) (h.pushAll (arrayBlocks h.next strs))) :
    Action.wp (toStrArray refuses strs) Q (Refused refuses) h := by
  rw [toStrArray, Action.wp_bind]
  apply Heap.wp_alloc
  · rw [Action.wp_bind]
    apply wp_storeStrings [] strs
    have same : filled h ([] ++ strs) [] = h.pushAll (arrayBlocks h.next strs) := by
      simp [filled, arrayBlocks, Heap.pushAll]
    rw [same]
    exact made
  · intro call
    exact ⟨h.calls, call⟩

theorem wp_assign {α : Type} {call : HeapCall α} {field : α → SoapySDRArgInfo → SoapySDRArgInfo}
    {Q : Unit → Frame → Prop}
    (called : Action.wp call (fun a h' => Q () ⟨h', field a out⟩) (Refused refuses) h) :
    Action.wp (assign call field) Q (Refused refuses) ⟨h, out⟩ := by
  rw [assign, Action.wp_bind]
  unfold Action.wp onHeap
  unfold Action.wp at called
  generalize call h = ended at called ⊢
  obtain ⟨result, h'⟩ := ended
  cases result with
  | ok a => exact called
  | error e => exact called

theorem wp_field {α : Type} {call : HeapCall α} {field : α → SoapySDRArgInfo → SoapySDRArgInfo}
    {rest : Unit → Action Frame HeapError Unit} {Q : Unit → Frame → Prop} (ends : Action.wp call
      (fun a h' => Action.wp (rest ()) Q (Refused refuses) ⟨h', field a out⟩) (Refused refuses) h) :
    Action.wp (assign call field >>= rest) Q (Refused refuses) ⟨h, out⟩ := by
  rw [Action.wp_bind]
  exact wp_assign ends

def blocksOf (h : Heap Block) (info : ArgInfo) : List Block :=
  [info.key, info.value, info.name, info.description, info.units].map stringBlock ++
    (arrayBlocks (h.next + 5) info.options ++
      arrayBlocks (h.next + 5 + (info.options.length + 1)) info.optionNames)

def argInfoAt (h : Heap Block) (info : ArgInfo) : SoapySDRArgInfo where
  key := h.next
  value := h.next + 1
  name := h.next + 2
  description := h.next + 3
  units := h.next + 4
  type := info.type
  range := info.range
  -- the length of the second list
  numOptions := info.optionNames.length
  options := h.next + 5
  optionNames := h.next + 5 + (info.options.length + 1)

theorem wp_buildArgInfo {info : ArgInfo} :
    Action.wp (buildArgInfo refuses info)
      (fun _ s => s.out = argInfoAt h info ∧ s.heap = h.pushAll (blocksOf h info))
      (Refused refuses) ⟨h, zeroArgInfo⟩ := by
  rw [buildArgInfo]
  apply wp_field (wp_toCString _)
  apply wp_field (wp_toCString _)
  apply wp_field (wp_toCString _)
  apply wp_field (wp_toCString _)
  apply wp_field (wp_toCString _)
  apply wp_field (Action.wp_of_ok rfl _)
  apply wp_field (Action.wp_of_ok rfl _)
  apply wp_field (wp_toStrArray _)
  apply wp_assign
  apply wp_toStrArray
  constructor
  · simp [argInfoAt, Nat.add_assoc]
  · have five : ((((h.push (stringBlock info.key)).push (stringBlock info.value)).push
        (stringBlock info.name)).push (stringBlock info.description)).push
          (stringBlock info.units) = h.pushAll
            ([info.key, info.value, info.name, info.description, info.units].map stringBlock) := by
      simp [Heap.pushAll]
    have whole := Heap.pushAll_append (h := h)
      ([info.key, info.value, info.name, info.description, info.units].map stringBlock)
      (arrayBlocks (h.next + 5) info.options ++
        arrayBlocks (h.next + 5 + (info.options.length + 1)) info.optionNames)
    dsimp only
    simp only [five]
    simp only [Heap.next_pushAll, length_arrayBlocks, List.length_map, List.length_cons,
      List.length_nil]
    rw [blocksOf, ← whole, Heap.pushAll_append]

theorem wp_clearAndThrow (e : HeapError) (s : Frame) :
    Action.wp (clearAndThrow e) (fun _ _ => False) (fun _ _ => True) s := by
  cases e with
  | undefined => exact trivial
  | bad_alloc =>
    rw [clearAndThrow, Action.wp_bind, Action.wp_get, Action.wp_bind]
    exact Action.wp_of_forall (fun _ _ => trivial) (fun _ _ => trivial)

theorem toArgInfo_built {info : ArgInfo} {h' : Heap Block}
    (built : toArgInfo refuses info h = (.ok out, h')) :
    out = argInfoAt h info ∧ h' = h.pushAll (blocksOf h info) := by
  have body := @wp_buildArgInfo refuses h info
  unfold Action.wp at body
  rw [toArgInfo, Action.rescue] at built
  generalize buildArgInfo refuses info ⟨h, zeroArgInfo⟩ = ended at body built
  obtain ⟨result, s⟩ := ended
  cases result with
  | ok done =>
    cases built
    exact body
  | error e =>
    -- what was caught is thrown again
    have throws := wp_clearAndThrow e s
    unfold Action.wp at throws
    dsimp only at built
    generalize clearAndThrow e s = ended at throws built
    obtain ⟨result, s'⟩ := ended
    cases result with
    | ok done => exact throws.elim
    | error e' => cases built

theorem toArgInfo_returns (willing : ∀ n, refuses n = false) (info : ArgInfo) :
    ∃ out h', toArgInfo refuses info h = (.ok out, h') := by
  have body := @wp_buildArgInfo refuses h info
  unfold Action.wp at body
  rw [toArgInfo, Action.rescue]
  generalize buildArgInfo refuses info ⟨h, zeroArgInfo⟩ = ended at body ⊢
  obtain ⟨result, s⟩ := ended
  cases result with
  | ok done => exact ⟨_, _, rfl⟩
  | error e =>
    obtain ⟨n, refused⟩ := body
    rw [willing n] at refused
    cases refused

end

theorem stringAt_block {h : Heap Block} {p : Nat}
    (block : h.at? p = some (stringBlock s)) (plain : 0 ∉ s) :
    stringAt h p = some s := by
  have whole : (s ++ [0]).takeWhile (· ≠ 0) = s := by
    rw [List.takeWhile_append_of_pos]
    · simp
    · intro byte member
      exact decide_eq_true (fun zero => plain (zero ▸ member))
  rw [stringAt, block]
  simp only [stringBlock]
  rw [if_pos (by simp), whole]

variable {i : Nat}

section

variable {h : Heap Block} {info : ArgInfo}

theorem options_array : (h.pushAll (blocksOf h info)).at? (argInfoAt h info).options =
    some (.pointers (List.range' (h.next + 5 + 1) info.options.length)) :=
  Heap.at?_pushAll (blocksOf h info) rfl

theorem names_array : (h.pushAll (blocksOf h info)).at? (argInfoAt h info).optionNames =
    some (.pointers (List.range' (h.next + 5 + (info.options.length + 1) + 1)
      info.optionNames.length)) := by
  have place : (argInfoAt h info).optionNames = h.next + (info.options.length + 6) := by
    change h.next + 5 + (info.options.length + 1) = _
    omega
  have entry : (blocksOf h info)[info.options.length + 6]? =
      (info.options.map stringBlock ++
        arrayBlocks (h.next + 5 + (info.options.length + 1)) info.optionNames)[
          info.options.length]? := rfl
  rw [Heap.at?_pushAll _ place, entry, List.getElem?_append_right (by simp), List.length_map,
    Nat.sub_self]
  rfl

theorem option_string (option : info.options[i]? = some s) :
    (h.pushAll (blocksOf h info)).at? (h.next + 5 + 1 + i) = some (stringBlock s) := by
  have place : h.next + 5 + 1 + i = h.next + (i + 6) := by omega
  have inside : i < (info.options.map stringBlock).length := by
    rw [List.length_map]
    exact (List.getElem?_eq_some_iff.mp option).1
  have entry : (blocksOf h info)[i + 6]? =
      (info.options.map stringBlock ++
        arrayBlocks (h.next + 5 + (info.options.length + 1)) info.optionNames)[i]? := rfl
  rw [Heap.at?_pushAll _ place, entry, List.getElem?_append_left inside, List.getElem?_map, option]
  rfl

theorem optionAt_built (option : info.options[i]? = some s) (plain : 0 ∉ s) :
    optionAt (h.pushAll (blocksOf h info)) (argInfoAt h info) i = some s := by
  have inside := (List.getElem?_eq_some_iff.mp option).1
  have pointer : (List.range' (h.next + 5 + 1) info.options.length)[i]? =
      some (h.next + 5 + 1 + i) := by
    rw [List.getElem?_range' inside, Nat.one_mul]
  rw [optionAt, options_array]
  simp only [pointer, Option.bind_some]
  exact stringAt_block (option_string option) plain

end

section

variable {h : Heap Block} {ps qs : List Nat}

theorem pointerAt_ok {out p : Nat} (array : h.at? out = some (.pointers ps))
    (inside : ps[i]? = some p) : pointerAt out i h = (.ok p, h) := by
  rw [pointerAt, Action.bind_ok (Heap.read_ok array)]
  simp only [inside]
  rfl

theorem strings_clear {elems : Nat} (spare : List Nat)
    (array : h.at? elems = some (.pointers (ps ++ spare))) (owned : h.Owned (ps ++ [elems])) :
    SoapySDRStrings_clear elems ps.length h = (.ok (), h.releaseAll (ps ++ [elems])) := by
  have addresses : (List.range ps.length).map (ps.getD · 0) = ps := by
    apply List.ext_getElem
    · simp
    · intro i _ inside
      simp [inside]
  have entry : ∀ i ∈ List.range ps.length, ps[i]? = some (ps.getD i 0) := by
    intro i member
    simp [List.mem_range.mp member]
  have entry' : ∀ i ∈ List.range ps.length, (ps ++ spare)[i]? = some (ps.getD i 0) := by
    intro i member
    rw [List.getElem?_append_left (List.mem_range.mp member), entry i member]
  have member : ∀ i ∈ List.range ps.length, ps.getD i 0 ∈ ps := fun i inside =>
    List.mem_of_getElem? (entry i inside)
  have loop : Action.forEach (fun i => do Heap.free (← pointerAt elems i))
      (List.range ps.length) h =
        (.ok (), h.releaseAll ((List.range ps.length).map (ps.getD · 0))) := by
    apply Heap.forEach_free (fun h => h.at? elems = some (.pointers (ps ++ spare)))
    · intro i inside h array
      have other : elems ≠ ps.getD i 0 := by
        intro same
        exact (List.nodup_append'.mp owned.distinct).2.2 (member i inside)
          (same ▸ List.mem_singleton_self elems)
      have some : ps.getD i 0 ≠ 0 := fun null => owned.left.not_null (null ▸ member i inside)
      rw [Heap.at?_release_other other some]
      exact array
    · intro i inside h array
      exact Action.bind_ok (pointerAt_ok array (entry' i inside))
    · exact array
    · rw [addresses]
      exact owned.left
  rw [addresses] at loop
  rw [SoapySDRStrings_clear, Action.bind_ok loop, owned.right.free_ok, ← Heap.releaseAll_append]
  rfl

theorem argInfo_clear
    (options : h.at? out.options = some (.pointers ps))
    (names : h.at? out.optionNames = some (.pointers qs))
    (length : ps.length = out.numOptions) (length' : qs.length = out.numOptions)
    (owned : h.Owned ([out.key, out.value, out.name, out.description, out.units] ++
      ((ps ++ [out.options]) ++ (qs ++ [out.optionNames])))) :
    ∃ none, SoapySDRArgInfo_clear out h = (.ok none,
      h.releaseAll ([out.key, out.value, out.name, out.description, out.units] ++
        ((ps ++ [out.options]) ++ (qs ++ [out.optionNames])))) := by
  have apart := (List.nodup_append'.mp owned.distinct).2.2
  have options' : (h.releaseAll
      [out.key, out.value, out.name, out.description, out.units]).at? out.options =
        some (.pointers ps) := by
    rw [Heap.at?_releaseAll_other _ owned.left.not_null]
    · exact options
    · exact fun member => apart member (by simp)
  have names' : ((h.releaseAll
      [out.key, out.value, out.name, out.description, out.units]).releaseAll
        (ps ++ [out.options])).at? out.optionNames = some (.pointers qs) := by
    have apart' := (List.nodup_append'.mp owned.right.distinct).2.2
    rw [Heap.at?_releaseAll_other _ owned.right.left.not_null,
      Heap.at?_releaseAll_other _ owned.left.not_null]
    · exact names
    · exact fun member => apart member (by simp)
    · exact fun member => apart' member (by simp)
  rw [← List.append_nil ps] at options'
  rw [← List.append_nil qs] at names'
  have first := strings_clear [] options' owned.right.left
  have second := strings_clear [] names' owned.right.right
  rw [length] at first
  rw [length'] at second
  have five : h.releaseAll [out.key, out.value, out.name, out.description, out.units] =
      ((((h.release out.key).release out.value).release out.name).release
        out.description).release out.units := rfl
  rw [SoapySDRArgInfo_clear, Action.bind_ok owned.free_ok, Action.bind_ok owned.tail.free_ok,
    Action.bind_ok owned.tail.tail.free_ok, Action.bind_ok owned.tail.tail.tail.free_ok,
    Action.bind_ok owned.tail.tail.tail.tail.free_ok, ← five, Action.bind_ok first,
    Action.bind_ok second, Heap.releaseAll_append, Heap.releaseAll_append]
  exact ⟨_, rfl⟩

end

def freedOf (h : Heap Block) (n : Nat) : List Nat :=
  [h.next, h.next + 1, h.next + 2, h.next + 3, h.next + 4] ++
    ((List.range' (h.next + 5 + 1) n ++ [h.next + 5]) ++
      (List.range' (h.next + 5 + (n + 1) + 1) n ++ [h.next + 5 + (n + 1)]))

theorem freedOf_perm (h : Heap Block) (n : Nat) :
    (freedOf h n).Perm (List.range' h.next (5 + ((n + 1) + (n + 1)))) := by
  have array : ∀ p, (List.range' (p + 1) n ++ [p]).Perm (List.range' p (n + 1)) := by
    intro p
    rw [List.range'_succ]
    exact List.perm_append_singleton p _
  have both := ((array (h.next + 5)).append (array (h.next + 5 + (n + 1)))).append_left
    [h.next, h.next + 1, h.next + 2, h.next + 3, h.next + 4]
  rw [List.range'_append_1] at both
  have whole : [h.next, h.next + 1, h.next + 2, h.next + 3, h.next + 4] ++
      List.range' (h.next + 5) ((n + 1) + (n + 1)) =
        List.range' h.next (5 + ((n + 1) + (n + 1))) :=
    @List.range'_append_1 h.next 5 ((n + 1) + (n + 1))
  rw [whole] at both
  exact both

theorem length_blocksOf (h : Heap Block) (info : ArgInfo) : (blocksOf h info).length =
    5 + ((info.options.length + 1) + (info.optionNames.length + 1)) := by
  simp [blocksOf]
  omega

/-- A built structure shows its options and frees its strings exactly where there are as many names
    as options: one length is written over the other. -/
theorem argInfo_exposes_iff {refuses : Nat → Bool} {info : ArgInfo} {h h' : Heap Block}
    {out : SoapySDRArgInfo} (plain : ∀ s ∈ info.options, 0 ∉ s)
    (built : toArgInfo refuses info h = (.ok out, h')) :
    Exposes info h out h' ↔ info.options.length = info.optionNames.length := by
  obtain ⟨rfl, rfl⟩ := toArgInfo_built built
  constructor
  · intro exposes
    have lengths := congrArg List.length exposes.options
    rw [List.length_map, List.length_map, List.length_range] at lengths
    exact lengths.symm
  · intro same
    constructor
    · apply List.ext_getElem?
      intro i
      change ((List.range info.optionNames.length).map _)[i]? = _
      rw [List.getElem?_map, List.getElem?_map, ← same]
      cases option : info.options[i]? with
      | none =>
        rw [List.getElem?_eq_none_iff] at option
        rw [List.getElem?_eq_none (by simpa using option)]
        rfl
      | some s =>
        have inside := (List.getElem?_eq_some_iff.mp option).1
        rw [List.getElem?_range inside]
        exact congrArg some (optionAt_built option (plain s (List.mem_of_getElem? option)))
    · refine ⟨_, names_array, ?_⟩
      rw [List.length_range']
      exact Nat.le_refl _
    · have all : (h.pushAll (blocksOf h info)).Owned (freedOf h info.options.length) := by
        have owned := Heap.Owned.of_pushAll (h := h) (blocksOf h info)
        rw [length_blocksOf, ← same] at owned
        exact owned.perm (freedOf_perm h info.options.length).symm
      have cleared := argInfo_clear (@options_array h info) names_array
        (List.length_range'.trans same) List.length_range'
        (by rw [← same]; exact all)
      rw [← same] at cleared
      obtain ⟨none, ends⟩ := cleared
      refine ⟨none, _, freedOf h info.options.length, ends, Heap.freed_releaseAll _, ?_⟩
      rw [Heap.next_pushAll, Nat.add_sub_cancel_left, length_blocksOf, ← same]
      exact freedOf_perm h info.options.length

def portInfo (options optionNames : List Bytes) : ArgInfo where
  key := ascii "port"
  value := ascii "a"
  name := []
  description := []
  units := []
  type := .STRING
  range := ⟨.zero, .zero, .zero⟩
  options := options
  optionNames := optionNames

theorem argInfo_exposes_named : ∃ out h',
    toArgInfo (fun _ => false) (portInfo [ascii "a", ascii "b"] [ascii "A", ascii "B"]) .empty =
      (.ok out, h') ∧
    Exposes (portInfo [ascii "a", ascii "b"] [ascii "A", ascii "B"]) .empty out h' := by
  obtain ⟨out, h', built⟩ := @toArgInfo_returns (fun _ => false) .empty (fun _ => rfl)
    (portInfo [ascii "a", ascii "b"] [ascii "A", ascii "B"])
  exact ⟨out, h', built, (argInfo_exposes_iff (by decide) built).mpr rfl⟩

/-- Options without names are lost. -/
theorem argInfo_hides_unnamed : ∃ out h',
    toArgInfo (fun _ => false) (portInfo [ascii "a", ascii "b"] []) .empty = (.ok out, h') ∧
    out.numOptions = 0 ∧ ¬ Exposes (portInfo [ascii "a", ascii "b"] []) .empty out h' := by
  obtain ⟨out, h', built⟩ := @toArgInfo_returns (fun _ => false) .empty (fun _ => rfl)
    (portInfo [ascii "a", ascii "b"] [])
  obtain ⟨rfl, rfl⟩ := toArgInfo_built built
  refine ⟨_, _, built, rfl, ?_⟩
  intro exposes
  have lengths := congrArg List.length exposes.options
  exact absurd lengths (by decide)

end Soapy.SDR
