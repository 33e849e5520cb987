import Soapy.Lib.Binary64
import Soapy.Receive.RTLSDR

/-! # The formats of the RTL-SDR stream

`readStream` converts what it copies, sample by sample, through tables or directly, and exchanges
the components where `iqSwap` says so. A `float` of the tables is given by its multiple of
`2 ^ -24`.
-/

namespace Soapy.Receive.RTLSDR

open Lib HandleRing

/-- `std::complex`. -/
structure Complex (β : Type) where
  real : β
  imag : β
deriving DecidableEq

def Complex.swap {β : Type} (z : Complex β) : Complex β := ⟨z.imag, z.real⟩

/-- `127.4f` as a multiple of `2 ^ -17`, which is the last place of its 24 bits. -/
def offset : Nat := Double.roundHalfEven (1274 * 2 ^ 17) 10

/-- `(b - 127.4f) * (1.0f / 128.0f)`. Nothing is rounded here: the difference has 24 bits, and the
factor is a power of two. -/
def component (b : UInt8) : Int := b.toNat * 2 ^ 17 - offset

/-- A product of floats: 24 bits of it are kept. -/
def rounded (m : Int) : Int :=
  let shift := m.natAbs.log2 - 23
  m.sign * (Double.roundHalfEven m.natAbs (2 ^ shift) * 2 ^ shift : Nat)

def SHRT_MAX : Int := 32767

/-- `int16_t(float(SHRT_MAX) * re)`. -/
def toInt16 (re : Int) : Int16 := Int16.ofInt ((rounded (SHRT_MAX * re)).tdiv (2 ^ 24))

/-- What one turn of the loop puts behind each of the four tables. -/
structure Entry where
  v32f : Complex Int
  vs32f : Complex Int
  v16i : Complex Int16
  vs16i : Complex Int16

def entry (little : Bool) (i : Nat) : Entry :=
  let re := component (if little then i &&& 0xff else i >>> 8).toUInt8
  let im := component (if little then i >>> 8 else i &&& 0xff).toUInt8
  let v32f := ⟨re, im⟩
  let vs32f := ⟨v32f.imag, v32f.real⟩
  let v16i := ⟨toInt16 re, toInt16 im⟩
  -- The right sides are its own parts, and not those of `v16i`.
  let vs16i : Complex Int16 := ⟨0, 0⟩
  let vs16i := { vs16i with real := vs16i.imag }
  let vs16i := { vs16i with imag := vs16i.real }
  ⟨v32f, vs32f, v16i, vs16i⟩

def lut (little : Bool) : List Entry := (List.range 0x10000).map (entry little)

theorem lut_length (little : Bool) : (lut little).length = 0x10000 := by
  rw [lut, List.length_map, List.length_range]

def lookup (little : Bool) (i : UInt16) : Entry :=
  (lut little).get ⟨i.toNat, (lut_length little).symm ▸ i.toNat_lt⟩

inductive Format where
  | FLOAT32
  | INT16
  | INT8
deriving DecidableEq

/-- What stands in the user's buffer. -/
inductive Component where
  | float (re : Int)
  | int16 (value : Int16)
  | int8 (value : Int8)
deriving DecidableEq

def index (little : Bool) (bytes : UInt8 × UInt8) : UInt16 :=
  if little then bytes.1.toUInt16 ||| (bytes.2.toUInt16 <<< 8)
  else (bytes.1.toUInt16 <<< 8) ||| bytes.2.toUInt16

def convert (little : Bool) (rxFormat : Format) (iqSwap : Bool) (bytes : UInt8 × UInt8) :
    Complex Component :=
  match rxFormat with
  | .FLOAT32 =>
    let found := lookup little (index little bytes)
    let tmp := if iqSwap then found.vs32f else found.v32f
    ⟨.float tmp.real, .float tmp.imag⟩
  | .INT16 =>
    let found := lookup little (index little bytes)
    let tmp := if iqSwap then found.vs16i else found.v16i
    ⟨.int16 tmp.real, .int16 tmp.imag⟩
  | .INT8 =>
    if iqSwap then
      ⟨.int8 (Int8.ofInt (bytes.2.toNat - 128)), .int8 (Int8.ofInt (bytes.1.toNat - 128))⟩
    else ⟨.int8 (Int8.ofInt (bytes.1.toNat - 128)), .int8 (Int8.ofInt (bytes.2.toNat - 128))⟩

variable {n : Nat} [NeZero n]

/-- The ring, and what each call has put into the user's buffer. -/
structure Reader (n : Nat) where
  state : State n (UInt8 × UInt8)
  out : List (List (Complex Component))

def Reader.start : Reader n := ⟨.start, []⟩

/-- The samples that a step of the ring copies. -/
def copied (s : State n (UInt8 × UInt8)) : Act (UInt8 × UInt8) → List (List (UInt8 × UInt8))
  | .copy =>
    match s.place with
    | .copies numElems =>
      [(((s.buffs s.currentHandle).drop s.currentBuff).take (min s.bufferedElems numElems)).data]
    | _ => []
  | _ => []

def ReadStep (little : Bool) (rxFormat : Format) (iqSwap : Bool) (r : Reader n)
    (a : Act (UInt8 × UInt8)) (r' : Reader n) : Prop :=
  Step r.state a r'.state ∧
    r'.out = r.out ++ (copied r.state a).map fun samples =>
      samples.map (convert little rxFormat iqSwap)

inductive Scheduled (little : Bool) (rxFormat : Format) (iqSwap : Bool) :
    List (Act (UInt8 × UInt8)) → Reader n → Prop where
  | start : Scheduled little rxFormat iqSwap [] .start
  | step {acts a r r'} : Scheduled little rxFormat iqSwap acts r →
      ReadStep little rxFormat iqSwap r a r' → Scheduled little rxFormat iqSwap (acts ++ [a]) r'

theorem lookup_eq (little : Bool) (i : UInt16) : lookup little i = entry little i.toNat := by
  rw [lookup, List.get_eq_getElem]
  simp [lut]

theorem toInt16_component (b : UInt8) : toInt16 (component b) ≠ 0 := by
  have all : ∀ b : Fin 256, toInt16 (component (UInt8.ofFin b)) ≠ 0 := by decide +kernel
  exact all b.toFin

theorem convert_swap (little : Bool) {rxFormat : Format} (right : rxFormat ≠ .INT16)
    (bytes : UInt8 × UInt8) :
    convert little rxFormat true bytes = (convert little rxFormat false bytes).swap := by
  cases rxFormat with
  | FLOAT32 =>
    simp only [convert, lookup_eq]
    rfl
  | INT16 => exact absurd rfl right
  | INT8 => rfl

theorem convert_no_swap (little : Bool) (bytes : UInt8 × UInt8) :
    convert little .INT16 true bytes ≠ (convert little .INT16 false bytes).swap := by
  simp only [convert, lookup_eq, entry, Complex.swap, if_true, Bool.false_eq_true, if_false]
  intro same
  have real := congrArg Complex.real same
  exact toInt16_component _ (Component.int16.inj real).symm

theorem Step.det {α : Type} {s left right : State n α} {a : Act α} (first : Step s a left)
    (second : Step s a right) : left = right := by
  cases first <;> cases second <;> simp_all

variable {little : Bool} {rxFormat : Format} {acts : List (Act (UInt8 × UInt8))} {on off : Reader n}

theorem Scheduled.same (first : Scheduled little rxFormat true acts on)
    (second : Scheduled little rxFormat false acts off) :
    on.state = off.state ∧ ∃ samples : List (List (UInt8 × UInt8)),
      on.out = samples.map (List.map (convert little rxFormat true)) ∧
      off.out = samples.map (List.map (convert little rxFormat false)) := by
  induction first generalizing off with
  | start =>
    generalize none : ([] : List (Act (UInt8 × UInt8))) = acts at second
    cases second with
    | start => exact ⟨rfl, [], rfl, rfl⟩
    | step => simp at none
  | @step acts a r r' before last ih =>
    generalize whole : acts ++ [a] = all at second
    cases second with
    | start => simp at whole
    | @step acts' a' q q' before' last' =>
      obtain ⟨rfl, same⟩ := List.append_inj' whole rfl
      cases same
      obtain ⟨state, samples, on, off⟩ := ih before'
      obtain ⟨step, out⟩ := last
      obtain ⟨step', out'⟩ := last'
      rw [← state] at step' out'
      refine ⟨step.det step', samples ++ copied r.state a, ?_, ?_⟩
      · rw [out, on, List.map_append]
      · rw [out', off, List.map_append]

/-- Whether the swap is one depends on the format, unless there is nothing to swap. -/
theorem swap_iff (first : Scheduled little rxFormat true acts on)
    (second : Scheduled little rxFormat false acts off) :
    on.out = off.out.map (List.map Complex.swap) ↔
      rxFormat ≠ .INT16 ∨ ∀ samples ∈ off.out, samples = [] := by
  obtain ⟨-, samples, swapped, plain⟩ := first.same second
  rw [swapped, plain, List.map_map]
  constructor
  · intro same
    by_cases format : rxFormat = .INT16
    · right
      subst format
      intro returned member
      obtain ⟨raw, copied, rfl⟩ := List.mem_map.mp member
      have here := List.map_inj_left.mp same raw copied
      cases raw with
      | nil => rfl
      | cons bytes rest =>
        exact absurd (List.cons.inj here).1 (convert_no_swap little bytes)
    · exact .inl format
  · intro right
    apply List.map_congr_left
    intro raw member
    rcases right with format | none
    · simp only [Function.comp, List.map_map]
      apply List.map_congr_left
      intro bytes _
      exact convert_swap little format bytes
    · have empty := List.map_eq_nil_iff.mp (none _ (List.mem_map_of_mem member))
      rw [empty]
      rfl

theorem Scheduled.next {iqSwap : Bool} {r : Reader n} {a : Act (UInt8 × UInt8)}
    {s : State n (UInt8 × UInt8)} (run : Scheduled little rxFormat iqSwap acts r)
    (taken : Step r.state a s) :
    Scheduled little rxFormat iqSwap (acts ++ [a]) ⟨s, r.out ++
      (copied r.state a).map fun samples => samples.map (convert little rxFormat iqSwap)⟩ :=
  run.step ⟨taken, rfl⟩

def oneSample : List (Act (UInt8 × UInt8)) :=
  [.activateStream, .readStream 1, .keep_remainder, .drain, .unset_reset, .unset_overflow,
    .no_overflow, .arrive [(0, 255)], .store, .count, .acquire, .copy]

theorem oneSample_read (little : Bool) (rxFormat : Format) (iqSwap : Bool) :
    ∃ r : Reader 1, Scheduled little rxFormat iqSwap oneSample r ∧
      r.out = [[convert little rxFormat iqSwap (0, 255)]] := by
  have fresh : Scheduled little rxFormat iqSwap [] (Reader.start : Reader 1) := .start
  have copied := fresh
    |>.next (.activateStream rfl)
    |>.next (a := .readStream 1) (.readStream rfl)
    |>.next (.keep_remainder rfl (.inr rfl))
    |>.next (.drain rfl rfl)
    |>.next (.unset_reset rfl)
    |>.next (.unset_overflow rfl)
    |>.next (.no_overflow rfl rfl)
    |>.next (a := .arrive [(0, 255)]) (.arrive rfl rfl)
    |>.next (.store rfl)
    |>.next (.count rfl)
    |>.next (.acquire rfl nofun)
    |>.next (.copy rfl)
  exact ⟨_, copied, rfl⟩

theorem swap_one : ∃ on off : Reader 1, Scheduled true .INT8 true oneSample on ∧
    Scheduled true .INT8 false oneSample off ∧
    on.out = off.out.map (List.map Complex.swap) := by
  obtain ⟨on, first, -⟩ := oneSample_read true .INT8 true
  obtain ⟨off, second, -⟩ := oneSample_read true .INT8 false
  exact ⟨on, off, first, second, (swap_iff first second).mpr (.inl nofun)⟩

theorem not_swapped : ∃ on off : Reader 1, Scheduled true .INT16 true oneSample on ∧
    Scheduled true .INT16 false oneSample off ∧
    on.out ≠ off.out.map (List.map Complex.swap) := by
  obtain ⟨on, first, swapped⟩ := oneSample_read true .INT16 true
  obtain ⟨off, second, plain⟩ := oneSample_read true .INT16 false
  refine ⟨on, off, first, second, ?_⟩
  rw [swapped, plain]
  intro same
  exact convert_no_swap true (0, 255) (List.cons.inj (List.cons.inj same).1).1

end Soapy.Receive.RTLSDR
