import Soapy.Lib.Memory

/-! # The configuration in the EEPROM

`rtl_eeprom` keeps the ids, some flags and three strings in the first bytes of the image. Each
string is a USB descriptor: its length, its type, and two bytes for every character.
-/

namespace Soapy.Rtl.EepromConfig

open Lib

def EEPROM_SIZE : Nat := 256

def MAX_STR_SIZE : Nat := 256

def STR_OFFSET : Nat := 0x09

/-- `rtlsdr_config_t`. A string is given without the zero behind it, and a flag is on or off. -/
structure Config where
  vendor_id : UInt16
  product_id : UInt16
  manufacturer : Bytes
  product : Bytes
  serial : Bytes
  have_serial : Bool
  enable_ir : Bool
  remote_wakeup : Bool

/-- The loop of `get_string_descriptor`: the places that are read, each with its byte, and the last
value of `i`. -/
def get_chars (data : Memory) (pos len i : Nat) : List (Nat × UInt8) × Nat :=
  if i < len then
    let (chars, last) := get_chars data pos len (i + 2)
    ((pos + i, data (pos + i)) :: chars, last)
  else ([], i)
termination_by len - i

/-- What `get_string_descriptor` returns, what it leaves in the string before the zero, and what it
reads. -/
structure Descriptor where
  next : Nat
  str : Bytes
  reads : List Nat

def get_string_descriptor (pos : Nat) (data : Memory) : Descriptor :=
  let len := (data pos).toNat
  let (chars, i) := get_chars data pos len 2
  ⟨pos + i, chars.map Prod.snd, pos :: (pos + 1) :: chars.map Prod.fst⟩

def cString (str : Bytes) : Bytes := str.takeWhile (· ≠ 0)

/-- `parse_eeprom_to_conf` with the places that it reads, and how many bytes it writes to each of
the strings. -/
structure Parsed where
  conf : Config
  reads : List Nat
  written : List Nat

def parse_eeprom_to_conf (dat : Memory) : Parsed :=
  let manufacturer := get_string_descriptor STR_OFFSET dat
  let product := get_string_descriptor manufacturer.next dat
  let serial := get_string_descriptor product.next dat
  { conf := {
      vendor_id := (dat 2).toUInt16 ||| ((dat 3).toUInt16 <<< 8)
      product_id := (dat 4).toUInt16 ||| ((dat 5).toUInt16 <<< 8)
      manufacturer := cString manufacturer.str
      product := cString product.str
      serial := cString serial.str
      have_serial := dat 6 = 0xa5
      enable_ir := dat 7 &&& 0x02 ≠ 0
      remote_wakeup := dat 7 &&& 0x01 ≠ 0 }
    reads := List.range 8 ++ manufacturer.reads ++ product.reads ++ serial.reads
    written := [manufacturer.str.length + 1, product.str.length + 1, serial.str.length + 1] }

/-- The loop of `set_string_descriptor`: the last value of `j`, unless the string is too long. -/
def set_chars (data : Memory) (pos j : Nat) : Bytes → Option Nat × Memory
  | [] => (some j, data)
  | c :: str =>
    if pos + j ≥ 78 then (none, data)
    else
      set_chars (Function.update (Function.update data (pos + j) c) (pos + j + 1) 0x00) pos
        (j + 2) str

def set_string_descriptor (pos : Int) (data : Memory) (str : Bytes) : Int × Memory :=
  if pos < 0 then (-1, data)
  else
    let pos := pos.toNat
    let data := Function.update data (pos + 1) 0x03
    match set_chars data pos 2 str with
    | (none, data) => (-1, data)
    | (some j, data) => ((pos + j : Nat), Function.update data pos (UInt8.ofNat j))

def header (conf : Config) : Bytes :=
  [0x28, 0x32, conf.vendor_id.toUInt8, (conf.vendor_id >>> 8).toUInt8, conf.product_id.toUInt8,
    (conf.product_id >>> 8).toUInt8, if conf.have_serial then 0xa5 else 0x00,
    0x14 ||| (if conf.remote_wakeup then 0x01 else 0x00) |||
      (if conf.enable_ir then 0x02 else 0x00), 0x02]

def gen_eeprom_from_conf (conf : Config) (dat : Memory) : Int × Memory :=
  let dat := dat.store 0 (header conf)
  let (pos, dat) := set_string_descriptor STR_OFFSET dat conf.manufacturer
  let (pos, dat) := set_string_descriptor pos dat conf.product
  let (pos, dat) := set_string_descriptor pos dat conf.serial
  (pos, Function.update dat 78 0x00)

def charCount (length : UInt8) : Nat := (length.toNat - 1) / 2

theorem get_chars_eq (data : Memory) (pos len i : Nat) : get_chars data pos len i =
    ((List.range ((len - i + 1) / 2)).map (fun k => (pos + i + 2 * k, data (pos + i + 2 * k))),
      i + 2 * ((len - i + 1) / 2)) := by
  induction i using get_chars.induct data pos len with
  | case1 i more _ _ _ ih =>
    have count : (len - i + 1) / 2 = (len - (i + 2) + 1) / 2 + 1 := by omega
    rw [get_chars, if_pos more, ih, count, List.range_succ_eq_map, List.map_cons, List.map_map]
    simp only [Function.comp_def, Nat.mul_zero, Nat.add_zero, Nat.mul_succ]
    congr 1
    · congr 1
      apply List.map_congr_left
      intro k _
      have place : pos + (i + 2) + 2 * k = pos + i + (2 * k + 2) := by omega
      rw [place]
    · omega
  | case2 i done =>
    have none : (len - i + 1) / 2 = 0 := by omega
    rw [get_chars, if_neg done, none]
    rfl

theorem get_string_descriptor_eq (pos : Nat) (data : Memory) :
    get_string_descriptor pos data =
      { next := pos + (2 + 2 * charCount (data pos))
        str := (List.range (charCount (data pos))).map fun k => data (pos + 2 + 2 * k)
        reads := pos :: (pos + 1) ::
          (List.range (charCount (data pos))).map fun k => pos + 2 + 2 * k } := by
  have count : ((data pos).toNat - 2 + 1) / 2 = charCount (data pos) := by
    rw [charCount]
    omega
  rw [get_string_descriptor, get_chars_eq, count]
  simp only [List.map_map]
  rfl

def descriptorEnd (data : Memory) (pos : Nat) : Nat := pos + (2 + 2 * charCount (data pos))

/-- Where the third descriptor stands. -/
def serialStart (image : Memory) : Nat := descriptorEnd image (descriptorEnd image STR_OFFSET)

def ParsesInside (image : Memory) : Prop :=
  (∀ i ∈ (parse_eeprom_to_conf image).reads, i < EEPROM_SIZE) ∧
    ∀ length ∈ (parse_eeprom_to_conf image).written, length ≤ MAX_STR_SIZE

theorem charCount_lt (length : UInt8) : charCount length < 128 := by
  have small := length.toNat_lt
  rw [charCount]
  omega

theorem descriptor_reads (image : Memory) (pos bound : Nat) :
    (∀ i ∈ (get_string_descriptor pos image).reads, i < bound) ↔
      pos + 1 < bound ∧ descriptorEnd image pos - 2 < bound := by
  rw [get_string_descriptor_eq, descriptorEnd]
  generalize charCount (image pos) = count
  constructor
  · intro inside
    refine ⟨inside _ (List.mem_cons_of_mem _ List.mem_cons_self), ?_⟩
    cases count with
    | zero => exact inside pos List.mem_cons_self
    | succ count =>
      have last := inside (pos + 2 + 2 * count) (List.mem_cons_of_mem _ (List.mem_cons_of_mem _
        (List.mem_map.mpr ⟨count, List.mem_range.mpr (Nat.lt_succ_self count), rfl⟩)))
      omega
  · intro ⟨start, last⟩ i member
    rcases List.mem_cons.mp member with rfl | later
    · omega
    · rcases List.mem_cons.mp later with rfl | char
      · exact start
      · obtain ⟨k, few, rfl⟩ := List.mem_map.mp char
        have few := List.mem_range.mp few
        omega

theorem parse_inside_iff (image : Memory) : ParsesInside image ↔
    serialStart image ≤ 254 ∧ descriptorEnd image (serialStart image) ≤ 257 := by
  have next (pos : Nat) : (get_string_descriptor pos image).next = descriptorEnd image pos := by
    rw [get_string_descriptor_eq, descriptorEnd]
  have reads : (parse_eeprom_to_conf image).reads = List.range 8 ++
      (get_string_descriptor STR_OFFSET image).reads ++
      (get_string_descriptor (descriptorEnd image STR_OFFSET) image).reads ++
      (get_string_descriptor (serialStart image) image).reads := by
    simp only [parse_eeprom_to_conf, next, serialStart]
  have short (pos : Nat) : (get_string_descriptor pos image).str.length + 1 ≤ MAX_STR_SIZE := by
    rw [get_string_descriptor_eq, List.length_map, List.length_range, MAX_STR_SIZE]
    have few := charCount_lt (image pos)
    omega
  have written : ∀ length ∈ (parse_eeprom_to_conf image).written, length ≤ MAX_STR_SIZE := by
    intro length member
    simp only [parse_eeprom_to_conf, List.mem_cons, List.not_mem_nil, or_false] at member
    rcases member with rfl | rfl | rfl
    · exact short _
    · exact short _
    · exact short _
  have head : ∀ i ∈ List.range 8, i < EEPROM_SIZE := fun i member =>
    Nat.lt_trans (List.mem_range.mp member) (by decide)
  have behind (pos : Nat) : pos + 2 ≤ descriptorEnd image pos := by
    rw [descriptorEnd]
    omega
  have first := behind STR_OFFSET
  have second : descriptorEnd image STR_OFFSET + 2 ≤ serialStart image := behind _
  have third := behind (serialStart image)
  rw [ParsesInside, and_iff_left written, reads, List.forall_mem_append, List.forall_mem_append,
    List.forall_mem_append, descriptor_reads, descriptor_reads, descriptor_reads, EEPROM_SIZE]
  change ((_ ∧ _ ∧ _) ∧ _ ∧ serialStart image - 2 < 256) ∧ _ ↔ _
  rw [EEPROM_SIZE] at head
  constructor
  · intro ⟨_, last⟩
    omega
  · intro bounds
    refine ⟨⟨⟨head, ?_⟩, ?_⟩, ?_⟩
    · omega
    · omega
    · omega

def wide (str : Bytes) : Bytes := str.flatMap fun c => [c, 0x00]

def descriptor (str : Bytes) : Bytes := UInt8.ofNat (2 + 2 * str.length) :: 0x03 :: wide str

@[simp] theorem wide_length (str : Bytes) : (wide str).length = 2 * str.length := by
  induction str with
  | nil => rfl
  | cons c str ih =>
    rw [wide, List.flatMap_cons, List.length_append]
    change 2 + (wide str).length = 2 * (str.length + 1)
    omega

@[simp] theorem descriptor_length (str : Bytes) :
    (descriptor str).length = 2 + 2 * str.length := by
  rw [descriptor, List.length_cons, List.length_cons, wide_length]
  omega

/-- All characters pass the test, which looks at the place of the low byte. -/
def Fits (place : Nat) (str : Bytes) : Prop := str = [] ∨ place + 2 * str.length < 80

theorem store_one (data : Memory) (place : Nat) (c : UInt8) :
    Function.update data place c = data.store place [c] := by
  funext i
  rw [Function.update_apply]
  split
  · rename_i here
    rw [here]
    have stored : data.store place [c] (place + 0) = c := data.store_inside place Nat.one_pos
    exact stored.symm
  · exact (Memory.store_outside (by rw [List.length_singleton]; omega)).symm

theorem store_next (data : Memory) (place : Nat) (c : UInt8) (bs : Bytes) :
    (data.store place [c]).store (place + 1) bs = data.store place (c :: bs) :=
  data.store_append place [c] bs

theorem set_chars_fits {pos j : Nat} {str : Bytes} (fits : Fits (pos + j) str) (data : Memory) :
    set_chars data pos j str = (some (j + 2 * str.length), data.store (pos + j) (wide str)) := by
  induction str generalizing data j with
  | nil =>
    rw [set_chars]
    congr 1
    funext i
    exact (Memory.store_outside (by rw [wide_length, List.length_nil]; omega)).symm
  | cons c str ih =>
    have room := fits.resolve_left (List.cons_ne_nil c str)
    rw [List.length_cons] at room
    have rest : Fits (pos + (j + 2)) str := .inr (by omega)
    rw [set_chars, if_neg (by omega), ih rest, store_one, store_one, store_next]
    have places : pos + (j + 2) = pos + j + 2 := by omega
    have stored : (data.store (pos + j) [c, 0x00]).store (pos + j + 2) (wide str) =
        data.store (pos + j) (wide (c :: str)) := data.store_append (pos + j) [c, 0x00] (wide str)
    rw [places, stored, List.length_cons]
    congr 2
    omega

theorem set_chars_long {pos j : Nat} {str : Bytes} (long : ¬ Fits (pos + j) str) (data : Memory) :
    (set_chars data pos j str).1 = none := by
  induction str generalizing data j with
  | nil => exact absurd (.inl rfl) long
  | cons c str ih =>
    rw [set_chars]
    split
    · rfl
    · rename_i room
      apply ih
      intro fits
      apply long
      right
      rw [List.length_cons]
      rcases fits with rfl | more
      · rw [List.length_nil]
        omega
      · omega

theorem store_front (data : Memory) (place : Nat) (c : UInt8) (bs : Bytes) :
    (data.store (place + 1) bs).store place [c] = data.store place (c :: bs) := by
  rw [← store_next data place c bs]
  funext i
  cases Nat.lt_trichotomy i place with
  | inl below =>
    rw [Memory.store_outside (.inl below), Memory.store_outside (.inl (by omega)),
      Memory.store_outside (.inl (by omega)), Memory.store_outside (.inl below)]
  | inr rest =>
    cases rest with
    | inl here =>
      rw [here, Memory.store_outside (.inl (Nat.lt_succ_self place)), ← store_one,
        ← store_one, Function.update_self, Function.update_self]
    | inr above =>
      have outside (m : Memory) : m.store place [c] i = m i := Memory.store_outside (.inr above)
      have late : ¬ i < place + 1 := by omega
      have behind (m : Memory) : m.store (place + 1) bs i = bs.getD (i - (place + 1)) (m i) :=
        if_neg late
      rw [outside, behind, behind, outside]

theorem set_string_descriptor_fits {pos : Nat} {str : Bytes} (fits : Fits (pos + 2) str)
    (data : Memory) : set_string_descriptor pos data str =
      (((pos + (2 + 2 * str.length) : Nat) : Int), data.store pos (descriptor str)) := by
  rw [set_string_descriptor, if_neg (by omega), Int.toNat_natCast]
  simp only [set_chars_fits fits]
  rw [store_one, store_one, store_next, store_front]
  rfl

theorem set_string_descriptor_long {pos : Nat} {str : Bytes} (long : ¬ Fits (pos + 2) str)
    (data : Memory) : (set_string_descriptor pos data str).1 = -1 := by
  rw [set_string_descriptor, if_neg (by omega), Int.toNat_natCast]
  have none := set_chars_long long (Function.update data (pos + 1) 0x03)
  cases result : set_chars (Function.update data (pos + 1) 0x03) pos 2 str with
  | mk last data' =>
    rw [result] at none
    cases none
    simp only [result]

theorem set_string_descriptor_failed {pos : Int} (failed : pos = -1) (data : Memory) (str : Bytes) :
    (set_string_descriptor pos data str).1 = -1 := by
  rw [set_string_descriptor, if_pos (by omega)]

def totalLength (conf : Config) : Nat :=
  conf.manufacturer.length + conf.product.length + conf.serial.length

/-- How many characters too many are not noticed: the test comes too late by one, and strings that
are empty have no test. -/
def unnoticed (conf : Config) : Nat :=
  if conf.serial ≠ [] then 1 else if conf.product ≠ [] then 2 else 3

/-- All that is written but for the length of the infrared configuration. -/
def image (conf : Config) : Bytes :=
  header conf ++ descriptor conf.manufacturer ++ descriptor conf.product ++ descriptor conf.serial

theorem descriptors_fit {conf : Config} :
    (Fits (STR_OFFSET + 2) conf.manufacturer ∧
      Fits (STR_OFFSET + (2 + 2 * conf.manufacturer.length) + 2) conf.product ∧
      Fits (STR_OFFSET + (2 + 2 * conf.manufacturer.length) + (2 + 2 * conf.product.length) + 2)
        conf.serial) ↔ totalLength conf ≤ 31 + unnoticed conf := by
  have empty (str : Bytes) : str = [] ↔ str.length = 0 := List.length_eq_zero_iff.symm
  simp only [Fits, totalLength, unnoticed, STR_OFFSET, ne_eq, empty]
  split
  · omega
  · split
    · omega
    · omega

theorem gen_fits {conf : Config} (fits : totalLength conf ≤ 31 + unnoticed conf) (dat : Memory) :
    gen_eeprom_from_conf conf dat = (((15 + 2 * totalLength conf : Nat) : Int),
      Function.update (dat.store 0 (image conf)) 78 0x00) := by
  obtain ⟨first, second, third⟩ := descriptors_fit.mpr fits
  have behind (bs more : Bytes) {place : Nat} (here : bs.length = place) :
      (dat.store 0 bs).store place more = dat.store 0 (bs ++ more) := by
    rw [← here, ← Memory.store_append, Nat.zero_add]
  simp only [gen_eeprom_from_conf, set_string_descriptor_fits first,
    set_string_descriptor_fits second, set_string_descriptor_fits third]
  have places : (header conf).length = STR_OFFSET ∧
      (header conf ++ descriptor conf.manufacturer).length =
        STR_OFFSET + (2 + 2 * conf.manufacturer.length) ∧
      (header conf ++ descriptor conf.manufacturer ++ descriptor conf.product).length =
        STR_OFFSET + (2 + 2 * conf.manufacturer.length) + (2 + 2 * conf.product.length) := by
    simp only [List.length_append, descriptor_length]
    exact ⟨rfl, rfl, rfl⟩
  rw [behind _ _ places.1, behind _ _ places.2.1, behind _ _ places.2.2]
  congr 2
  rw [totalLength, STR_OFFSET]
  omega

theorem gen_long {conf : Config} (long : ¬ totalLength conf ≤ 31 + unnoticed conf) (dat : Memory) :
    (gen_eeprom_from_conf conf dat).1 = -1 := by
  rw [← descriptors_fit] at long
  simp only [gen_eeprom_from_conf]
  by_cases first : Fits (STR_OFFSET + 2) conf.manufacturer
  · simp only [set_string_descriptor_fits first]
    generalize (dat.store 0 (header conf)).store STR_OFFSET (descriptor conf.manufacturer) = dat
    by_cases second : Fits (STR_OFFSET + (2 + 2 * conf.manufacturer.length) + 2) conf.product
    · simp only [set_string_descriptor_fits second]
      exact set_string_descriptor_long (fun third => long ⟨first, second, third⟩) _
    · exact set_string_descriptor_failed (set_string_descriptor_long second dat) _ _
  · have failed := set_string_descriptor_long first (dat.store 0 (header conf))
    exact set_string_descriptor_failed (set_string_descriptor_failed failed _ _) _ _

theorem wide_getElem (str : Bytes) {k : Nat} (inside : k < str.length) :
    (wide str)[2 * k]? = some str[k] := by
  induction str generalizing k with
  | nil => cases inside
  | cons c str ih =>
    cases k with
    | zero => rfl
    | succ k => exact ih (Nat.lt_of_succ_lt_succ inside)

theorem byte_of_load {data : Memory} {pos i : Nat} {bs : Bytes}
    (stored : data.load pos bs.length = bs) (inside : i < bs.length) : data (pos + i) = bs[i] := by
  have here : i < (data.load pos bs.length).length := by
    rw [Memory.load_length]
    exact inside
  exact (Memory.load_getElem here).symm.trans (List.getElem_of_eq stored here)

theorem descriptor_read {pos : Nat} {data : Memory} {str : Bytes} (short : str.length < 127)
    (stored : data.load pos (descriptor str).length = descriptor str) :
    descriptorEnd data pos = pos + (2 + 2 * str.length) ∧
      (get_string_descriptor pos data).str = str := by
  have length : data pos = UInt8.ofNat (2 + 2 * str.length) := byte_of_load stored (Nat.succ_pos _)
  have count : charCount (data pos) = str.length := by
    rw [length, charCount, UInt8.toNat_ofNat']
    omega
  rw [get_string_descriptor_eq, descriptorEnd, count]
  refine ⟨rfl, ?_⟩
  apply List.ext_getElem
  · rw [List.length_map, List.length_range]
  · intro k left right
    have here : 2 + 2 * k < (descriptor str).length := by
      rw [descriptor_length]
      omega
    have char : (descriptor str)[2 + 2 * k]? = some str[k] := by
      have behind : 2 + 2 * k = 2 * k + 1 + 1 := by omega
      rw [behind]
      exact wide_getElem str right
    rw [List.getElem?_eq_getElem here] at char
    rw [List.getElem_map, List.getElem_range, Nat.add_assoc, byte_of_load stored here]
    exact Option.some.inj char

theorem split_id (id : UInt16) :
    id.toUInt8.toUInt16 ||| ((id >>> 8).toUInt8.toUInt16 <<< 8) = id := by
  apply UInt16.eq_of_toBitVec_eq
  ext i inside
  simp only [UInt16.toBitVec_or, UInt8.toBitVec_toUInt16, UInt16.toBitVec_toUInt8,
    UInt16.toBitVec_shiftLeft, UInt16.toBitVec_shiftRight, BitVec.getElem_or,
    BitVec.getElem_setWidth]
  simp (disch := omega) [-BitVec.setWidth_setWidth, BitVec.getLsbD_setWidth]
  grind

/-- No string has a zero inside. -/
def NulFree (conf : Config) : Prop :=
  0 ∉ conf.manufacturer ∧ 0 ∉ conf.product ∧ 0 ∉ conf.serial

theorem cString_eq {str : Bytes} (nulFree : 0 ∉ str) : cString str = str := by
  rw [cString, List.takeWhile_eq_self_iff]
  intro c member
  apply decide_eq_true
  rintro rfl
  exact nulFree member

theorem image_length (conf : Config) : (image conf).length = 15 + 2 * totalLength conf := by
  simp only [image, List.length_append, descriptor_length, totalLength]
  change 9 + _ + _ + _ = _
  omega

theorem written_part {conf : Config} (short : totalLength conf ≤ 31) (dat : Memory)
    {front bs rest : Bytes} (all : image conf = front ++ bs ++ rest) :
    ((dat.store 0 (image conf)).store 78 [0x00]).load front.length bs.length = bs := by
  have whole := image_length conf
  rw [all, List.length_append, List.length_append] at whole
  have inside : front.length + bs.length ≤ (image conf).length := by
    rw [all, List.length_append, List.length_append]
    omega
  have kept := Memory.load_store dat 0 front.length bs.length (image conf) inside
  rw [Nat.zero_add] at kept
  rw [Memory.load_store_disjoint (.inl (by omega)), kept, all, List.append_assoc,
    List.drop_left, List.take_left]

theorem parse_header {conf : Config} {data : Memory} (stored : data.load 0 9 = header conf) :
    ((data 2).toUInt16 ||| ((data 3).toUInt16 <<< 8) = conf.vendor_id ∧
      (data 4).toUInt16 ||| ((data 5).toUInt16 <<< 8) = conf.product_id) ∧
    decide (data 6 = 0xa5) = conf.have_serial ∧ decide (data 7 &&& 0x02 ≠ 0) = conf.enable_ir ∧
      decide (data 7 &&& 0x01 ≠ 0) = conf.remote_wakeup := by
  have byte {i : Nat} {b : UInt8} (here : (header conf)[i]? = some b) : data i = b := by
    obtain ⟨inside, found⟩ := List.getElem?_eq_some_iff.mp here
    have byte := @byte_of_load data 0 i (header conf) stored inside
    rw [Nat.zero_add] at byte
    rw [byte, found]
  have flags := @byte 7 _ rfl
  rw [@byte 2 _ rfl, @byte 3 _ rfl, @byte 4 _ rfl, @byte 5 _ rfl, @byte 6 _ rfl, flags]
  refine ⟨⟨split_id _, split_id _⟩, ?_⟩
  cases conf.have_serial <;> cases conf.enable_ir <;> cases conf.remote_wakeup <;> decide

theorem parse_gen {conf : Config} (nulFree : NulFree conf) (short : totalLength conf ≤ 31)
    (dat : Memory) : ∃ image, gen_eeprom_from_conf conf dat =
      (((15 + 2 * totalLength conf : Nat) : Int), image) ∧
        descriptorEnd image (serialStart image) = 15 + 2 * totalLength conf ∧
          (parse_eeprom_to_conf image).conf = conf := by
  refine ⟨_, gen_fits (by omega) dat, ?_⟩
  rw [store_one]
  have part {front bs rest : Bytes} := @written_part conf short dat front bs rest
  generalize (dat.store 0 (image conf)).store 78 [0x00] = written at part
  obtain ⟨manufacturerFree, productFree, serialFree⟩ := nulFree
  have bounds : conf.manufacturer.length < 127 ∧ conf.product.length < 127 ∧
      conf.serial.length < 127 := by
    rw [totalLength] at short
    omega
  have head : image conf = [] ++ header conf ++ (descriptor conf.manufacturer ++
      (descriptor conf.product ++ descriptor conf.serial)) := by
    simp [image]
  have middle : image conf = header conf ++ descriptor conf.manufacturer ++
      (descriptor conf.product ++ descriptor conf.serial) := by
    simp [image]
  have last : image conf = header conf ++ descriptor conf.manufacturer ++ descriptor conf.product ++
      descriptor conf.serial := rfl
  have whole : image conf = header conf ++ descriptor conf.manufacturer ++
      descriptor conf.product ++ descriptor conf.serial ++ [] := (List.append_nil _).symm
  have second := part last
  have third := part whole
  rw [List.length_append] at second third
  rw [List.length_append] at third
  obtain ⟨first, manufacturer⟩ := descriptor_read bounds.1 (part middle)
  rw [descriptor_length conf.manufacturer, ← first] at second third
  obtain ⟨second, product⟩ := descriptor_read bounds.2.1 second
  rw [descriptor_length conf.product, ← second] at third
  obtain ⟨third, serial⟩ := descriptor_read bounds.2.2 third
  obtain ⟨⟨vendor, device⟩, have_serial, enable_ir, remote_wakeup⟩ := parse_header (part head)
  have next (pos : Nat) : (get_string_descriptor pos written).next = descriptorEnd written pos := by
    rw [get_string_descriptor_eq, descriptorEnd]
  have start : (header conf).length = STR_OFFSET := rfl
  rw [start] at first manufacturer second product third serial
  constructor
  · rw [serialStart, third, second, first, STR_OFFSET, totalLength]
    omega
  · simp [parse_eeprom_to_conf, next, manufacturer, product, serial, vendor, device, have_serial,
      enable_ir, remote_wakeup, cString_eq manufacturerFree, cString_eq productFree,
      cString_eq serialFree]

/-- A negative value, or an image that gives the configuration back, and the former just when there
is no room. -/
def Kept (conf : Config) (dat : Memory) : Prop :=
  let (pos, image) := gen_eeprom_from_conf conf dat
  (pos < 0 ∨ pos ≤ 78 ∧ (descriptorEnd image (serialStart image) : Int) = pos ∧
      (parse_eeprom_to_conf image).conf = conf) ∧
    (pos < 0 ↔ 78 < 9 + 6 + 2 * totalLength conf)

theorem kept_iff {conf : Config} (nulFree : NulFree conf) (dat : Memory) :
    Kept conf dat ↔ totalLength conf ≤ 31 ∨ 31 + unnoticed conf < totalLength conf := by
  rw [Kept]
  by_cases short : totalLength conf ≤ 31
  · obtain ⟨image, written, ends, same⟩ := parse_gen nulFree short dat
    rw [written]
    exact iff_of_true ⟨.inr ⟨by omega, congrArg Nat.cast ends, same⟩, by omega⟩ (.inl short)
  · by_cases fits : totalLength conf ≤ 31 + unnoticed conf
    · rw [gen_fits fits]
      apply iff_of_false
      · intro ⟨_, room⟩
        have missed := room.mpr (by omega)
        omega
      · omega
    · have failed := gen_long fits dat
      cases result : gen_eeprom_from_conf conf dat with
      | mk pos image =>
        rw [result] at failed
        cases failed
        exact iff_of_true ⟨.inl (by decide), by omega⟩ (by omega)

/-- The test for the room comes too late by one character, more for empty strings, and the length
bytes of a device are not checked. -/
theorem config_kept_iff (conf : Config) (dat image : Memory) :
    (NulFree conf →
      (Kept conf dat ↔ totalLength conf ≤ 31 ∨ 31 + unnoticed conf < totalLength conf)) ∧
    (ParsesInside image ↔
      serialStart image ≤ 254 ∧ descriptorEnd image (serialStart image) ≤ 257) :=
  ⟨fun nulFree => kept_iff nulFree dat, parse_inside_iff image⟩

/-- The ids of `realtek_sdr` with a manufacturer of so many characters. -/
def namedConfig (length : Nat) : Config where
  vendor_id := 0x1209
  product_id := 0x2832
  manufacturer := List.replicate length 0x41
  product := []
  serial := [0x31]
  have_serial := true
  enable_ir := false
  remote_wakeup := true

theorem config_kept_named : Kept (namedConfig 30) fun _ => 0xff :=
  ((config_kept_iff (namedConfig 30) (fun _ => 0xff) fun _ => 0xff).1
    (by simp [NulFree, namedConfig])).mpr (.inl (by decide))

/-- The serial number ends behind byte 78, and the descriptors of an erased device behind the
image. -/
theorem config_too_long :
    ¬ Kept (namedConfig 31) (fun _ => 0xff) ∧ ¬ ParsesInside fun _ => 0xff := by
  constructor
  · rw [kept_iff (by simp [NulFree, namedConfig])]
    decide
  · rw [parse_inside_iff]
    decide

end Soapy.Rtl.EepromConfig
