import Soapy.Remote.Unpacker

/-! # The packer and the unpacker agree

`Decodes p bs a` says that the decoder `p` turns the bytes `bs` into `a`, consumes
exactly them and reads no further. It composes along `>>=` as the encodings
compose along `++`, so each type needs one lemma that follows its encoder.
-/

namespace Soapy.Remote

open Lib

variable {u : Unpacker} {bs : Bytes}

namespace Unpacker

/-- The unread part of the message starts with `bs`, and `bs` ends before the
    trailer. -/
structure Holds (u : Unpacker) (bs : Bytes) : Prop where
  fits : u.offset + bs.length + trailerSize ≤ u.capacity
  bounded : u.capacity < 2 ^ 32
  bytes : u.slice u.offset bs.length = bs

def advance (u : Unpacker) (n : Nat) : Unpacker := { u with offset := u.offset + n }

@[simp] theorem advance_offset (u : Unpacker) (n : Nat) : (u.advance n).offset = u.offset + n := rfl

@[simp] theorem advance_capacity (u : Unpacker) (n : Nat) : (u.advance n).capacity = u.capacity := rfl

theorem advance_advance (u : Unpacker) (n k : Nat) : (u.advance n).advance k = u.advance (n + k) := by
  simp only [advance, Nat.add_assoc]

theorem slice_add (u : Unpacker) (offset n k : Nat) :
    u.slice offset (n + k) = u.slice offset n ++ u.slice (offset + n) k := by
  simp only [slice, List.range_add, List.map_append, List.map_map, Function.comp_def, Nat.add_assoc]

@[simp] theorem slice_length (u : Unpacker) (offset n : Nat) : (u.slice offset n).length = n := by
  simp only [slice, List.length_map, List.length_range]

theorem Holds.split {bs' : Bytes} (h : u.Holds (bs ++ bs')) :
    u.Holds bs ∧ (u.advance bs.length).Holds bs' := by
  have fits := h.fits
  have bytes := h.bytes
  rw [List.length_append] at fits bytes
  rw [slice_add] at bytes
  obtain ⟨first, second⟩ := List.append_inj bytes (slice_length u _ _)
  refine ⟨⟨by omega, h.bounded, first⟩, ⟨?_, h.bounded, second⟩⟩
  simp only [advance_offset, advance_capacity]
  omega

theorem limit_eq (room : trailerSize ≤ u.capacity) (bounded : u.capacity < 2 ^ 32) :
    u.limit = u.capacity - trailerSize := by
  unfold limit trailerSize at *
  omega

end Unpacker

/-! ## What the format can carry

Sizes travel as ints and doubles as mantissa and exponent, so texts and lists
stay below `2 ^ 31` elements and numbers are finite. -/

def TextFits (text : Bytes) : Prop := text.length < 2 ^ 31

/-- A short list of elements that fit. -/
def ListFits {α : Type} (Fits : α → Prop) (value : List α) : Prop :=
  value.length < 2 ^ 31 ∧ ∀ a ∈ value, Fits a

def Complex128.Fits (value : Complex128) : Prop :=
  value.real.IsFinite ∧ value.imag.IsFinite

def Range.Fits (value : Range) : Prop :=
  value.minimum.IsFinite ∧ value.maximum.IsFinite ∧ value.step.IsFinite

def KwargsFit (value : Kwargs) : Prop :=
  ListFits (fun e => TextFits e.1 ∧ TextFits e.2) value.entries

structure ArgInfo.Fits (info : ArgInfo) : Prop where
  key : TextFits info.key
  value : TextFits info.value
  name : TextFits info.name
  description : TextFits info.description
  units : TextFits info.units
  range : info.range.Fits
  options : ListFits TextFits info.options
  optionNames : ListFits TextFits info.optionNames

/-- `p` decodes `bs` to `a` wherever they stand in a message. -/
def Decodes {α : Type} (p : Unpack α) (bs : Bytes) (a : α) : Prop :=
  ∀ u : Unpacker, u.Holds bs → Program.run Unpacker.exec p u = (.ok a, u.advance bs.length)

variable {n : Nat}

namespace Decodes

variable {α β : Type}

theorem pure (a : α) : Decodes (pure a) [] a := fun _ _ => rfl

variable {p : Unpack α}

theorem bind {f : α → Unpack β} {bs' : Bytes} {a : α} {b : β}
    (hp : Decodes p bs a) (hf : Decodes (f a) bs' b) : Decodes (p >>= f) (bs ++ bs') b := by
  intro u h
  obtain ⟨first, second⟩ := h.split
  rw [Program.run_bind_ok (hp u first), hf _ second, Unpacker.advance_advance, List.length_append]

theorem map {f : α → β} {a : α} (hp : Decodes p bs a) :
    Decodes (p >>= fun x => Pure.pure (f x)) bs (f a) := by
  have wrapped := hp.bind (f := fun x => Pure.pure (f x)) (pure (f a))
  rwa [List.append_nil] at wrapped

theorem byte (b : UInt8) : Decodes Unpack.byte [b] b := by
  intro u h
  have fits := h.fits
  have bounded := h.bounded
  have value : u.message u.offset = b := by
    simpa [Unpacker.slice] using h.bytes
  have next : (u.offset + 1) % 2 ^ 64 = u.offset + 1 := by
    simp only [List.length_singleton] at fits
    omega
  rw [run_byte, value, next]
  rfl

theorem type (t : RemoteTypes) : Decodes Unpack.type (packType t) t.code := byte t.code

theorem blob (bs : Bytes) (length : UInt64) (same : length.toNat = bs.length) :
    Decodes (Unpack.blob length) bs bs := by
  intro u h
  have fits := h.fits
  have bounded := h.bounded
  have limit := Unpacker.limit_eq (u := u) (by omega) bounded
  have next : (u.offset + bs.length) % 2 ^ 64 = u.offset + bs.length := by
    unfold trailerSize at fits
    omega
  rw [run_blob, same, next, limit, if_neg (by omega), if_neg (by omega), h.bytes]
  rfl

theorem typeCheck (t : RemoteTypes) (name : String) :
    Decodes (Unpack.typeCheck t name) (packType t) () := by
  have passed : Decodes (if t.code = t.code then Pure.pure ()
      else Unpack.throwText ("SoapyRPCUnpacker type check FAIL:" ++ name)) [] () := by
    rw [if_pos rfl]
    exact pure ()
  exact (byte t.code).bind passed

theorem char (value : Int8) : Decodes Unpack.char (packChar value) value := by
  have back : value.toUInt8.toInt8 = value := by simp
  refine (typeCheck _ _).bind ?_
  exact back ▸ (byte value.toUInt8).map

theorem bool (value : Bool) : Decodes Unpack.bool (packBool value) value := by
  refine (typeCheck _ _).bind ?_
  cases value
  · exact (byte 0).map (f := fun b => decide (b ≠ 0))
  · exact (byte 1).map (f := fun b => decide (b ≠ 0))

theorem int (value : Int32) : Decodes Unpack.int (packInt value) value := by
  have word : value.toBitVec.toNat < 256 ^ 4 := lt_of_lt_of_eq value.toBitVec.isLt (by decide)
  have back : Int32.ofBitVec (BitVec.ofNat 32 (ofBE (toBE 4 value.toBitVec.toNat))) = value := by
    rw [ofBE_toBE 4 _ word, BitVec.ofNat_toNat, BitVec.setWidth_eq, Int32.ofBitVec_toBitVec]
  have field := blob (toBE 4 value.toBitVec.toNat) 4 (toBE_length 4 _).symm
  refine (typeCheck _ _).bind ?_
  have decoded := field.map (f := fun bs => Int32.ofBitVec (BitVec.ofNat 32 (ofBE bs)))
  rw [back] at decoded
  exact decoded

theorem longLong (value : Int64) : Decodes Unpack.longLong (packLongLong value) value := by
  have word : value.toBitVec.toNat < 256 ^ 8 := lt_of_lt_of_eq value.toBitVec.isLt (by decide)
  have back : Int64.ofBitVec (BitVec.ofNat 64 (ofBE (toBE 8 value.toBitVec.toNat))) = value := by
    rw [ofBE_toBE 8 _ word, BitVec.ofNat_toNat, BitVec.setWidth_eq, Int64.ofBitVec_toBitVec]
  have field := blob (toBE 8 value.toBitVec.toNat) 8 (toBE_length 8 _).symm
  refine (typeCheck _ _).bind ?_
  have decoded := field.map (f := fun bs => Int64.ofBitVec (BitVec.ofNat 64 (ofBE bs)))
  rw [back] at decoded
  exact decoded

theorem call (value : CallCode) : Decodes Unpack.call (packCall value) value := by
  refine (typeCheck _ _).bind ?_
  have decoded := (int value.code).map (f := CallCode.ofInt)
  rw [CallCode.ofInt_code] at decoded
  exact decoded

theorem double {value : Double} (finite : value.IsFinite) :
    Decodes Unpack.double (packDouble value) value := by
  cases value with
  | inf | nan => exact finite.elim
  | finite x =>
    obtain ⟨manLow, manHigh, expLow, expHigh⟩ := Double.Canonical_bounds x.canonical
    have exp : (Int32.ofInt x.exp).toInt = x.exp :=
      Int32.toInt_ofInt_of_le (by omega) (by omega)
    have man : (Int64.ofInt x.man).toInt = x.man :=
      Int64.toInt_ofInt_of_le (by omega) (by omega)
    have back : Double.ldexp (Double.ofInt (Int64.ofInt x.man).toInt)
        ((Int32.ofInt x.exp).toInt - 53) = .finite x := by
      rw [exp, man, Double.ldexp_split]
    simp only [Unpack.double, packDouble, List.append_assoc]
    refine (typeCheck _ _).bind ((int _).bind ?_)
    have decoded := (longLong (Int64.ofInt x.man)).map (f := fun man =>
      Double.ldexp (Double.ofInt man.toInt) ((Int32.ofInt x.exp).toInt - 53))
    rw [back] at decoded
    exact decoded

theorem complex {value : Complex128} (fits : value.Fits) :
    Decodes Unpack.complex (packComplex value) value := by
  simp only [Unpack.complex, packComplex, List.append_assoc]
  refine (typeCheck _ _).bind ((double fits.1).bind ?_)
  exact (double fits.2).map (f := fun i => (⟨value.real, i⟩ : Complex128))

theorem toSize_ofNat (small : n < 2 ^ 31) :
    (Unpack.toSize (Int32.ofNat n)).toNat = n := by
  unfold Unpack.toSize
  rw [Int32.toInt_ofNat_of_lt small, UInt64.toNat_ofNat_of_lt' (by simp [UInt64.size]; omega)]
  omega

theorem size_nonneg (small : n < 2 ^ 31) : ¬ Int32.ofNat n < 0 := by
  rw [Int32.lt_iff_toInt_lt, Int32.toInt_ofNat_of_lt small]
  simp

theorem string {value : Bytes} (small : TextFits value) :
    Decodes Unpack.string (packString value) value := by
  simp only [Unpack.string, packString, packSize, List.append_assoc]
  refine (typeCheck _ _).bind ((int _).bind ?_)
  exact blob value _ (toSize_ofNat small)

variable {pack : α → Bytes} {value : List α}

theorem many {p : Unpack β} {g : α → β} (elements : ∀ a ∈ value, Decodes p (pack a) (g a)) :
    Decodes (Unpack.many p value.length) (value.flatMap pack) (value.map g) := by
  induction value with
  | nil => exact pure []
  | cons a rest ih =>
    refine (elements a List.mem_cons_self).bind ?_
    exact (ih (fun b member => elements b (List.mem_cons_of_mem _ member))).map
      (f := fun rest => g a :: rest)

theorem listMap {p : Unpack β} {g : α → β} {Fits : α → Prop}
    (t : RemoteTypes) (name : String) (fits : ListFits Fits value)
    (element : ∀ a, Fits a → Decodes p (pack a) (g a)) :
    Decodes (Unpack.list t name p) (packList t pack value) (value.map g) := by
  simp only [Unpack.list, packList, packSize, List.append_assoc]
  refine (typeCheck _ _).bind ((int _).bind ?_)
  rw [if_neg (size_nonneg fits.1), toSize_ofNat fits.1]
  exact many (fun a member => element a (fits.2 a member))

theorem list {Fits : α → Prop} (t : RemoteTypes) (name : String) (fits : ListFits Fits value)
    (element : ∀ a, Fits a → Decodes p (pack a) a) :
    Decodes (Unpack.list t name p) (packList t pack value) value := by
  have decoded := listMap (g := id) t name fits element
  rwa [List.map_id] at decoded

theorem stringList {value : List Bytes} (fits : ListFits TextFits value) :
    Decodes Unpack.stringList (packStringList value) value :=
  list _ _ fits (fun _ small => string small)

theorem doubleList {value : List Double} (fits : ListFits Double.IsFinite value) :
    Decodes Unpack.doubleList (packDoubleList value) value :=
  list _ _ fits (fun _ finite => double finite)

theorem pairs (todo : List (Bytes × Bytes)) :
    ∀ done value : Kwargs, value.entries = done.entries ++ todo →
      (∀ e ∈ todo, TextFits e.1 ∧ TextFits e.2) →
      Decodes (Unpack.pairs todo.length done)
        (todo.flatMap (fun e => packString e.1 ++ packString e.2)) value := by
  induction todo with
  | nil =>
    intro done value same _
    have all : value = done := OrdMap.ext (by simpa using same)
    rw [all]
    exact pure done
  | cons e rest ih =>
    intro done value same small
    obtain ⟨key, val⟩ := small e List.mem_cons_self
    have sorted := value.sorted
    rw [same, List.pairwise_append] at sorted
    have above : ∀ d ∈ done.entries, d.1 < e.1 :=
      fun d member => sorted.2.2 d member e List.mem_cons_self
    have inserted := done.insert_above e.1 e.2 above
    rw [List.flatMap_cons, List.append_assoc]
    refine (string key).bind ((string val).bind ?_)
    refine ih _ value ?_ (fun e member => small e (List.mem_cons_of_mem _ member))
    rw [inserted, same, List.append_assoc]
    rfl

theorem kwargs {value : Kwargs} (fits : KwargsFit value) :
    Decodes Unpack.kwargs (packKwargs value) value := by
  simp only [Unpack.kwargs, packKwargs, packList, packSize, List.append_assoc]
  refine (typeCheck _ _).bind ((int _).bind ?_)
  rw [toSize_ofNat fits.1]
  exact pairs _ .empty value rfl fits.2

theorem kwargsList {value : List Kwargs} (fits : ListFits KwargsFit value) :
    Decodes Unpack.kwargsList (packKwargsList value) value :=
  list _ _ fits (fun _ each => kwargs each)

theorem sizeList {value : List UInt64} (fits : ListFits (fun n => n.toNat < 2 ^ 31) value) :
    Decodes Unpack.sizeList (packSizeList value) value := by
  refine list _ _ fits (fun n small => ?_)
  have back : Unpack.toSize (Int32.ofNat n.toNat) = n := UInt64.toNat_inj.mp (toSize_ofNat small)
  have decoded := (int (Int32.ofNat n.toNat)).map (f := Unpack.toSize)
  rw [back] at decoded
  exact decoded

section Versioned

variable {remoteRPCVersion : UInt32} (current : SoapyRPCVersion ≤ remoteRPCVersion)

include current

theorem range {value : Range} (fits : value.Fits) :
    Decodes (Unpack.range remoteRPCVersion) (packRange remoteRPCVersion value) value := by
  obtain ⟨minimum, maximum, step⟩ := fits
  simp only [Unpack.range, packRange, if_pos current, List.append_assoc]
  refine (typeCheck _ _).bind ((double minimum).bind ((double maximum).bind ?_))
  exact (double step).map (f := fun step => (⟨value.minimum, value.maximum, step⟩ : Range))

theorem rangeList {value : List Range} (fits : ListFits Range.Fits value) :
    Decodes (Unpack.rangeList remoteRPCVersion) (packRangeList remoteRPCVersion value) value :=
  list _ _ fits (fun _ each => range current each)

theorem argInfo {value : ArgInfo} (fits : value.Fits) :
    Decodes (Unpack.argInfo remoteRPCVersion) (packArgInfo remoteRPCVersion value) value := by
  simp only [Unpack.argInfo, packArgInfo, List.append_assoc]
  refine (typeCheck _ _).bind ((string fits.key).bind ((string fits.value).bind
    ((string fits.name).bind ((string fits.description).bind ((string fits.units).bind
      ((int value.type.code).bind ((range current fits.range).bind
        ((stringList fits.options).bind ?_))))))))
  rw [ArgType.ofInt_code]
  exact (stringList fits.optionNames).map (f := fun optionNames =>
    { value with optionNames := optionNames })

theorem argInfoList {value : List ArgInfo} (fits : ListFits ArgInfo.Fits value) :
    Decodes (Unpack.argInfoList remoteRPCVersion) (packArgInfoList remoteRPCVersion value) value :=
  list _ _ fits (fun _ each => argInfo current each)

end Versioned

end Decodes

/-- A value of any type the packer accepts and the unpacker gives back. -/
inductive Value where
  | call (value : CallCode)
  | char (value : Int8)
  | bool (value : Bool)
  | int (value : Int32)
  | longLong (value : Int64)
  | double (value : Double)
  | complex (value : Complex128)
  | string (value : Bytes)
  | range (value : Range)
  | rangeList (value : List Range)
  | stringList (value : List Bytes)
  | doubleList (value : List Double)
  | kwargs (value : Kwargs)
  | kwargsList (value : List Kwargs)
  | sizeList (value : List UInt64)
  | argInfo (value : ArgInfo)
  | argInfoList (value : List ArgInfo)

/-- The overload of `operator&` that a call site selects. -/
inductive Kind where
  | call | char | bool | int | longLong | double | complex | string | range | rangeList
  | stringList | doubleList | kwargs | kwargsList | sizeList | argInfo | argInfoList
  deriving DecidableEq

namespace Value

def kind : Value → Kind
  | .call _ => .call
  | .char _ => .char
  | .bool _ => .bool
  | .int _ => .int
  | .longLong _ => .longLong
  | .double _ => .double
  | .complex _ => .complex
  | .string _ => .string
  | .range _ => .range
  | .rangeList _ => .rangeList
  | .stringList _ => .stringList
  | .doubleList _ => .doubleList
  | .kwargs _ => .kwargs
  | .kwargsList _ => .kwargsList
  | .sizeList _ => .sizeList
  | .argInfo _ => .argInfo
  | .argInfoList _ => .argInfoList

def Fits : Value → Prop
  | .call _ | .char _ | .bool _ | .int _ | .longLong _ => True
  | .double value => value.IsFinite
  | .complex value => value.Fits
  | .string value => TextFits value
  | .range value => value.Fits
  | .rangeList value => ListFits Range.Fits value
  | .stringList value => ListFits TextFits value
  | .doubleList value => ListFits Double.IsFinite value
  | .kwargs value => KwargsFit value
  | .kwargsList value => ListFits KwargsFit value
  | .sizeList value => ListFits (fun n => n.toNat < 2 ^ 31) value
  | .argInfo value => value.Fits
  | .argInfoList value => ListFits ArgInfo.Fits value

/-- `packer & value`. -/
def pack (remoteRPCVersion : UInt32) : Value → Bytes
  | .call value => packCall value
  | .char value => packChar value
  | .bool value => packBool value
  | .int value => packInt value
  | .longLong value => packLongLong value
  | .double value => packDouble value
  | .complex value => packComplex value
  | .string value => packString value
  | .range value => packRange remoteRPCVersion value
  | .rangeList value => packRangeList remoteRPCVersion value
  | .stringList value => packStringList value
  | .doubleList value => packDoubleList value
  | .kwargs value => packKwargs value
  | .kwargsList value => packKwargsList value
  | .sizeList value => packSizeList value
  | .argInfo value => packArgInfo remoteRPCVersion value
  | .argInfoList value => packArgInfoList remoteRPCVersion value

end Value

/-- `unpacker & value` for a variable of the given type. -/
def Kind.unpack (remoteRPCVersion : UInt32) : Kind → Unpack Value
  | .call => return .call (← Unpack.call)
  | .char => return .char (← Unpack.char)
  | .bool => return .bool (← Unpack.bool)
  | .int => return .int (← Unpack.int)
  | .longLong => return .longLong (← Unpack.longLong)
  | .double => return .double (← Unpack.double)
  | .complex => return .complex (← Unpack.complex)
  | .string => return .string (← Unpack.string)
  | .range => return .range (← Unpack.range remoteRPCVersion)
  | .rangeList => return .rangeList (← Unpack.rangeList remoteRPCVersion)
  | .stringList => return .stringList (← Unpack.stringList)
  | .doubleList => return .doubleList (← Unpack.doubleList)
  | .kwargs => return .kwargs (← Unpack.kwargs)
  | .kwargsList => return .kwargsList (← Unpack.kwargsList)
  | .sizeList => return .sizeList (← Unpack.sizeList)
  | .argInfo => return .argInfo (← Unpack.argInfo remoteRPCVersion)
  | .argInfoList => return .argInfoList (← Unpack.argInfoList remoteRPCVersion)

/-- The `operator&` calls of a reader, one after the other. -/
def unpackAll (remoteRPCVersion : UInt32) : List Kind → Unpack (List Value)
  | [] => pure []
  | kind :: rest => do
    let value ← kind.unpack remoteRPCVersion
    let values ← unpackAll remoteRPCVersion rest
    return value :: values

theorem Decodes.value {remoteRPCVersion : UInt32} (current : SoapyRPCVersion ≤ remoteRPCVersion)
    {value : Value} (fits : value.Fits) :
    Decodes (value.kind.unpack remoteRPCVersion) (value.pack remoteRPCVersion) value := by
  cases value with
  | call value => exact (Decodes.call value).map
  | char value => exact (Decodes.char value).map
  | bool value => exact (Decodes.bool value).map
  | int value => exact (Decodes.int value).map
  | longLong value => exact (Decodes.longLong value).map
  | double value => exact (Decodes.double fits).map
  | complex value => exact (Decodes.complex fits).map
  | string value => exact (Decodes.string fits).map
  | range value => exact (Decodes.range current fits).map
  | rangeList value => exact (Decodes.rangeList current fits).map
  | stringList value => exact (Decodes.stringList fits).map
  | doubleList value => exact (Decodes.doubleList fits).map
  | kwargs value => exact (Decodes.kwargs fits).map
  | kwargsList value => exact (Decodes.kwargsList fits).map
  | sizeList value => exact (Decodes.sizeList fits).map
  | argInfo value => exact (Decodes.argInfo current fits).map
  | argInfoList value => exact (Decodes.argInfoList current fits).map

theorem Decodes.values {remoteRPCVersion : UInt32} (current : SoapyRPCVersion ≤ remoteRPCVersion)
    {values : List Value} (fits : ∀ value ∈ values, value.Fits) :
    Decodes (unpackAll remoteRPCVersion (values.map Value.kind))
      (values.flatMap (Value.pack remoteRPCVersion)) values := by
  induction values with
  | nil => exact Decodes.pure []
  | cons value rest ih =>
    refine (Decodes.value current (fits value List.mem_cons_self)).bind ?_
    exact (ih (fun v member => fits v (List.mem_cons_of_mem _ member))).map
      (f := fun values => value :: values)

/-- The unpacker after `recv` has checked the trailer of a framed payload. -/
def received (link : Link) (payload : Bytes) : Unpacker where
  message i := (payload ++ toBE 4 SoapyRPCTrailerWord.toNat).getD i (link.heap i)
  offset := 0
  capacity := payload.length + trailerSize
  remoteRPCVersion := SoapyRPCVersion

theorem recvLoop_append (link : Link) (works : ∀ n, (link.grants n).isSome) (later : Bytes) :
    ∀ fuel bs, bs.length ≤ fuel →
      recvLoop link fuel (bs ++ later) bs.length = some (.ok bs, later) := by
  intro fuel
  induction fuel with
  | zero =>
    intro bs enough
    have none : bs = [] := List.length_eq_zero_iff.mp (by omega)
    subst none
    rfl
  | succ fuel ih =>
    intro bs enough
    cases bs with
    | nil => rfl
    | cons b rest =>
      obtain ⟨n, granted⟩ := Option.isSome_iff_exists.mp (works (rest.length + 1))
      -- one call moves at least one byte of the message and nothing behind it
      obtain ⟨ret, hret, positive, inside⟩ :
          ∃ ret, min (max 1 (min n (min socketBuffMax (rest.length + 1))))
              (b :: rest ++ later).length = ret ∧ 0 < ret ∧ ret ≤ (b :: rest).length := by
        refine ⟨_, rfl, ?_, ?_⟩ <;> simp only [List.length_append, List.length_cons] <;> omega
      have remaining : ((b :: rest).drop ret).length = rest.length + 1 - ret := by
        rw [List.length_drop, List.length_cons]
      have next := ih ((b :: rest).drop ret) (by
        rw [remaining]
        simp only [List.length_cons] at enough
        omega)
      rw [remaining] at next
      rw [List.length_cons, recvLoop]
      simp only [granted, hret, List.take_append_of_le_length inside,
        List.drop_append_of_le_length inside, next]
      rw [if_neg positive.ne', List.take_append_drop]

theorem frame_length (payload : Bytes) :
    (frame payload).length = headerSize + payload.length + trailerSize := by
  simp only [frame, List.length_append, toBE_length, headerSize, trailerSize]

/-- `recv` accepts what `send` framed, however the connection cuts it up, and
    leaves the bytes behind it in the stream. -/
theorem recvMessage_frame (link : Link) (works : ∀ n, (link.grants n).isSome)
    (payload later : Bytes) (nonempty : payload ≠ []) (small : (frame payload).length < 2 ^ 32) :
    recvMessage link (frame payload ++ later) = some (.ok (received link payload), later) := by
  rw [frame_length] at small
  have positive : 0 < payload.length := List.length_pos_iff.mpr nonempty
  let word := toBE 4 SoapyRPCHeaderWord.toNat
  let version := toBE 4 SoapyRPCVersion.toNat
  let length := toBE 4 ((headerSize + payload.length + trailerSize) % 2 ^ 32)
  let body := payload ++ toBE 4 SoapyRPCTrailerWord.toNat
  have layout : frame payload ++ later = (word ++ version ++ length) ++ (body ++ later) := by
    simp [frame, word, version, length, body]
  have header : (word ++ version ++ length).length = headerSize := by
    simp [word, version, length, toBE_length, headerSize]
  have fieldWord : (word ++ version ++ length).take 4 = word := by
    rw [List.append_assoc, List.take_left' (toBE_length 4 _)]
  have fieldVersion : ((word ++ version ++ length).drop 4).take 4 = version := by
    rw [List.append_assoc, List.drop_left' (toBE_length 4 _), List.take_left' (toBE_length 4 _)]
  have fieldLength : (word ++ version ++ length).drop 8 = length := by
    rw [List.drop_left' (by simp only [word, version, List.length_append, toBE_length])]
  have readWord : ofBE word = SoapyRPCHeaderWord.toNat := ofBE_toBE 4 _ (by decide)
  have readVersion : UInt32.ofNat (ofBE version) = SoapyRPCVersion := by
    rw [show ofBE version = SoapyRPCVersion.toNat from ofBE_toBE 4 _ (by decide)]
    rfl
  have readLength : ofBE length = headerSize + payload.length + trailerSize := by
    rw [show ofBE length = (headerSize + payload.length + trailerSize) % 2 ^ 32 from
      ofBE_toBE 4 _ (lt_of_lt_of_eq (Nat.mod_lt _ (by decide)) (by decide)), Nat.mod_eq_of_lt small]
  have capacity : headerSize + payload.length + trailerSize - headerSize = body.length := by
    simp only [body, List.length_append, toBE_length, headerSize, trailerSize]
    omega
  have trailer : body.drop (body.length - trailerSize) = toBE 4 SoapyRPCTrailerWord.toNat := by
    apply List.drop_left'
    simp only [body, List.length_append, toBE_length, trailerSize]
    omega
  have readTrailer : ofBE (toBE 4 SoapyRPCTrailerWord.toNat) = SoapyRPCTrailerWord.toNat :=
    ofBE_toBE 4 _ (by decide)
  have loop := recvLoop_append link works later body.length body (le_refl _)
  rw [layout, recvMessage]
  simp only [List.take_left' header, List.drop_left' header, header, fieldWord, fieldVersion,
    fieldLength, readWord, readVersion, readLength, capacity, loop, trailer, readTrailer]
  rw [if_neg (by simp), if_neg (by simp), if_neg (by omega), if_neg (by simp)]
  simp [received, body, toBE_length, trailerSize]

theorem received_holds (link : Link) (payload : Bytes) (small : (frame payload).length < 2 ^ 32) :
    (received link payload).Holds payload := by
  rw [frame_length] at small
  refine ⟨?_, ?_, ?_⟩
  · simp [received]
  · simp only [received]
    unfold headerSize at small
    omega
  · apply List.ext_getElem
    · simp
    · intro i inside _
      have short : i < payload.length := by simpa using inside
      simp [Unpacker.slice, received, List.getD_eq_getElem?_getD, List.getElem?_append_left short,
        List.getElem?_eq_getElem short]

namespace Unpacker

theorem Holds.head {b : UInt8} (h : u.Holds (b :: bs)) :
    u.message u.offset = b := by
  have whole : u.Holds ([b] ++ bs) := h
  have first := whole.split.1.bytes
  simpa [slice] using first

theorem done_of_consumed (all : u.offset + n + trailerSize = u.capacity)
    (bounded : u.capacity < 2 ^ 32) : (u.advance n).done = true := by
  unfold done
  rw [advance_offset, advance_capacity, all, Nat.mod_eq_of_lt (by omega)]
  exact decide_eq_true rfl

end Unpacker

theorem recvTail_void (h : u.Holds (packType .VOID ++ bs)) :
    Program.run Unpacker.exec Unpack.recvTail u = (.ok (), u.advance 1) := by
  have peeked := run_peekType u
  rw [h.head] at peeked
  rw [Unpack.recvTail, Program.run_bind_ok peeked, if_pos rfl,
    Program.run_bind_ok (Decodes.type _ u h.split.1)]
  rfl

theorem recvTail_value {t : UInt8} (h : u.Holds (t :: bs))
    (notVoid : t ≠ RemoteTypes.VOID.code) (notException : t ≠ RemoteTypes.EXCEPTION.code) :
    Program.run Unpacker.exec Unpack.recvTail u = (.ok (), u) := by
  have peeked := run_peekType u
  rw [h.head] at peeked
  rw [Unpack.recvTail, Program.run_bind_ok peeked, if_neg notVoid, Program.run_bind_ok peeked,
    if_neg notException]
  rfl

theorem recvTail_exception {e : Exn} (h : u.Holds (packException e)) (fits : TextFits e.what) :
    Program.run Unpacker.exec Unpack.recvTail u =
      (.error (.runtimeError (ascii "RemoteError: " ++ e.what)),
        u.advance (packException e).length) := by
  have peeked := run_peekType u
  rw [h.head] at peeked
  obtain ⟨tag, text⟩ := h.split
  rw [Unpack.recvTail, Program.run_bind_ok peeked, if_neg (by decide), Program.run_bind_ok peeked,
    if_pos rfl, Program.run_bind_ok (Decodes.type _ u tag),
    Program.run_bind_ok (Decodes.string fits _ text), Unpacker.advance_advance]
  simp only [packException, packType, List.length_append]
  rfl

theorem Value.pack_head (remoteRPCVersion : UInt32) (value : Value) :
    ∃ t bs, value.pack remoteRPCVersion = t :: bs ∧ t ≠ RemoteTypes.VOID.code ∧
      t ≠ RemoteTypes.EXCEPTION.code := by
  cases value <;> exact ⟨_, _, rfl, by decide, by decide⟩

def payload (leadingVoid : Bool) (values : List Value) : Bytes :=
  (if leadingVoid then packType .VOID else []) ++ values.flatMap (Value.pack SoapyRPCVersion)

theorem recv_payload (link : Link) (works : ∀ n, (link.grants n).isSome) (later : Bytes)
    (leadingVoid : Bool) (values : List Value) (nonempty : leadingVoid = true ∨ values ≠ [])
    (small : (frame (payload leadingVoid values)).length < 2 ^ 32) :
    ∃ u : Unpacker, recv link (frame (payload leadingVoid values) ++ later) = some (.ok u, later) ∧
      u.remoteRPCVersion = SoapyRPCVersion ∧
      u.Holds (values.flatMap (Value.pack SoapyRPCVersion)) ∧
      u.offset + (values.flatMap (Value.pack SoapyRPCVersion)).length + trailerSize = u.capacity := by
  have holds := received_holds link _ small
  cases leadingVoid with
  | true =>
    have accepted := recvMessage_frame link works _ later (by simp [payload, packType]) small
    have consumed := recvTail_void holds
    refine ⟨(received link (payload true values)).advance 1,
      by simp only [recv, accepted, consumed], rfl, holds.split.2, ?_⟩
    simp [received, payload, packType, Nat.add_comm]
  | false =>
    obtain ⟨value, rest, rfl⟩ := List.exists_cons_of_ne_nil (nonempty.resolve_left (by simp))
    obtain ⟨t, bs, head, notVoid, notException⟩ := value.pack_head SoapyRPCVersion
    have layout : payload false (value :: rest) =
        t :: (bs ++ rest.flatMap (Value.pack SoapyRPCVersion)) := by
      simp [payload, head]
    have accepted := recvMessage_frame link works _ later (by simp [layout]) small
    have kept := recvTail_value (layout ▸ holds) notVoid notException
    rw [← layout] at kept
    refine ⟨_, by simp only [recv, accepted, kept], rfl, holds, ?_⟩
    simp [received, payload]

/-- Values that are packed, sent over a connection that cuts the bytes anywhere, received and
    unpacked with the matching overloads come back, and the whole payload is consumed. A message
    needs a value, or the bare VOID that `recv` consumes by itself. -/
theorem roundTrip (grants : Grants) (lastErrorMsg : Bytes) (link : Link) (later : Bytes)
    (sends : ∀ n, (grants n).isSome) (receives : ∀ n, (link.grants n).isSome)
    (leadingVoid : Bool) (values : List Value) (fits : ∀ value ∈ values, value.Fits)
    (nonempty : leadingVoid = true ∨ values ≠ [])
    (small : (frame (payload leadingVoid values)).length < 2 ^ 32) :
    ∃ pieces u u', send grants lastErrorMsg (payload leadingVoid values) = .ok pieces ∧
      recv link (pieces.flatten ++ later) = some (.ok u, later) ∧
      Program.run Unpacker.exec (unpackAll u.remoteRPCVersion (values.map Value.kind)) u =
        (.ok values, u') ∧
      u'.done = true := by
  obtain ⟨pieces, sent, whole⟩ := send_flatten grants lastErrorMsg (payload leadingVoid values) sends
  obtain ⟨u, accepted, version, holds, rest⟩ :=
    recv_payload link receives later leadingVoid values nonempty small
  have decoded := Decodes.values (UInt32.le_refl SoapyRPCVersion) fits u holds
  rw [← version] at decoded rest
  exact ⟨pieces, u, _, sent, whole ▸ accepted, decoded, Unpacker.done_of_consumed rest holds.bounded⟩

/-- A connection that grants every call what it asks for. -/
def idealLink : Link := ⟨some, [], fun _ => 0⟩

theorem roundTrip_one_value : ∃ pieces u u',
    send some [] (payload true [.string [83, 68, 82]]) = .ok pieces ∧
      recv idealLink (pieces.flatten ++ []) = some (.ok u, []) ∧
      Program.run Unpacker.exec (unpackAll u.remoteRPCVersion [.string]) u =
        (.ok [.string [83, 68, 82]], u') ∧
      u'.done = true :=
  roundTrip some [] idealLink [] (by simp) (by simp [idealLink]) true [.string [83, 68, 82]]
    (by simp [Value.Fits, TextFits]) (.inl rfl) (by decide)

set_option maxRecDepth 4000 in
/-- The message of no values has no payload, and `recv` refuses its length. -/
theorem recv_refuses_empty : ¬ ∃ u rest, recv idealLink (frame (payload false [])) =
    some (.ok u, rest) := by
  have refused : ∃ e rest, recv idealLink (frame (payload false [])) = some (.error e, rest) :=
    ⟨_, _, rfl⟩
  obtain ⟨e, rest, refused⟩ := refused
  rintro ⟨u, rest, accepted⟩
  rw [refused] at accepted
  simp at accepted

end Soapy.Remote
