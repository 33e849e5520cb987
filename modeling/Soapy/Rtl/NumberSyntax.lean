import Mathlib

/-! # Numbers of the UDP interface

A number is decimal, hexadecimal after an x or binary after a b. Its digits may be set apart by
delimiters, and those that are written in hexadecimal and binary are.
-/

namespace Soapy.Rtl.Udp

def apostrophe : Char := Char.ofNat 39

/-- Letters behind F are counted from a. -/
def digitValue (pac : Char) : Int :=
  if '0' ≤ pac ∧ pac ≤ '9' then pac.toNat - '0'.toNat
  else if 'A' ≤ pac ∧ pac ≤ 'F' then pac.toNat + 10 - 'A'.toNat
  else pac.toNat + 10 - 'a'.toNat

/-- The delimiters that are ignored, unless they pass for a digit. -/
def isDelimiter (pac : Char) : Bool := pac = apostrophe ∨ pac = '.' ∨ pac = '_'

def parseDigits (numBase : Int) (val : Int32) : List Char → Int32
  | [] => val
  | pac :: rest =>
    if 0 ≤ digitValue pac ∧ digitValue pac < numBase then
      parseDigits numBase (val * Int32.ofInt numBase + Int32.ofInt (digitValue pac)) rest
    else if isDelimiter pac then parseDigits numBase val rest
    else val

def parseSigned (numBase : Int) (pac : List Char) : Int32 :=
  match pac with
  | '-' :: pac => parseDigits numBase 0 pac * -1
  | pac => parseDigits numBase 0 pac * 1

def parseNum (pacNum : List Char) : Int32 :=
  match pacNum with
  | [] => 0
  | 'd' :: pac => parseSigned 10 pac
  | 'x' :: pac => parseSigned 16 pac
  | 'b' :: pac => parseSigned 2 pac
  | pac => parseSigned 10 pac

def shiftRight (undefined : UInt32 → Nat → UInt32) (v : UInt32) (count : Nat) : UInt32 :=
  if count < 32 then v >>> UInt32.ofNat count else undefined v count

/-- The loop over the digits below, each of `bits` bits. -/
def formatDigits (undefined : UInt32 → Nat → UInt32) (tab : List Char) (bits : Nat) (v : UInt32)
    (num_digits : Nat) : Nat → List Char
  | 0 => []
  | digitNo + 1 =>
    (if digitNo % 4 = 3 ∧ digitNo ≠ num_digits - 1 then [apostrophe] else []) ++
      tab.getD (shiftRight undefined v (digitNo * bits) &&& UInt32.ofNat (2 ^ bits - 1)).toNat '0' ::
        formatDigits undefined tab bits v num_digits digitNo

def hexTab : List Char :=
  ['0', '1', '2', '3', '4', '5', '6', '7', '8', '9', 'A', 'B', 'C', 'D', 'E', 'F']

def binTab : List Char := ['0', '1']

def formatInHex (undefined : UInt32 → Nat → UInt32) (v : Int32) (num_digits : Nat) : List Char :=
  'x' :: formatDigits undefined hexTab 4 v.toUInt32 num_digits num_digits

def formatInBin (undefined : UInt32 → Nat → UInt32) (v : Int32) (num_digits : Nat) : List Char :=
  'b' :: formatDigits undefined binTab 1 v.toUInt32 num_digits num_digits

def positional (numBase : Int) (val : Int) (digits : List Int) : Int :=
  digits.foldl (fun val digit => val * numBase + digit) val

theorem positional_from (numBase val : Int) (digits : List Int) :
    positional numBase val digits = val * numBase ^ digits.length + positional numBase 0 digits := by
  induction digits generalizing val with
  | nil => simp [positional]
  | cons digit rest ih =>
    rw [positional, positional, List.foldl_cons, List.foldl_cons]
    change positional numBase _ rest = _ + positional numBase _ rest
    rw [ih (val * numBase + digit), ih (0 * numBase + digit), List.length_cons, pow_succ]
    ring

def passes (numBase : Int) (pac : Char) : Bool := 0 ≤ digitValue pac ∧ digitValue pac < numBase

def readings (numBase : Int) (body : List Char) : List Int :=
  (body.filter (passes numBase)).map digitValue

theorem parseDigits_eq {numBase : Int} {body : List Char}
    (all : ∀ pac ∈ body, passes numBase pac = true ∨ isDelimiter pac = true) (val : Int) :
    parseDigits numBase (Int32.ofInt val) body =
      Int32.ofInt (positional numBase val (readings numBase body)) := by
  induction body generalizing val with
  | nil => rfl
  | cons pac rest ih =>
    rw [List.forall_mem_cons] at all
    rw [parseDigits]
    by_cases digit : passes numBase pac = true
    · have here : 0 ≤ digitValue pac ∧ digitValue pac < numBase := of_decide_eq_true digit
      rw [if_pos here, ← Int32.ofInt_mul, ← Int32.ofInt_add, ih all.2, readings, readings,
        List.filter_cons_of_pos digit, List.map_cons]
      rfl
    · have here : ¬ (0 ≤ digitValue pac ∧ digitValue pac < numBase) :=
        fun both => digit (decide_eq_true both)
      rw [if_neg here, if_pos (all.1.resolve_left digit), ih all.2, readings, readings,
        List.filter_cons_of_neg digit]

theorem ofInt_eq_iff (a b : Int) : Int32.ofInt a = Int32.ofInt b ↔ (2 : Int) ^ 32 ∣ a - b := by
  rw [← Int32.toBitVec_inj, Int32.toBitVec_ofInt, Int32.toBitVec_ofInt, ← BitVec.toNat_inj,
    BitVec.toNat_ofInt, BitVec.toNat_ofInt, Int.dvd_iff_emod_eq_zero,
    ← Int.emod_eq_emod_iff_emod_sub_eq_zero]
  have first := Int.emod_nonneg a (show (2 : Int) ^ 32 ≠ 0 by decide)
  have second := Int.emod_nonneg b (show (2 : Int) ^ 32 ≠ 0 by decide)
  push_cast
  omega

theorem ofInt_toUInt32 (v : Int32) : Int32.ofInt v.toUInt32.toNat = v := by
  have small := v.toUInt32.toNat_lt
  rw [← Int32.toBitVec_inj, Int32.toBitVec_ofInt, ← BitVec.toNat_inj, BitVec.toNat_ofInt,
    Int.emod_eq_of_lt (Int.natCast_nonneg _) (by exact_mod_cast small), Int.toNat_natCast]
  rfl

theorem parseSigned_eq {numBase : Int} {body : List Char}
    (all : ∀ pac ∈ body, passes numBase pac = true ∨ isDelimiter pac = true) :
    parseSigned numBase body = Int32.ofInt (positional numBase 0 (readings numBase body)) ∧
      parseSigned numBase ('-' :: body) =
        Int32.ofInt (-positional numBase 0 (readings numBase body)) := by
  have read := parseDigits_eq all 0
  have one : Int32.ofInt 0 = 0 := rfl
  rw [one] at read
  constructor
  · unfold parseSigned
    split
    · rename_i rest
      have sign : passes numBase '-' = true ∨ isDelimiter '-' = true := all _ List.mem_cons_self
      cases sign with
      | inl digit => exact absurd (of_decide_eq_true digit).1 (by decide)
      | inr delimiter => exact absurd delimiter (by decide)
    · rw [read, Int32.mul_one]
  · rw [parseSigned, read, Int32.ofInt_neg, Int32.mul_neg, Int32.mul_one]

section Format

variable {undefined : UInt32 → Nat → UInt32} {tab : List Char} {bits total : Nat} {v : UInt32}

def digitAt (undefined : UInt32 → Nat → UInt32) (bits : Nat) (v : UInt32) (digitNo : Nat) : Nat :=
  (shiftRight undefined v (digitNo * bits) &&& UInt32.ofNat (2 ^ bits - 1)).toNat

theorem digitAt_eq (word : bits ≤ 32) (digitNo : Nat) : digitAt undefined bits v digitNo =
    (shiftRight undefined v (digitNo * bits)).toNat % 2 ^ bits := by
  have below : 2 ^ bits - 1 < 2 ^ 32 := by
    have powers := Nat.pow_le_pow_right (n := 2) (by decide) word
    have positive : 0 < 2 ^ bits := Nat.two_pow_pos bits
    omega
  rw [digitAt, UInt32.toNat_and, UInt32.toNat_ofNat_of_lt' below, Nat.and_two_pow_sub_one_eq_mod]

theorem digitAt_value (word : bits ≤ 32) (digitNo : Nat) :
    (2 : Int) ^ 32 ∣ (v.toNat % (2 ^ bits) ^ (digitNo + 1) : Nat) -
      ((digitAt undefined bits v digitNo : Int) * (2 ^ bits) ^ digitNo +
        (v.toNat % (2 ^ bits) ^ digitNo : Nat)) := by
  by_cases inside : digitNo * bits < 32
  · have digit : digitAt undefined bits v digitNo =
        v.toNat / (2 ^ bits) ^ digitNo % 2 ^ bits := by
      rw [digitAt_eq word, shiftRight, if_pos inside, UInt32.toNat_shiftRight,
        UInt32.toNat_ofNat_of_lt' (Nat.lt_trans inside (by decide)), Nat.mod_eq_of_lt inside, Nat.shiftRight_eq_div_pow,
        Nat.mul_comm, Nat.pow_mul]
    rw [digit, Nat.mod_pow_succ]
    push_cast
    ring_nf
    simp
  · have wide : (2 ^ bits) ^ digitNo = 2 ^ 32 * 2 ^ (digitNo * bits - 32) := by
      rw [← Nat.pow_mul, ← Nat.pow_add]
      congr 1
      rw [Nat.mul_comm]
      omega
    have fits (count : Nat) (more : digitNo ≤ count) : v.toNat % (2 ^ bits) ^ count = v.toNat := by
      apply Nat.mod_eq_of_lt
      have least : 2 ^ 32 ≤ (2 ^ bits) ^ count := by
        rw [← Nat.pow_mul]
        apply Nat.pow_le_pow_right (by decide)
        have scaled := Nat.mul_le_mul_left bits more
        rw [Nat.mul_comm bits digitNo] at scaled
        omega
      exact Nat.lt_of_lt_of_le v.toNat_lt least
    have wide' : ((2 : Int) ^ bits) ^ digitNo = 2 ^ 32 * 2 ^ (digitNo * bits - 32) := by
      exact_mod_cast wide
    rw [fits _ (Nat.le_succ _), fits _ (Nat.le_refl _), wide']
    exact ⟨-(digitAt undefined bits v digitNo * 2 ^ (digitNo * bits - 32)), by ring⟩

def Spells (tab : List Char) (bits : Nat) : Prop := ∀ digit < 2 ^ bits,
  passes (2 ^ bits) (tab.getD digit '0') = true ∧ digitValue (tab.getD digit '0') = digit

theorem readings_format (spells : Spells tab bits) (word : bits ≤ 32) (digitNo : Nat)
    (delimits : passes (2 ^ bits) apostrophe = false) :
    readings (2 ^ bits) (formatDigits undefined tab bits v total (digitNo + 1)) =
      (digitAt undefined bits v digitNo : Int) ::
        readings (2 ^ bits) (formatDigits undefined tab bits v total digitNo) := by
  have small : digitAt undefined bits v digitNo < 2 ^ bits := by
    rw [digitAt_eq word]
    exact Nat.mod_lt _ (Nat.two_pow_pos bits)
  obtain ⟨digit, value⟩ := spells _ small
  rw [digitAt] at digit value
  rw [formatDigits, readings, List.filter_append, List.filter_cons_of_pos digit, List.map_append,
    List.map_cons, value]
  split
  · rw [List.filter_cons_of_neg (by rw [delimits]; decide)]
    rfl
  · rfl

theorem format_positional (spells : Spells tab bits) (word : bits ≤ 32)
    (delimits : passes (2 ^ bits) apostrophe = false) (digitNo : Nat) :
    (readings (2 ^ bits) (formatDigits undefined tab bits v total digitNo)).length = digitNo ∧
      (2 : Int) ^ 32 ∣ (v.toNat % (2 ^ bits) ^ digitNo : Nat) - positional (2 ^ bits) 0
        (readings (2 ^ bits) (formatDigits undefined tab bits v total digitNo)) := by
  induction digitNo with
  | zero => exact ⟨rfl, by simp [Nat.mod_one, readings, formatDigits, positional]⟩
  | succ digitNo ih =>
    rw [readings_format spells word digitNo delimits, List.length_cons, ih.1]
    refine ⟨rfl, ?_⟩
    have place := @digitAt_value undefined bits v word digitNo
    have next := positional_from (2 ^ bits) (0 * 2 ^ bits + digitAt undefined bits v digitNo)
      (readings (2 ^ bits) (formatDigits undefined tab bits v total digitNo))
    rw [ih.1] at next
    rw [positional, List.foldl_cons]
    change _ ∣ _ - positional _ _ _
    rw [next]
    have both := Int.dvd_add place ih.2
    ring_nf at both ⊢
    exact both

theorem format_read (spells : Spells tab bits) (word : bits ≤ 32) (digitNo : Nat) :
    ∀ pac ∈ formatDigits undefined tab bits v total digitNo,
      passes (2 ^ bits) pac = true ∨ isDelimiter pac = true := by
  induction digitNo with
  | zero => exact fun pac none => absurd none List.not_mem_nil
  | succ digitNo ih =>
    intro pac member
    rw [formatDigits, List.mem_append, List.mem_cons] at member
    rcases member with delimiter | digit | rest
    · split at delimiter
      · rw [List.mem_singleton.mp delimiter]
        exact .inr (by decide)
      · exact absurd delimiter List.not_mem_nil
    · have small : digitAt undefined bits v digitNo < 2 ^ bits := by
        rw [digitAt_eq word]
        exact Nat.mod_lt _ (Nat.two_pow_pos bits)
      rw [digit]
      exact .inl (spells _ small).1
    · exact ih pac rest

theorem parseSigned_format (spells : Spells tab bits) (word : bits ≤ 32)
    (delimits : passes (2 ^ bits) apostrophe = false) {v : Int32} {num_digits : Nat}
    (fits : v.toUInt32.toNat < (2 ^ bits) ^ num_digits) :
    parseSigned (2 ^ bits) (formatDigits undefined tab bits v.toUInt32 num_digits num_digits) =
      v := by
  rw [(parseSigned_eq (format_read spells word num_digits)).1]
  have positional := (@format_positional undefined tab bits num_digits v.toUInt32 spells word
    delimits num_digits).2
  rw [Nat.mod_eq_of_lt fits] at positional
  exact ((ofInt_eq_iff _ _).mpr positional).symm.trans (ofInt_toUInt32 v)

end Format

theorem hexTab_spells : Spells hexTab 4 := by
  unfold Spells
  decide

theorem binTab_spells : Spells binTab 1 := by
  unfold Spells
  decide

theorem parseNum_formatInHex {undefined : UInt32 → Nat → UInt32} {v : Int32} {num_digits : Nat}
    (fits : v.toUInt32.toNat < 16 ^ num_digits) :
    parseNum (formatInHex undefined v num_digits) = v :=
  parseSigned_format hexTab_spells (by decide) (by decide) fits

theorem parseNum_formatInBin {undefined : UInt32 → Nat → UInt32} {v : Int32} {num_digits : Nat}
    (fits : v.toUInt32.toNat < 2 ^ num_digits) :
    parseNum (formatInBin undefined v num_digits) = v :=
  parseSigned_format binTab_spells (by decide) (by decide) fits

/-- How the base is marked. -/
inductive Base where
  | plain
  | d
  | x
  | b
deriving DecidableEq

namespace Base

def marker : Base → List Char
  | plain => []
  | d => ['d']
  | x => ['x']
  | b => ['b']

def radix : Base → Int
  | plain => 10
  | d => 10
  | x => 16
  | b => 2

/-- A numeral, its digits with or without delimiters. -/
def text (base : Base) (negative : Bool) (body : List Char) : List Char :=
  base.marker ++ (if negative then ['-'] else []) ++ body

end Base

def IsDigit (radix : Int) (pac : Char) : Prop :=
  ('0' ≤ pac ∧ pac ≤ '9' ∨ 'A' ≤ pac ∧ pac ≤ 'F' ∨ 'a' ≤ pac ∧ pac ≤ 'f') ∧
    digitValue pac < radix

def bare (body : List Char) : List Char := body.filter fun pac => !isDelimiter pac

/-- Underscores are read as digits. -/
def withEights (body : List Char) : List Char :=
  bare (body.map fun pac => if pac = '_' then '8' else pac)

def valueOf (radix : Int) (digits : List Char) : Int := positional radix 0 (digits.map digitValue)

theorem IsDigit.passes {radix : Int} {pac : Char} (digit : IsDigit radix pac) :
    Udp.passes radix pac = true := by
  apply decide_eq_true
  obtain ⟨range, small⟩ := digit
  refine ⟨?_, small⟩
  rw [digitValue]
  split
  · rename_i decimal
    have low : '0'.toNat ≤ pac.toNat := decimal.1
    omega
  · split
    · rename_i upper
      have low : 'A'.toNat ≤ pac.toNat := upper.1
      omega
    · rename_i decimal upper
      have lower := (range.resolve_left decimal).resolve_left upper
      have low : 'a'.toNat ≤ pac.toNat := lower.1
      omega

theorem isDelimiter_cases {pac : Char} (delimiter : isDelimiter pac = true) :
    pac = apostrophe ∨ pac = '.' ∨ pac = '_' := of_decide_eq_true delimiter

theorem readings_cons (numBase : Int) (pac : Char) (rest : List Char) :
    readings numBase (pac :: rest) =
      (if passes numBase pac then [digitValue pac] else []) ++ readings numBase rest := by
  cases pass : passes numBase pac with
  | true => rw [readings, List.filter_cons_of_pos pass]; rfl
  | false => rw [readings, List.filter_cons_of_neg (by rw [pass]; decide)]; rfl

theorem bare_cons (pac : Char) (rest : List Char) :
    bare (pac :: rest) = (if isDelimiter pac then [] else [pac]) ++ bare rest := by
  cases delimiter : isDelimiter pac with
  | true => rw [bare, List.filter_cons_of_neg (by rw [delimiter]; decide)]; rfl
  | false => rw [bare, List.filter_cons_of_pos (by rw [delimiter]; rfl)]; rfl

theorem withEights_cons (pac : Char) (rest : List Char) : withEights (pac :: rest) =
    (if pac = '_' then ['8'] else if isDelimiter pac then [] else [pac]) ++ withEights rest := by
  rw [withEights, List.map_cons, bare_cons]
  by_cases underscore : pac = '_'
  · rw [if_pos underscore, if_pos underscore]
    rfl
  · rw [if_neg underscore, if_neg underscore]
    rfl

section Numeral

variable {base : Base} {body : List Char} (digits : ∀ pac ∈ bare body, IsDigit base.radix pac)

include digits

theorem body_read : ∀ pac ∈ body, passes base.radix pac = true ∨ isDelimiter pac = true := by
  intro pac member
  cases delimiter : isDelimiter pac with
  | true => exact .inr rfl
  | false =>
    have kept : pac ∈ bare body := List.mem_filter.mpr ⟨member, by rw [delimiter]; rfl⟩
    exact .inl (digits pac kept).passes

theorem readings_body : readings base.radix body =
    (if base = Base.b then bare body else withEights body).map digitValue := by
  induction body with
  | nil => cases base <;> rfl
  | cons pac rest ih =>
    rw [bare_cons] at digits
    have tail := ih fun pac' member => digits pac' (List.mem_append_right _ member)
    rw [readings_cons, tail, bare_cons, withEights_cons]
    cases delimiter : isDelimiter pac with
    | false =>
      have digit : IsDigit base.radix pac := digits pac (by simp [delimiter])
      have other : pac ≠ '_' := by
        rintro rfl
        exact absurd delimiter (by decide)
      rw [digit.passes, if_neg other]
      cases base <;> rfl
    | true =>
      rcases isDelimiter_cases delimiter with rfl | rfl | rfl
      · cases base <;> rfl
      · cases base <;> rfl
      · cases base <;> rfl

end Numeral

theorem parseNum_plain {body : List Char}
    (all : ∀ pac ∈ body, passes 10 pac = true ∨ isDelimiter pac = true) :
    parseNum body = parseSigned 10 body := by
  have other (pac : Char) (unknown : passes 10 pac = false ∧ isDelimiter pac = false)
      (member : pac ∈ body) : False := by
    cases all pac member with
    | inl digit => exact Bool.false_ne_true (unknown.1.symm.trans digit)
    | inr delimiter => exact Bool.false_ne_true (unknown.2.symm.trans delimiter)
  unfold parseNum
  split
  · rfl
  · exact (other 'd' (by decide) List.mem_cons_self).elim
  · exact (other 'x' (by decide) List.mem_cons_self).elim
  · exact (other 'b' (by decide) List.mem_cons_self).elim
  · rfl

theorem parseNum_text {base : Base} {body : List Char}
    (digits : ∀ pac ∈ bare body, IsDigit base.radix pac) (negative : Bool) :
    parseNum (base.text negative body) = Int32.ofInt ((if negative then -1 else 1) *
      positional base.radix 0 (readings base.radix body)) := by
  have all := body_read digits
  obtain ⟨unsigned, signed⟩ := parseSigned_eq all
  cases negative with
  | false =>
    rw [if_neg Bool.false_ne_true, Int.one_mul, ← unsigned]
    cases base with
    | plain => exact parseNum_plain all
    | d => rfl
    | x => rfl
    | b => rfl
  | true =>
    rw [if_pos rfl, Int.neg_mul, Int.one_mul, ← signed]
    cases base <;> rfl

theorem bare_bare (body : List Char) : bare (bare body) = bare body := by
  rw [bare, bare, List.filter_filter]
  simp

theorem withEights_plain {body : List Char} (plain : '_' ∉ body) : withEights body = bare body := by
  have same : body.map (fun pac => if pac = '_' then '8' else pac) = body.map id := by
    apply List.map_congr_left
    intro pac member
    have other : pac ≠ '_' := fun here => plain (here ▸ member)
    exact if_neg other
  rw [withEights, same, List.map_id]

theorem readings_bare {base : Base} {body : List Char}
    (digits : ∀ pac ∈ bare body, IsDigit base.radix pac) :
    readings base.radix (bare body) = (bare body).map digitValue := by
  have plain : '_' ∉ bare body := by
    intro member
    exact absurd (List.mem_filter.mp member).2 (by decide)
  rw [readings_body (by rw [bare_bare]; exact digits), withEights_plain plain, bare_bare, ite_self]

/-- Inserting delimiters does not change the value, unless an underscore is read as a digit and the
value with these digits is another one modulo 2^32. -/
theorem delimited_iff {base : Base} {body : List Char}
    (digits : ∀ pac ∈ bare body, IsDigit base.radix pac) (negative : Bool) :
    parseNum (base.text negative body) = parseNum (base.text negative (bare body)) ↔
      base = .b ∨ '_' ∉ body ∨
        (2 : Int) ^ 32 ∣ valueOf base.radix (withEights body) - valueOf base.radix (bare body) := by
  have signs (a b : Int) : (2 : Int) ^ 32 ∣ (if negative then -1 else 1) * a -
      (if negative then -1 else 1) * b ↔ (2 : Int) ^ 32 ∣ a - b := by
    rw [← Int.mul_sub]
    cases negative with
    | false => rw [if_neg Bool.false_ne_true, Int.one_mul]
    | true => rw [if_pos rfl, Int.neg_mul, Int.one_mul, Int.dvd_neg]
  rw [parseNum_text digits, parseNum_text (by rw [bare_bare]; exact digits), ofInt_eq_iff, signs,
    readings_bare digits, readings_body digits]
  by_cases binary : base = Base.b
  · simp [binary]
  · rw [if_neg binary, or_iff_right binary]
    by_cases plain : '_' ∉ body
    · simp [withEights_plain plain, plain]
    · rw [or_iff_right plain]
      rfl

/-- What the two formats write is read back, and delimiters are ignored but for the underscore. -/
theorem numbers_read_iff (undefined : UInt32 → Nat → UInt32) :
    (∀ (v : Int32) (num_digits : Nat), 1 ≤ num_digits →
      (v.toUInt32.toNat < 16 ^ num_digits → parseNum (formatInHex undefined v num_digits) = v) ∧
      (v.toUInt32.toNat < 2 ^ num_digits → parseNum (formatInBin undefined v num_digits) = v)) ∧
    ∀ (base : Base) (negative : Bool) (body : List Char),
      (∀ pac ∈ bare body, IsDigit base.radix pac) →
      (parseNum (base.text negative body) = parseNum (base.text negative (bare body)) ↔
        base = .b ∨ '_' ∉ body ∨ (2 : Int) ^ 32 ∣
          valueOf base.radix (withEights body) - valueOf base.radix (bare body)) :=
  ⟨fun _ _ _ => ⟨parseNum_formatInHex, parseNum_formatInBin⟩,
    fun _ negative _ digits => delimited_iff digits negative⟩

theorem numbers_read_dotted :
    parseNum (formatInHex (fun v _ => v) (-5) 8) = -5 ∧
      (parseNum (Base.plain.text true ['2', '.', '5']) =
          parseNum (Base.plain.text true ['2', '5']) ↔
        Base.plain = .b ∨ '_' ∉ ['2', '.', '5'] ∨ (2 : Int) ^ 32 ∣
          valueOf 10 (withEights ['2', '.', '5']) - valueOf 10 ['2', '5']) :=
  have digits : ∀ pac ∈ bare ['2', '.', '5'], IsDigit 10 pac := by
    intro pac member
    rcases List.mem_cons.mp (show pac ∈ ['2', '5'] from member) with rfl | last
    · exact ⟨.inl (by decide), by decide⟩
    · rw [List.mem_singleton.mp last]
      exact ⟨.inl (by decide), by decide⟩
  ⟨((numbers_read_iff fun v _ => v).1 (-5) 8 (by decide)).1 (by decide),
    (numbers_read_iff fun v _ => v).2 .plain true ['2', '.', '5'] digits⟩

/-- `1_000` -/
theorem underscore_read :
    parseNum ['1', '_', '0', '0', '0'] = 18000 ∧ parseNum ['1', '0', '0', '0'] = 1000 := by
  decide +kernel

end Soapy.Rtl.Udp
