import Soapy.Lib.Bytes

/-! # Indexed names and comma separated lists

The text functions of SoapyMultiSDR. A name with an index in brackets says which device is
meant, and a text with commas has one value for each device.
-/

namespace Soapy.Multi

open Lib

/-- What a method ends with when it does not return. `undefined` stands for an index outside a
    vector, which raises no exception. -/
inductive Stop where
  | runtime_error (what : Bytes)
  | invalid_argument
  | out_of_range
  | undefined
deriving DecidableEq

def isdigit (ch : UInt8) : Bool := 48 ≤ ch && ch ≤ 57

/-- In the "C" locale. -/
def isspace (ch : UInt8) : Bool := ch = 32 || 9 ≤ ch && ch ≤ 13

def openBracket : UInt8 := 91

def closeBracket : UInt8 := 93

def comma : UInt8 := 44

def value (digits : Bytes) : Nat :=
  digits.foldl (fun acc ch => acc * 10 + (ch.toNat - 48)) 0

/-- `std::stoul` of a text without a blank or a sign in front. -/
def stoul (text : Bytes) : Except Stop Nat :=
  let digits := text.takeWhile isdigit
  if digits = [] then .error .invalid_argument
  else if value digits < 2 ^ 64 then .ok (value digits)
  else .error .out_of_range

def find_last_of (ch : UInt8) : Bytes → Option Nat
  | [] => none
  | b :: rest =>
    match find_last_of ch rest with
    | some i => some (i + 1)
    | none => if b = ch then some 0 else none

def toIndexedName (name : Bytes) (index : Nat) : Bytes :=
  name ++ [openBracket] ++ ascii (toString index) ++ [closeBracket]

def between (inName : Bytes) (openBracketPos closeBracketPos : Nat) : Bytes :=
  (inName.take closeBracketPos).drop (openBracketPos + 1)

def isIndexedName (inName : Bytes) : Bool :=
  match find_last_of openBracket inName, find_last_of closeBracket inName with
  | some openBracketPos, some closeBracketPos =>
    if closeBracketPos < openBracketPos then false
    else (between inName openBracketPos closeBracketPos).all isdigit
  | _, _ => false

def notIndexed (inName : Bytes) : Bytes :=
  ascii "splitIndexedName(" ++ inName ++ ascii ") not in name[index] format"

def splitIndexedName (inName : Bytes) : Except Stop (Bytes × Nat) :=
  match find_last_of openBracket inName, find_last_of closeBracket inName with
  | some openBracketPos, some closeBracketPos =>
    if isIndexedName inName then
      (stoul (between inName openBracketPos closeBracketPos)).map
        (fun index => (inName.take openBracketPos, index))
    else .error (.runtime_error (notIndexed inName))
  | _, _ => .error (.runtime_error (notIndexed inName))

/-- The loop over the characters, `tmp` is what came behind the last comma. -/
def csvPieces : Bytes → Bytes → List Bytes
  | tmp, [] => if tmp = [] then [] else [tmp]
  | tmp, ch :: rest =>
    if ch = comma then tmp :: csvPieces [] rest else csvPieces (tmp ++ [ch]) rest

def trim (s : Bytes) : Bytes :=
  ((s.dropWhile isspace).reverse.dropWhile isspace).reverse

def csvSplit (text : Bytes) : List Bytes := (csvPieces [] text).map trim

def csvJoin (values : List Bytes) : Bytes :=
  values.foldl (fun out s => (if out = [] then out else out ++ ascii ", ") ++ s) []

theorem find_last_of_none {ch : UInt8} {s : Bytes} :
    find_last_of ch s = none ↔ ch ∉ s := by
  induction s with
  | nil => simp [find_last_of]
  | cons b s ih =>
    simp only [find_last_of, List.mem_cons, not_or]
    cases found : find_last_of ch s with
    | some i =>
      have member : ch ∈ s := by
        by_contra none
        rw [ih.mpr none] at found
        cases found
      simp [member]
    | none =>
      by_cases here : b = ch
      · simp [here]
      · simp [here, Ne.symm here, ih.mp found]

theorem find_last_of_split {ch : UInt8} {front back : Bytes} (last : ch ∉ back) :
    find_last_of ch (front ++ ch :: back) = some front.length := by
  induction front with
  | nil => simp [find_last_of, find_last_of_none.mpr last]
  | cons b front ih => simp [find_last_of, ih]

theorem between_brackets (plain digits back : Bytes) :
    between (plain ++ openBracket :: digits ++ closeBracket :: back) plain.length
      (plain.length + (digits.length + 1)) = digits := by
  have length : plain.length + (digits.length + 1) = (plain ++ openBracket :: digits).length := by
    simp
  unfold between
  rw [length, List.take_left' rfl, List.drop_append, List.drop_eq_nil_of_le (Nat.le_succ _)]
  simp

/-- The name is `plain`, digits in brackets, and more behind the brackets. -/
structure Indexed (inName plain digits back : Bytes) : Prop where
  whole : inName = plain ++ openBracket :: digits ++ closeBracket :: back
  digit : ∀ ch ∈ digits, isdigit ch = true
  behind : openBracket ∉ back ∧ closeBracket ∉ back

namespace Indexed

variable {inName plain digits back : Bytes}

section

variable (indexed : Indexed inName plain digits back)
include indexed

theorem open_last :
    find_last_of openBracket inName = some plain.length := by
  rw [indexed.whole, List.append_assoc]
  apply find_last_of_split
  intro member
  rcases List.mem_append.mp member with inside | behind
  · exact absurd (indexed.digit _ inside) (by decide)
  · cases behind with
    | tail _ behind => exact indexed.behind.1 behind

theorem close_last :
    find_last_of closeBracket inName = some (plain.length + (digits.length + 1)) := by
  rw [indexed.whole, find_last_of_split indexed.behind.2]
  simp

theorem between :
    between inName plain.length (plain.length + (digits.length + 1)) = digits := by
  rw [indexed.whole]
  exact between_brackets plain digits back

theorem is_indexed : isIndexedName inName = true := by
  unfold isIndexedName
  rw [indexed.open_last, indexed.close_last]
  simp only [indexed.between]
  rw [if_neg (by omega)]
  exact List.all_eq_true.mpr indexed.digit

theorem split :
    splitIndexedName inName = (stoul digits).map (fun index => (plain, index)) := by
  have plain_first : inName.take plain.length = plain := by
    rw [indexed.whole, List.append_assoc, List.take_left']
    rfl
  unfold splitIndexedName
  rw [indexed.open_last, indexed.close_last]
  simp [indexed.is_indexed, indexed.between, plain_first]

end

end Indexed

theorem stoul_digits {digits : Bytes} (digit : ∀ ch ∈ digits, isdigit ch = true) :
    stoul digits =
      if digits = [] then .error .invalid_argument
      else if value digits < 2 ^ 64 then .ok (value digits)
      else .error .out_of_range := by
  have all : digits.takeWhile isdigit = digits := List.takeWhile_eq_self_iff.mpr digit
  unfold stoul
  rw [all]

/-- No commas, and no blanks around it. -/
structure Clean (v : Bytes) : Prop where
  no_comma : comma ∉ v
  front : v.dropWhile isspace = v
  back : v.reverse.dropWhile isspace = v.reverse

theorem trim_clean {v : Bytes} (clean : Clean v) : trim v = v := by
  unfold trim
  rw [clean.front, clean.back, List.reverse_reverse]

theorem trim_blank {v : Bytes} (clean : Clean v) : trim (32 :: v) = v := by
  have blank : isspace 32 = true := by decide
  have dropped : (32 :: v).dropWhile isspace = v := by
    rw [List.dropWhile_cons, if_pos blank, clean.front]
  unfold trim
  rw [dropped, clean.back, List.reverse_reverse]

theorem csvJoin_behind {out : Bytes} {rest : List Bytes} (some : out ≠ []) :
    rest.foldl (fun out s => (if out = [] then out else out ++ ascii ", ") ++ s) out =
      out ++ rest.flatMap (fun s => ascii ", " ++ s) := by
  induction rest generalizing out with
  | nil => simp
  | cons s rest ih =>
    rw [List.foldl_cons, if_neg some, ih (by simp [some]), List.flatMap_cons]
    simp

end Soapy.Multi
