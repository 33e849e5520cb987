import Soapy.Lib.Find
import Soapy.Multi.Names

/-! # SoapyHTTPHeader

The header of an SSDP datagram. A field is found by its name behind a line end; its value begins
behind the white space, which may be that of the following lines, and ends with a line.
-/

namespace Soapy.Remote

open Lib
open Soapy.Multi (isspace isdigit value)

/-- What `std::string` and `std::stoul` throw. -/
inductive StdException where
  | out_of_range
  | invalid_argument
deriving DecidableEq

/-- `text.substr(pos, len)`. -/
def substr (text : Bytes) (pos len : Nat) : Except StdException Bytes :=
  if text.length < pos then .error .out_of_range else .ok ((text.drop pos).take len)

/-- `while (std::isspace(text.at(pos))) pos++`, on the text from `pos` on. -/
def skipSpace (pos : Nat) : Bytes → Except StdException Nat
  | [] => .error .out_of_range
  | ch :: rest => if isspace ch then skipSpace (pos + 1) rest else .ok pos

/-- `std::stoul`: white space, a sign and digits at the front of the text. -/
def stoul (text : Bytes) : Except StdException UInt64 :=
  let text := text.dropWhile isspace
  let unsigned := if text.head? = some 43 ∨ text.head? = some 45 then text.tail else text
  let digits := unsigned.takeWhile isdigit
  if digits = [] then .error .invalid_argument
  else if 2 ^ 64 ≤ value digits then .error .out_of_range
  else
    let number := UInt64.ofNat (value digits)
    .ok (if text.head? = some 45 then 0 - number else number)

def crlf : Bytes := [13, 10]

/-- `"\r\n" + key + ":"` -/
def fieldStart (key : Bytes) : Bytes := crlf ++ key ++ ascii ":"

structure SoapyHTTPHeader where
  storage : Bytes
deriving DecidableEq

namespace SoapyHTTPHeader

/-- `SoapyHTTPHeader(const std::string &line0)`. -/
def ofLine (line0 : Bytes) : SoapyHTTPHeader := ⟨line0 ++ crlf⟩

def addField (header : SoapyHTTPHeader) (key value : Bytes) : SoapyHTTPHeader :=
  ⟨header.storage ++ (key ++ ascii ": " ++ value ++ crlf)⟩

def finalize (header : SoapyHTTPHeader) : SoapyHTTPHeader := ⟨header.storage ++ crlf⟩

def getLine0 (header : SoapyHTTPHeader) : Except StdException Bytes :=
  match find crlf header.storage with
  | none => .ok []
  | some pos => substr header.storage 0 pos

def getField (header : SoapyHTTPHeader) (key : Bytes) : Except StdException Bytes :=
  match find (fieldStart key) header.storage with
  | none => .ok []
  | some pos => do
    let pos := pos + (fieldStart key).length
    let pos ← skipSpace pos (header.storage.drop pos)
    match findFrom crlf pos header.storage with
    | none => .ok []
    | some last => substr header.storage pos (last - pos)

end SoapyHTTPHeader

def Line0 (line text : Bytes) : Prop := line ++ crlf <+: text

/-- There is nothing but white space behind the field. -/
def Blank (key text : Bytes) : Prop :=
  ∃ front back, FoundAt (fieldStart key) text front back ∧ back.all isspace = true

/-- The field has this value: what stands behind the white space up to the end of the line. -/
def Field (key text value : Bytes) : Prop :=
  ∃ front back behind, FoundAt (fieldStart key) text front back ∧
    FoundAt crlf (back.dropWhile isspace) value behind

section Fields

variable {key text : Bytes}

theorem Field.unique {v v' : Bytes} (field : Field key text v) (field' : Field key text v') :
    v = v' := by
  obtain ⟨front, back, behind, found, ends⟩ := field
  obtain ⟨front', back', behind', found', ends'⟩ := field'
  obtain ⟨-, rfl⟩ := found.unique found'
  exact (ends.unique ends').1

theorem dropWhile_all {back : Bytes} : back.dropWhile isspace = [] ↔ back.all isspace = true := by
  rw [List.dropWhile_eq_nil_iff, List.all_eq_true]

theorem Field.ne_nil {v : Bytes} (field : Field key text v) : v ≠ [] := by
  obtain ⟨front, back, behind, -, ends⟩ := field
  rintro rfl
  have whole : back.dropWhile isspace = 13 :: 10 :: behind := ends.whole
  have stops := List.head?_dropWhile_not isspace back
  rw [whole] at stops
  have lineEnd : isspace 13 = false := stops
  exact absurd lineEnd (by decide)

theorem Field.not_blank {v : Bytes} (field : Field key text v) : ¬ Blank key text := by
  rintro ⟨front, back, found, blank⟩
  obtain ⟨front', back', behind, found', ends⟩ := field
  obtain ⟨-, rfl⟩ := found.unique found'
  rw [dropWhile_all.mpr blank] at ends
  have whole := ends.whole
  simp [crlf] at whole

theorem skipSpace_eq (pos : Nat) (rest : Bytes) :
    skipSpace pos rest = if rest.all isspace then .error .out_of_range
      else .ok (pos + (rest.takeWhile isspace).length) := by
  induction rest generalizing pos with
  | nil => rfl
  | cons ch rest ih =>
    rw [skipSpace]
    cases here : isspace ch with
    | false => simp [here]
    | true =>
      rw [if_pos rfl, ih]
      simp only [List.all_cons, here, Bool.true_and, List.takeWhile_cons, if_true,
        List.length_cons]
      congr 2
      omega

theorem substr_ok {pos len : Nat} (inside : pos ≤ text.length) :
    substr text pos len = .ok ((text.drop pos).take len) :=
  if_neg (Nat.not_lt.mpr inside)

theorem getField_cases (header : SoapyHTTPHeader) (key : Bytes) :
    (Blank key header.storage ∧ header.getField key = .error .out_of_range) ∨
    (¬ Blank key header.storage ∧ (∀ v, ¬ Field key header.storage v) ∧
      header.getField key = .ok []) ∨
    ∃ v, Field key header.storage v ∧ header.getField key = .ok v := by
  rw [SoapyHTTPHeader.getField]
  cases search : find (fieldStart key) header.storage with
  | none =>
    have missing := find_eq_none_iff.mp search
    refine .inr (.inl ⟨?_, ?_, rfl⟩)
    · rintro ⟨front, back, found, -⟩
      exact missing ⟨front, back, found.whole.symm⟩
    · rintro v ⟨front, back, behind, found, -⟩
      exact missing ⟨front, back, found.whole.symm⟩
  | some pos =>
    obtain ⟨front, back, found, rfl⟩ := find_eq_some_iff.mp search
    have back_eq : header.storage.drop (front.length + (fieldStart key).length) = back := by
      rw [found.whole]
      exact List.drop_left' List.length_append
    simp only [back_eq, skipSpace_eq]
    by_cases blank : back.all isspace = true
    · rw [if_pos blank]
      exact .inl ⟨⟨front, back, found, blank⟩, rfl⟩
    · rw [if_neg blank]
      have notBlank : ¬ Blank key header.storage := by
        rintro ⟨front', back', found', blank'⟩
        obtain ⟨-, rfl⟩ := found.unique found'
        exact blank blank'
      have behind_eq : header.storage.drop (front.length + (fieldStart key).length +
          (back.takeWhile isspace).length) = back.dropWhile isspace := by
        have split : back.takeWhile isspace ++ back.dropWhile isspace = back :=
          List.takeWhile_append_dropWhile
        rw [← List.drop_drop, back_eq]
        exact (congrArg (List.drop _) split.symm).trans (List.drop_left' rfl)
      have inside : front.length + (fieldStart key).length + (back.takeWhile isspace).length ≤
          header.storage.length := by
        have short := (List.takeWhile_prefix (l := back) isspace).length_le
        rw [found.whole, List.length_append, List.length_append]
        omega
      simp only [bind, Except.bind, findFrom, behind_eq]
      cases last : find crlf (back.dropWhile isspace) with
      | none =>
        have open_ := find_eq_none_iff.mp last
        refine .inr (.inl ⟨notBlank, ?_, rfl⟩)
        rintro v ⟨front', back', behind, found', ends⟩
        obtain ⟨-, rfl⟩ := found.unique found'
        exact open_ ⟨v, behind, ends.whole.symm⟩
      | some len =>
        obtain ⟨v, behind, ends, rfl⟩ := find_eq_some_iff.mp last
        refine .inr (.inr ⟨v, ⟨front, back, behind, found, ends⟩, ?_⟩)
        simp only [Option.map_some, Nat.add_sub_cancel_left, substr_ok inside, behind_eq]
        rw [ends.whole, List.append_assoc, List.take_left' rfl]

theorem getField_of_blank {header : SoapyHTTPHeader} (blank : Blank key header.storage) :
    header.getField key = .error .out_of_range := by
  rcases getField_cases header key with ⟨-, read⟩ | ⟨clear, -⟩ | ⟨v, field, -⟩
  · exact read
  · exact absurd blank clear
  · exact absurd blank field.not_blank

theorem getField_of_not_blank {header : SoapyHTTPHeader} (clear : ¬ Blank key header.storage) :
    ∃ v, header.getField key = .ok v ∧ (v = [] ↔ ∀ w, ¬ Field key header.storage w) ∧
      ∀ w, w ≠ [] → (v = w ↔ Field key header.storage w) := by
  rcases getField_cases header key with ⟨blank, -⟩ | ⟨-, none, read⟩ | ⟨v, field, read⟩
  · exact absurd blank clear
  · refine ⟨[], read, iff_of_true rfl none, ?_⟩
    intro w some_
    exact iff_of_false some_.symm (none w)
  · refine ⟨v, read, iff_of_false field.ne_nil fun none => none v field, ?_⟩
    intro w _
    constructor
    · rintro rfl
      exact field
    · exact field.unique

theorem getLine0_ok (header : SoapyHTTPHeader) : ∃ line, header.getLine0 = .ok line ∧
    ∀ line0, line0 ≠ [] → 13 ∉ line0 → (line = line0 ↔ Line0 line0 header.storage) := by
  rw [SoapyHTTPHeader.getLine0]
  cases search : find crlf header.storage with
  | none =>
    have missing := find_eq_none_iff.mp search
    refine ⟨[], rfl, fun line0 some_ _ => ⟨fun same => absurd same.symm some_, ?_⟩⟩
    rintro ⟨rest, whole⟩
    exact absurd ⟨line0, rest, whole⟩ missing
  | some pos =>
    obtain ⟨front, back, found, rfl⟩ := find_eq_some_iff.mp search
    refine ⟨front, ?_, ?_⟩
    · change substr header.storage 0 front.length = .ok front
      rw [substr_ok (Nat.zero_le _), List.drop_zero, found.whole, List.append_assoc,
        List.take_left' rfl]
    · intro line0 _ plain
      constructor
      · rintro rfl
        exact ⟨back, found.whole.symm⟩
      · rintro ⟨rest, whole⟩
        have here : FoundAt crlf (line0 ++ crlf ++ rest) line0 rest := foundAt_of_not_mem plain
        rw [whole] at here
        exact (found.unique here).1

end Fields

end Soapy.Remote
