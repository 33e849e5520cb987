import Soapy.Remote.HTTPHeader

/-! # What is written into a header and read back

A header is a first line and some fields, each on a line of its own, with an empty line behind
them. The reader finds a field by its name at the front of a line, but the white space that it
skips in front of a value can be a line end.
-/

namespace Soapy.Remote

open Lib
open Soapy.Multi (isspace)

/-- What `addField` writes. -/
def fieldLine (field : Bytes × Bytes) : Bytes := field.1 ++ ascii ": " ++ field.2 ++ crlf

namespace SoapyHTTPHeader

/-- `SoapyHTTPHeader(const void *buff, const size_t length)`. -/
def ofBuff (buff : Bytes) : SoapyHTTPHeader := ⟨buff⟩

def build (line0 : Bytes) (fields : List (Bytes × Bytes)) : SoapyHTTPHeader :=
  (fields.foldl (fun header field => header.addField field.1 field.2) (ofLine line0)).finalize

end SoapyHTTPHeader

def OneLine (text : Bytes) : Prop := 13 ∉ text ∧ 10 ∉ text

structure PlainKey (key : Bytes) : Prop where
  line : OneLine key
  noColon : 58 ∉ key

structure PlainValue (value : Bytes) : Prop where
  line : OneLine value
  front : value.head?.all (fun ch => !isspace ch) = true
  back : value.getLast?.all (fun ch => !isspace ch) = true

def PlainField (field : Bytes × Bytes) : Prop := PlainKey field.1 ∧ PlainValue field.2

instance (text : Bytes) : Decidable (OneLine text) := inferInstanceAs (Decidable (_ ∧ _))

instance (key : Bytes) : Decidable (PlainKey key) :=
  decidable_of_iff (OneLine key ∧ 58 ∉ key) ⟨fun ⟨line, noColon⟩ => ⟨line, noColon⟩,
    fun plain => ⟨plain.line, plain.noColon⟩⟩

instance (value : Bytes) : Decidable (PlainValue value) :=
  decidable_of_iff (OneLine value ∧ value.head?.all (fun ch => !isspace ch) = true ∧
      value.getLast?.all (fun ch => !isspace ch) = true)
    ⟨fun ⟨line, front, back⟩ => ⟨line, front, back⟩,
      fun plain => ⟨plain.line, plain.front, plain.back⟩⟩

instance (field : Bytes × Bytes) : Decidable (PlainField field) :=
  inferInstanceAs (Decidable (_ ∧ _))

def firstValue (key : Bytes) (fields : List (Bytes × Bytes)) : Option Bytes :=
  (fields.find? fun field => field.1 = key).map Prod.snd

section Layout

variable {key line0 value : Bytes} {fields : List (Bytes × Bytes)}

def fieldLines (fields : List (Bytes × Bytes)) : Bytes := fields.flatMap fieldLine ++ crlf

theorem build_storage (line0 : Bytes) (fields : List (Bytes × Bytes)) :
    (SoapyHTTPHeader.build line0 fields).storage = line0 ++ crlf ++ fieldLines fields := by
  have added (header : SoapyHTTPHeader) :
      (fields.foldl (fun header field => header.addField field.1 field.2) header).storage =
        header.storage ++ fields.flatMap fieldLine := by
    induction fields generalizing header with
    | nil => exact (List.append_nil _).symm
    | cons field fields ih =>
      rw [List.foldl_cons, ih, List.flatMap_cons, ← List.append_assoc]
      rfl
  rw [SoapyHTTPHeader.build, SoapyHTTPHeader.finalize, added, fieldLines, ← List.append_assoc]
  rfl

theorem fieldLines_cons (field : Bytes × Bytes) (fields : List (Bytes × Bytes)) :
    fieldLines (field :: fields) =
      field.1 ++ ascii ":" ++ (ascii " " ++ field.2 ++ crlf ++ fieldLines fields) := by
  have mark : ascii ": " = ascii ":" ++ ascii " " := rfl
  simp [fieldLines, fieldLine, mark]

theorem key_in_front {key key' : Bytes} {rest : Bytes} (plain : PlainKey key)
    (plain' : PlainKey key') (first : key ++ ascii ":" <+: key' ++ ascii ":" ++ rest) :
    key = key' := by
  obtain ⟨rest', whole⟩ := first
  have here : FoundAt (ascii ":") (key ++ ascii ":" ++ rest') key rest' :=
    foundAt_of_not_mem plain.noColon
  have here' : FoundAt (ascii ":") (key' ++ ascii ":" ++ rest) key' rest :=
    foundAt_of_not_mem plain'.noColon
  rw [whole] at here
  exact (here.unique here').1

theorem not_fieldStart {field : Bytes × Bytes} (plain : PlainKey key)
    (plain' : PlainField field) (other : field.1 ≠ key) :
    ¬ fieldStart key <+: crlf ++ fieldLines (field :: fields) := by
  intro first
  rw [fieldLines_cons, fieldStart, List.append_assoc, List.prefix_append_right_inj] at first
  exact other (key_in_front plain plain'.1 first).symm

theorem fieldStart_behind {front : Bytes} (line : 13 ∉ front) (rest : Bytes)
    (apart : ¬ fieldStart key <+: crlf ++ rest) (found : fieldStart key <:+: front ++ crlf ++ rest) :
    fieldStart key <:+: rest := by
  rw [List.append_assoc] at found
  rcases List.infix_cons_iff.mp (infix_behind line found) with first | later
  · exact absurd first apart
  · rcases List.infix_cons_iff.mp later with ⟨rest', whole⟩ | behind
    · exact absurd (List.cons.inj whole).1 (by decide)
    · exact behind

theorem foundAt_line {front rest front' back : Bytes} (line : 13 ∉ front)
    (apart : ¬ fieldStart key <+: crlf ++ rest)
    (found : FoundAt (fieldStart key) rest front' back) :
    FoundAt (fieldStart key) (front ++ crlf ++ rest) (front ++ (crlf ++ front')) back := by
  rw [List.append_assoc]
  apply FoundAt.behind _ line
  apply FoundAt.cons _ apart
  apply FoundAt.cons found
  rintro ⟨rest', whole⟩
  exact absurd (List.cons.inj whole).1 (by decide)

theorem PlainField.line {field : Bytes × Bytes} (plain : PlainField field) :
    13 ∉ field.1 ++ ascii ": " ++ field.2 := by
  simp only [List.mem_append, not_or]
  exact ⟨⟨plain.1.line.1, by decide⟩, plain.2.line.1⟩

theorem fieldLines_next (field : Bytes × Bytes) (fields : List (Bytes × Bytes)) :
    fieldLines (field :: fields) =
      field.1 ++ ascii ": " ++ field.2 ++ crlf ++ fieldLines fields := by
  simp [fieldLines, fieldLine]

/-- A name that no field has does not begin a line. The induction is on the fields, and `front` is
the line before them. -/
theorem fieldStart_missing {front : Bytes} (plain : PlainKey key)
    (plains : ∀ field ∈ fields, PlainField field) (missing : firstValue key fields = none)
    (line : 13 ∉ front) : ¬ fieldStart key <:+: front ++ crlf ++ fieldLines fields := by
  induction fields generalizing front with
  | nil =>
    intro found
    rw [List.append_assoc] at found
    have colon : 58 ∈ fieldStart key := by simp [fieldStart, ascii]
    have member : 58 ∈ crlf ++ crlf := (infix_behind line found).subset colon
    exact absurd member (by decide)
  | cons field fields ih =>
    obtain ⟨plain', plains'⟩ := List.forall_mem_cons.mp plains
    have other : field.1 ≠ key := by
      intro same
      simp [firstValue, same] at missing
    have missing' : firstValue key fields = none := by
      simpa [firstValue, other] using missing
    intro found
    have behind := fieldStart_behind line _ (not_fieldStart plain plain' other) found
    rw [fieldLines_next] at behind
    exact ih plains' missing' plain'.line behind

theorem fieldStart_found {front : Bytes} (plain : PlainKey key)
    (plains : ∀ field ∈ fields, PlainField field) (first : firstValue key fields = some value)
    (line : 13 ∉ front) :
    ∃ front' fields', FoundAt (fieldStart key) (front ++ crlf ++ fieldLines fields) front'
      (ascii " " ++ value ++ crlf ++ fieldLines fields') ∧ PlainValue value := by
  induction fields generalizing front with
  | nil => cases first
  | cons field fields ih =>
    obtain ⟨plain', plains'⟩ := List.forall_mem_cons.mp plains
    by_cases here : field.1 = key
    · have same : field.2 = value := by
        simpa [firstValue, here] using first
      subst same
      refine ⟨front, fields, ?_, plain'.2⟩
      have found : FoundAt (fieldStart key)
          (front ++ fieldStart key ++ (ascii " " ++ field.2 ++ crlf ++ fieldLines fields)) front
          (ascii " " ++ field.2 ++ crlf ++ fieldLines fields) := foundAt_of_not_mem line
      have text : front ++ crlf ++ fieldLines (field :: fields) =
          front ++ fieldStart key ++ (ascii " " ++ field.2 ++ crlf ++ fieldLines fields) := by
        rw [fieldLines_cons, here, fieldStart]
        simp
      rw [text]
      exact found
    · have first' : firstValue key fields = some value := by
        simpa [firstValue, here] using first
      obtain ⟨front', fields', found, value_plain⟩ := ih plains' first' plain'.line
      rw [← fieldLines_next] at found
      exact ⟨_, fields', foundAt_line line (not_fieldStart plain plain' here) found, value_plain⟩

end Layout

section Reading

variable {key line0 value : Bytes} {fields : List (Bytes × Bytes)}

theorem getLine0_build (line : OneLine line0) :
    (SoapyHTTPHeader.build line0 fields).getLine0 = .ok line0 := by
  have found : FoundAt crlf (line0 ++ crlf ++ fieldLines fields) line0 (fieldLines fields) :=
    foundAt_of_not_mem line.1
  have place : find crlf (SoapyHTTPHeader.build line0 fields).storage = some line0.length := by
    rw [build_storage]
    exact find_eq_some_iff.mpr ⟨line0, _, found, rfl⟩
  rw [SoapyHTTPHeader.getLine0, place]
  change substr _ 0 line0.length = _
  rw [substr_ok (Nat.zero_le _), List.drop_zero, build_storage, List.append_assoc,
    List.take_left' rfl]

theorem field_of_first {text front rest : Bytes} (some_ : value ≠ []) (plain : PlainValue value)
    (found : FoundAt (fieldStart key) text front (ascii " " ++ value ++ crlf ++ rest)) :
    Field key text value := by
  refine ⟨front, _, rest, found, ?_⟩
  have skipped : (ascii " " ++ value ++ crlf ++ rest).dropWhile isspace = value ++ crlf ++ rest := by
    cases value with
    | nil => exact absurd rfl some_
    | cons ch value =>
      have stops : isspace ch = false := by simpa using plain.front
      have blank : isspace 32 = true := by decide
      change List.dropWhile isspace (32 :: ch :: (value ++ crlf ++ rest)) = _
      rw [List.dropWhile_cons_of_pos blank, List.dropWhile_cons_of_neg (by rw [stops]; nofun)]
      rfl
  rw [skipped]
  exact foundAt_of_not_mem plain.line.1

theorem field_of_lines {text front rest : Bytes}
    (found : FoundAt (fieldStart key) text front (rest ++ fieldLines fields))
    (more : ¬ Blank key text) : ∃ v, Field key text v := by
  have dropped : (rest ++ fields.flatMap fieldLine).dropWhile isspace ≠ [] := by
    intro blank
    apply more
    refine ⟨front, _, found, ?_⟩
    rw [fieldLines, ← List.append_assoc, List.all_append, dropWhile_all.mp blank]
    rfl
  have ends : crlf <:+: (rest ++ fieldLines fields).dropWhile isspace := by
    rw [fieldLines, ← List.append_assoc, List.dropWhile_append,
      if_neg (by rwa [List.isEmpty_iff])]
    exact List.infix_append_right
  obtain ⟨v, behind, last⟩ := exists_foundAt ends
  exact ⟨v, front, _, behind, found, last⟩

theorem getField_build_iff (plain : PlainKey key) (line : OneLine line0)
    (plains : ∀ field ∈ fields, PlainField field) :
    (SoapyHTTPHeader.build line0 fields).getField key = .ok ((firstValue key fields).getD []) ↔
      firstValue key fields ≠ some [] := by
  cases first : firstValue key fields with
  | none =>
    have missing := fieldStart_missing plain plains first line.1
    rw [← build_storage] at missing
    rw [SoapyHTTPHeader.getField, find_eq_none_iff.mpr missing]
    exact iff_of_true rfl (by rintro ⟨⟩)
  | some value =>
    obtain ⟨front, fields', found, value_plain⟩ :=
      fieldStart_found plain plains first line.1
    rw [← build_storage] at found
    rw [Option.getD_some, ne_eq, Option.some.injEq]
    rcases getField_cases (SoapyHTTPHeader.build line0 fields) key with
      ⟨blank, read⟩ | ⟨more, none, -⟩ | ⟨v, field, read⟩
    · rw [read]
      refine iff_of_false (by rintro ⟨⟩) fun some_ => ?_
      exact (field_of_first some_ value_plain found).not_blank blank
    · obtain ⟨v, field⟩ := field_of_lines found more
      exact absurd field (none v)
    · rw [read, Except.ok.injEq]
      constructor
      · rintro rfl
        exact field.ne_nil
      · intro some_
        exact field.unique (field_of_first some_ value_plain found)

end Reading

/-- A header that is built is read back, except where the first field of the name is empty. -/
theorem header_read_iff (line0 : Bytes) (fields : List (Bytes × Bytes)) (line : OneLine line0)
    (plains : ∀ field ∈ fields, PlainField field) :
    (SoapyHTTPHeader.ofBuff (SoapyHTTPHeader.build line0 fields).storage).getLine0 = .ok line0 ∧
    ∀ key, PlainKey key →
      ((SoapyHTTPHeader.ofBuff (SoapyHTTPHeader.build line0 fields).storage).getField key =
          .ok ((firstValue key fields).getD []) ↔
        firstValue key fields ≠ some []) :=
  ⟨getLine0_build line, fun _ plain => getField_build_iff plain line plains⟩

/-- The fields of a response to a search, as far as they follow the empty one. -/
def responseFields : List (Bytes × Bytes) :=
  [(ascii "CACHE-CONTROL", ascii "max-age=120"), (ascii "EXT", []),
    (ascii "LOCATION", ascii "tcp://host:1")]

theorem location_read : (SoapyHTTPHeader.ofBuff (SoapyHTTPHeader.build (ascii "HTTP/1.1 200 OK")
    responseFields).storage).getField (ascii "LOCATION") = .ok (ascii "tcp://host:1") :=
  ((header_read_iff _ responseFields (by decide) (by decide)).2 (ascii "LOCATION")
    (by decide)).mpr (by decide)

/-- The empty value is read as the next line. -/
theorem ext_reads_location : ¬ ∀ (line0 : Bytes) (fields : List (Bytes × Bytes)),
    OneLine line0 → (∀ field ∈ fields, PlainField field) →
    (SoapyHTTPHeader.ofBuff (SoapyHTTPHeader.build line0 fields).storage).getLine0 = .ok line0 ∧
    ∀ key, PlainKey key →
      (SoapyHTTPHeader.ofBuff (SoapyHTTPHeader.build line0 fields).storage).getField key =
        .ok ((firstValue key fields).getD []) := by
  intro all
  have read := (all (ascii "HTTP/1.1 200 OK") responseFields (by decide) (by decide)).2
    (ascii "EXT") (by decide)
  have here : (SoapyHTTPHeader.ofBuff (SoapyHTTPHeader.build (ascii "HTTP/1.1 200 OK")
      responseFields).storage).getField (ascii "EXT") = .ok (ascii "LOCATION: tcp://host:1") := by
    decide +kernel
  rw [here] at read
  exact absurd read (by decide)

end Soapy.Remote
