import Soapy.Rtl.Adsb

/-! # What the demodulator decodes

Each turn of the outer loop takes samples off the front of what is left. In the buffer the bits
stand where these samples stood, one for two of them, and marks behind them.
-/

namespace Soapy.Rtl.Adsb

open Lib

variable {quality : Int} {allowed_errors : Nat}

/-- The bits that the bit loop makes of samples, whether it broke off, and what it leaves. -/
structure Heard where
  bits : List UInt16
  broke : Bool
  a : UInt16
  b : UInt16
  rest : List Cell
deriving DecidableEq

def Heard.cons (bit : UInt16) (h : Heard) : Heard := { h with bits := bit :: h.bits }

def hear (quality : Int) (allowed_errors : Nat) : UInt16 → UInt16 → Nat → List Cell → Heard
  | a, b, errors, c :: d :: rest =>
    if single_manchester quality a b c.value d.value = BADSAMPLE then
      if allowed_errors < errors + 1 then ⟨[], true, c.value, d.value, c :: d :: rest⟩
      else
        (hear quality allowed_errors 0 65535 (errors + 1) rest).cons
          (flag (decide (c.value > d.value)))
    else
      (hear quality allowed_errors c.value d.value errors rest).cons
        (single_manchester quality a b c.value d.value)
  | a, b, _, rest => ⟨[], false, a, b, rest⟩

def bitCell (owner : Option Nat) (v : UInt16) : Cell := ⟨v, .bit owner⟩

/-- The marks behind so many bits. -/
def marks (broke : Bool) (n : Nat) : List Cell :=
  if broke then mark BADSAMPLE :: List.replicate (n - 1) (mark OVERWRITE)
  else List.replicate n (mark OVERWRITE)

/-- What stands in the buffer then. -/
def Heard.cells (owner : Option Nat) (h : Heard) : List Cell :=
  if h.bits = [] then [] else h.bits.map (bitCell owner) ++ marks h.broke h.bits.length

/-- Where the loop breaks off at once, it marks the sample with which the search goes on. -/
def Heard.left (h : Heard) : List Cell :=
  if h.bits = [] ∧ h.broke then mark BADSAMPLE :: h.rest.tail else h.rest

def firstPreamble : List Cell → Option (List Cell × List Cell)
  | [] => none
  | c :: rest =>
    if preamble_len < (c :: rest).length then
      if preamble (c :: rest) 0 = some true then some ([], c :: rest)
      else (firstPreamble rest).map fun found => (c :: found.1, found.2)
    else none

/-- A part of the buffer: what no preamble was heard for, or the bits behind a preamble. -/
inductive Part where
  | noise (cells : List Cell)
  | message (owner : Nat) (h : Heard)
deriving DecidableEq

def Part.cells : Part → List Cell
  | .noise cells => cells
  | .message owner h =>
    List.replicate preamble_len (mark MESSAGEGO) ++ h.cells (some owner)

/-- A turn makes parts of some samples and leaves the others. -/
structure Round where
  parts : List Part
  a : UInt16
  b : UInt16
  left : List Cell
deriving DecidableEq

def valueAt (cells : List Cell) (i : Nat) : UInt16 := (cells[i]?.map Cell.value).getD 0

def listen (quality : Int) (allowed_errors pos : Nat) (a b : UInt16) (rest : List Cell) : Round :=
  match firstPreamble rest with
  | some (skipped, found) =>
    let h := hear quality allowed_errors (valueAt found 0) (valueAt found 1) 0
      (found.drop preamble_len)
    ⟨[.noise skipped, .message (pos + skipped.length + preamble_len) h], h.a, h.b, h.left⟩
  | none =>
    let h := hear quality allowed_errors a b 0 (rest.drop (rest.length - preamble_len))
    ⟨[.noise (rest.take (rest.length - preamble_len) ++ h.cells none)], h.a, h.b, h.left⟩

inductive Decodes (quality : Int) (allowed_errors : Nat) :
    Nat → UInt16 → UInt16 → List Cell → List Part → Prop where
  | done {pos a b rest} : rest.length ≤ 1 →
      Decodes quality allowed_errors pos a b rest [.noise rest]
  | turn {pos a b rest parts} : 1 < rest.length →
      Decodes quality allowed_errors
        (pos + rest.length - (listen quality allowed_errors pos a b rest).left.length)
        (listen quality allowed_errors pos a b rest).a
        (listen quality allowed_errors pos a b rest).b
        (listen quality allowed_errors pos a b rest).left parts →
      Decodes quality allowed_errors pos a b rest
        ((listen quality allowed_errors pos a b rest).parts ++ parts)

variable (quality allowed_errors) in
theorem hear_rest (a b : UInt16) (errors : Nat) (cells : List Cell) :
    (hear quality allowed_errors a b errors cells).rest.length +
      2 * (hear quality allowed_errors a b errors cells).bits.length = cells.length := by
  fun_induction hear quality allowed_errors a b errors cells with
  | case1 => rfl
  | case2 a b errors c d rest bad more ih =>
    simp only [Heard.cons, List.length_cons]
    omega
  | case3 a b errors c d rest good ih =>
    simp only [Heard.cons, List.length_cons]
    omega
  | case4 => rfl

theorem hear_suffix (a b : UInt16) (errors : Nat) (cells : List Cell) :
    (hear quality allowed_errors a b errors cells).rest <:+ cells := by
  fun_induction hear quality allowed_errors a b errors cells with
  | case1 => exact List.suffix_refl _
  | case2 a b errors c d rest bad more ih =>
    exact ih.trans ((List.suffix_cons d rest).trans (List.suffix_cons c _))
  | case3 a b errors c d rest good ih =>
    exact ih.trans ((List.suffix_cons d rest).trans (List.suffix_cons c _))
  | case4 => exact List.suffix_refl _

theorem hear_broke {a b : UInt16} {errors : Nat} {cells : List Cell}
    (broke : (hear quality allowed_errors a b errors cells).broke = true) :
    2 ≤ (hear quality allowed_errors a b errors cells).rest.length := by
  fun_induction hear quality allowed_errors a b errors cells with
  | case1 a b errors c d rest => exact Nat.le_add_left 2 rest.length
  | case2 a b errors c d rest bad more ih => exact ih broke
  | case3 a b errors c d rest good ih => exact ih broke
  | case4 => cases broke

theorem marks_length {broke : Bool} {n : Nat} (some_bit : 0 < n) : (marks broke n).length = n := by
  cases broke with
  | false => simp [marks]
  | true =>
    simp only [marks, if_true, List.length_cons, List.length_replicate]
    omega

theorem Heard.cells_length (owner : Option Nat) (h : Heard) :
    (h.cells owner).length = 2 * h.bits.length := by
  unfold Heard.cells
  split
  · rename_i none
    simp [none]
  · rename_i some_bit
    rw [List.length_append, List.length_map, marks_length (List.length_pos_iff.mpr some_bit)]
    omega

variable (quality allowed_errors) in
theorem hear_left (a b : UInt16) (errors : Nat) (cells : List Cell) :
    (hear quality allowed_errors a b errors cells).left.length +
      2 * (hear quality allowed_errors a b errors cells).bits.length = cells.length := by
  have rest := hear_rest quality allowed_errors a b errors cells
  unfold Heard.left
  split
  · rename_i at_once
    have two := hear_broke at_once.2
    rw [List.length_cons, List.length_tail]
    omega
  · exact rest

theorem write_append {before after : List Cell} {c : Cell} {i : Nat} (here : i = before.length)
    (v : Cell) : write (before ++ c :: after) i v = some (before ++ v :: after) := by
  subst here
  rw [write, if_pos (by simp), List.set_append_right _ _ (Nat.le_refl _), Nat.sub_self]
  rfl

theorem getElem?_pair {before after : List Cell} {c d : Cell} {i : Nat} (here : i = before.length) :
    (before ++ c :: d :: after)[i]? = some c ∧ (before ++ c :: d :: after)[i + 1]? = some d := by
  subst here
  constructor
  · rw [List.getElem?_append_right (Nat.le_refl _), Nat.sub_self]
    rfl
  · rw [List.getElem?_append_right (Nat.le_add_right _ 1), Nat.add_sub_cancel_left]
    rfl

theorem put_eq {s : Demod} {done rest : List Cell} {bits : List UInt16} {c d : Cell} (bit : UInt16)
    (buf : s.buf = done ++ bits.map (bitCell s.heard) ++
      List.replicate bits.length (mark OVERWRITE) ++ c :: d :: rest)
    (here : s.i = done.length + 2 * bits.length) :
    s.put (done.length + bits.length) bit =
      some (done ++ (bits ++ [bit]).map (bitCell s.heard) ++
        List.replicate (bits.length + 1) (mark OVERWRITE) ++ rest) := by
  have before : s.i = (done ++ bits.map (bitCell s.heard) ++
      List.replicate bits.length (mark OVERWRITE)).length := by
    simp only [List.length_append, List.length_map, List.length_replicate]
    omega
  have first : write s.buf (s.i + 1) (mark OVERWRITE) =
      some (done ++ bits.map (bitCell s.heard) ++
        List.replicate bits.length (mark OVERWRITE) ++ c :: mark OVERWRITE :: rest) := by
    rw [buf, List.append_cons, write_append (by rw [List.length_append, ← before]; rfl),
      ← List.append_cons]
  have ring : List.replicate bits.length (mark OVERWRITE) ++
      mark OVERWRITE :: mark OVERWRITE :: rest =
        mark OVERWRITE :: (List.replicate (bits.length + 1) (mark OVERWRITE) ++ rest) := by
    rw [List.append_cons, List.append_cons, ← List.replicate_succ', ← List.replicate_succ']
    rfl
  rw [Demod.put, first]
  simp only [Option.bind_eq_bind, Option.bind_some]
  rw [write_append before]
  simp only [Option.bind_some]
  rw [List.append_assoc, ring, write_append (by simp)]
  simp [bitCell]

/-- The buffer while the bit loop runs: `bits` are those that it has put there. -/
structure Demod.Marks (s : Demod) (done : List Cell) (bits : List UInt16) (rest : List Cell) :
    Prop where
  buf : s.buf = done ++ bits.map (bitCell s.heard) ++
    List.replicate bits.length (mark OVERWRITE) ++ rest
  here : s.i = done.length + 2 * bits.length

section Marks

variable {s : Demod} {done rest : List Cell} {bits : List UInt16} {c d : Cell}

theorem Demod.Marks.before (marks : s.Marks done bits rest) :
    s.i = (done ++ bits.map (bitCell s.heard) ++
      List.replicate bits.length (mark OVERWRITE)).length := by
  have here := marks.here
  simp only [List.length_append, List.length_map, List.length_replicate]
  omega

theorem Demod.Marks.length (marks : s.Marks done bits rest) :
    s.buf.length = s.i + rest.length := by
  rw [marks.buf, List.length_append, ← marks.before]

theorem Demod.Marks.reads (marks : s.Marks done bits (c :: d :: rest)) :
    s.i < s.buf.length - 1 ∧ s.buf[s.i]? = some c ∧ s.buf[s.i + 1]? = some d := by
  obtain ⟨first, second⟩ := getElem?_pair (c := c) (d := d) marks.before
  have length := marks.length
  rw [← marks.buf] at first second
  rw [List.length_cons, List.length_cons] at length
  exact ⟨by omega, first, second⟩

theorem Demod.Marks.put (marks : s.Marks done bits (c :: d :: rest)) (a b bit : UInt16) :
    ∃ buf, s.put (done.length + bits.length) bit = some buf ∧ buf.length = s.buf.length ∧
      Demod.Marks ⟨buf, a, b, s.i + 2, s.heard⟩ done (bits ++ [bit]) rest := by
  have length := marks.length
  have before := marks.before
  have here := marks.here
  refine ⟨_, put_eq bit marks.buf marks.here, ?_, by simp, by simp; omega⟩
  simp only [List.length_append, List.length_map, List.length_replicate, List.length_cons,
    List.length_nil] at length before ⊢
  omega

theorem Demod.Marks.breaks (marks : s.Marks done bits (c :: d :: rest)) (a b : UInt16) :
    ∃ buf, write s.buf (done.length + bits.length) (mark BADSAMPLE) = some buf ∧
      buf = done ++ Heard.cells s.heard ⟨bits, true, a, b, c :: d :: rest⟩ ++
        Heard.left ⟨bits, true, a, b, c :: d :: rest⟩ := by
  rw [marks.buf]
  cases bits with
  | nil =>
    refine ⟨_, by simpa using write_append rfl _, ?_⟩
    simp [Heard.cells, Heard.left]
  | cons v bits =>
    have apart : done ++ (v :: bits).map (bitCell s.heard) ++
        List.replicate (v :: bits).length (mark OVERWRITE) ++ c :: d :: rest =
        done ++ (v :: bits).map (bitCell s.heard) ++ mark OVERWRITE ::
          (List.replicate bits.length (mark OVERWRITE) ++ c :: d :: rest) := by
      rw [List.append_assoc]
      rfl
    rw [apart]
    refine ⟨_, write_append (by simp) _, ?_⟩
    simp [Heard.cells, Heard.left, Adsb.marks]

end Marks

theorem markBits_eq {s : Demod} {done rest : List Cell} {bits : List UInt16} {errors : Nat}
    (marks : s.Marks done bits rest) {h whole : Heard}
    (heard : hear quality allowed_errors s.a s.b errors rest = h)
    (all : whole = { h with bits := bits ++ h.bits }) :
    markBits quality allowed_errors s.buf.length s (done.length + bits.length) errors =
      some ⟨done ++ whole.cells s.heard ++ whole.left, h.a, h.b,
        done.length + 2 * whole.bits.length, s.heard⟩ := by
  generalize on : s.a = a at heard
  generalize on' : s.b = b at heard
  fun_induction hear quality allowed_errors a b errors rest generalizing s bits h whole with
  | case1 a b errors c d rest bad past =>
    obtain ⟨within, first, second⟩ := marks.reads
    obtain ⟨buf, written, same⟩ := marks.breaks c.value d.value
    subst heard on on' all
    rw [markBits, dif_pos within, first, second]
    simp only [Option.bind_eq_bind, Option.bind_some]
    rw [if_pos bad, if_pos past, written, same]
    simp [marks.here]
  | case2 a b errors c d rest bad more ih =>
    obtain ⟨within, first, second⟩ := marks.reads
    obtain ⟨buf, put, length, next⟩ := marks.put 0 65535 (flag (decide (c.value > d.value)))
    subst heard on on'
    rw [markBits, dif_pos within, first, second]
    simp only [Option.bind_eq_bind, Option.bind_some]
    rw [if_pos bad, if_neg more, put]
    simp only [Option.bind_some]
    rw [← length]
    have later := ih next (by rw [all]; simp [Heard.cons] : whole = _) rfl rfl rfl
    rw [List.length_append, List.length_singleton, ← Nat.add_assoc] at later
    exact later
  | case3 a b errors c d rest good ih =>
    obtain ⟨within, first, second⟩ := marks.reads
    obtain ⟨buf, put, length, next⟩ := marks.put c.value d.value
      (single_manchester quality a b c.value d.value)
    subst heard on on'
    rw [markBits, dif_pos within, first, second]
    simp only [Option.bind_eq_bind, Option.bind_some]
    rw [if_neg good, put]
    simp only [Option.bind_some]
    rw [← length]
    have later := ih next (by rw [all]; simp [Heard.cons] : whole = _) rfl rfl rfl
    rw [List.length_append, List.length_singleton, ← Nat.add_assoc] at later
    exact later
  | case4 a b errors rest few =>
    have length := marks.length
    subst heard on on' all
    have short : rest.length ≤ 1 := by
      match rest, few with
      | [], _ => exact Nat.zero_le _
      | [_], _ => exact Nat.le_refl _
      | c :: d :: rest, few => exact absurd rfl (few c d rest)
    rw [markBits, dif_neg (by omega)]
    refine congrArg some (Demod.ext ?_ rfl rfl (by simpa using marks.here) rfl)
    cases bits with
    | nil => simpa [Heard.cells, Heard.left] using marks.buf
    | cons v bits => simpa [Heard.cells, Heard.left, Adsb.marks] using marks.buf

theorem preambleFrom_append (done rest : List Cell) (low high : UInt16) (is : List Nat) :
    preambleFrom (done ++ rest) done.length low high is = preambleFrom rest 0 low high is := by
  induction is generalizing low high with
  | nil => rfl
  | cons i is ih =>
    have same : (done ++ rest)[done.length + i]? = rest[0 + i]? := by
      rw [List.getElem?_append_right (Nat.le_add_right _ _), Nat.add_sub_cancel_left, Nat.zero_add]
    simp only [preambleFrom, same, ih]

theorem preamble_append (done rest : List Cell) :
    preamble (done ++ rest) done.length = preamble rest 0 :=
  preambleFrom_append done rest 0 65535 _

theorem preambleFrom_reads {rest : List Cell} (low high : UInt16) {is : List Nat}
    (inside : ∀ i ∈ is, i < rest.length) : ∃ found, preambleFrom rest 0 low high is = some found := by
  induction is generalizing low high with
  | nil => exact ⟨true, rfl⟩
  | cons i is ih =>
    have here := inside i List.mem_cons_self
    rw [← Nat.zero_add i] at here
    rw [preambleFrom, List.getElem?_eq_getElem here]
    simp only [Option.bind_eq_bind, Option.bind_some]
    generalize (if i = 0 ∨ i = 2 ∨ i = 7 ∨ i = 9 then rest[0 + i].value else high) = high'
    generalize (if i = 0 ∨ i = 2 ∨ i = 7 ∨ i = 9 then low else rest[0 + i].value) = low'
    split
    · exact ⟨false, rfl⟩
    · exact ih low' high' fun i' member => inside i' (List.mem_cons_of_mem i member)

theorem preamble_reads {rest : List Cell} (long : preamble_len ≤ rest.length) :
    ∃ found, preamble rest 0 = some found :=
  preambleFrom_reads 0 65535 fun _ member => Nat.lt_of_lt_of_le (List.mem_range.mp member) long

theorem messagego_eq (before : List Cell) {found : List Cell} (k n : Nat) (long : k + n ≤ found.length) :
    messagego before.length (List.range' k n)
        (before ++ List.replicate k (mark MESSAGEGO) ++ found.drop k) =
      some (before ++ List.replicate (k + n) (mark MESSAGEGO) ++ found.drop (k + n)) := by
  induction n generalizing k with
  | zero => rfl
  | succ n ih =>
    have inside : k < found.length := by omega
    have first : found.drop k = found[k] :: found.drop (k + 1) :=
      List.drop_eq_getElem_cons inside
    have ring : before ++ List.replicate k (mark MESSAGEGO) ++ mark MESSAGEGO :: found.drop (k + 1) =
        before ++ List.replicate (k + 1) (mark MESSAGEGO) ++ found.drop (k + 1) := by
      rw [List.replicate_succ', List.append_cons, List.append_assoc before]
    rw [List.range'_succ, messagego, first, write_append (by simp)]
    simp only [Option.bind_eq_bind, Option.bind_some]
    rw [ring, ih (k + 1) (by omega), Nat.add_right_comm k 1 n]
    rfl

theorem firstPreamble_far {c : Cell} {rest : List Cell} (few : ¬ preamble_len < (c :: rest).length) :
    firstPreamble (c :: rest) = none := by
  rw [firstPreamble, if_neg few]

theorem firstPreamble_here {c : Cell} {rest : List Cell} (long : preamble_len < (c :: rest).length)
    (found : preamble (c :: rest) 0 = some true) :
    firstPreamble (c :: rest) = some ([], c :: rest) := by
  rw [firstPreamble, if_pos long, if_pos found]

theorem firstPreamble_skip {c : Cell} {rest : List Cell} (long : preamble_len < (c :: rest).length)
    (other : preamble (c :: rest) 0 = some false) :
    firstPreamble (c :: rest) = (firstPreamble rest).map fun found => (c :: found.1, found.2) := by
  rw [firstPreamble, if_pos long, other, if_neg (by decide)]

/-- What the search leaves. -/
def Demod.found (s : Demod) (done : List Cell) (rest : List Cell) : Demod :=
  match firstPreamble rest with
  | some (skipped, found) =>
    ⟨done ++ skipped ++ List.replicate preamble_len (mark MESSAGEGO) ++ found.drop preamble_len,
      valueAt found 0, valueAt found 1, done.length + skipped.length + preamble_len,
      some (done.length + skipped.length + preamble_len)⟩
  | none =>
    ⟨s.buf, s.a, s.b, done.length + (rest.length - preamble_len), none⟩

theorem valueAt_zero (c : Cell) (rest : List Cell) : valueAt (c :: rest) 0 = c.value := rfl

theorem valueAt_one (c d : Cell) (rest : List Cell) : valueAt (c :: d :: rest) 1 = d.value := rfl

theorem searchFrom_eq {s : Demod} {done rest : List Cell} (buf : s.buf = done ++ rest)
    (here : s.i = done.length) :
    searchFrom (rest.length - preamble_len) s = some (s.found done rest) := by
  induction rest generalizing s done with
  | nil => exact congrArg some (Demod.ext rfl rfl rfl here rfl)
  | cons c rest ih =>
    by_cases long : preamble_len < (c :: rest).length
    · obtain ⟨found, reads⟩ := preamble_reads (Nat.le_of_lt long)
      have reads' : preamble s.buf s.i = some found := by rw [buf, here, preamble_append, reads]
      have more : (c :: rest).length - preamble_len = rest.length - preamble_len + 1 := by
        rw [List.length_cons] at long ⊢
        omega
      rw [more, searchFrom, reads']
      simp only [Option.bind_eq_bind, Option.bind_some]
      cases found with
      | true =>
        rw [Demod.found, firstPreamble_here long reads]
        cases rest with
        | nil =>
          rw [List.length_singleton] at long
          exact absurd long (by decide)
        | cons d rest =>
          obtain ⟨first, second⟩ :=
            getElem?_pair (c := c) (d := d) rfl
          have marked := messagego_eq done 0 preamble_len
            (by rw [Nat.zero_add]; exact Nat.le_of_lt long)
          rw [← List.range_eq_range', List.replicate_zero, List.append_nil, List.drop_zero,
            Nat.zero_add] at marked
          rw [buf, here, first, second]
          simp only [if_true, Option.bind_some]
          rw [marked]
          simp [valueAt_zero, valueAt_one]
      | false =>
        have later := ih (s := { s with i := s.i + 1 })
          (by simpa using buf : s.buf = done ++ [c] ++ _) (by simpa using here)
        rw [if_neg (by decide), later, Demod.found, Demod.found, firstPreamble_skip long reads]
        cases firstPreamble rest with
        | none =>
          refine congrArg some (Demod.ext rfl rfl rfl ?_ rfl)
          simp only [Option.map_none, more, List.length_append, List.length_singleton]
          omega
        | some found =>
          refine congrArg some (Demod.ext ?_ rfl rfl ?_ ?_)
          · simp
          · simp
            omega
          · simp
            omega
    · have few : (c :: rest).length - preamble_len = 0 := by omega
      rw [few, Demod.found, firstPreamble_far long, few]
      exact congrArg some (Demod.ext rfl rfl rfl here rfl)

theorem search_eq {s : Demod} {done rest : List Cell} (buf : s.buf = done ++ rest)
    (here : s.i = done.length) : search s.buf.length s = some (s.found done rest) := by
  have count : s.buf.length - preamble_len - s.i = rest.length - preamble_len := by
    rw [buf, here, List.length_append]
    omega
  rw [search, count, searchFrom_eq buf here]

theorem firstPreamble_some {rest skipped found : List Cell}
    (first : firstPreamble rest = some (skipped, found)) :
    rest = skipped ++ found ∧ preamble_len < found.length := by
  induction rest generalizing skipped with
  | nil => cases first
  | cons c rest ih =>
    unfold firstPreamble at first
    split at first
    · rename_i long
      split at first
      · cases first
        exact ⟨rfl, long⟩
      · cases later : firstPreamble rest with
        | none =>
          rw [later] at first
          cases first
        | some found' =>
          rw [later] at first
          cases first
          obtain ⟨same, long⟩ := ih later
          exact ⟨congrArg (c :: ·) same, long⟩
    · cases first

/-- The state behind some parts, in front of what is left. -/
structure Demod.Behind (s' s : Demod) (done left : List Cell) (a b : UInt16) : Prop where
  buf : s'.buf = done ++ left
  here : s'.i = done.length
  length : s'.buf.length = s.buf.length
  on : s'.a = a
  on' : s'.b = b

theorem markBits_start {s : Demod} {done rest : List Cell} (buf : s.buf = done ++ rest)
    (here : s.i = done.length) {h : Heard}
    (heard : hear quality allowed_errors s.a s.b 0 rest = h) :
    ∃ s', markBits quality allowed_errors s.buf.length s s.i 0 = some s' ∧
      s'.Behind s (done ++ h.cells s.heard) h.left h.a h.b := by
  have marks : s.Marks done [] rest := ⟨by simpa using buf, by simpa using here⟩
  have left := hear_left quality allowed_errors s.a s.b 0 rest
  have length : s.buf.length = done.length + rest.length := by rw [buf, List.length_append]
  rw [heard] at left
  have looped := markBits_eq marks heard (by simp : h = _)
  rw [List.length_nil, Nat.add_zero, ← here] at looped
  refine ⟨_, looped, rfl, ?_, ?_, rfl, rfl⟩
  · rw [List.length_append, h.cells_length, here]
  · change (done ++ h.cells s.heard ++ h.left).length = _
    rw [List.length_append, List.length_append, h.cells_length]
    omega

theorem turn_eq {s : Demod} {done rest : List Cell} (buf : s.buf = done ++ rest)
    (here : s.i = done.length) {r : Round}
    (round : listen quality allowed_errors done.length s.a s.b rest = r) :
    ∃ s', turn quality allowed_errors s.buf.length s = some s' ∧
      s'.Behind s (done ++ r.parts.flatMap Part.cells) r.left r.a r.b := by
  subst round
  have length : s.buf.length = done.length + rest.length := by rw [buf, List.length_append]
  rw [turn, search_eq buf here]
  simp only [Option.bind_eq_bind, Option.bind_some]
  unfold listen Demod.found
  cases first : firstPreamble rest with
  | some found =>
    obtain ⟨skipped, found⟩ := found
    obtain ⟨rfl, long⟩ := firstPreamble_some first
    let s₁ : Demod :=
      ⟨done ++ skipped ++ List.replicate preamble_len (mark MESSAGEGO) ++ found.drop preamble_len,
        valueAt found 0, valueAt found 1, done.length + skipped.length + preamble_len,
        some (done.length + skipped.length + preamble_len)⟩
    have length' : s₁.buf.length = s.buf.length := by
      simp only [s₁, length, List.length_append, List.length_replicate, List.length_drop]
      omega
    obtain ⟨s', looped, behind⟩ := markBits_start (s := s₁) rfl
      (by simp [s₁, Nat.add_assoc]) rfl
    rw [length'] at looped
    simp only [List.flatMap_cons, List.flatMap_nil, Part.cells, List.append_nil,
      ← List.append_assoc]
    exact ⟨s', looped, { behind with length := behind.length.trans length' }⟩
  | none =>
    let s₁ : Demod := ⟨s.buf, s.a, s.b, done.length + (rest.length - preamble_len), none⟩
    obtain ⟨s', looped, behind⟩ := markBits_start (s := s₁)
      (by rw [List.append_assoc, List.take_append_drop]; exact buf :
        s.buf = done ++ rest.take _ ++ rest.drop (rest.length - preamble_len))
      (by rw [List.length_append, List.length_take_of_le (Nat.sub_le _ _)]) rfl
    simp only [List.flatMap_cons, List.flatMap_nil, Part.cells, List.append_nil,
      ← List.append_assoc]
    exact ⟨s', looped, { behind with }⟩

theorem Demod.Behind.position {s' s : Demod} {done done' rest left : List Cell} {a b : UInt16}
    (behind : s'.Behind s done' left a b) (buf : s.buf = done ++ rest) :
    done'.length = done.length + rest.length - left.length := by
  have whole := behind.length
  rw [behind.buf, buf, List.length_append, List.length_append] at whole
  omega

theorem Decodes.turns {pos : Nat} {a b : UInt16} {rest : List Cell} {parts : List Part}
    (decodes : Decodes quality allowed_errors pos a b rest parts) {s : Demod} {done : List Cell}
    (buf : s.buf = done ++ rest) (here : s.i = done.length) (at_pos : pos = done.length)
    (on : s.a = a) (on' : s.b = b) :
    ∃ n, ∀ fuel ≥ n, Adsb.turns quality allowed_errors s.buf.length fuel s =
      .ok (done ++ parts.flatMap Part.cells) := by
  have length : s.buf.length = done.length + rest.length := by rw [buf, List.length_append]
  induction decodes generalizing s done with
  | @done pos a b rest few =>
    refine ⟨1, fun fuel enough => ?_⟩
    obtain ⟨fuel, rfl⟩ := Nat.exists_eq_add_of_le' enough
    rw [Adsb.turns, if_neg (by omega), buf]
    simp [Part.cells]
  | @turn pos a b rest parts more later ih =>
    subst at_pos on on'
    obtain ⟨s', turned, behind⟩ := turn_eq buf here rfl
    obtain ⟨n, enough⟩ := ih behind.buf behind.here (behind.position buf).symm behind.on
      behind.on' (by rw [behind.buf, List.length_append])
    rw [behind.length] at enough
    refine ⟨n + 1, fun fuel larger => ?_⟩
    obtain ⟨fuel, rfl⟩ := Nat.exists_eq_add_of_le' (Nat.le_of_add_left_le larger)
    rw [Adsb.turns, if_pos (by omega), turned, List.flatMap_append, ← List.append_assoc]
    exact enough fuel (by omega)

theorem decodes_of_turns {fuel : Nat} {s : Demod} {done rest out : List Cell}
    (buf : s.buf = done ++ rest) (here : s.i = done.length)
    (past : turns quality allowed_errors s.buf.length fuel s = .ok out) :
    ∃ parts, Decodes quality allowed_errors done.length s.a s.b rest parts ∧
      out = done ++ parts.flatMap Part.cells := by
  induction fuel generalizing s done rest with
  | zero => cases past
  | succ fuel ih =>
    have length : s.buf.length = done.length + rest.length := by rw [buf, List.length_append]
    rw [turns] at past
    split at past
    · obtain ⟨s', turned, behind⟩ := turn_eq buf here rfl
      rw [turned] at past
      obtain ⟨parts, decodes, rfl⟩ := ih behind.buf behind.here (by rw [behind.length]; exact past)
      rw [behind.position buf, behind.on, behind.on'] at decodes
      exact ⟨_, .turn (by omega) decodes, by rw [List.flatMap_append, ← List.append_assoc]⟩
    · cases past
      exact ⟨_, .done (by omega), by rw [buf]; simp [Part.cells]⟩

theorem turns_in_bounds (fuel : Nat) {s : Demod} {done rest : List Cell}
    (buf : s.buf = done ++ rest) (here : s.i = done.length) :
    turns quality allowed_errors s.buf.length fuel s ≠ .error .out_of_bounds := by
  induction fuel generalizing s done rest with
  | zero => nofun
  | succ fuel ih =>
    rw [turns]
    split
    · obtain ⟨s', turned, behind⟩ := turn_eq buf here rfl
      rw [turned, ← behind.length]
      exact ih behind.buf behind.here
    · nofun

theorem manchester_iff (buf : List UInt16) (out : List Cell) :
    (∃ fuel, manchester quality allowed_errors fuel buf = .ok out) ↔
      ∃ parts, Decodes quality allowed_errors 0 0 0 (samples buf) parts ∧
        out = parts.flatMap Part.cells := by
  have length : buf.length = (samples buf).length := (List.length_map _).symm
  unfold manchester
  rw [length]
  constructor
  · rintro ⟨fuel, past⟩
    exact decodes_of_turns (s := ⟨samples buf, 0, 0, 0, none⟩) (rfl : _ = [] ++ _) rfl past
  · rintro ⟨parts, decodes, rfl⟩
    obtain ⟨n, enough⟩ := decodes.turns (s := ⟨samples buf, 0, 0, 0, none⟩) (rfl : _ = [] ++ _) rfl
      rfl rfl rfl
    exact ⟨n, enough n (Nat.le_refl n)⟩

end Soapy.Rtl.Adsb
