import Soapy.Rtl.AdsbDecoding

/-! # The frames that are displayed

A mark ends every frame. So a frame lies in the bits of one preamble, or it lies in what no preamble
was heard for: samples that were left with a value of 0 or 1, and bits that were put there without a
preamble. It is displayed when all of its bits but the last are there.
-/

namespace Soapy.Rtl.Adsb

open Lib

variable {quality : Int} {allowed_errors : Nat}

def Cell.Marked (c : Cell) : Prop := 1 < c.value

instance (c : Cell) : Decidable c.Marked := inferInstanceAs (Decidable (1 < c.value))

variable {m : Cell} (cells : List Cell) (data_i frame_len : Nat)

theorem readBits_append (xs ys : List Cell) (marked : m.Marked) (frame : List Nat)
    (data_i frame_len : Nat) (cells : List Cell) :
    readBits (xs ++ m :: ys) frame data_i frame_len cells =
      { readBits xs frame data_i frame_len cells with
        rest := (readBits xs frame data_i frame_len cells).rest ++ m :: ys } := by
  induction xs generalizing frame data_i frame_len cells with
  | nil =>
    have stop : ¬ (m.value ≤ 1 ∧ data_i < frame_len) := fun more =>
      absurd more.1 (UInt16.not_le.mpr marked)
    rw [List.nil_append]
    conv_lhs => rw [readBits, if_neg stop]
    rfl
  | cons x xs ih =>
    rw [List.cons_append, readBits, readBits]
    split
    · dsimp only
      split
      · split
        · rfl
        · exact ih _ _ _ _
      · exact ih _ _ _ _
    · rfl

variable {rest : List Cell}

theorem messages_behind {ys : List Cell}
    (split : messages (rest.tail ++ m :: ys) = messages rest.tail ++ messages ys) :
    messages (rest ++ m :: ys).tail = messages rest.tail ++ messages ys := by
  cases rest with
  | nil => rw [List.nil_append, List.tail_cons, List.tail_nil, messages, List.nil_append]
  | cons c rest => exact split

theorem messages_append {ys : List Cell} (marked : m.Marked) (xs : List Cell) :
    messages (xs ++ m :: ys) = messages xs ++ messages ys := by
  fun_induction messages xs with
  | case1 =>
    rw [List.nil_append, List.nil_append]
    conv_lhs => rw [messages, if_pos (show m.value > 1 from marked)]
  | case2 c rest above ih =>
    rw [List.cons_append, messages, if_pos above, ih]
  | case3 c rest bit r short ih =>
    have reads := readBits_append (c :: rest) ys marked (List.replicate 14 0) 0
      long_frame []
    rw [List.cons_append] at reads ⊢
    rw [messages, if_neg bit, reads]
    dsimp only
    rw [if_pos short, messages_behind ih]
  | case4 c rest bit r long ih =>
    have reads := readBits_append (c :: rest) ys marked (List.replicate 14 0) 0
      long_frame []
    rw [List.cons_append] at reads ⊢
    rw [messages, if_neg bit, reads]
    dsimp only
    rw [if_neg long, messages_behind ih]
    rfl

/-- How many bits the frame has that begins here. -/
def frameLen (run : List Cell) : Nat :=
  if (run.head?.map Cell.value).getD 0 ≠ 0 then long_frame else short_frame

/-- The reading ends in front of the eighth bit when all eight are zero. -/
def taken (run : List Cell) : Nat :=
  if 8 ≤ run.length ∧ ∀ c ∈ run.take 8, c.value = 0 then 7 else frameLen run

/-- What is read at a time of a run of bits. One bit behind it is skipped. -/
def pieces (run : List Cell) : List (List Cell) :=
  match run with
  | [] => []
  | c :: rest => (c :: rest).take (taken (c :: rest)) :: pieces (rest.drop (taken (c :: rest)))
termination_by run.length
decreasing_by
  rw [List.length_drop, List.length_cons]
  omega

variable {run : List Cell}

theorem pieces_eq (some_bit : run ≠ []) :
    pieces run = run.take (taken run) :: pieces (run.drop (taken run + 1)) := by
  cases run with
  | nil => exact absurd rfl some_bit
  | cons c rest => rw [pieces, List.drop_succ_cons]

/-- The last bit of a frame may be missing. -/
def Complete (piece : List Cell) : Prop := frameLen piece ≤ piece.length + 1

instance (piece : List Cell) : Decidable (Complete piece) :=
  inferInstanceAs (Decidable (_ ≤ _))

def putBits : List Nat → Nat → List Cell → List Nat
  | adsb_frame, _, [] => adsb_frame
  | adsb_frame, data_i, c :: cells => putBits (putBit adsb_frame data_i c.value) (data_i + 1) cells

def frameOf (piece : List Cell) : Frame :=
  ⟨putBits (List.replicate 14 0) 0 piece, frameLen piece, piece⟩

variable (more : List Cell) (adsb_frame : List Nat) (read : List Cell)

theorem readBits_prefix (data_i frame_len : Nat)
    (bits : ∀ c ∈ cells, ¬ c.Marked) (free : data_i + cells.length ≤ 7 ∨ 7 < data_i)
    (within : data_i + cells.length ≤ frame_len) (adsb_frame : List Nat) (read : List Cell) :
    readBits (cells ++ more) adsb_frame data_i frame_len read =
      readBits more (putBits adsb_frame data_i cells) (data_i + cells.length) frame_len
        (read ++ cells) := by
  induction cells generalizing data_i adsb_frame read with
  | nil => simp [putBits]
  | cons c cells ih =>
    have bit : c.value ≤ 1 := UInt16.not_lt.mp (bits c List.mem_cons_self)
    rw [List.length_cons] at free within
    rw [List.cons_append, readBits, if_pos ⟨bit, by omega⟩]
    dsimp only
    rw [if_neg (by omega), ih _ (fun c later => bits c (List.mem_cons_of_mem _ later)) (by omega)
      (by omega), List.append_assoc, List.length_cons, putBits, Nat.add_assoc data_i 1,
      Nat.add_comm 1]
    rfl

def octet (cells : List Cell) : Nat := (putBits [0] 0 cells).getD 0 0

theorem modify_append {α : Type} (before after : List α) (x : α) (f : α → α) :
    (before ++ x :: after).modify before.length f = before ++ f x :: after := by
  induction before with
  | nil => rfl
  | cons y before ih => simp [List.modify_succ_cons, ih]

variable {after : List Nat} (v : UInt16)

theorem putBit_append (before : List Nat) {x data_i j : Nat} (in_byte : j < 8)
    (here : data_i = 8 * before.length + j) (v : UInt16) :
    putBit (before ++ x :: after) data_i v = before ++ (putBit [x] j v).getD 0 0 :: after := by
  have byte : data_i / 8 = before.length := by omega
  have first : j / 8 = 0 := by omega
  have shift : data_i % 8 = j % 8 := by omega
  unfold putBit
  split
  · rw [byte, first, shift, modify_append]
    rfl
  · rfl

theorem putBits_append {before : List Nat} {cells : List Cell} {x data_i j : Nat}
    (in_byte : j + cells.length ≤ 8) (here : data_i = 8 * before.length + j) :
    putBits (before ++ x :: after) data_i cells =
      before ++ (putBits [x] j cells).getD 0 0 :: after := by
  induction cells generalizing x data_i j with
  | nil => rfl
  | cons c cells ih =>
    rw [List.length_cons] at in_byte
    have one : putBit [x] j c.value = [(putBit [x] j c.value).getD 0 0] :=
      putBit_append [] (by omega) (by simp) c.value
    rw [putBits, putBit_append _ (by omega) here, ih (j := j + 1) (by omega) (by omega), putBits, one]
    rfl

theorem putBits_octet (before : List Nat) {cells : List Cell} {data_i : Nat}
    (in_byte : cells.length ≤ 8) (here : data_i = 8 * before.length) :
    putBits (before ++ 0 :: after) data_i cells = before ++ octet cells :: after :=
  putBits_append (j := 0) (by omega) here

def plain (bit : Bool) : Cell := ⟨flag bit, .mark⟩

theorem putBit_flag (data_i : Nat) (v : UInt16) :
    putBit adsb_frame data_i v = putBit adsb_frame data_i (flag (decide (v ≠ 0))) := by
  by_cases zero : v = 0
  · simp [putBit, flag, zero]
  · simp [putBit, flag, zero]

theorem putBits_plain (data_i : Nat) (cells : List Cell) :
    putBits adsb_frame data_i cells =
      putBits adsb_frame data_i (cells.map fun c => plain (decide (c.value ≠ 0))) := by
  induction cells generalizing adsb_frame data_i with
  | nil => rfl
  | cons c cells ih => rw [putBits, putBit_flag, ih, List.map_cons, putBits, plain]

theorem octet_plain : ∀ b₀ b₁ b₂ b₃ b₄ b₅ b₆ b₇ : Bool,
    (octet [plain b₀, plain b₁, plain b₂, plain b₃, plain b₄, plain b₅, plain b₆, plain b₇] = 0 ↔
      ∀ b ∈ [b₀, b₁, b₂, b₃, b₄, b₅, b₆, b₇], b = false) ∧
    (octet [plain b₀, plain b₁, plain b₂, plain b₃, plain b₄, plain b₅, plain b₆, plain b₇] &&& 0x80
      ≠ 0 ↔ b₀ = true) := by
  decide +kernel

variable {c : Cell}

theorem octet_first {cells : List Cell} (eight : (c :: cells).length = 8) :
    (octet (c :: cells) = 0 ↔ ∀ c' ∈ c :: cells, c'.value = 0) ∧
      (octet (c :: cells) &&& 0x80 ≠ 0 ↔ c.value ≠ 0) := by
  match cells, eight with
  | [c₁, c₂, c₃, c₄, c₅, c₆, c₇], _ =>
    have bits := octet_plain (decide (c.value ≠ 0)) (decide (c₁.value ≠ 0)) (decide (c₂.value ≠ 0))
      (decide (c₃.value ≠ 0)) (decide (c₄.value ≠ 0)) (decide (c₅.value ≠ 0))
      (decide (c₆.value ≠ 0)) (decide (c₇.value ≠ 0))
    rw [octet, putBits_plain]
    refine ⟨bits.1.trans ?_, bits.2.trans ?_⟩
    · simp
    · simp

theorem putBits_cells (data_i : Nat) (cells more : List Cell) :
    putBits adsb_frame data_i (cells ++ more) =
      putBits (putBits adsb_frame data_i cells) (data_i + cells.length) more := by
  induction cells generalizing adsb_frame data_i with
  | nil => rfl
  | cons c cells ih =>
    rw [List.cons_append, putBits, putBits, ih, List.length_cons, Nat.add_assoc data_i 1,
      Nat.add_comm 1]

theorem readBits_full {cells : List Cell} {data_i frame_len : Nat} (bits : ∀ c ∈ cells, ¬ c.Marked)
    (free : 7 < data_i) (within : data_i ≤ frame_len) (adsb_frame : List Nat) (read : List Cell) :
    readBits cells adsb_frame data_i frame_len read =
      ⟨putBits adsb_frame data_i (cells.take (frame_len - data_i)),
        data_i + (cells.take (frame_len - data_i)).length, frame_len,
        read ++ cells.take (frame_len - data_i), cells.drop (frame_len - data_i)⟩ := by
  have fits := List.length_take_le (frame_len - data_i) cells
  have reads := readBits_prefix (cells.take (frame_len - data_i)) (cells.drop (frame_len - data_i))
    data_i frame_len
    (fun c member => bits c (List.mem_of_mem_take member)) (.inr free) (by omega) adsb_frame read
  rw [List.take_append_drop] at reads
  rw [reads]
  cases left : cells.drop (frame_len - data_i) with
  | nil => rw [readBits]
  | cons c rest =>
    have more : frame_len - data_i < cells.length := by
      have length := congrArg List.length left
      rw [List.length_drop, List.length_cons] at length
      omega
    rw [readBits, if_neg]
    rw [List.length_take_of_le (by omega)]
    omega

structure Reads (run : List Cell) (r : Reading) : Prop where
  rest : r.rest.tail = run.drop (taken run + 1)
  short : ¬ Complete (run.take (taken run)) → r.data_i < r.frame_len - 1
  full : Complete (run.take (taken run)) → ¬ r.data_i < r.frame_len - 1 ∧
    ⟨r.adsb_frame, r.frame_len, r.cells⟩ = frameOf (run.take (taken run))

theorem frameLen_le (run : List Cell) : short_frame ≤ frameLen run ∧ frameLen run ≤ long_frame := by
  unfold frameLen
  split <;> decide

theorem frameLen_take (run : List Cell) {n : Nat} (some_bit : 0 < n) :
    frameLen (run.take n) = frameLen run := by
  rw [frameLen, List.head?_take, if_neg (Nat.pos_iff_ne_zero.mp some_bit)]
  rfl

theorem reads_few (bits : ∀ c ∈ run, ¬ c.Marked) (few : run.length < 8) :
    Reads run (readBits run (List.replicate 14 0) 0 long_frame []) := by
  have frame := frameLen_le run
  have all : taken run = frameLen run := by
    rw [taken, if_neg]
    omega
  have reads := readBits_prefix run [] 0 long_frame bits (.inl (by omega))
    (by unfold long_frame; omega) (List.replicate 14 0) []
  rw [List.append_nil, readBits] at reads
  have short : short_frame = 56 := rfl
  have long : long_frame = 112 := rfl
  have whole : run.take (taken run) = run := List.take_of_length_le (by omega)
  rw [reads]
  refine ⟨?_, ?_, ?_⟩
  · rw [List.drop_of_length_le (by omega)]
    rfl
  · intro _
    dsimp only
    omega
  · intro complete
    rw [whole, Complete] at complete
    omega

variable {six : List Cell} {last : Cell}

theorem readBits_byte {more : List Cell} (seven : (c :: six).length = 7)
    (bits : ∀ c' ∈ c :: six ++ [last], ¬ c'.Marked) :
    readBits (c :: six ++ last :: more) (List.replicate 14 0) 0 long_frame [] =
      if ∀ c' ∈ c :: six ++ [last], c'.value = 0 then
        ⟨putBits (List.replicate 14 0) 0 (c :: six ++ [last]), 7, long_frame, c :: six, last :: more⟩
      else
        readBits more (putBits (List.replicate 14 0) 0 (c :: six ++ [last])) 8
          (if c.value ≠ 0 then long_frame else short_frame) (c :: six ++ [last]) := by
  have bit : last.value ≤ 1 := UInt16.not_lt.mp (bits last (by simp))
  have first := octet_first (by simpa using seven : (c :: (six ++ [last])).length = 8)
  have byte : putBits (List.replicate 14 0) 0 (c :: (six ++ [last])) =
      octet (c :: (six ++ [last])) :: List.replicate 13 0 :=
    putBits_octet [] (by simp at seven; simp [seven]) rfl
  have reads := readBits_prefix (c :: six) (last :: more) 0 long_frame
    (fun c' member => bits c' (List.mem_append_left _ member)) (.inl (by rw [seven]))
    (by rw [seven]; decide) (List.replicate 14 0) []
  have put : putBit (putBits (List.replicate 14 0) 0 (c :: six)) 7 last.value =
      putBits (List.replicate 14 0) 0 (c :: six ++ [last]) := by
    rw [putBits_cells, seven]
    rfl
  rw [reads, seven, readBits, if_pos ⟨bit, by decide⟩]
  dsimp only
  rw [Nat.zero_add, if_pos rfl, put, List.nil_append, List.cons_append, byte, List.getD_cons_zero]
  by_cases zero : ∀ c' ∈ c :: (six ++ [last]), c'.value = 0
  · rw [if_pos zero, if_pos (first.1.mpr zero)]
  · rw [if_neg zero, if_neg fun same => zero (first.1.mp same)]
    by_cases long : c.value ≠ 0
    · rw [if_pos long, if_pos (first.2.mpr long)]
    · rw [if_neg long, if_neg fun set => long (first.2.mp set)]

theorem taken_byte (seven : (c :: six).length = 7) :
    taken (c :: six ++ last :: more) =
      if ∀ c' ∈ c :: six ++ [last], c'.value = 0 then 7
      else if c.value ≠ 0 then long_frame else short_frame := by
  have enough : 8 ≤ (c :: six ++ last :: more).length := by
    rw [List.length_append, seven, List.length_cons]
    omega
  have eight : (c :: six ++ last :: more).take 8 = c :: six ++ [last] := by
    rw [List.take_append, seven, List.take_of_length_le (by omega)]
    rfl
  rw [taken, eight]
  by_cases zero : ∀ c' ∈ c :: six ++ [last], c'.value = 0
  · rw [if_pos ⟨enough, zero⟩, if_pos zero]
  · rw [if_neg fun both => zero both.2, if_neg zero]
    rfl

theorem cut_byte {front : List Cell} (last : Cell) {n : Nat} (seven : front.length = 7)
    (byte : 8 ≤ n) :
    (front ++ last :: more).take n = front ++ [last] ++ more.take (n - 8) ∧
      (front ++ last :: more).drop n = more.drop (n - 8) := by
  have eight : (front ++ [last]).length = 8 := by
    rw [List.length_append, seven]
    rfl
  rw [List.append_cons]
  constructor
  · rw [List.take_append, eight, List.take_of_length_le (by omega)]
  · rw [List.drop_append, eight, List.drop_of_length_le (by omega), List.nil_append]

theorem reads_byte {more : List Cell} (seven : (c :: six).length = 7)
    (bits : ∀ c' ∈ c :: six ++ last :: more, ¬ c'.Marked) :
    Reads (c :: six ++ last :: more)
      (readBits (c :: six ++ last :: more) (List.replicate 14 0) 0 long_frame []) := by
  have split : c :: six ++ last :: more = c :: six ++ [last] ++ more := List.append_cons ..
  have eight : (c :: six ++ [last]).length = 8 := by
    rw [List.length_append, seven]
    rfl
  have frame := frameLen_le (c :: six ++ last :: more)
  have short : short_frame = 56 := rfl
  have long : long_frame = 112 := rfl
  rw [readBits_byte seven fun c' member => bits c' (split ▸ List.mem_append_left more member)]
  by_cases zero : ∀ c' ∈ c :: six ++ [last], c'.value = 0
  · have early := (taken_byte more seven).trans (if_pos zero)
    rw [if_pos zero]
    refine ⟨?_, ?_, ?_⟩
    · rw [early, (cut_byte more last seven (Nat.le_refl 8)).2]
      rfl
    · intro _
      dsimp only
      omega
    · intro complete
      have fits := List.length_take_le 7 (c :: six ++ last :: more)
      rw [early, Complete, frameLen_take _ (by decide)] at complete
      omega
  · have same : frameLen (c :: six ++ last :: more) =
      if c.value ≠ 0 then long_frame else short_frame := rfl
    have whole := (taken_byte more seven).trans (if_neg zero)
    have own : frameLen ((c :: six ++ last :: more).take (frameLen (c :: six ++ last :: more))) =
        frameLen (c :: six ++ last :: more) := frameLen_take _ (by omega)
    rw [← same] at whole
    rw [if_neg zero, ← same]
    generalize frameLen (c :: six ++ last :: more) = n at *
    have cut := (cut_byte more last (n := n) seven (by omega)).1
    have length := congrArg List.length cut
    rw [List.length_append, eight] at length
    rw [readBits_full (fun c' member => bits c' (split ▸ List.mem_append_right _ member))
      (by decide) (by omega)]
    refine ⟨?_, ?_, ?_⟩
    · rw [whole, List.tail_drop, (cut_byte more last seven (by omega)).2]
      congr 1
      omega
    · intro not_complete
      rw [whole, Complete, own, length] at not_complete
      dsimp only
      omega
    · intro complete
      rw [whole, Complete, own, length] at complete
      rw [whole, frameOf, own, cut, putBits_cells _ _ (c :: six ++ [last]), eight]
      refine ⟨?_, rfl⟩
      dsimp only
      omega

theorem reads_run (bits : ∀ c ∈ run, ¬ c.Marked) :
    Reads run (readBits run (List.replicate 14 0) 0 long_frame []) := by
  by_cases few : run.length < 8
  · exact reads_few bits few
  · match run, few with
    | c :: c₁ :: c₂ :: c₃ :: c₄ :: c₅ :: c₆ :: last :: more, _ =>
      exact reads_byte (rfl : (c :: [c₁, c₂, c₃, c₄, c₅, c₆]).length = 7) bits
    | [], few | [_], few | [_, _], few | [_, _, _], few | [_, _, _, _], few | [_, _, _, _, _], few
    | [_, _, _, _, _, _], few | [_, _, _, _, _, _, _], few => exact absurd (by simp) few

theorem messages_run (bits : ∀ c ∈ run, ¬ c.Marked) :
    messages run = ((pieces run).filter Complete).map frameOf := by
  fun_induction pieces run with
  | case1 => rw [messages]; rfl
  | case2 c rest ih =>
    have reads := reads_run bits
    have later := ih fun c' member => bits c' (List.mem_cons_of_mem _ (List.mem_of_mem_drop member))
    have behind : (readBits (c :: rest) (List.replicate 14 0) 0 long_frame []).rest.tail =
        rest.drop (taken (c :: rest)) := reads.rest
    rw [messages, if_neg (show ¬ c.value > 1 from bits c List.mem_cons_self)]
    dsimp only
    rw [behind, later]
    by_cases complete : Complete ((c :: rest).take (taken (c :: rest)))
    · obtain ⟨long, frame⟩ := reads.full complete
      rw [if_neg long, List.filter_cons_of_pos (by simpa using complete), List.map_cons, frame]
    · rw [if_pos (reads.short complete), List.filter_cons_of_neg (by simpa using complete)]

def runs (cells : List Cell) : List (List Cell) := cells.splitOnP fun c => decide c.Marked

theorem messages_eq :
    messages cells =
      (runs cells).flatMap fun run => ((pieces run).filter Complete).map frameOf := by
  induction length : cells.length using Nat.strong_induction_on generalizing cells with
  | _ n ih =>
    by_cases bits : ∀ c ∈ cells, ¬ c.Marked
    · rw [runs, List.splitOnP_eq_singleton (by simpa using bits), List.flatMap_singleton]
      exact messages_run bits
    · push Not at bits
      obtain ⟨m, member, marked⟩ := bits
      obtain ⟨xs, ys, rfl⟩ := List.append_of_mem member
      rw [List.length_append, List.length_cons] at length
      rw [messages_append marked, runs, List.splitOnP_append_cons _ _ (by simpa using marked),
        List.flatMap_append, ih _ (by omega) xs rfl, ih _ (by omega) ys rfl]
      rfl

theorem readBits_cells (data_i frame_len : Nat) (read : List Cell) :
    (readBits cells adsb_frame data_i frame_len read).cells ++
      (readBits cells adsb_frame data_i frame_len read).rest = read ++ cells := by
  induction cells generalizing adsb_frame data_i frame_len read with
  | nil => rfl
  | cons c cells ih =>
    rw [readBits]
    split
    · dsimp only
      split
      · split
        · rfl
        · rw [ih, List.append_assoc]
          rfl
      · rw [ih, List.append_assoc]
        rfl
    · rfl

variable {buf : List Cell} {f : Frame}

theorem messages_inside (displayed : f ∈ messages buf) :
    f.cells <:+: buf := by
  fun_induction messages buf with
  | case1 => cases displayed
  | case2 c rest above ih => exact List.infix_cons (ih displayed)
  | case3 c rest bit r short ih =>
    have whole := readBits_cells (c :: rest) (List.replicate 14 0) 0 long_frame []
    rw [List.nil_append] at whole
    rw [← whole]
    exact (ih displayed).trans ((List.tail_suffix _).trans (List.suffix_append _ _)).isInfix
  | case4 c rest bit r long ih =>
    have whole := readBits_cells (c :: rest) (List.replicate 14 0) 0 long_frame []
    rw [List.nil_append] at whole
    rw [← whole]
    rcases List.mem_cons.mp displayed with rfl | later
    · exact (List.prefix_append _ _).isInfix
    · exact (ih later).trans ((List.tail_suffix _).trans (List.suffix_append _ _)).isInfix

theorem frame_of_messages (displayed : f ∈ messages buf) :
    Complete f.cells ∧ f = frameOf f.cells := by
  rw [messages_eq] at displayed
  obtain ⟨run, -, framed⟩ := List.mem_flatMap.mp displayed
  obtain ⟨piece, found, rfl⟩ := List.mem_map.mp framed
  exact ⟨of_decide_eq_true (List.mem_filter.mp found).2, rfl⟩

def Cell.Unheard (c : Cell) : Prop := ∀ owner, c.origin ≠ .bit (some owner)

def Part.Sound : Part → Prop
  | .noise cells => ∀ c ∈ cells, c.Unheard
  | .message _ h => ∀ v ∈ h.bits, v ≤ 1

theorem flag_le (b : Bool) : flag b ≤ 1 := by
  cases b <;> decide

theorem single_manchester_le (a b c d : UInt16) :
    single_manchester quality a b c d = BADSAMPLE ∨ single_manchester quality a b c d ≤ 1 := by
  have bit := flag_le (decide (c > d))
  have zero : (0 : UInt16) ≤ 1 := by decide
  have one : (1 : UInt16) ≤ 1 := by decide
  unfold single_manchester
  dsimp only
  repeat' split
  all_goals simp only [true_or, or_true, bit, zero, one]

theorem hear_bits (a b : UInt16) (errors : Nat) (cells : List Cell) :
    ∀ v ∈ (hear quality allowed_errors a b errors cells).bits, v ≤ 1 := by
  fun_induction hear quality allowed_errors a b errors cells with
  | case1 => rintro _ ⟨⟩
  | case2 a b errors c d rest bad more ih =>
    intro v member
    rcases List.mem_cons.mp member with rfl | later
    · exact flag_le _
    · exact ih v later
  | case3 a b errors c d rest good ih =>
    intro v member
    rcases List.mem_cons.mp member with rfl | later
    · exact (single_manchester_le a b c.value d.value).resolve_left good
    · exact ih v later
  | case4 => rintro _ ⟨⟩

theorem mark_unheard : (mark v).Unheard := nofun

theorem Heard.left_unheard {h : Heard} (unheard : ∀ c ∈ h.rest, c.Unheard) :
    ∀ c ∈ h.left, c.Unheard := by
  intro c member
  unfold Heard.left at member
  split at member
  · rcases List.mem_cons.mp member with rfl | later
    · exact mark_unheard _
    · exact unheard c (List.mem_of_mem_tail later)
  · exact unheard c member

theorem marks_unheard (broke : Bool) (n : Nat) : ∀ c ∈ marks broke n, c.Unheard := by
  intro c member
  unfold marks at member
  split at member
  · rcases List.mem_cons.mp member with rfl | later
    · exact mark_unheard _
    · rw [List.eq_of_mem_replicate later]
      exact mark_unheard _
  · rw [List.eq_of_mem_replicate member]
    exact mark_unheard _

theorem Heard.cells_unheard (h : Heard) : ∀ c ∈ h.cells none, c.Unheard := by
  intro c member
  unfold Heard.cells at member
  split at member
  · cases member
  · rcases List.mem_append.mp member with bit | behind
    · obtain ⟨v, -, rfl⟩ := List.mem_map.mp bit
      nofun
    · exact marks_unheard _ _ c behind

theorem listen_sound {pos : Nat} {a b : UInt16} (unheard : ∀ c ∈ rest, c.Unheard) :
    (∀ part ∈ (listen quality allowed_errors pos a b rest).parts, part.Sound) ∧
      ∀ c ∈ (listen quality allowed_errors pos a b rest).left, c.Unheard := by
  unfold listen
  split
  · rename_i skipped found first
    obtain ⟨rfl, long⟩ := firstPreamble_some first
    have behind : ∀ c ∈ found, c.Unheard := fun c member => unheard c (List.mem_append_right _ member)
    dsimp only
    refine ⟨?_, Heard.left_unheard fun c member => ?_⟩
    · intro part member
      rcases List.mem_cons.mp member with rfl | member
      · exact fun c member => unheard c (List.mem_append_left _ member)
      · rcases List.mem_singleton.mp member with rfl
        exact hear_bits _ _ _ _
    · exact behind c (List.mem_of_mem_drop ((hear_suffix _ _ _ _).subset member))
  · dsimp only
    refine ⟨?_, Heard.left_unheard fun c member => ?_⟩
    · intro part member
      rcases List.mem_singleton.mp member with rfl
      intro c member
      rcases List.mem_append.mp member with before | bit
      · exact unheard c (List.mem_of_mem_take before)
      · exact Heard.cells_unheard _ c bit
    · exact unheard c (List.mem_of_mem_drop ((hear_suffix _ _ _ _).subset member))

variable {parts : List Part}

theorem Decodes.sound {pos : Nat} {a b : UInt16}
    (decodes : Decodes quality allowed_errors pos a b rest parts)
    (unheard : ∀ c ∈ rest, c.Unheard) : ∀ part ∈ parts, part.Sound := by
  induction decodes with
  | done few =>
    intro part member
    rcases List.mem_singleton.mp member with rfl
    exact unheard
  | @turn pos a b rest parts more later ih =>
    obtain ⟨now, left⟩ := listen_sound (a := a) (b := b) unheard
    intro part member
    rcases List.mem_append.mp member with member | member
    · exact now part member
    · exact ih left part member

theorem samples_unheard (buf : List UInt16) : ∀ c ∈ samples buf, c.Unheard := by
  intro c member
  obtain ⟨v, -, rfl⟩ := List.mem_map.mp member
  nofun

/-- What is left of a part without the bits that a preamble was heard for. -/
def Part.blank : Part → List Cell
  | .noise cells => cells
  | .message _ _ => List.replicate preamble_len (mark MESSAGEGO)

theorem messages_marks {marks : List Cell} (marked : ∀ c ∈ marks, c.Marked) (cells : List Cell) :
    messages (marks ++ cells) = messages cells := by
  induction marks with
  | nil => rfl
  | cons m marks ih =>
    rw [List.cons_append, messages, if_pos (show m.value > 1 from marked m List.mem_cons_self)]
    exact ih fun c later => marked c (List.mem_cons_of_mem _ later)

theorem messages_preamble (before cells : List Cell) :
    messages (before ++ (List.replicate preamble_len (mark MESSAGEGO) ++ cells)) =
      messages before ++ messages cells := by
  have go : ∀ c ∈ List.replicate (preamble_len - 1) (mark MESSAGEGO), c.Marked := by
    intro c member
    rw [List.eq_of_mem_replicate member]
    decide
  change messages (before ++ mark MESSAGEGO ::
    (List.replicate (preamble_len - 1) (mark MESSAGEGO) ++ cells)) = _
  rw [messages_append (by decide), messages_marks go]

theorem bitCell_unmarked (owner : Option Nat) {bits : List UInt16} (small : ∀ v ∈ bits, v ≤ 1) :
    ∀ c ∈ bits.map (bitCell owner), ¬ c.Marked := by
  intro c member
  obtain ⟨v, bit, rfl⟩ := List.mem_map.mp member
  exact UInt16.not_lt.mpr (small v bit)

theorem marks_marked (broke : Bool) (n : Nat) : ∀ c ∈ marks broke n, c.Marked := by
  intro c member
  unfold marks at member
  split at member
  · rcases List.mem_cons.mp member with rfl | later
    · decide
    · rw [List.eq_of_mem_replicate later]
      decide
  · rw [List.eq_of_mem_replicate member]
    decide

theorem messages_heard (owner : Option Nat) (h : Heard) (cells : List Cell) :
    messages (h.cells owner ++ cells) =
      messages (h.bits.map (bitCell owner)) ++ messages cells := by
  unfold Heard.cells
  split
  · rename_i none
    rw [none, List.map_nil, messages, List.nil_append, List.nil_append]
  · rename_i some_bit
    have marked := marks_marked h.broke h.bits.length
    have length : (marks h.broke h.bits.length).length = h.bits.length :=
      marks_length (List.length_pos_iff.mpr some_bit)
    cases behind : marks h.broke h.bits.length with
    | nil =>
      rw [behind] at length
      exact absurd length.symm (List.length_pos_iff.mpr some_bit).ne'
    | cons m later =>
      rw [behind] at marked
      rw [List.append_assoc, List.cons_append, messages_append (marked m List.mem_cons_self),
        messages_marks fun c member => marked c (List.mem_cons_of_mem _ member)]

theorem mem_messages_parts (before : List Cell) :
    f ∈ messages (before ++ parts.flatMap Part.cells) ↔
      f ∈ messages (before ++ parts.flatMap Part.blank) ∨
        ∃ owner h, .message owner h ∈ parts ∧
          f ∈ messages (h.bits.map (bitCell (some owner))) := by
  induction parts generalizing before with
  | nil => simp
  | cons part parts ih =>
    cases part with
    | noise cells =>
      have step := ih (before ++ cells)
      rw [List.append_assoc, List.append_assoc] at step
      rw [List.flatMap_cons, List.flatMap_cons, Part.cells, Part.blank, step]
      simp
    | message owner h =>
      have step := ih []
      rw [List.nil_append, List.nil_append] at step
      rw [List.flatMap_cons, List.flatMap_cons, Part.cells, Part.blank, List.append_assoc,
        messages_preamble, messages_preamble, messages_heard, List.mem_append, List.mem_append,
        List.mem_append, step]
      constructor
      · rintro (first | here | rest | ⟨owner', h', later, read⟩)
        · exact .inl (.inl first)
        · exact .inr ⟨owner, h, List.mem_cons_self, here⟩
        · exact .inl (.inr rest)
        · exact .inr ⟨owner', h', List.mem_cons_of_mem _ later, read⟩
      · rintro ((first | rest) | ⟨owner', h', member, read⟩)
        · exact .inl first
        · exact .inr (.inr (.inl rest))
        · rcases List.mem_cons.mp member with same | later
          · cases same
            exact .inr (.inl read)
          · exact .inr (.inr (.inr ⟨owner', h', later, read⟩))

theorem blank_unheard (sound : ∀ part ∈ parts, part.Sound) :
    ∀ c ∈ parts.flatMap Part.blank, c.Unheard := by
  intro c member
  obtain ⟨part, among, cell⟩ := List.mem_flatMap.mp member
  cases part with
  | noise cells => exact sound _ among c cell
  | message owner h =>
    rw [List.eq_of_mem_replicate cell]
    exact mark_unheard _

theorem bits_inside {owner : Nat} {h : Heard} (among : .message owner h ∈ parts) :
    h.bits.map (bitCell (some owner)) <:+: parts.flatMap Part.cells := by
  obtain ⟨before, later, rfl⟩ := List.append_of_mem among
  have bits : h.bits.map (bitCell (some owner)) <+: h.cells (some owner) := by
    unfold Heard.cells
    split
    · rename_i none
      rw [none]
      exact List.nil_prefix
    · exact List.prefix_append _ _
  rw [List.flatMap_append, List.flatMap_cons, Part.cells]
  refine bits.isInfix.trans ⟨before.flatMap Part.cells ++
    List.replicate preamble_len (mark MESSAGEGO), later.flatMap Part.cells, ?_⟩
  simp

/-- A frame of 56 or 112 bits, by its first, that were put there next to each other for one
preamble. -/
structure Frame.Decoded (buf : List Cell) (f : Frame) : Prop where
  frame : f = frameOf f.cells
  whole : f.cells.length = frameLen f.cells
  consecutive : f.cells <:+: buf
  heard : ∃ preamble, ∀ c ∈ f.cells, c.origin = .bit (some preamble)

/-- In what no preamble was heard for no frame can be read, and no preamble's bits end in front of
the last bit of a frame. -/
structure Clean (parts : List Part) : Prop where
  noise : ∀ run ∈ runs (parts.flatMap Part.blank), ∀ piece ∈ pieces run, ¬ Complete piece
  bits : ∀ owner h, .message owner h ∈ parts →
    ∀ piece ∈ pieces (h.bits.map (bitCell (some owner))), piece.length + 1 ≠ frameLen piece

theorem taken_le (run : List Cell) : taken run ≤ frameLen run := by
  have frame := frameLen_le run
  have short : short_frame = 56 := rfl
  unfold taken
  split <;> omega

theorem pieces_le {piece : List Cell} (found : piece ∈ pieces run) :
    piece.length ≤ frameLen piece := by
  fun_induction pieces run with
  | case1 => cases found
  | case2 c rest ih =>
    rcases List.mem_cons.mp found with rfl | later
    · have frame := frameLen_le (c :: rest)
      have short : short_frame = 56 := rfl
      have some_bit : 0 < taken (c :: rest) := by
        unfold taken
        split <;> omega
      rw [frameLen_take _ some_bit]
      exact (List.length_take_le _ _).trans (taken_le _)
    · exact ih later

theorem messages_eq_iff {cells piece : List Cell} :
    frameOf piece ∈ messages cells ↔
      ∃ run ∈ runs cells, piece ∈ pieces run ∧ Complete piece := by
  rw [messages_eq, List.mem_flatMap]
  constructor
  · rintro ⟨run, among, framed⟩
    obtain ⟨piece', found, same⟩ := List.mem_map.mp framed
    obtain rfl : piece' = piece := congrArg Frame.cells same
    obtain ⟨found, complete⟩ := List.mem_filter.mp found
    exact ⟨run, among, found, of_decide_eq_true complete⟩
  · rintro ⟨run, among, found, complete⟩
    exact ⟨run, among, List.mem_map_of_mem (List.mem_filter.mpr ⟨found, decide_eq_true complete⟩)⟩

theorem bits_runs {bits : List UInt16} {owner : Option Nat} (small : ∀ v ∈ bits, v ≤ 1) :
    runs (bits.map (bitCell owner)) = [bits.map (bitCell owner)] :=
  List.splitOnP_eq_singleton (by simpa using bitCell_unmarked _ small)

theorem not_heard (complete : Complete f.cells)
    (unheard : ∀ c ∈ f.cells, c.Unheard) : ¬ f.Decoded buf := by
  intro decoded
  obtain ⟨preamble, heard⟩ := decoded.heard
  have frame := frameLen_le f.cells
  have short : short_frame = 56 := rfl
  cases cells : f.cells with
  | nil =>
    rw [Complete, cells, List.length_nil] at complete
    rw [cells] at frame
    omega
  | cons c rest =>
    have first : c ∈ f.cells := cells ▸ List.mem_cons_self
    exact unheard c first preamble (heard c first)

theorem Clean.of_decoded (sound : ∀ part ∈ parts, part.Sound)
    (decoded : ∀ f ∈ messages (parts.flatMap Part.cells), f.Decoded (parts.flatMap Part.cells)) :
    Clean parts := by
  constructor
  · intro run among piece found complete
    have framed := messages_eq_iff.mpr ⟨run, among, found, complete⟩
    have unheard : ∀ c ∈ piece, c.Unheard := fun c member =>
      blank_unheard sound c ((messages_inside framed).subset member)
    exact not_heard (f := frameOf piece) complete unheard
      (decoded _ ((mem_messages_parts []).mpr (.inl framed)))
  · intro owner h among piece found one_short
    have run : h.bits.map (bitCell (some owner)) ∈ runs (h.bits.map (bitCell (some owner))) := by
      rw [bits_runs (sound _ among)]
      exact List.mem_singleton_self _
    have framed := messages_eq_iff.mpr ⟨_, run, found, one_short.ge⟩
    have whole := (decoded _ ((mem_messages_parts []).mpr
      (.inr ⟨owner, h, among, framed⟩))).whole
    have one_short : (frameOf piece).cells.length + 1 = frameLen (frameOf piece).cells := one_short
    omega

theorem Clean.decoded (clean : Clean parts) (sound : ∀ part ∈ parts, part.Sound)
    (displayed : f ∈ messages (parts.flatMap Part.cells)) :
    f.Decoded (parts.flatMap Part.cells) := by
  obtain ⟨complete, frame⟩ := frame_of_messages displayed
  rcases (mem_messages_parts []).mp displayed with blank | ⟨owner, h, among, read⟩
  · rw [frame] at blank
    obtain ⟨run, among, found, -⟩ := messages_eq_iff.mp blank
    exact absurd complete (clean.noise run among _ found)
  · have inside := messages_inside read
    rw [frame] at read
    obtain ⟨run, among', found, -⟩ := messages_eq_iff.mp read
    rw [bits_runs (sound _ among)] at among'
    obtain rfl := List.mem_singleton.mp among'
    have bound := pieces_le found
    have cut := clean.bits owner h among _ found
    refine ⟨frame, ?_, inside.trans (bits_inside among), owner, fun c member => ?_⟩
    · rw [Complete] at complete
      omega
    · obtain ⟨v, -, rfl⟩ := List.mem_map.mp (inside.subset member)
      rfl

/-- When all displayed frames were decoded. -/
theorem decoded_iff_clean (quality : Int) (allowed_errors : Nat) (buf : List UInt16) :
    (∀ fuel cells, manchester quality allowed_errors fuel buf = .ok cells →
        ∀ f ∈ messages cells, f.Decoded cells) ↔
      ∀ parts, Decodes quality allowed_errors 0 0 0 (samples buf) parts → Clean parts := by
  constructor
  · intro decoded parts decodes
    obtain ⟨fuel, past⟩ := (manchester_iff buf _).mpr ⟨parts, decodes, rfl⟩
    exact .of_decoded (decodes.sound (samples_unheard buf)) (decoded fuel _ past)
  · intro clean fuel cells past f displayed
    obtain ⟨parts, decodes, rfl⟩ := (manchester_iff buf cells).mp ⟨fuel, past⟩
    exact (clean parts decodes).decoded (decodes.sound (samples_unheard buf)) displayed

/-- What the demodulator leaves of 128 samples of magnitude 1: no preamble is heard. -/
def ones : List Cell :=
  List.replicate 112 ⟨1, .sample⟩ ++ (List.replicate 8 (bitCell none 0) ++ marks false 8)

theorem decodes_ones :
    Decodes 10 5 0 0 0 (samples (List.replicate 128 1)) [.noise ones, .noise []] := by
  have turn : listen 10 5 0 0 0 (samples (List.replicate 128 1)) =
      ⟨[.noise ones], 1, 1, []⟩ := by decide +kernel
  have all : Decodes 10 5 0 0 0 (samples (List.replicate 128 1)) _ :=
    .turn (by decide +kernel) (by rw [turn]; exact .done (Nat.zero_le 1))
  rw [turn] at all
  exact all

/-- They are displayed as a frame. -/
theorem not_decoded_only :
    ¬ ∀ fuel cells, manchester 10 5 fuel
        (magnitute (List.replicate 128 [(128 : UInt8), 127]).flatten) = .ok cells →
      ∀ f ∈ messages cells, f.Decoded cells := by
  intro decoded
  have buf : magnitute (List.replicate 128 [(128 : UInt8), 127]).flatten =
      List.replicate 128 1 := by decide +kernel
  rw [buf] at decoded
  obtain ⟨fuel, past⟩ := (manchester_iff _ _).mpr ⟨_, decodes_ones, rfl⟩
  have piece : List.replicate 112 ⟨1, .sample⟩ ∈
      pieces (List.replicate 112 ⟨1, .sample⟩ ++ List.replicate 8 (bitCell none 0)) := by
    change _ ∈ pieces (⟨1, .sample⟩ :: (List.replicate 111 ⟨1, .sample⟩ ++
      List.replicate 8 (bitCell none 0)))
    rw [pieces]
    exact List.mem_cons.mpr (.inl (by decide +kernel))
  have framed : frameOf (List.replicate 112 ⟨1, .sample⟩) ∈
      messages ([Part.noise ones, .noise []].flatMap Part.cells) :=
    messages_eq_iff.mpr ⟨_, by decide +kernel, piece, by decide⟩
  refine not_heard (by decide) (fun c member => ?_) (decoded fuel _ past _ framed)
  rw [List.eq_of_mem_replicate member]
  nofun

end Soapy.Rtl.Adsb
