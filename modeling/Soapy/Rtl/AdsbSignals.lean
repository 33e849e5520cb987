import Soapy.Rtl.AdsbFrames
import Soapy.Rtl.AdsbTermination

/-! # Clean signals

Messages in front of a quiet background: behind each of them the bit loop runs on, takes the
background for zeros while it is allowed errors, and breaks off before the next message begins.
-/

namespace Soapy.Rtl.Adsb

open Lib

def bitsOf (byte : UInt8) : List Bool :=
  [7, 6, 5, 4, 3, 2, 1, 0].map fun shift => byte.toNat.testBit shift

structure Message where
  first : UInt8
  others : Bytes
  first_ne : first ≠ 0
  length : others.length = if first.toNat.testBit 7 then 13 else 6

def Message.bytes (m : Message) : Bytes := m.first :: m.others

def Message.bits (m : Message) : List Bool := m.bytes.flatMap bitsOf

section Levels

variable (lo hi : UInt16)

/-- A one goes from high to low. -/
def wave (bit : Bool) : List UInt16 := if bit then [hi, lo] else [lo, hi]

def preambleWave : List UInt16 :=
  [hi, lo, hi, lo, lo, lo, lo, hi, lo, hi, lo, lo, lo, lo, lo, lo]

def Message.wave (m : Message) : List UInt16 :=
  preambleWave lo hi ++ m.bits.flatMap (Adsb.wave lo hi)

/-- Messages, each with the number of low samples behind it. -/
def train : List (Message × Nat) → List UInt16
  | [] => []
  | (m, gap) :: ms => m.wave lo hi ++ (List.replicate gap lo ++ train ms)

def signal (lead : Nat) (ms : List (Message × Nat)) : List UInt16 :=
  List.replicate lead lo ++ train lo hi ms

end Levels

def Spaced : List (Message × Nat) → Prop
  | [] => True
  | (_, gap) :: ms => (24 ≤ gap ∨ ms = []) ∧ Spaced ms

variable {lo hi : UInt16}

/-- The two samples in front of a bit, when they are those of a bit or the first of a preamble. -/
def Ideal (lo hi a b : UInt16) : Prop := ∃ bit, wave lo hi bit = [a, b]

variable {d a b : UInt16}

theorem single_manchester_wave (high : lo < hi) {c : UInt16} {bit : Bool}
    (before : Ideal lo hi a b) (here : wave lo hi bit = [c, d]) :
    single_manchester 10 a b c d = flag bit := by
  have not_above : ¬ hi < lo := UInt16.lt_asymm high
  obtain ⟨bit_p, before⟩ := before
  cases bit <;> cases bit_p <;> cases here <;> cases before <;>
    simp [single_manchester, flag, high, not_above]

theorem flag_ne (bit : Bool) : flag bit ≠ BADSAMPLE := by
  cases bit <;> decide

theorem hear_wave (high : lo < hi) (before : Ideal lo hi a b) (bits : List Bool)
    (errors : Nat) (rest : List Cell) :
    ∃ a' b', Ideal lo hi a' b' ∧
      hear 10 allowed_errors a b errors (samples (bits.flatMap (wave lo hi)) ++ rest) =
        { hear 10 allowed_errors a' b' errors rest with
          bits := bits.map flag ++ (hear 10 allowed_errors a' b' errors rest).bits } := by
  induction bits generalizing a b with
  | nil => exact ⟨a, b, before, rfl⟩
  | cons bit bits ih =>
    obtain ⟨c, d, here⟩ : ∃ c d, wave lo hi bit = [c, d] := by
      cases bit
      · exact ⟨lo, hi, rfl⟩
      · exact ⟨hi, lo, rfl⟩
    obtain ⟨a', b', after, later⟩ := ih ⟨bit, here⟩
    have good := single_manchester_wave high before here
    refine ⟨a', b', after, ?_⟩
    have cells : samples ((bit :: bits).flatMap (wave lo hi)) ++ rest =
        ⟨c, .sample⟩ :: ⟨d, .sample⟩ :: (samples (bits.flatMap (wave lo hi)) ++ rest) := by
      simp [samples, here]
    rw [cells, hear, if_neg (by rw [good]; exact flag_ne bit), later, good]
    rfl

def lows (lo : UInt16) (n : Nat) : List Cell := List.replicate n ⟨lo, .sample⟩

/-- The bit loop in the background takes it for zeros, and leaves what comes behind it. -/
def Heard.Quiet (lo : UInt16) (rest : List Cell) (h : Heard) : Prop :=
  ∃ n left, h.bits = List.replicate n 0 ∧ h.rest = lows lo left ++ rest

variable {h : Heard} {rest : List Cell}

theorem Heard.Quiet.cons (quiet : h.Quiet lo rest) :
    (h.cons 0).Quiet lo rest := by
  obtain ⟨n, left, bits, behind⟩ := quiet
  exact ⟨n + 1, left, congrArg (0 :: ·) bits, behind⟩

variable {gap : Nat}

theorem hear_few (errors : Nat) (a b : UInt16) (few : gap ≤ 1) (none : rest = []) :
    (hear quality allowed_errors a b errors (lows lo gap ++ rest)).Quiet lo rest := by
  subst none
  match gap, few with
  | 0, _ => exact ⟨0, 0, rfl, rfl⟩
  | 1, _ => exact ⟨0, 1, rfl, rfl⟩

theorem single_manchester_stale (a lo : UInt16) :
    single_manchester 10 a lo lo lo = BADSAMPLE := by
  simp [single_manchester]

theorem single_manchester_fresh (below : lo < b) (rises : ¬ b < a) :
    single_manchester 10 a b lo lo = 0 := by
  simp [single_manchester, below, rises]

variable (n : Nat)

theorem lows_two (lo : UInt16) (n : Nat) (rest : List Cell) :
    lows lo (n + 2) ++ rest = ⟨lo, .sample⟩ :: ⟨lo, .sample⟩ :: (lows lo n ++ rest) := rfl

theorem hear_fresh {errors : Nat} (below : lo < b) (rises : ¬ b < a) (later : ∀ n, gap = n + 2 →
      (hear 10 allowed_errors lo lo errors (lows lo n ++ rest)).Quiet lo rest)
    (room : 2 ≤ gap ∨ rest = []) :
    (hear 10 allowed_errors a b errors (lows lo gap ++ rest)).Quiet lo rest := by
  by_cases few : gap ≤ 1
  · exact hear_few errors a b few (room.resolve_left (by omega))
  · obtain ⟨n, rfl⟩ := Nat.exists_eq_add_of_le' (Nat.lt_of_not_le few)
    have zero := single_manchester_fresh below rises
    rw [lows_two, hear, if_neg (by rw [zero]; decide), zero]
    exact (later n rfl).cons

theorem hear_stale (high : lo < hi) {k errors : Nat} (left : errors + k = 5) (room : 2 + 4 * k ≤ gap ∨ rest = []) (a : UInt16) :
    (hear 10 5 a lo errors (lows lo gap ++ rest)).Quiet lo rest := by
  induction k generalizing errors gap a with
  | zero =>
    by_cases few : gap ≤ 1
    · exact hear_few errors a lo few (room.resolve_left (by omega))
    · obtain ⟨n, rfl⟩ := Nat.exists_eq_add_of_le' (Nat.lt_of_not_le few)
      rw [lows_two, hear, if_pos (single_manchester_stale a lo), if_pos (by omega)]
      exact ⟨0, n + 2, rfl, rfl⟩
  | succ k ih =>
    by_cases few : gap ≤ 1
    · exact hear_few errors a lo few (room.resolve_left (by omega))
    · obtain ⟨n, rfl⟩ := Nat.exists_eq_add_of_le' (Nat.lt_of_not_le few)
      have zero : flag (decide (lo > lo)) = 0 := by simp [flag]
      have above : lo < 65535 := by
        have top := hi.toNat_lt
        rw [UInt16.lt_iff_toNat_lt] at high ⊢
        have all : (65535 : UInt16).toNat = 65535 := rfl
        omega
      rw [lows_two, hear, if_pos (single_manchester_stale a lo), if_neg (by omega), zero]
      refine Heard.Quiet.cons (hear_fresh above (by simp) (fun m two => ?_) ?_)
      · exact ih (by omega) (room.imp_left (by omega)) lo
      · exact room.imp_left (by omega)

theorem hear_gap (high : lo < hi) (before : Ideal lo hi a b) (room : 24 ≤ gap ∨ rest = []) :
    (hear 10 5 a b 0 (lows lo gap ++ rest)).Quiet lo rest := by
  obtain ⟨bit, levels⟩ := before
  cases bit with
  | true =>
    cases levels
    exact hear_stale high (k := 5) rfl (room.imp_left (by omega)) hi
  | false =>
    cases levels
    refine hear_fresh high (UInt16.lt_asymm high) (fun n two => ?_) (room.imp_left (by omega))
    exact hear_stale high (k := 5) rfl (room.imp_left (by omega)) lo

theorem hear_message (high : lo < hi) (bits : List Bool) (room : 24 ≤ gap ∨ rest = []) :
    ∃ n left, (hear 10 5 hi lo 0
        (samples (bits.flatMap (wave lo hi)) ++ (lows lo gap ++ rest))).bits =
          bits.map flag ++ List.replicate n 0 ∧
      (hear 10 5 hi lo 0 (samples (bits.flatMap (wave lo hi)) ++ (lows lo gap ++ rest))).rest =
        lows lo left ++ rest := by
  obtain ⟨a, b, after, heard⟩ := hear_wave high ⟨true, rfl⟩ bits 0
    (lows lo gap ++ rest)
  obtain ⟨n, left, zeros, behind⟩ := hear_gap high after room
  rw [heard]
  exact ⟨n, left, congrArg (bits.map flag ++ ·) zeros, behind⟩

/-- What is read into `adsb_frame`. -/
def Message.adsb_frame (m : Message) : List Nat :=
  m.bytes.map UInt8.toNat ++ List.replicate (14 - m.bytes.length) 0

def Message.frame_len (m : Message) : Nat := 8 * m.bytes.length

def heardBits (owner : Option Nat) (bits : List Bool) : List Cell :=
  bits.map fun bit => bitCell owner (flag bit)

variable (owner : Option Nat)

theorem heardBits_plain (bits : List Bool) :
    ((heardBits owner bits).map fun c => plain (decide (c.value ≠ 0))) = bits.map plain := by
  rw [heardBits, List.map_map]
  refine List.map_congr_left fun bit _ => ?_
  cases bit <;> rfl

theorem octet_byte : ∀ n : Fin 256,
    octet ((bitsOf (UInt8.ofNat n.val)).map plain) = n.val := by
  decide +kernel

theorem octet_bitsOf (byte : UInt8) :
    octet (heardBits owner (bitsOf byte)) = byte.toNat := by
  have same := octet_byte ⟨byte.toNat, byte.toNat_lt⟩
  rw [UInt8.ofNat_toNat] at same
  rw [octet, putBits_plain, heardBits_plain]
  exact same

theorem putBits_bytes {owner : Option Nat} (before : List Nat) {bytes : Bytes} {zeros : Nat}
    (room : bytes.length ≤ zeros) :
    putBits (before ++ List.replicate zeros 0) (8 * before.length)
        (heardBits owner (bytes.flatMap bitsOf)) =
      before ++ bytes.map UInt8.toNat ++ List.replicate (zeros - bytes.length) 0 := by
  induction bytes generalizing before zeros with
  | nil => simp [heardBits, putBits]
  | cons byte bytes ih =>
    rw [List.length_cons] at room
    obtain ⟨zeros, rfl⟩ := Nat.exists_eq_add_of_le' (Nat.one_le_of_lt room)
    have eight : (heardBits owner (bitsOf byte)).length = 8 := rfl
    have split : heardBits owner ((byte :: bytes).flatMap bitsOf) =
        heardBits owner (bitsOf byte) ++ heardBits owner (bytes.flatMap bitsOf) :=
      List.map_append
    have later := ih (before ++ [byte.toNat]) (by omega : bytes.length ≤ zeros)
    rw [List.length_append, List.length_singleton, List.append_assoc, List.singleton_append]
      at later
    rw [split, putBits_cells, List.replicate_succ, putBits_octet _ (by rw [eight]) rfl,
      octet_bitsOf, eight, ← Nat.mul_succ, later]
    simp [Nat.add_sub_add_right]

variable (m : Message)

theorem Message.bytes_length :
    m.bytes.length = if m.first.toNat.testBit 7 then 14 else 7 := by
  rw [Message.bytes, List.length_cons, m.length]
  split <;> rfl

theorem Message.bytes_le : m.bytes.length ≤ 14 := by
  rw [m.bytes_length]
  split <;> decide

theorem Message.bits_length : m.bits.length = m.frame_len := by
  have eight : ∀ byte : UInt8, (bitsOf byte).length = 8 := fun _ => rfl
  rw [Message.bits, Message.frame_len, List.length_flatMap]
  simp [eight, Nat.mul_comm]

theorem Message.bits_eq :
    m.bits = bitsOf m.first ++ m.others.flatMap bitsOf := rfl

theorem Message.frameLen_eq (more : List Cell) :
    frameLen (heardBits owner m.bits ++ more) = m.frame_len := by
  have head : frameLen (heardBits owner m.bits ++ more) =
      if flag (m.first.toNat.testBit 7) ≠ 0 then long_frame else short_frame := rfl
  rw [head, Message.frame_len, m.bytes_length]
  cases m.first.toNat.testBit 7 <;> rfl

theorem Message.putBits_eq :
    putBits (List.replicate 14 0) 0 (heardBits owner m.bits) = m.adsb_frame :=
  putBits_bytes [] m.bytes_le

theorem Message.taken_eq (more : List Cell) :
    taken (heardBits owner m.bits ++ more) = m.frame_len := by
  have byte : (heardBits owner m.bits ++ more).take 8 = heardBits owner (bitsOf m.first) := rfl
  have some_one : ¬ ∀ c ∈ heardBits owner (bitsOf m.first), c.value = 0 := by
    intro zero
    have none := (octet_first rfl).1.mpr zero
    have same := octet_bitsOf owner m.first
    exact m.first_ne (UInt8.toNat_inj.mp (same.symm.trans none))
  rw [taken, byte, if_neg fun both => some_one both.2, m.frameLen_eq]

def Silent (cells : List Cell) : Prop := ∀ c ∈ cells, ¬ c.Marked → c.value = 0

variable {run : List Cell}

theorem taken_zero (zero : ∀ c ∈ run, c.value = 0) :
    (run.take (taken run)).length ≤ 7 := by
  by_cases byte : 8 ≤ run.length
  · rw [taken, if_pos ⟨byte, fun c member => zero c (List.mem_of_mem_take member)⟩]
    exact List.length_take_le 7 run
  · exact (List.length_take_le' _ run).trans (by omega)

theorem not_complete_zero (zero : ∀ c ∈ run, c.value = 0) :
    ∀ piece ∈ pieces run, ¬ Complete piece := by
  fun_induction pieces run with
  | case1 => rintro _ ⟨⟩
  | case2 c rest ih =>
    intro piece found
    rcases List.mem_cons.mp found with rfl | later
    · have few := taken_zero zero
      have frame := frameLen_le ((c :: rest).take (taken (c :: rest)))
      have short : short_frame = 56 := rfl
      rw [Complete]
      omega
    · exact ih (fun c' member => zero c' (List.mem_cons_of_mem c (List.mem_of_mem_drop member)))
        piece later

theorem messages_zero (bits : ∀ c ∈ run, ¬ c.Marked)
    (zero : ∀ c ∈ run, c.value = 0) : messages run = [] := by
  rw [messages_run bits, List.filter_eq_nil_iff.mpr]
  · rfl
  · exact fun piece found => by simpa using not_complete_zero zero piece found

theorem Silent.messages {cells : List Cell} (silent : Silent cells) : messages cells = [] := by
  induction length : cells.length using Nat.strong_induction_on generalizing cells with
  | _ n ih =>
    by_cases bits : ∀ c ∈ cells, ¬ c.Marked
    · exact messages_zero bits fun c member => silent c member (bits c member)
    · push Not at bits
      obtain ⟨m, member, marked⟩ := bits
      obtain ⟨xs, ys, rfl⟩ := List.append_of_mem member
      rw [List.length_append, List.length_cons] at length
      rw [messages_append marked,
        ih xs.length (by omega) (fun c before => silent c (by simp [before])) rfl,
        ih ys.length (by omega) (fun c behind => silent c (by simp [behind])) rfl]
      rfl

theorem Message.messages_heard (n : Nat) :
    messages ((m.bits.map flag ++ List.replicate n 0).map (bitCell owner)) =
      [⟨m.adsb_frame, m.frame_len, heardBits owner m.bits⟩] := by
  have small : ∀ v ∈ m.bits.map flag ++ List.replicate n 0, v ≤ 1 := by
    intro v member
    rcases List.mem_append.mp member with bit | zero
    · obtain ⟨bit, -, rfl⟩ := List.mem_map.mp bit
      exact flag_le _
    · rw [List.eq_of_mem_replicate zero]
      decide
  have cells : (m.bits.map flag ++ List.replicate n 0).map (bitCell owner) =
      heardBits owner m.bits ++ List.replicate n (bitCell owner 0) := by
    rw [List.map_append, List.map_map, List.map_replicate]
    rfl
  have length : (heardBits owner m.bits).length = m.frame_len := by
    rw [heardBits, List.length_map, m.bits_length]
  have whole := m.frameLen_eq owner []
  rw [List.append_nil] at whole
  have unmarked := bitCell_unmarked owner small
  rw [cells] at unmarked
  have zeros : ∀ c ∈ (List.replicate n (bitCell owner 0)).drop 1, c.value = 0 := by
    intro c member
    rw [List.eq_of_mem_replicate (List.mem_of_mem_drop member)]
    rfl
  have none : (pieces ((List.replicate n (bitCell owner 0)).drop 1)).filter
      (fun piece => decide (Complete piece)) = [] :=
    List.filter_eq_nil_iff.mpr fun piece found => by
      simpa using not_complete_zero zeros piece found
  have complete : Complete (heardBits owner m.bits) := by
    rw [Complete, whole, length]
    exact Nat.le_succ _
  have some_bit : heardBits owner m.bits ≠ [] := by
    rw [m.bits_eq]
    exact List.cons_ne_nil _ _
  rw [cells, messages_run unmarked, pieces_eq (List.append_ne_nil_of_left_ne_nil some_bit _),
    m.taken_eq, ← length, List.take_left, List.drop_append, List.drop_of_length_le (Nat.le_succ _),
    Nat.add_sub_cancel_left, List.nil_append, List.filter_cons_of_pos (by simpa using complete),
    none, List.map_singleton, frameOf, m.putBits_eq, whole, length]

theorem preamble_low (level : lo ≤ d) (rest : List Cell) :
    preamble (⟨lo, .sample⟩ :: ⟨d, .sample⟩ :: rest) 0 = some false := by
  change preambleFrom (⟨lo, .sample⟩ :: ⟨d, .sample⟩ :: rest) 0 0 65535
    (0 :: 1 :: List.range' 2 14) = some false
  simp [preambleFrom, level]

theorem preamble_wave (high : lo < hi) (rest : List Cell) :
    preamble (samples (preambleWave lo hi) ++ rest) 0 = some true := by
  have above : ¬ hi ≤ lo := UInt16.not_le.mpr high
  have first : hi ≠ 0 := by
    rintro rfl
    exact absurd high (UInt16.not_lt.mpr (UInt16.zero_le))
  have range : List.range preamble_len =
    [0, 1, 2, 3, 4, 5, 6, 7, 8, 9, 10, 11, 12, 13, 14, 15] := by decide
  rw [preamble, range]
  simp [preambleFrom, preambleWave, samples, above, first]

theorem firstPreamble_low (level : lo ≤ d) (rest : List Cell) :
    firstPreamble (⟨lo, .sample⟩ :: ⟨d, .sample⟩ :: rest) =
      if preamble_len < rest.length + 2 then
        (firstPreamble (⟨d, .sample⟩ :: rest)).map fun found => (⟨lo, .sample⟩ :: found.1, found.2)
      else none := by
  rw [firstPreamble, preamble_low level]
  rfl

theorem firstPreamble_lows : firstPreamble (lows lo n) = none := by
  induction n with
  | zero => rfl
  | succ n ih =>
    cases n with
    | zero => rfl
    | succ n =>
      change firstPreamble (⟨lo, .sample⟩ :: ⟨lo, .sample⟩ :: lows lo n) = none
      change firstPreamble (⟨lo, .sample⟩ :: lows lo n) = none at ih
      rw [firstPreamble_low (UInt16.le_refl lo), ih]
      exact ite_self none

theorem firstPreamble_wave (high : lo < hi) (lead : Nat) (more : rest ≠ []) :
    firstPreamble (lows lo lead ++ (samples (preambleWave lo hi) ++ rest)) =
      some (lows lo lead, samples (preambleWave lo hi) ++ rest) := by
  have some_cell := List.length_pos_iff.mpr more
  induction lead with
  | zero =>
    have long : preamble_len < (samples (preambleWave lo hi) ++ rest).length := by
      rw [List.length_append]
      exact Nat.lt_add_of_pos_right some_cell
    have found := preamble_wave high rest
    change firstPreamble (⟨hi, .sample⟩ :: (samples (preambleWave lo hi).tail ++ rest)) = _
    rw [firstPreamble]
    exact (if_pos long).trans (if_pos found)
  | succ lead ih =>
    obtain ⟨d, later, level, split⟩ : ∃ d later, lo ≤ d ∧
        lows lo lead ++ (samples (preambleWave lo hi) ++ rest) = ⟨d, .sample⟩ :: later := by
      cases lead with
      | zero => exact ⟨hi, _, UInt16.le_of_lt high, rfl⟩
      | succ lead => exact ⟨lo, _, UInt16.le_refl lo, rfl⟩
    have long := congrArg List.length split
    rw [List.length_append, List.length_append, List.length_cons] at long
    change firstPreamble (⟨lo, .sample⟩ :: (lows lo lead ++
      (samples (preambleWave lo hi) ++ rest))) = _
    have wave : (samples (preambleWave lo hi)).length = 16 := rfl
    have sixteen : preamble_len = 16 := rfl
    rw [split, firstPreamble_low level, ← split, ih, if_pos (by omega)]
    rfl

theorem hear_starts {errors : Nat} (allowed : errors < allowed_errors)
    {cells : List Cell} (none : (hear quality allowed_errors a b errors cells).bits = []) :
    (hear quality allowed_errors a b errors cells).broke = false := by
  fun_cases hear quality allowed_errors a b errors cells with
  | case1 a b errors c d rest bad past => omega
  | case2 a b errors c d rest bad more =>
    rw [hear, if_pos bad, if_neg more] at none
    cases none
  | case3 a b errors c d rest good =>
    rw [hear, if_neg good] at none
    cases none
  | case4 => rfl

theorem single_manchester_level (a b lo : UInt16) :
    single_manchester 10 a b lo lo = 0 ∨ single_manchester 10 a b lo lo = BADSAMPLE := by
  have level : decide (lo > lo) = false := by simp
  unfold single_manchester
  simp only [level]
  repeat' split
  all_goals simp_all

variable (allowed_errors) in
theorem hear_lows (a b : UInt16) (errors n : Nat) :
    (∀ v ∈ (hear 10 allowed_errors a b errors (lows lo n)).bits, v = 0) ∧
      ∃ left, (hear 10 allowed_errors a b errors (lows lo n)).rest = lows lo left := by
  have level : flag (decide (lo > lo)) = 0 := by simp [flag]
  induction n using Nat.twoStepInduction generalizing a b errors with
  | zero => exact ⟨by rintro _ ⟨⟩, 0, rfl⟩
  | one => exact ⟨by rintro _ ⟨⟩, 1, rfl⟩
  | more n ih _ =>
    change (∀ v ∈ (hear 10 allowed_errors a b errors
      (⟨lo, .sample⟩ :: ⟨lo, .sample⟩ :: lows lo n)).bits, v = 0) ∧ ∃ left, (hear 10 allowed_errors
        a b errors (⟨lo, .sample⟩ :: ⟨lo, .sample⟩ :: lows lo n)).rest = lows lo left
    rw [hear]
    split
    · split
      · exact ⟨by rintro _ ⟨⟩, n + 2, rfl⟩
      · obtain ⟨zeros, left⟩ := ih 0 65535 (errors + 1)
        refine ⟨fun v member => ?_, left⟩
        rcases List.mem_cons.mp member with rfl | later
        · exact level
        · exact zeros v later
    · rename_i good
      obtain ⟨zeros, left⟩ := ih lo lo errors
      refine ⟨fun v member => ?_, left⟩
      rcases List.mem_cons.mp member with rfl | later
      · exact (single_manchester_level a b lo).resolve_right good
      · exact zeros v later

theorem silent_lows (low : 1 < lo) (n : Nat) : Silent (lows lo n) := by
  intro c member unmarked
  rw [List.eq_of_mem_replicate member] at unmarked
  exact absurd low unmarked

theorem Silent.append {xs ys : List Cell} (first : Silent xs) (second : Silent ys) :
    Silent (xs ++ ys) := fun c member unmarked =>
  (List.mem_append.mp member).elim (fun before => first c before unmarked)
    fun behind => second c behind unmarked

theorem silent_cells (zeros : ∀ v ∈ h.bits, v = 0) (owner : Option Nat) :
    Silent (h.cells owner) := by
  unfold Heard.cells
  split
  · nofun
  · refine Silent.append (fun c member _ => ?_) fun c member unmarked =>
      absurd (marks_marked _ _ c member) unmarked
    obtain ⟨v, bit, rfl⟩ := List.mem_map.mp member
    exact zeros v bit

theorem lows_drop (k : Nat) : (lows lo n).drop k = lows lo (n - k) := List.drop_replicate

theorem Heard.left_of_starts (starts : h.bits = [] → h.broke = false) :
    h.left = h.rest := by
  unfold Heard.left
  split
  · rename_i both
    rw [starts both.1] at both
    cases both.2
  · rfl

theorem Decodes.silent (low : 1 < lo) {pos : Nat}
    {parts : List Part} (decodes : Decodes 10 5 pos a b rest parts) {n : Nat}
    (background : rest = lows lo n) : Silent (parts.flatMap Part.cells) := by
  induction decodes generalizing n with
  | done few =>
    subst background
    rw [List.flatMap_singleton]
    exact silent_lows low n
  | @turn pos a b rest parts more later ih =>
    subst background
    obtain ⟨zeros, left, behind⟩ := hear_lows 5 a b 0
      (n - ((lows lo n).length - preamble_len))
    have round : listen 10 5 pos a b (lows lo n) =
        ⟨[.noise ((lows lo n).take ((lows lo n).length - preamble_len) ++
          (hear 10 5 a b 0 (lows lo (n - ((lows lo n).length - preamble_len)))).cells none)],
          (hear 10 5 a b 0 (lows lo (n - ((lows lo n).length - preamble_len)))).a,
          (hear 10 5 a b 0 (lows lo (n - ((lows lo n).length - preamble_len)))).b, lows lo left⟩ := by
      rw [← behind, ← Heard.left_of_starts (hear_starts (by decide)), ← lows_drop, listen,
        firstPreamble_lows]
    rw [round] at ih ⊢
    rw [List.flatMap_append, List.flatMap_singleton]
    refine Silent.append (Silent.append (fun c member => ?_) (silent_cells zeros none)) (ih rfl)
    exact silent_lows low n c (List.mem_of_mem_take member)

theorem samples_append (xs ys : List UInt16) : samples (xs ++ ys) = samples xs ++ samples ys :=
  List.map_append

theorem samples_replicate : samples (List.replicate n lo) = lows lo n :=
  List.map_replicate

theorem samples_train (gap : Nat) (ms : List (Message × Nat)) :
    samples (train lo hi ((m, gap) :: ms)) =
      samples (preambleWave lo hi) ++ (samples (m.bits.flatMap (wave lo hi)) ++
        (lows lo gap ++ samples (train lo hi ms))) := by
  rw [train, Message.wave, samples_append, samples_append, samples_append, samples_replicate,
    List.append_assoc]

theorem listen_message (high : lo < hi) (m : Message)
    (room : 24 ≤ gap ∨ rest = []) (pos lead : Nat) (a b : UInt16) :
    ∃ owner h n left, listen 10 5 pos a b (lows lo lead ++ (samples (preambleWave lo hi) ++
        (samples (m.bits.flatMap (wave lo hi)) ++ (lows lo gap ++ rest)))) =
          ⟨[.noise (lows lo lead), .message owner h], h.a, h.b, lows lo left ++ rest⟩ ∧
      h.bits = m.bits.map flag ++ List.replicate n 0 := by
  obtain ⟨n, left, bits, behind⟩ := hear_message high m.bits room
  have length := hear_rest 10 5 hi lo 0
    (samples (m.bits.flatMap (wave lo hi)) ++ (lows lo gap ++ rest))
  generalize samples (m.bits.flatMap (wave lo hi)) ++ (lows lo gap ++ rest) = found at *
  have some_bit : 0 < (hear 10 5 hi lo 0 found).bits.length := by
    have eight : 0 < m.frame_len := by
      rw [Message.frame_len, Message.bytes, List.length_cons]
      omega
    rw [bits, List.length_append, List.length_map, m.bits_length]
    omega
  have more : found ≠ [] := List.length_pos_iff.mp (by omega)
  refine ⟨pos + (lows lo lead).length + preamble_len, hear 10 5 hi lo 0 found, n, left, ?_, bits⟩
  rw [← behind, ← Heard.left_of_starts (hear_starts (by decide)), listen,
    firstPreamble_wave high lead more]
  rfl

variable {ms : List (Message × Nat)}

theorem decodes_train (low : 1 < lo) (high : lo < hi)
    (spaced : Spaced ms) (lead pos : Nat) (a b : UInt16) :
    ∃ parts, Decodes 10 5 pos a b (lows lo lead ++ samples (train lo hi ms)) parts ∧
      (messages (parts.flatMap Part.cells)).map (fun f => (f.adsb_frame, f.frame_len)) =
        ms.map fun sent => (sent.1.adsb_frame, sent.1.frame_len) := by
  induction ms generalizing lead pos a b with
  | nil =>
    obtain ⟨parts, decodes⟩ : ∃ parts, Decodes 10 5 pos a b (lows lo lead) parts :=
      exists_decodes _ (.inl (by decide)) pos a b
    have none : lows lo lead ++ samples (train lo hi []) = lows lo lead := List.append_nil _
    rw [none]
    exact ⟨parts, decodes, by rw [(decodes.silent low rfl).messages]; rfl⟩
  | cons sent ms ih =>
    obtain ⟨m, gap⟩ := sent
    obtain ⟨room, spaced⟩ := spaced
    rw [samples_train]
    obtain ⟨owner, h, n, left, round, bits⟩ := listen_message high m
      (room.imp_right fun none => by rw [none]; rfl : 24 ≤ gap ∨ samples (train lo hi ms) = [])
      pos lead a b
    obtain ⟨parts, decodes, shown⟩ := ih spaced left (pos +
      (lows lo lead ++ (samples (preambleWave lo hi) ++ (samples (m.bits.flatMap (wave lo hi)) ++
        (lows lo gap ++ samples (train lo hi ms))))).length -
      (lows lo left ++ samples (train lo hi ms)).length) h.a h.b
    have wave : (samples (preambleWave lo hi)).length = 16 := rfl
    have turn : Decodes 10 5 pos a b (lows lo lead ++ (samples (preambleWave lo hi) ++
        (samples (m.bits.flatMap (Adsb.wave lo hi)) ++
          (lows lo gap ++ samples (train lo hi ms))))) _ :=
      .turn (by rw [List.length_append, List.length_append]; omega) (by rw [round]; exact decodes)
    rw [round] at turn
    refine ⟨_, turn, ?_⟩
    rw [List.cons_append, List.cons_append, List.nil_append, List.flatMap_cons, List.flatMap_cons,
      Part.cells, Part.cells, List.append_assoc, messages_preamble, messages_heard, bits,
      m.messages_heard, (silent_lows low lead).messages, List.nil_append, List.map_append, shown]
    rfl

theorem display_eq {f : Frame} {m : Message}
    (frame : (f.adsb_frame, f.frame_len) = (m.adsb_frame, m.frame_len)) (short_output : Bool) :
    display short_output 10 f =
      if short_output || m.first.toNat.testBit 7 then some (m.bytes.map UInt8.toNat) else none := by
  obtain ⟨bytes, length⟩ := Prod.mk.inj frame
  have long := m.bytes_length
  have whole : (8 * m.bytes.length + 7) / 8 = m.bytes.length := by omega
  have taken : m.adsb_frame.take m.bytes.length = m.bytes.map UInt8.toNat :=
    List.take_left' (List.length_map _)
  unfold display
  rw [bytes, length, Message.frame_len, whole, taken]
  cases short_output <;> cases set : m.first.toNat.testBit 7 <;> rw [set] at long <;>
    simp [long, short_frame]

theorem filterMap_display {frames : List Frame}
    (shown : frames.map (fun f => (f.adsb_frame, f.frame_len)) =
      ms.map fun sent => (sent.1.adsb_frame, sent.1.frame_len)) (short_output : Bool) :
    frames.filterMap (display short_output 10) =
      (ms.filter fun sent => short_output || sent.1.first.toNat.testBit 7).map fun sent =>
        sent.1.bytes.map UInt8.toNat := by
  induction ms generalizing frames with
  | nil =>
    rw [List.map_eq_nil_iff.mp shown]
    rfl
  | cons sent ms ih =>
    obtain ⟨f, frames', rfl, frame, later⟩ := List.map_eq_cons_iff.mp shown
    rw [List.filterMap_cons, display_eq frame, List.filter_cons, ih later]
    split <;> rename_i printed
    · simp_all
    · simp_all

theorem signal_shown (low : 2 ≤ lo) (high : lo < hi) (lead : Nat) (spaced : Spaced ms) :
    ∃ n cells, (∀ fuel ≥ n, manchester 10 5 fuel (signal lo hi lead ms) = .ok cells) ∧
      (messages cells).map (fun f => (f.adsb_frame, f.frame_len)) =
        ms.map fun sent => (sent.1.adsb_frame, sent.1.frame_len) := by
  have above : 1 < lo := UInt16.lt_iff_toNat_lt.mpr (UInt16.le_iff_toNat_le.mp low)
  obtain ⟨parts, decodes, shown⟩ := decodes_train above high spaced lead 0 0 0
  have buf : samples (signal lo hi lead ms) = lows lo lead ++ samples (train lo hi ms) := by
    rw [signal, samples_append, samples_replicate]
  rw [← buf] at decodes
  obtain ⟨n, enough⟩ := decodes.turns (s := ⟨samples (signal lo hi lead ms), 0, 0, 0, none⟩)
    (rfl : _ = [] ++ _) rfl rfl rfl rfl
  have length : (signal lo hi lead ms).length = (samples (signal lo hi lead ms)).length :=
    (List.length_map _).symm
  refine ⟨n, parts.flatMap Part.cells, fun fuel larger => ?_, shown⟩
  rw [manchester, length]
  exact enough fuel larger

/-- Messages on a quiet background are passed to `display` one for one, and the long ones, or all of
them if they are asked for, are printed with their bytes. -/
theorem signal_displayed (low : 2 ≤ lo) (high : lo < hi) (lead : Nat) {ms : List (Message × Nat)}
    (spaced : Spaced ms) :
    ∃ n cells, (∀ fuel ≥ n, manchester 10 5 fuel (signal lo hi lead ms) = .ok cells) ∧
      (messages cells).map (fun f => (f.adsb_frame, f.frame_len)) =
        ms.map (fun sent => (sent.1.adsb_frame, sent.1.frame_len)) ∧
      ∀ short_output, (messages cells).filterMap (display short_output 10) =
        (ms.filter fun sent => short_output || sent.1.first.toNat.testBit 7).map fun sent =>
          sent.1.bytes.map UInt8.toNat := by
  obtain ⟨n, cells, decoded, shown⟩ := signal_shown low high lead spaced
  exact ⟨n, cells, decoded, shown, filterMap_display shown⟩

def shortMessage : Message := ⟨0x5d, [0x48, 0x40, 0xd6, 0x01, 0x02, 0x03], by decide, by decide⟩

def longMessage : Message :=
  ⟨0x8d, [0x48, 0x40, 0xd6, 0x20, 0x2c, 0xc3, 0x71, 0xc3, 0x2c, 0xe0, 0x57, 0x60, 0x98],
    by decide, by decide⟩

theorem signal_displayed_two :
    ∃ n cells, (∀ fuel ≥ n, manchester 10 5 fuel (signal 2 3 5 [(shortMessage, 24), (longMessage, 1)]) = .ok cells) ∧
      (messages cells).filterMap (display true 10) =
        [shortMessage.bytes.map UInt8.toNat, longMessage.bytes.map UInt8.toNat] := by
  obtain ⟨n, cells, decoded, -, printed⟩ := signal_displayed (by decide : (2 : UInt16) ≤ 2)
    (by decide : (2 : UInt16) < 3) 5
    (show Spaced [(shortMessage, 24), (longMessage, 1)] from
      ⟨.inl (Nat.le_refl 24), .inr rfl, trivial⟩)
  exact ⟨n, cells, decoded, printed true⟩

/-- A message of 56 bits is not printed when only long ones are asked for. -/
theorem short_not_printed :
    ¬ ∃ n cells, (∀ fuel ≥ n, manchester 10 5 fuel (signal 2 3 5 [(shortMessage, 24)]) = .ok cells) ∧
      (messages cells).filterMap (display false 10) = [shortMessage.bytes.map UInt8.toNat] := by
  rintro ⟨n, cells, decoded, printed⟩
  obtain ⟨n', cells', decoded', shown⟩ := signal_shown (by decide : (2 : UInt16) ≤ 2)
    (by decide : (2 : UInt16) < 3) 5
    (show Spaced [(shortMessage, 24)] from ⟨.inl (Nat.le_refl 24), trivial⟩)
  obtain rfl : cells = cells' := Except.ok.inj
    ((decoded (max n n') (Nat.le_max_left n n')).symm.trans
      (decoded' (max n n') (Nat.le_max_right n n')))
  rw [filterMap_display shown] at printed
  exact absurd printed (by decide)

end Soapy.Rtl.Adsb
