import Soapy.Rtl.AdsbDecoding

/-! # The demodulator comes to an end

A turn takes samples, or it marks the first one as bad and begins again there. A marked sample is
taken by the third turn at the latest, unless the one behind it has the value of the mark. No
magnitude has it.
-/

namespace Soapy.Rtl.Adsb

open Lib

variable {quality : Int} {allowed_errors : Nat}

theorem single_manchester_never_bad (a b c d : UInt16) :
    single_manchester 0 a b c d ≠ BADSAMPLE := by
  rw [single_manchester, if_pos rfl]
  cases decide (c > d) <;> decide

theorem single_manchester_marked {d : UInt16} (other : d ≠ BADSAMPLE) :
    single_manchester quality BADSAMPLE d BADSAMPLE d ≠ BADSAMPLE := by
  have zero : (0 : UInt16) ≠ BADSAMPLE := by decide
  have one : (1 : UInt16) ≠ BADSAMPLE := by decide
  rcases Nat.lt_or_gt_of_ne (fun same => other (UInt16.toNat_inj.mp same)) with less | more
  · have less : d < BADSAMPLE := UInt16.lt_iff_toNat_lt.mpr less
    have not_more : ¬ BADSAMPLE < d := UInt16.lt_asymm less
    simp [single_manchester, flag, less, not_more, one]
  · have more : BADSAMPLE < d := UInt16.lt_iff_toNat_lt.mpr more
    have not_less : ¬ d < BADSAMPLE := UInt16.lt_asymm more
    simp [single_manchester, flag, more, not_less, zero]

theorem single_manchester_marked_five (d : UInt16) :
    single_manchester 5 BADSAMPLE d BADSAMPLE d ≠ BADSAMPLE := by
  by_cases same : d = BADSAMPLE
  · subst same
    decide
  · exact single_manchester_marked same

theorem suffix_tail {f g : List Cell} (suffix : f <:+ g) : f.tail <:+ g.tail := by
  obtain ⟨before, rfl⟩ := suffix
  cases before with
  | nil => exact List.suffix_refl _
  | cons c before => exact (List.tail_suffix f).trans (List.suffix_append before f)

theorem Heard.left_tail (h : Heard) : h.left.tail = h.rest.tail := by
  unfold Heard.left
  split <;> rfl

theorem listen_tail (pos : Nat) (a b : UInt16) (rest : List Cell) :
    (listen quality allowed_errors pos a b rest).left.tail <:+ rest.tail := by
  unfold listen
  split
  · rename_i skipped found first
    obtain ⟨rfl, -⟩ := firstPreamble_some first
    change (Heard.left _).tail <:+ _
    rw [Heard.left_tail]
    exact suffix_tail ((hear_suffix _ _ _ _).trans
      ((List.drop_suffix _ _).trans (List.suffix_append _ _)))
  · change (Heard.left _).tail <:+ _
    rw [Heard.left_tail]
    exact suffix_tail ((hear_suffix _ _ _ _).trans (List.drop_suffix _ _))

/-- A turn that takes nothing: only the first sample is marked. -/
structure Stuck (quality : Int) (a b : UInt16) (rest : List Cell) (r : Round) (c d : Cell)
    (behind : List Cell) : Prop where
  short : rest.length ≤ preamble_len
  first : rest = c :: d :: behind
  bad : single_manchester quality a b c.value d.value = BADSAMPLE
  left : r.left = mark BADSAMPLE :: d :: behind
  on : r.a = c.value
  on' : r.b = d.value

theorem listen_takes (pos : Nat) (a b : UInt16) {rest : List Cell} (more : 1 < rest.length) :
    (listen quality allowed_errors pos a b rest).left.length < rest.length ∨
      allowed_errors = 0 ∧ ∃ c d behind,
        Stuck quality a b rest (listen quality allowed_errors pos a b rest) c d behind := by
  unfold listen
  split
  · rename_i skipped found first
    obtain ⟨rfl, long⟩ := firstPreamble_some first
    have left := hear_left quality allowed_errors
      (valueAt found 0) (valueAt found 1) 0 (found.drop preamble_len)
    refine .inl ?_
    change (Heard.left _).length < _
    rw [List.length_drop] at left
    rw [List.length_append]
    have some_preamble : 0 < preamble_len := by decide
    omega
  · have left := hear_left quality allowed_errors a b 0
      (rest.drop (rest.length - preamble_len))
    rw [List.length_drop] at left
    by_cases taken : (Heard.left (hear quality allowed_errors a b 0
        (rest.drop (rest.length - preamble_len)))).length < rest.length
    · exact .inl taken
    · right
      have short : rest.length - preamble_len = 0 := by omega
      simp only [short, List.drop_zero] at left taken ⊢
      match rest, more with
      | c :: d :: behind, _ =>
        unfold hear at left taken ⊢
        split at left
        · rename_i bad
          rw [if_pos bad] at taken ⊢
          split at left
          · rename_i past
            rw [if_pos past]
            exact ⟨by omega, c, d, behind, by omega, rfl, bad, rfl, rfl, rfl⟩
          · rename_i few
            rw [if_neg few] at taken
            simp only [Heard.cons, List.length_cons] at left taken
            omega
        · rename_i good
          rw [if_neg good] at taken
          simp only [Heard.cons, List.length_cons] at left taken
          omega

/-- No sample that is still to come stands among the last with the value of a mark, or it does no
harm. -/
def Safe (quality : Int) (allowed_errors : Nat) (rest : List Cell) : Prop :=
  1 ≤ allowed_errors ∨ quality = 0 ∨ quality = 5 ∨
    ∀ c ∈ rest.tail.drop (rest.tail.length - (preamble_len - 1)), c.value ≠ BADSAMPLE

theorem drop_suffix_of_suffix {f g : List Cell} (suffix : f <:+ g) (n : Nat) :
    f.drop (f.length - n) <:+ g.drop (g.length - n) := by
  obtain ⟨before, rfl⟩ := suffix
  rw [List.length_append]
  rcases Nat.le_total n f.length with few | all
  · have behind : before.length + f.length - n = before.length + (f.length - n) := by omega
    rw [behind, ← List.drop_drop, List.drop_left]
  · rw [Nat.sub_eq_zero_of_le all, List.drop_zero, List.drop_append_of_le_length (by omega)]
    exact List.suffix_append _ _

theorem Safe.later {f g : List Cell} (safe : Safe quality allowed_errors g)
    (suffix : f.tail <:+ g.tail) : Safe quality allowed_errors f := by
  rcases safe with some_errors | zero | five | none
  · exact .inl some_errors
  · exact .inr (.inl zero)
  · exact .inr (.inr (.inl five))
  · exact .inr (.inr (.inr fun c member =>
      none c ((drop_suffix_of_suffix suffix _).subset member)))

theorem Stuck.marked {a b : UInt16} {rest behind : List Cell} {r : Round} {c d : Cell}
    (stuck : Stuck quality a b rest r c d behind) (none : allowed_errors = 0)
    (safe : Safe quality allowed_errors rest) :
    single_manchester quality BADSAMPLE d.value BADSAMPLE d.value ≠ BADSAMPLE := by
  rcases safe with some_errors | zero | five | other
  · omega
  · subst zero
    exact absurd stuck.bad (single_manchester_never_bad _ _ _ _)
  · subst five
    exact single_manchester_marked_five d.value
  · have short := stuck.short
    rw [stuck.first] at short other
    apply single_manchester_marked
    apply other
    have all : (c :: d :: behind).tail.length - (preamble_len - 1) = 0 := by
      rw [List.tail_cons]
      rw [List.length_cons] at short
      omega
    rw [all]
    exact List.mem_cons_self

theorem decodes_or_stuck {pos : Nat} {a b : UInt16} {rest : List Cell} (more : 1 < rest.length)
    (later : ∀ pos' a' b' left, left.length < rest.length → left.tail <:+ rest.tail →
      ∃ parts, Decodes quality allowed_errors pos' a' b' left parts) :
    (∃ parts, Decodes quality allowed_errors pos a b rest parts) ∨
      allowed_errors = 0 ∧ ∃ c d behind,
        Stuck quality a b rest (listen quality allowed_errors pos a b rest) c d behind := by
  rcases listen_takes pos a b more with
    taken | stuck
  · obtain ⟨parts, decodes⟩ := later _ _ _ _ taken (listen_tail pos a b rest)
    exact .inl ⟨_, .turn more decodes⟩
  · exact .inr stuck

theorem Stuck.turn {pos : Nat} {a b : UInt16} {rest behind : List Cell} {c d : Cell}
    (stuck : Stuck quality a b rest (listen quality allowed_errors pos a b rest) c d behind)
    (later : ∀ pos', ∃ parts, Decodes quality allowed_errors pos' c.value d.value
      (mark BADSAMPLE :: d :: behind) parts) :
    ∃ parts, Decodes quality allowed_errors pos a b rest parts := by
  have more : 1 < rest.length := by
    rw [stuck.first]
    simp
  obtain ⟨parts, decodes⟩ :=
    later (pos + rest.length - (listen quality allowed_errors pos a b rest).left.length)
  rw [← stuck.left, ← stuck.on, ← stuck.on'] at decodes
  exact ⟨_, .turn more decodes⟩

theorem exists_decodes_marked {d : Cell} {behind : List Cell}
    (bit : single_manchester quality BADSAMPLE d.value BADSAMPLE d.value ≠ BADSAMPLE)
    (later : ∀ pos' a' b' left, left.length < (d :: behind).length + 1 →
      left.tail <:+ d :: behind → ∃ parts, Decodes quality allowed_errors pos' a' b' left parts)
    (pos : Nat) (a b : UInt16) :
    ∃ parts, Decodes quality allowed_errors pos a b (mark BADSAMPLE :: d :: behind) parts := by
  have more : 1 < (mark BADSAMPLE :: d :: behind).length := by simp
  have second (pos : Nat) : ∃ parts, Decodes quality allowed_errors pos BADSAMPLE d.value
      (mark BADSAMPLE :: d :: behind) parts := by
    rcases decodes_or_stuck more later with decodes | ⟨-, c', d', behind', stuck⟩
    · exact decodes
    · have bad := stuck.bad
      cases stuck.first
      exact absurd bad bit
  rcases decodes_or_stuck (a := a) (b := b) more later with
    decodes | ⟨-, c', d', behind', stuck⟩
  · exact decodes
  · have first := stuck.first
    cases first
    exact stuck.turn second

theorem exists_decodes (rest : List Cell) (safe : Safe quality allowed_errors rest) (pos : Nat)
    (a b : UInt16) : ∃ parts, Decodes quality allowed_errors pos a b rest parts := by
  induction rest using (measure List.length).wf.induction generalizing pos a b with
  | h rest ih =>
    rcases Nat.lt_or_ge 1 rest.length with more | few
    · rcases decodes_or_stuck (a := a) (b := b) more
        (fun pos' a' b' left less suffix => ih left less (safe.later suffix) pos' a' b') with
        decodes | ⟨none, c, d, behind, stuck⟩
      · exact decodes
      · have bit := stuck.marked none safe
        have first := stuck.first
        subst first
        exact stuck.turn fun pos' => exists_decodes_marked bit
          (fun pos'' a' b' left less suffix => ih left less (safe.later suffix) pos'' a' b')
          pos' c.value d.value
    · exact ⟨_, .done few⟩

theorem abs8_le (x : UInt8) : abs8 x.toNat ≤ 128 := by
  have small := x.toNat_lt
  unfold abs8
  split <;> omega

theorem squares_toNat (x : UInt8) : (squares x).toNat = abs8 x.toNat * abs8 x.toNat :=
  UInt16.toNat_ofNat_of_lt'
    (Nat.lt_of_le_of_lt (Nat.mul_le_mul (abs8_le x) (abs8_le x)) (by decide))

theorem square_mod_four (n : Nat) : n * n % 4 = 0 ∨ n * n % 4 = 1 := by
  have remainder : n % 4 = 0 ∨ n % 4 = 1 ∨ n % 4 = 2 ∨ n % 4 = 3 := by omega
  rw [Nat.mul_mod]
  rcases remainder with same | same | same | same <;> rw [same] <;> decide

theorem squares_ne (i q : UInt8) : squares i + squares q ≠ BADSAMPLE := by
  intro same
  have first := Nat.mul_le_mul (abs8_le i) (abs8_le i)
  have second := Nat.mul_le_mul (abs8_le q) (abs8_le q)
  have sum := congrArg UInt16.toNat same
  rw [UInt16.toNat_add, squares_toNat, squares_toNat, Nat.mod_eq_of_lt (by omega)] at sum
  have bad : BADSAMPLE.toNat = 255 := rfl
  rcases square_mod_four (abs8 i.toNat) with i_square | i_square <;>
    rcases square_mod_four (abs8 q.toNat) with q_square | q_square <;> omega

theorem magnitute_ne (buf : Bytes) : ∀ v ∈ magnitute buf, v ≠ BADSAMPLE := by
  fun_induction magnitute buf with
  | case1 i q buf ih =>
    intro v member
    rcases List.mem_cons.mp member with rfl | later
    · exact squares_ne i q
    · exact ih v later
  | case2 => nofun

theorem safe_samples {buf : List UInt16} (safe : 1 ≤ allowed_errors ∨ quality = 0 ∨ quality = 5 ∨
      ∀ v ∈ buf.drop (buf.length - (preamble_len - 1)), v ≠ BADSAMPLE) :
    Safe quality allowed_errors (samples buf) := by
  rcases safe with some_errors | zero | five | none
  · exact .inl some_errors
  · exact .inr (.inl zero)
  · exact .inr (.inr (.inl five))
  · refine .inr (.inr (.inr fun c member => ?_))
    have last := (drop_suffix_of_suffix (List.tail_suffix (samples buf)) _).subset member
    rw [samples, ← List.map_drop, List.length_map] at last
    obtain ⟨v, there, rfl⟩ := List.mem_map.mp last
    exact none v there

theorem manchester_of_safe {buf : List UInt16}
    (safe : 1 ≤ allowed_errors ∨ quality = 0 ∨ quality = 5 ∨
      ∀ v ∈ buf.drop (buf.length - (preamble_len - 1)), v ≠ BADSAMPLE) :
    ∃ fuel out, manchester quality allowed_errors fuel buf = .ok out := by
  obtain ⟨parts, decodes⟩ := exists_decodes (samples buf) (safe_samples safe) 0 0 0
  obtain ⟨fuel, past⟩ := (manchester_iff buf _).mpr ⟨parts, decodes, rfl⟩
  exact ⟨fuel, _, past⟩

theorem manchester_in_bounds (fuel : Nat) (buf : List UInt16) :
    manchester quality allowed_errors fuel buf ≠ .error .out_of_bounds := by
  have length : buf.length = (samples buf).length := (List.length_map _).symm
  rw [manchester, length]
  exact turns_in_bounds fuel (s := ⟨samples buf, 0, 0, 0, none⟩) (rfl : _ = [] ++ _) rfl

/-- The loops stay in the buffer, and they end, unless no error is allowed and a sample near the end
has the value of a mark, which no magnitude has. -/
theorem manchester_ends (quality : Int) (allowed_errors : Nat) :
    (∀ fuel buf, manchester quality allowed_errors fuel buf ≠ .error .out_of_bounds) ∧
      (∀ buf : List UInt16, (1 ≤ allowed_errors ∨ quality = 0 ∨ quality = 5 ∨
          ∀ v ∈ buf.drop (buf.length - (preamble_len - 1)), v ≠ BADSAMPLE) →
        ∃ fuel out, manchester quality allowed_errors fuel buf = .ok out) ∧
      ∀ iq : Bytes, ∃ fuel out, manchester quality allowed_errors fuel (magnitute iq) = .ok out :=
  ⟨manchester_in_bounds, fun _ => manchester_of_safe, fun iq => manchester_of_safe
    (.inr (.inr (.inr fun v member => magnitute_ne iq v (List.mem_of_mem_drop member))))⟩

theorem manchester_ends_two : ∃ fuel out, manchester 10 0 fuel [0, 3] = .ok out :=
  (manchester_ends 10 0).2.1 [0, 3] (.inr (.inr (.inr (by simp [BADSAMPLE, preamble_len]))))

/-- The states in which the last two samples are tried again and again. -/
inductive Tried : UInt16 → UInt16 → UInt16 → Prop where
  | first : Tried 0 0 0
  | marked : Tried 0 255 255
  | again : Tried 255 255 255

theorem Tried.stays {a b c : UInt16} (tried : Tried a b c) (pos : Nat) (origin : Origin)
    (d : Cell) (same : d.value = 255) :
    ∃ c' : Cell, (listen 10 0 pos a b [⟨c, origin⟩, d]).left = [c', d] ∧
      Tried (listen 10 0 pos a b [⟨c, origin⟩, d]).a (listen 10 0 pos a b [⟨c, origin⟩, d]).b
        c'.value := by
  obtain ⟨v, o⟩ := d
  subst same
  cases tried with
  | first => exact ⟨mark BADSAMPLE, rfl, .marked⟩
  | marked => exact ⟨mark BADSAMPLE, rfl, .again⟩
  | again => exact ⟨mark BADSAMPLE, rfl, .again⟩

theorem Tried.not_decoded {pos : Nat} {a b : UInt16} {rest : List Cell} {parts : List Part}
    (decodes : Decodes 10 0 pos a b rest parts) {c d : Cell} (two : rest = [c, d])
    (same : d.value = 255) (tried : Tried a b c.value) : False := by
  induction decodes generalizing c with
  | done few =>
    subst two
    exact absurd few (by simp)
  | @turn pos a b rest parts more later ih =>
    subst two
    obtain ⟨c', left, next⟩ := tried.stays pos c.origin d same
    exact ih left next

/-- With no error allowed, the samples 0 and 255 keep the demodulator busy. -/
theorem manchester_never_ends :
    ¬ ∃ fuel out, manchester 10 0 fuel [0, 255] = .ok out := by
  rintro ⟨fuel, out, past⟩
  obtain ⟨parts, decodes, -⟩ := (manchester_iff [0, 255] out).mp ⟨fuel, past⟩
  exact Tried.not_decoded decodes rfl rfl .first

end Soapy.Rtl.Adsb
