import Soapy.Lime.NCOWords

/-! # What becomes of the NCO frequencies when the clock changes

`SetFrequencyCGEN` reads one mode bit for either direction, and rewrites the words of both channels
or of neither.
-/

namespace Soapy.Lime.Session

open Lib LMS7002M

variable {v w : Cell → UInt16} {refClk freq : Rat} {b : Session} {bank : Bank} {tx : Bool} {i : Nat}

def Rests (b b' : Session) : Prop := b.Stores →
  b'.Stores ∧ ∀ c : Cell, c.2 ∉ readOnlyRegs → b'.lms.chip.cell c = b.lms.chip.cell c

instance : IsPreorder Session Rests where
  refl _ stores := ⟨stores, fun _ _ => rfl⟩
  trans _ _ _ first second stores := by
    obtain ⟨stores', same⟩ := first stores
    obtain ⟨stores'', same'⟩ := second stores'
    exact ⟨stores'', fun c plain => (same' c plain).trans (same c plain)⟩

theorem transfer_stored {α : Type} (stores : b.Stores) (call : LMS7002M → Int → α × LMS7002M) :
    ∃ s : LMS7002M, s.useCache = b.lms.useCache ∧
      (∀ c : Cell, c.2 ∉ readOnlyRegs → s.chip.cell c = b.lms.chip.cell c) ∧
      transfer call b = ((call s 0).1,
        { b with lms := (call s 0).2, answers := fun n => b.answers (n + 1) }) := by
  obtain ⟨done, same⟩ := stores 0 b.lms.chip
  refine ⟨{ b.lms with chip := (b.answers 0 b.lms.chip).1 }, rfl, same, ?_⟩
  rw [← done]
  rfl

variable {address : UInt16}

theorem spiRead_rests (small : address < 0x8000) (fromChip : Bool) :
    Moves Rests (spiRead address fromChip) := by
  intro b stores
  obtain ⟨s, _, same, run⟩ := transfer_stored stores fun lms result =>
    ((lms.spiRead address fromChip result).1, (lms.spiRead address fromChip result).2.2)
  have read : spiRead address fromChip b = _ := run
  have chip : (s.spiRead address fromChip 0).2.2.chip = s.chip := by
    by_cases asks : s.asksChip address fromChip = true
    · exact (spiRead_chip small asks).2.1
    · rw [spiRead_cached asks]
  rw [read]
  refine ⟨fun n => stores (n + 1), fun c plain => ?_⟩
  rw [← same c plain, ← chip]

theorem chip_read_congr {chip chip' : Chip}
    (same : ∀ c : Cell, c.2 ∉ readOnlyRegs → chip'.cell c = chip.cell c)
    (plain : address ∉ readOnlyRegs) : chip'.read address = chip.read address := by
  have mac : chip'.mac = chip.mac :=
    congrArg (· &&& 0x0003) (same macCell (by decide))
  rw [Chip.read, Chip.read, mac]
  split
  · exact same (.b, address) plain
  · exact same (.a, address) plain

theorem spiRead_asked (stores : b.Stores) (plain : Lime.Plain address) :
    (spiRead address true b).1 = b.lms.chip.read address := by
  obtain ⟨s, _, same, run⟩ := transfer_stored stores fun lms result =>
    ((lms.spiRead address true result).1, (lms.spiRead address true result).2.2)
  have read : spiRead address true b = _ := run
  rw [read]
  exact (spiRead_chip plain.1 rfl).1.trans (chip_read_congr same plain.2.1)

def modeRead (chip : Chip) (tx : Bool) : UInt16 := bitsOf (chip.read (ncoAddress tx)) 0 0

/-- The mode bit of a channel: with 0 its NCOs have frequencies. -/
def modeNCO (v : Cell → UInt16) (bank : Bank) (tx : Bool) : UInt16 :=
  bitsOf (v (bank, ncoAddress tx)) 0 0

theorem mode_address_plain (tx : Bool) : Lime.Plain (ncoAddress tx) := by
  cases tx with
  | false => decide
  | true => decide

theorem mode_read {before : Session} (stores : before.Stores) (rests : Rests before b) (tx : Bool) :
    (getBits ⟨ncoAddress tx, 0, 0⟩ true b).1 = modeRead before.lms.chip tx := by
  have plain := mode_address_plain tx
  obtain ⟨stores', same⟩ := rests stores
  have value := spiRead_asked stores' plain
  rw [chip_read_congr same plain.2.1] at value
  exact congrArg (bitsOf · 0 0) value

theorem mode_outside (tx : Bool) : Outside ncoRegisters (ncoAddress tx) := by
  refine ⟨fun c member same => ?_, (mode_address_plain tx).1⟩
  have place : (ncoAddress tx).toNat = if tx then 0x0240 else 0x0440 := by
    cases tx with
    | false => rfl
    | true => rfl
  cases member with
  | inl clock =>
    have low := clockCells_low clock
    rw [same, place] at low
    split at low <;> omega
  | inr nco =>
    obtain ⟨bank, tx', i, k, small, half, rfl⟩ := nco
    have halves := half.toNat
    have value : (ncoCell bank tx' i k).2.toNat = (if tx' then 0x0240 else 0x0440) + k.toNat + i * 2 :=
      ncoCell_toNat small (by omega)
    rw [same, place] at value
    split at value <;> split at value <;> omega

namespace NCODetails

def mode (nco : NCODetails) (tx : Bool) : Bool := if tx then nco.txModeNCO else nco.rxModeNCO

def freqs (nco : NCODetails) (tx : Bool) : Bank → List Rat
  | .a => if tx then nco.txNCO.1 else nco.rxNCO.1
  | .b => if tx then nco.txNCO.2 else nco.rxNCO.2

end NCODetails

structure SameNCOs (v v' : Cell → UInt16) : Prop where
  clock : ∀ c ∈ clockCells, c ≠ macCell → v' c = v c
  words : ∀ bank tx, ∀ i < 16, word v' bank tx i = word v bank tx i

theorem SameNCOs.trans {v' v'' : Cell → UInt16} (first : SameNCOs v v') (second : SameNCOs v' v'') :
    SameNCOs v v'' where
  clock c member other := (second.clock c member other).trans (first.clock c member other)
  words bank tx i small := (second.words bank tx i small).trans (first.words bank tx i small)

theorem SameNCOs.frequencies {v' : Cell → UInt16} (same : SameNCOs v v') (bank : Bank) (tx : Bool) :
    (List.range 16).map (ncoFrequency refClk v' bank tx) =
      (List.range 16).map (ncoFrequency refClk v bank tx) := by
  apply List.map_congr_left
  intro i member
  rw [ncoFrequency, ncoFrequency, same.words bank tx i (List.mem_range.mp member),
    clockTSP_congr same.clock]

theorem selecting_same (v : Cell → UInt16) (ch : UInt16) : SameNCOs v (selecting v ch) where
  clock c _ other := Function.update_of_ne other _ v
  words bank tx i small := by
    have other (k : UInt16) (half : Half k) : ncoCell bank tx i k ≠ macCell := by
      intro same
      have place := congrArg (fun c : Cell => c.2.toNat) same
      have halves := half.toNat
      rw [ncoCell_toNat small (by omega)] at place
      change _ = 32 at place
      split at place <;> omega
    rw [word, word, selecting, Function.update_of_ne (other 2 (.inl rfl)),
      Function.update_of_ne (other 3 (.inr rfl))]

theorem Holds.activate (holds : Holds ncoRegisters v refClk b) (ch : UInt16) :
    Holds ncoRegisters (selecting v ch) refClk (Session.setActiveChannel ch b).2 :=
  holds.setActiveChannel (clock_known List.mem_cons_self) ch

def remembering (mode : Bool → Bool) (refClk : Rat) (v : Cell → UInt16) : NCODetails :=
  let freqs := fun bank tx =>
    if mode tx then [] else (List.range 16).map (ncoFrequency refClk v bank tx)
  ⟨mode false, mode true, (freqs .a false, freqs .b false), (freqs .a true, freqs .b true)⟩

theorem allNCOs_value (holds : Holds ncoRegisters v refClk b) {before : Session}
    (stores : before.Stores) (rests : Rests before b) :
    (allNCOs b).1 = remembering (fun tx => decide (modeRead before.lms.chip tx ≠ 0)) refClk v ∧
      ∃ v', SameNCOs v v' ∧ Holds ncoRegisters v' refClk (allNCOs b).2 := by
  have read (tx : Bool) {b : Session} (holds : Holds ncoRegisters v refClk b)
      (rests : Rests before b) : (getBits ⟨ncoAddress tx, 0, 0⟩ true b).1 =
        modeRead before.lms.chip tx ∧ Holds ncoRegisters v refClk
          (getBits ⟨ncoAddress tx, 0, 0⟩ true b).2 ∧
        Rests before (getBits ⟨ncoAddress tx, 0, 0⟩ true b).2 :=
    ⟨mode_read stores rests tx, getBits_keeps (mode_outside tx) true b holds,
      IsTrans.trans before b _ rests (getBits_moves (p := ⟨ncoAddress tx, 0, 0⟩)
        (spiRead_rests (mode_address_plain tx).1 true) b)⟩
  obtain ⟨rxMode, first, rests₁⟩ := read false holds rests
  obtain ⟨txMode, second, -⟩ := read true first rests₁
  have third := second.activate ChA
  have active : selecting v ChA macCell &&& 0x0003 = channelOf .a := channelOf_active v .a
  obtain ⟨rxA, fourth⟩ := third.getNCOs active false (decide (modeRead before.lms.chip false ≠ 0))
  obtain ⟨txA, fifth⟩ := fourth.getNCOs active true (decide (modeRead before.lms.chip true ≠ 0))
  have sixth := fifth.activate ChB
  have active' : selecting (selecting v ChA) ChB macCell &&& 0x0003 = channelOf .b :=
    channelOf_active _ .b
  obtain ⟨rxB, seventh⟩ := sixth.getNCOs active' false (decide (modeRead before.lms.chip false ≠ 0))
  obtain ⟨txB, eighth⟩ := seventh.getNCOs active' true (decide (modeRead before.lms.chip true ≠ 0))
  have same := selecting_same v ChA
  have same' := same.trans (selecting_same (selecting v ChA) ChB)
  rw [same.frequencies] at rxA txA
  rw [same'.frequencies] at rxB txB
  have rx : MODE_RX = ⟨ncoAddress false, 0, 0⟩ := rfl
  have tx : MODE_TX = ⟨ncoAddress true, 0, 0⟩ := rfl
  simp only [allNCOs, bind_run, pure_run, rx, tx, rxMode, txMode, rxA, txA, rxB, txB]
  exact ⟨rfl, _, same', eighth⟩

def retuned (nco : NCODetails) (refClk : Rat) (v : Cell → UInt16) (bank : Bank) (tx : Bool)
    (i : Nat) : UInt32 :=
  let clock := clockTSP refClk v tx
  let freq := (nco.freqs tx bank).getD i 0
  if nco.mode tx ∨ OutOfRangeNCO clock freq then word v bank tx i else controlWord clock freq

structure Retuned (nco : NCODetails) (refClk : Rat) (v : Cell → UInt16) (done : List (Bank × Bool))
    (v' : Cell → UInt16) : Prop where
  clock : ∀ c ∈ clockCells, c ≠ macCell → v' c = v c
  words : ∀ bank tx, ∀ i < 16, word v' bank tx i =
    if (bank, tx) ∈ done then retuned nco refClk v bank tx i else word v bank tx i

section Retuned

variable {nco : NCODetails} {done : List (Bank × Bool)} {v' : Cell → UInt16}

theorem retuned_start (nco : NCODetails) (refClk : Rat) (v : Cell → UInt16) :
    Retuned nco refClk v [] v :=
  ⟨fun _ _ _ => rfl, fun _ _ _ _ => rfl⟩

theorem Retuned.activate (retuned : Retuned nco refClk v done v') (ch : UInt16) :
    Retuned nco refClk v done (selecting v' ch) where
  clock c member other :=
    ((selecting_same v' ch).clock c member other).trans (retuned.clock c member other)
  words bank tx i small :=
    ((selecting_same v' ch).words bank tx i small).trans (retuned.words bank tx i small)

theorem Retuned.set (now : Retuned nco refClk v done v') (fresh : (bank, tx) ∉ done) :
    Retuned nco refClk v ((bank, tx) :: done) (if nco.mode tx then v' else
      settingWords (clockTSP refClk v' tx) bank tx (nco.freqs tx bank) v') := by
  have clock : clockTSP refClk v' tx = clockTSP refClk v tx := clockTSP_congr now.clock
  constructor
  · intro c member other
    split
    · exact now.clock c member other
    · rw [settingWords_low _ bank tx _ (clockCells_low member)]
      exact now.clock c member other
  · intro bank' tx' i small
    have words := now.words bank' tx' i small
    by_cases here : bank' = bank ∧ tx' = tx
    · obtain ⟨rfl, rfl⟩ := here
      rw [if_neg fresh] at words
      rw [if_pos List.mem_cons_self, retuned]
      cases mode : nco.mode tx' with
      | true => simpa using words
      | false =>
        simp only [Bool.false_eq_true, if_false, false_or]
        rw [settingWords_word _ _ _ _ small, clock, words]
        grind
    · have other : (bank', tx') ∈ (bank, tx) :: done ↔ (bank', tx') ∈ done := by
        rw [List.mem_cons, Prod.mk.injEq, or_iff_right here]
      simp only [other, ← words]
      split
      · rfl
      · rw [settingWords_word _ _ _ _ small, if_neg fun all => here ⟨all.1, all.2.1⟩]

theorem Retuned.setNCOs (now : Retuned nco refClk v done v') (holds : Holds ncoRegisters v' refClk b)
    (active : v' macCell &&& 0x0003 = channelOf bank) (tx : Bool) (fresh : (bank, tx) ∉ done) :
    ∃ v'', Retuned nco refClk v ((bank, tx) :: done) v'' ∧
      v'' macCell &&& 0x0003 = channelOf bank ∧
      Holds ncoRegisters v'' refClk (setNCOs tx (nco.mode tx) (nco.freqs tx bank) b).2 := by
  refine ⟨_, now.set fresh, ?_, holds.setNCOs active tx (nco.mode tx) (nco.freqs tx bank)⟩
  split
  · exact active
  · rw [settingWords_low _ bank tx _ (by decide)]
    exact active

end Retuned

theorem setAllNCOs_holds (holds : Holds ncoRegisters v refClk b) (nco : NCODetails) :
    ∃ v', Retuned nco refClk v [(.b, true), (.b, false), (.a, true), (.a, false)] v' ∧
      Holds ncoRegisters v' refClk (setAllNCOs nco b).2 := by
  have first := holds.activate ChA
  have start := (retuned_start nco refClk v).activate ChA
  obtain ⟨v₁, rxA, active₁, second⟩ :=
    Retuned.setNCOs start first (channelOf_active v .a) false (by decide)
  obtain ⟨v₂, txA, -, third⟩ := rxA.setNCOs second active₁ true (by decide)
  have fourth := third.activate ChB
  obtain ⟨v₃, rxB, active₃, fifth⟩ :=
    Retuned.setNCOs (txA.activate ChB) fourth (channelOf_active v₂ .b) false (by decide)
  obtain ⟨v₄, txB, -, sixth⟩ := rxB.setNCOs fifth active₃ true (by decide)
  exact ⟨v₄, txB, sixth⟩

/-- What is known stays, but for two bits that switch the VCO on. -/
def Tunes (refClk : Rat) (b b' : Session) : Prop := ∀ v, Holds ncoRegisters v refClk b →
  ∃ v', Holds ncoRegisters v' refClk b' ∧ (∀ c ≠ (.a, 0x0086), v' c = v c) ∧
    bitsOf (v' (.a, 0x0086)) 11 11 = bitsOf (v (.a, 0x0086)) 11 11

instance : IsPreorder Session (Tunes refClk) where
  refl _ v holds := ⟨v, holds, fun _ _ => rfl, rfl⟩
  trans _ _ _ first second v holds := by
    obtain ⟨v', holds', same, bit⟩ := first v holds
    obtain ⟨v'', holds'', same', bit'⟩ := second v' holds'
    exact ⟨v'', holds'', fun c other => (same' c other).trans (same c other), bit'.trans bit⟩

theorem Keeps.tunes {b b' : Session} (keeps : ∀ v, Keeps ncoRegisters v refClk b b') :
    Tunes refClk b b' :=
  fun v holds => ⟨v, keeps v holds, fun _ _ => rfl, rfl⟩

theorem nco_outside_low (low : address.toNat < 0x0240)
    (apart : clockCells.all (fun c => c.2 != address) = true) : Outside ncoRegisters address := by
  constructor
  · intro c member same
    cases member with
    | inl clock => exact bne_iff_ne.mp (List.all_eq_true.mp apart c clock) same
    | inr nco =>
      obtain ⟨bank, tx, i, k, small, half, rfl⟩ := nco
      have halves := half.toNat
      rw [← same, ncoCell_toNat small (by omega)] at low
      split at low <;> omega
  · rw [UInt16.lt_iff_toNat_lt]
    change _ < 32768
    omega

theorem finishCGEN_tunes (output : Bool) : Moves (Tunes refClk) (finishCGEN output) := by
  have csw : Outside ncoRegisters CSW_VCO_CGEN.address := nco_outside_low (by decide) (by decide)
  have compare : Outside ncoRegisters 0x008C := nco_outside_low (by decide) (by decide)
  apply finishCGEN_moves
  · intro b v holds
    have after := holds.modifyBits (clock_known (c := (.a, 0x0086)) (by decide))
      (.inl ⟨rfl, by decide⟩) 2 1 0
    refine ⟨_, after, fun c other => Function.update_of_ne other _ v, ?_⟩
    rw [Function.update_self]
    exact bitsOf_replaceBits_apart (by decide) (by decide) (by decide) (by decide)
      (.inr (by decide)) _ _
  · exact fun value b => Keeps.tunes fun v => modifyBits_keeps csw value b
  · exact fun b => Keeps.tunes fun v => getBits_keeps compare true b
  · exact fun b => Keeps.tunes fun v => getBits_keeps csw false b

variable {c : Cell}

theorem writtenCGEN_other (other : c ∉ cgenCells) :
    writtenCGEN v refClk freq c = v c := by
  simp only [cgenCells, List.mem_cons, List.not_mem_nil, or_false, not_or] at other
  rw [writtenCGEN, if_neg other.1, if_neg other.2.1, if_neg other.2.2]

theorem writtenCGEN_congr (same : v c = w c) :
    writtenCGEN v refClk freq c = writtenCGEN w refClk freq c := by
  simp only [writtenCGEN, same]

theorem word_congr {v' : Cell → UInt16} (small : i < 16)
    (same : ∀ c : Cell, 0x0240 ≤ c.2.toNat → v' c = v c) :
    word v' bank tx i = word v bank tx i := by
  have high (k : UInt16) (half : Half k) : 0x0240 ≤ (ncoCell bank tx i k).2.toNat := by
    have halves := half.toNat
    rw [ncoCell_toNat small (by omega)]
    split <;> omega
  rw [word, word, same _ (high 2 (.inl rfl)), same _ (high 3 (.inr rfl))]

theorem cgen_clock (member : c ∈ cgenCells) : c ∈ clockCells :=
  List.mem_cons_of_mem _ (List.mem_cons_of_mem _ member)

theorem clockTSP_tuned {v' : Cell → UInt16} (same : ∀ c ≠ (.a, 0x0086), v' c = v c)
    (bit : bitsOf (v' (.a, 0x0086)) 11 11 = bitsOf (v (.a, 0x0086)) 11 11) :
    clockTSP refClk v' tx = clockTSP refClk v tx := by
  rw [clockTSP, clockTSP, bit, same (.a, 0x0087) (by decide), same (.a, 0x0088) (by decide),
    same (.a, 0x0089) (by decide)]

theorem word_known {v' : Cell → UInt16}
    (same : ∀ k, Half k → v' (ncoCell bank tx i k) = v (ncoCell bank tx i k)) :
    word v' bank tx i = word v bank tx i := by
  rw [word, word, same 2 (.inl rfl), same 3 (.inr rfl)]

theorem all_channels (bank : Bank) (tx : Bool) :
    (bank, tx) ∈ ([(.b, true), (.b, false), (.a, true), (.a, false)] : List (Bank × Bool)) := by
  cases bank with
  | a => cases tx <;> decide
  | b => cases tx <;> decide

theorem remembering_mode (mode : Bool → Bool) (refClk : Rat) (v : Cell → UInt16) (tx : Bool) :
    (remembering mode refClk v).mode tx = mode tx := by
  cases tx with
  | false => rfl
  | true => rfl

theorem remembering_freqs (mode : Bool → Bool) (refClk : Rat) (v : Cell → UInt16) (bank : Bank)
    (tx : Bool) : (remembering mode refClk v).freqs tx bank =
      if mode tx then [] else (List.range 16).map (ncoFrequency refClk v bank tx) := by
  cases bank with
  | a => cases tx <;> rfl
  | b => cases tx <;> rfl

def newClock (refClk freq : Rat) (v : Cell → UInt16) (tx : Bool) : Rat :=
  clockTSP refClk (writtenCGEN v refClk freq) tx

theorem setFrequencyCGEN_words (faithful : StoresWritten b) (inRange : ¬ OutOfRangeCGEN freq)
    (output : Bool) :
    let v := b.lms.chip.cell
    let r := b._cachedRefClockRate
    let v' := (setFrequencyCGEN freq true output b).2.lms.chip.cell
    (setFrequencyCGEN freq true output b).2._cachedRefClockRate = r ∧
      (∀ tx, clockTSP r v' tx = newClock r freq v tx) ∧ ∀ bank tx, ∀ i < 16,
      word v' bank tx i = if modeRead b.lms.chip tx = 0 ∧
          ¬ OutOfRangeNCO (newClock r freq v tx) (ncoFrequency r v bank tx i) then
        controlWord (newClock r freq v tx) (ncoFrequency r v bank tx i)
      else word v bank tx i := by
  intro v r v'
  have holds : Holds ncoRegisters v r b := faithful.holds fun c => ncoRegisters_plain
  have asked := holds.getActiveChannel (clock_known List.mem_cons_self) true
  have rests : Rests b (getActiveChannel true b).2 :=
    getBits_moves (p := MAC) (spiRead_rests (by decide) true) b
  obtain ⟨nco, v₁, same₁, remembered⟩ := allNCOs_value asked.2 faithful.stores rests
  have written := writeCGEN_holds remembered (fun c member => clock_known (cgen_clock member)) freq
  obtain ⟨v₂, retuned, set⟩ := setAllNCOs_holds written (allNCOs (getActiveChannel true b).2).1
  obtain ⟨v₃, final, same₃, bit⟩ :=
    finishCGEN_tunes output _ _ (set.activate (getActiveChannel true b).1)
  have run : (setFrequencyCGEN freq true output b).2 = (finishCGEN output
      (setActiveChannel (getActiveChannel true b).1 (setAllNCOs
        (allNCOs (getActiveChannel true b).2).1 (writeCGEN freq
          (allNCOs (getActiveChannel true b).2).2).2).2).2).2 := by
    simp [setFrequencyCGEN, rememberNCOs, recalculateNCOs, if_neg inRange, bind_run]
  have chip (c : Cell) (member : c ∈ ncoRegisters) : v' c = v₃ c := by
    rw [← final.knows.chip c member, ← run]
  have clocks (c : Cell) (member : c ∈ clockCells) (other : c ≠ macCell) :
      v₂ c = writtenCGEN v r freq c :=
    (retuned.clock c member other).trans (writtenCGEN_congr (same₁.clock c member other))
  have activated := selecting_same v₂ (getActiveChannel true b).1
  have clock (tx : Bool) : clockTSP r v' tx = newClock r freq v tx := by
    have first : clockTSP r v' tx = clockTSP r v₃ tx :=
      clockTSP_congr fun c member _ => chip c (clock_known member)
    have second : clockTSP r v₃ tx = clockTSP r (selecting v₂ (getActiveChannel true b).1) tx :=
      clockTSP_tuned same₃ bit
    have third : clockTSP r (selecting v₂ (getActiveChannel true b).1) tx = clockTSP r v₂ tx :=
      clockTSP_congr activated.clock
    exact first.trans (second.trans (third.trans (clockTSP_congr clocks)))
  refine ⟨(congrArg _cachedRefClockRate run).trans final.clock, clock, fun bank tx i small => ?_⟩
  have first : word v' bank tx i = word v₃ bank tx i :=
    word_known fun k half => chip _ (ncoCell_known bank tx small half)
  have second : word v₃ bank tx i = word (selecting v₂ (getActiveChannel true b).1) bank tx i :=
    word_congr small fun c high => same₃ c fun same => by
      rw [same] at high
      exact absurd high (by decide)
  have third := (activated.words bank tx i small).trans (retuned.words bank tx i small)
  rw [if_pos (all_channels bank tx)] at third
  have fourth : clockTSP r (writtenCGEN v₁ r freq) tx = newClock r freq v tx :=
    clockTSP_congr fun c member other => writtenCGEN_congr (same₁.clock c member other)
  have fifth : word (writtenCGEN v₁ r freq) bank tx i = word v bank tx i :=
    (word_congr small fun c high => writtenCGEN_other fun member =>
      absurd (clockCells_low (cgen_clock member)) (by omega)).trans (same₁.words bank tx i small)
  rw [first, second, third, Session.retuned, nco, remembering_mode, remembering_freqs, fourth,
    fifth]
  by_cases mode : modeRead b.lms.chip tx = 0
  · have remembered : ((List.range 16).map (ncoFrequency r v bank tx)).getD i 0 =
        ncoFrequency r v bank tx i := by
      simp [List.getD, List.getElem?_range small]
    simp only [mode, ne_eq, not_true_eq_false, decide_false, Bool.false_eq_true, if_false,
      false_or, true_and, remembered, ite_not]
  · simp [mode]

theorem cgenFrequency_pos (clock : 0 < refClk) (div gINT low : UInt16) :
    0 < cgenFrequency refClk div gINT low := by
  simp only [cgenFrequency]
  positivity

theorem clockTSP_pos (clock : 0 < refClk) (v : Cell → UInt16) (tx : Bool) :
    0 < clockTSP refClk v tx := by
  have cgen := cgenFrequency_pos clock (bitsOf (v (.a, 0x0089)) 10 3) (bitsOf (v (.a, 0x0088)) 13 0)
    (bitsOf (v (.a, 0x0087)) 15 0)
  simp only [clockTSP]
  generalize cgenFrequency refClk (bitsOf (v (.a, 0x0089)) 10 3) (bitsOf (v (.a, 0x0088)) 13 0)
    (bitsOf (v (.a, 0x0087)) 15 0) = f at cgen
  split
  · split
    · positivity
    · positivity
  · split
    · exact cgen
    · positivity

theorem half_iff (old new : Rat) (q : UInt32) : old * (q.toNat / 4294967296) ≤ new / 2 ↔ q.toNat * old ≤ 2147483648 * new := by
  constructor
  · intro below
    linarith
  · intro below
    linarith

theorem step_iff (old new : Rat) (q q' : UInt32) :
    |new * (q'.toNat / 4294967296) - old * (q.toNat / 4294967296)| < new / 4294967296 ↔
      |q'.toNat * new - q.toNat * old| < new := by
  have scale : new * (q'.toNat / 4294967296) - old * (q.toNat / 4294967296) =
      (q'.toNat * new - q.toNat * old) / 4294967296 := by ring
  rw [scale, abs_div, abs_of_pos (show (0 : Rat) < 4294967296 by norm_num),
    div_lt_div_iff_of_pos_right (by norm_num)]

section Scaling

variable {old new : Rat} (old_pos : 0 < old) (new_pos : 0 < new) (q : UInt32)

include old_pos new_pos

theorem outOfRangeNCO_iff : OutOfRangeNCO new (old * (q.toNat / 4294967296)) ↔
    2147483648 * new < q.toNat * old := by
  have positive : (0 : Rat) ≤ old * (q.toNat / 4294967296) := by positivity
  rw [OutOfRangeNCO, or_iff_right (not_lt.mpr positive), div_lt_div_iff₀ two_pos new_pos]
  constructor
  · intro above
    linarith
  · intro above
    linarith

theorem controlWord_floor (inRange : q.toNat * old ≤ 2147483648 * new) :
    ((controlWord new (old * (q.toNat / 4294967296))).toNat : Rat) * new ≤ q.toNat * old ∧
      q.toNat * old < ((controlWord new (old * (q.toNat / 4294967296))).toNat + 1) * new := by
  have exact' : old * (q.toNat / 4294967296) / new * 4294967296 = q.toNat * old / new := by
    field_simp
  have small : q.toNat * old / new ≤ 2147483648 := by
    rw [div_le_iff₀ new_pos]
    exact inRange
  have positive : 0 ≤ q.toNat * old / new := by positivity
  obtain ⟨low, high⟩ := toUInt32_floor positive (by linarith)
  rw [controlWord, exact', ← le_div_iff₀ new_pos, ← div_lt_iff₀ new_pos]
  exact ⟨low, high⟩

theorem controlWord_step (inRange : q.toNat * old ≤ 2147483648 * new) :
    |((controlWord new (old * (q.toNat / 4294967296))).toNat : Rat) * new - q.toNat * old| < new := by
  obtain ⟨low, high⟩ := controlWord_floor old_pos new_pos q inRange
  rw [abs_lt]
  constructor
  · linarith
  · linarith

theorem controlWord_same (inRange : q.toNat * old ≤ 2147483648 * new) :
    controlWord new (old * (q.toNat / 4294967296)) = q ↔
      0 ≤ q.toNat * (old - new) ∧ q.toNat * (old - new) < new := by
  obtain ⟨low, high⟩ := controlWord_floor old_pos new_pos q inRange
  constructor
  · intro same
    rw [same] at low high
    exact ⟨by linarith, by linarith⟩
  · intro ⟨above, below⟩
    apply UInt32.toNat_inj.mp
    generalize controlWord new (old * (q.toNat / 4294967296)) = q' at low high ⊢
    have first : (q'.toNat : Rat) < q.toNat + 1 :=
      lt_of_mul_lt_mul_right (by linarith) new_pos.le
    have second : (q.toNat : Rat) < q'.toNat + 1 :=
      lt_of_mul_lt_mul_right (by linarith) new_pos.le
    have first' : q'.toNat < q.toNat + 1 := by exact_mod_cast first
    have second' : q.toNat < q'.toNat + 1 := by exact_mod_cast second
    omega

def wordAfter (old new : Rat) (read : UInt16) (q : UInt32) : UInt32 :=
  if read = 0 ∧ ¬ OutOfRangeNCO new (old * (q.toNat / 4294967296)) then
    controlWord new (old * (q.toNat / 4294967296))
  else q

theorem frequency_stays_iff (read : UInt16) :
    (old * (q.toNat / 4294967296) ≤ new / 2 →
      |new * ((wordAfter old new read q).toNat / 4294967296) - old * (q.toNat / 4294967296)| <
        new / 4294967296) ↔
      (read ≠ 0 → q.toNat * old ≤ 2147483648 * new → q.toNat * |new - old| < new) := by
  have unscaled : |(q.toNat : Rat) * new - q.toNat * old| = q.toNat * |new - old| := by
    rw [← mul_sub, abs_mul, abs_of_nonneg (Nat.cast_nonneg q.toNat)]
  have range := outOfRangeNCO_iff old_pos new_pos q
  rw [half_iff, step_iff, wordAfter]
  by_cases asked : read = 0
  · simp only [asked, ne_eq, not_true_eq_false, false_imp_iff, iff_true, true_and]
    intro inRange
    rw [if_pos fun out => not_lt.mpr inRange (range.mp out)]
    exact controlWord_step old_pos new_pos q inRange
  · simp only [asked, ne_eq, not_false_eq_true, true_imp_iff, false_and, if_false, unscaled]

theorem phase_stays_iff (read : UInt16) : wordAfter old new read q = q ↔
    (read = 0 → q.toNat * old ≤ 2147483648 * new →
      0 ≤ q.toNat * (old - new) ∧ q.toNat * (old - new) < new) := by
  have range := outOfRangeNCO_iff old_pos new_pos q
  rw [wordAfter]
  by_cases asked : read = 0
  · by_cases inRange : q.toNat * old ≤ 2147483648 * new
    · rw [if_pos ⟨asked, fun out => not_lt.mpr inRange (range.mp out)⟩, controlWord_same old_pos new_pos q inRange]
      exact ⟨fun same _ _ => same, fun same => same asked inRange⟩
    · rw [if_neg fun all => all.2 (range.mpr (not_le.mp inRange))]
      exact ⟨fun _ _ below => absurd below inRange, fun _ => rfl⟩
  · rw [if_neg fun all => asked all.1]
    exact ⟨fun _ read => absurd read asked, fun _ => rfl⟩

end Scaling

/-- The register with a phase. -/
def phoCell (bank : Bank) (tx : Bool) (j : Nat) : Cell :=
  (bank, (if tx then 0x0244 else 0x0444) + UInt16.ofNat j)

theorem phoCell_eq {j : Nat} (small : j < 16) :
    phoCell bank tx j = ncoCell bank tx (1 + j / 2) (UInt16.ofNat (2 + j % 2)) := by
  have half : (UInt16.ofNat (2 + j % 2)).toNat = 2 + j % 2 :=
    UInt16.toNat_ofNat_of_lt (lt_of_lt_of_le (show 2 + j % 2 < 4 by omega) (by decide))
  have offset : (UInt16.ofNat j).toNat = j :=
    UInt16.toNat_ofNat_of_lt (lt_trans small (by decide))
  apply Prod.ext
  · rfl
  · apply UInt16.toNat_inj.mp
    rw [ncoCell_toNat (show 1 + j / 2 < 16 by omega) (by omega), half, phoCell, UInt16.toNat_add,
      offset]
    cases tx with
    | false =>
      change (0x0444 + j) % 65536 = 0x0440 + (2 + j % 2) + (1 + j / 2) * 2
      omega
    | true =>
      change (0x0244 + j) % 65536 = 0x0240 + (2 + j % 2) + (1 + j / 2) * 2
      omega

theorem word_eq_iff {v' : Cell → UInt16} : word v' bank tx i = word v bank tx i ↔
    ∀ k, Half k → v' (ncoCell bank tx i k) = v (ncoCell bank tx i k) := by
  have value (v : Cell → UInt16) : (word v bank tx i).toNat =
      (v (ncoCell bank tx i 2)).toNat * 65536 + (v (ncoCell bank tx i 3)).toNat := by
    have upper := (v (ncoCell bank tx i 2)).toNat_lt
    have lower := (v (ncoCell bank tx i 3)).toNat_lt
    have shift : (16 : UInt32).toNat % 32 = 16 := rfl
    have apart := Nat.shiftLeft_add_eq_or_of_lt (show _ < 2 ^ 16 from lower)
      (v (ncoCell bank tx i 2)).toNat
    rw [Nat.shiftLeft_eq] at apart
    rw [word, UInt32.toNat_or, UInt32.toNat_shiftLeft, UInt16.toNat_toUInt32,
      UInt16.toNat_toUInt32, shift, Nat.shiftLeft_eq, Nat.mod_eq_of_lt (by omega), ← apart]
  constructor
  · intro same k half
    have numbers := congrArg UInt32.toNat same
    rw [value, value] at numbers
    have upper := (v (ncoCell bank tx i 3)).toNat_lt
    have upper' := (v' (ncoCell bank tx i 3)).toNat_lt
    cases half with
    | inl k2 => exact UInt16.toNat_inj.mp (by rw [k2]; omega)
    | inr k3 => exact UInt16.toNat_inj.mp (by rw [k3]; omega)
  · exact word_known

theorem phases_iff {v' : Cell → UInt16} :
    (∀ j < 16, v' (phoCell bank tx j) = v (phoCell bank tx j)) ↔
      ∀ i, 1 ≤ i → i ≤ 8 → word v' bank tx i = word v bank tx i := by
  constructor
  · intro same i low high
    rw [word_eq_iff]
    intro k half
    cases half with
    | inl k2 =>
      have here := same (2 * (i - 1)) (by omega)
      rw [phoCell_eq (by omega), show 1 + 2 * (i - 1) / 2 = i by omega,
        show 2 + 2 * (i - 1) % 2 = 2 by omega] at here
      rw [k2]
      exact here
    | inr k3 =>
      have here := same (2 * (i - 1) + 1) (by omega)
      rw [phoCell_eq (by omega), show 1 + (2 * (i - 1) + 1) / 2 = i by omega,
        show 2 + (2 * (i - 1) + 1) % 2 = 3 by omega] at here
      rw [k3]
      exact here
  · intro same j small
    rw [phoCell_eq small]
    refine word_eq_iff.mp (same (1 + j / 2) (by omega) (by omega)) _ ?_
    cases Nat.mod_two_eq_zero_or_one j with
    | inl even => exact .inl (by rw [even]; rfl)
    | inr odd => exact .inr (by rw [odd]; rfl)

/-- What the call is to do for one channel and direction: the frequencies stay but for less than
the smallest step of the new clock, or the phases stay. -/
def Retained (b b' : Session) (bank : Bank) (tx : Bool) : Prop :=
  let v := b.lms.chip.cell
  let v' := b'.lms.chip.cell
  let new := clockTSP b'._cachedRefClockRate v' tx
  let before := ncoFrequency b._cachedRefClockRate v bank tx
  let after := ncoFrequency b'._cachedRefClockRate v' bank tx
  (modeNCO v bank tx = 0 → ∀ i < 16, before i ≤ new / 2 →
    |after i - before i| < new / 4294967296) ∧
  (modeNCO v bank tx ≠ 0 → ∀ j < 16, v' (phoCell bank tx j) = v (phoCell bank tx j))

/-- The mode bit that is read is that of the channel, or the registers of the channel stand for the
same, or the same number, with both clocks. -/
def Retainable (freq : Rat) (b : Session) (bank : Bank) (tx : Bool) : Prop :=
  let v := b.lms.chip.cell
  let old := clockTSP b._cachedRefClockRate v tx
  let new := newClock b._cachedRefClockRate freq v tx
  let w := fun i => ((word v bank tx i).toNat : Rat)
  (modeNCO v bank tx = 0 → modeRead b.lms.chip tx ≠ 0 → ∀ i < 16,
    w i * old ≤ 2147483648 * new → w i * |new - old| < new) ∧
  (modeNCO v bank tx ≠ 0 → modeRead b.lms.chip tx = 0 → ∀ i, 1 ≤ i → i ≤ 8 →
    w i * old ≤ 2147483648 * new → 0 ≤ w i * (old - new) ∧ w i * (old - new) < new)

theorem retained_iff_retainable (faithful : StoresWritten b) (clock : 0 < b._cachedRefClockRate)
    (inRange : ¬ OutOfRangeCGEN freq) (output : Bool) (bank : Bank) (tx : Bool) :
    Retained b (setFrequencyCGEN freq true output b).2 bank tx ↔ Retainable freq b bank tx := by
  obtain ⟨rate, clocks, words⟩ := setFrequencyCGEN_words faithful inRange output
  have old_pos := clockTSP_pos clock b.lms.chip.cell tx
  have new_pos : 0 < newClock b._cachedRefClockRate freq b.lms.chip.cell tx :=
    clockTSP_pos clock _ tx
  have after (i : Nat) (small : i < 16) : word
      (setFrequencyCGEN freq true output b).2.lms.chip.cell bank tx i = wordAfter
        (clockTSP b._cachedRefClockRate b.lms.chip.cell tx)
        (newClock b._cachedRefClockRate freq b.lms.chip.cell tx) (modeRead b.lms.chip tx)
        (word b.lms.chip.cell bank tx i) := words bank tx i small
  unfold Retained Retainable
  simp only [phases_iff, ncoFrequency, rate, clocks]
  generalize newClock b._cachedRefClockRate freq b.lms.chip.cell tx = new at *
  generalize clockTSP b._cachedRefClockRate b.lms.chip.cell tx = old at *
  constructor
  · intro ⟨frequencies, phases⟩
    constructor
    · intro mode read i small
      have stays := frequencies mode i small
      rw [after i small] at stays
      exact (frequency_stays_iff old_pos new_pos _ _).mp stays read
    · intro mode read i low high
      have stays := phases mode i low high
      rw [after i (by omega)] at stays
      exact (phase_stays_iff old_pos new_pos _ _).mp stays read
  · intro ⟨frequencies, phases⟩
    constructor
    · intro mode i small
      rw [after i small]
      exact (frequency_stays_iff old_pos new_pos _ _).mpr fun read => frequencies mode read i small
    · intro mode i low high
      rw [after i (by omega)]
      exact (phase_stays_iff old_pos new_pos _ _).mpr fun read => phases mode read i low high

/-- Channel A is active, and its NCOs have frequencies. Those of channel B in the receiver have
phases if `mode` is 1. -/
def withMode (mode : UInt16) : Session where
  lms := ⟨⟨fun _ => 1, fun _ => 0⟩, false,
    ⟨fun a => if a = macAddress then 1 else if a = 0x008C then 0x2000 else 0,
      fun a => if a = 0x0440 then mode else if a = 0x0444 then 0x1000 else 0⟩⟩
  answers _ := doneAnswer
  _cachedRefClockRate := 30720000
  tuning_cache _ := none

theorem withMode_stores (mode : UInt16) : StoresWritten (withMode mode) :=
  ⟨fun _ _ => ⟨rfl, fun _ _ => rfl⟩, fun cached => by cases cached⟩

/-- With the NCO frequencies to be retained, the channels and directions keep theirs, or their
phases, exactly when the mode bit that was read suits them. -/
theorem retained_iff (b : Session) (faithful : StoresWritten b) (clock : 0 < b._cachedRefClockRate)
    (freq : Rat) (output : Bool) (done : (setFrequencyCGEN freq true output b).1 = 0) :
    (∀ bank tx, Retained b (setFrequencyCGEN freq true output b).2 bank tx) ↔
      ∀ bank tx, Retainable freq b bank tx := by
  have inRange : ¬ OutOfRangeCGEN freq := by
    intro refused
    rw [(setFrequencyCGEN_refuses true output b).mpr refused] at done
    exact absurd done (by decide)
  have each := retained_iff_retainable faithful clock inRange output
  exact ⟨fun retained bank tx => (each bank tx).mp (retained bank tx),
    fun retainable bank tx => (each bank tx).mpr (retainable bank tx)⟩

theorem retained_same_modes : (setFrequencyCGEN 100000000 true false (withMode 0)).1 = 0 ∧
    ∀ bank tx,
      Retained (withMode 0) (setFrequencyCGEN 100000000 true false (withMode 0)).2 bank tx := by
  have frequencies (bank : Bank) (tx : Bool) : modeNCO (withMode 0).lms.chip.cell bank tx = 0 := by
    cases bank with
    | a => cases tx <;> decide +kernel
    | b => cases tx <;> decide +kernel
  have read (tx : Bool) : modeRead (withMode 0).lms.chip tx = 0 := by
    cases tx <;> decide +kernel
  have done : (setFrequencyCGEN 100000000 true false (withMode 0)).1 = 0 := by decide +kernel
  refine ⟨done, (retained_iff (withMode 0) (withMode_stores 0) (by decide) 100000000 false
    done).mpr fun bank tx => ?_⟩
  exact ⟨fun _ other => absurd (read tx) other, fun other => absurd (frequencies bank tx) other⟩

/-- The phase in register 0x0444 of channel B is taken for half of a frequency. -/
theorem phases_rewritten : ¬ ∀ (b : Session) (freq : Rat) (output : Bool), StoresWritten b →
    0 < b._cachedRefClockRate → (setFrequencyCGEN freq true output b).1 = 0 →
      ∀ bank tx, Retained b (setFrequencyCGEN freq true output b).2 bank tx := by
  intro all
  have inRange : ¬ OutOfRangeCGEN 100000000 := by decide +kernel
  have done : (setFrequencyCGEN 100000000 true false (withMode 1)).1 = 0 := by decide +kernel
  have retained := all (withMode 1) 100000000 false (withMode_stores 1) (by decide) done .b false
  rw [retained_iff_retainable (withMode_stores 1) (by decide) inRange] at retained
  have scaled := retained.2 (by decide +kernel) (by decide +kernel) 1 (by decide) (by decide)
    (by decide +kernel)
  exact absurd scaled.1 (by decide +kernel)

end Soapy.Lime.Session
