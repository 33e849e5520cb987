import Soapy.Rtl.TunerCalls

/-! # The discipline of the tuner's bus

The tuner is reached while the repeater is on and the mutex is held. A function of a tuner that
calls public functions again can leave the repeater off inside of the outer call, and so does it
last. What a call does to the register of the repeater is as the flag says, as long as the
register obeys.
-/

namespace Soapy.Rtl.Tuner

open Lib
open Lib.Program (Triple Keeps Step)

variable {P α β : Type}

/-- A write to the register of the repeater succeeds, or the bit is as it should be already. -/
def Obeys (step : Step (Instr P) (Dongle P)) : Prop :=
  ∀ val len, step.instr = .demod_write_reg 1 0x01 val len →
    (step.before.usb step.before.transfers).r = Int32.ofNat len.toNat ∨
      step.before.bus.repeater = decide (val &&& 0x08 ≠ 0)

def Disciplined (trusted : Prop) (step : Step (Instr P) (Dongle P)) : Prop :=
  step.instr.IsTransfer → 0 < step.before.bus.cs_mutex ∧
    step.before.bus.i2c_repeater_on = true ∧ (trusted → step.before.bus.repeater = true)

section Kinds

variable (trusted : Prop)

abbrev Does (A : Dongle P → Prop) (p : Prog P α) (B : α → Dongle P → Prop) : Prop :=
  Triple Dongle.serve (fun step => trusted → Obeys step) (Disciplined trusted) A p B

abbrev KeepsAll {ι : Type} (A : ι → Dongle P → Prop) (p : Prog P α) : Prop :=
  Keeps Dongle.serve (fun step => trusted → Obeys step) (Disciplined trusted) A p

/-- Outside of a call of the tuner, or behind it: `n` locks are held, and the repeater may be on
    only inside of an outer call. -/
structure Rests (n : Int) (quiet : Prop) (bus : Bus) : Prop where
  outer : 0 ≤ n
  depth : bus.cs_mutex = n
  held : bus.i2c_repeater_on = true → 0 < n
  agrees : trusted → bus.repeater = bus.i2c_repeater_on
  off : quiet → bus.i2c_repeater_on = false

structure Open (n : Int) (bus : Bus) : Prop where
  held : 0 < n
  depth : bus.cs_mutex = n
  on : bus.i2c_repeater_on = true
  agrees : trusted → bus.repeater = true

variable {trusted}

theorem Open.rests {n : Int} {bus : Bus} (isOpen : Open trusted n bus) :
    Rests trusted n False bus where
  outer := Int.le_of_lt isOpen.held
  depth := isOpen.depth
  held := fun _ => isOpen.held
  agrees := fun t => (isOpen.agrees t).trans isOpen.on.symm
  off := False.elim

variable (trusted)

/-- Touches neither the bus nor the device. -/
abbrev Plain (p : Prog P α) : Prop :=
  KeepsAll trusted (fun (k : Bus × Dev) s => s.bus = k.1 ∧ s.dev = k.2) p

abbrev Calm (p : Prog P α) : Prop := KeepsAll trusted (fun (bus : Bus) s => s.bus = bus) p

/-- Reaches the tuner, and does not touch the device. -/
abbrev Drives (p : Prog P α) : Prop :=
  KeepsAll trusted (fun (k : Int × Dev) s => Open trusted k.1 s.bus ∧ s.dev = k.2) p

abbrev Opens (p : Prog P α) : Prop := KeepsAll trusted (fun n s => Open trusted n s.bus) p

/-- Brings the repeater back to rest, and does not touch the device. -/
abbrev Steady (p : Prog P α) : Prop :=
  KeepsAll trusted (fun (k : Int × Prop × Dev) s => Rests trusted k.1 k.2.1 s.bus ∧ s.dev = k.2.2) p

/-- Brings the repeater back to rest. -/
abbrev Public (p : Prog P α) : Prop :=
  KeepsAll trusted (fun (k : Int × Prop) s => Rests trusted k.1 k.2 s.bus) p

/-- Reaches the tuner, and may leave the repeater off. -/
abbrev Body (p : Prog P α) : Prop :=
  ∀ n, Does trusted (fun s => Open trusted n s.bus) p (fun _ s => Rests trusted n False s.bus)

end Kinds

section Rules

variable {trusted : Prop} {p : Prog P α} {f : α → Prog P β}

theorem Plain.calm (plain : Plain trusted p) : Calm trusted p :=
  plain.coarsen fun bus s same => ⟨(bus, s.dev), ⟨same, rfl⟩, fun _ kept => kept.1⟩

theorem Plain.drives (plain : Plain trusted p) : Drives trusted p :=
  plain.coarsen fun _ s before => ⟨(s.bus, s.dev), ⟨rfl, rfl⟩, fun _ kept => by
    rw [kept.1, kept.2]
    exact before⟩

theorem Plain.steady (plain : Plain trusted p) : Steady trusted p :=
  plain.coarsen fun _ s before => ⟨(s.bus, s.dev), ⟨rfl, rfl⟩, fun _ kept => by
    rw [kept.1, kept.2]
    exact before⟩

theorem Calm.opens (calm : Calm trusted p) : Opens trusted p :=
  calm.coarsen fun _ s before => ⟨s.bus, rfl, fun _ kept => kept ▸ before⟩

theorem Calm.isPublic (calm : Calm trusted p) : Public trusted p :=
  calm.coarsen fun _ s before => ⟨s.bus, rfl, fun _ kept => kept ▸ before⟩

theorem Drives.opens (drives : Drives trusted p) : Opens trusted p :=
  drives.coarsen fun n s before => ⟨(n, s.dev), ⟨before, rfl⟩, fun _ kept => kept.1⟩

theorem Opens.body (opens : Opens trusted p) : Body trusted p := fun n =>
  (opens n).mono (fun _ before => before) fun _ _ after => after.rests

theorem Public.body (isPublic : Public trusted p) : Body trusted p := fun n =>
  (isPublic (n, False)).mono (fun _ before => before.rests) fun _ _ after => after

theorem Opens.bind_body (first : Opens trusted p) (second : ∀ a, Body trusted (f a)) :
    Body trusted (p >>= f) :=
  fun n => .bind (first n) fun a => second a n

theorem Body.bind_public (first : Body trusted p) (second : ∀ a, Public trusted (f a)) :
    Body trusted (p >>= f) :=
  fun n => .bind (first n) fun a => second a (n, False)

theorem Body.ret (a : α) : Body trusted (pure a : Prog P α) :=
  Opens.body fun _ => .ret fun _ before => before

theorem Body.ite {c : Prop} [Decidable c] {q : Prog P α} (yes : Body trusted p)
    (no : Body trusted q) : Body trusted (if c then p else q) := by
  split
  · exact yes
  · exact no

end Rules

variable {page : UInt8} {addr : UInt16}

section Instructions

variable {trusted : Prop}

theorem plain_issue {i : Instr P} (quiet : ¬ i.IsTransfer) (returns : ∀ s : Dongle P,
    ∃ r, (s.serve i).1 = .ok r ∧ (s.serve i).2.bus = s.bus ∧ (s.serve i).2.dev = s.dev) :
    Plain trusted (issue i) := by
  rintro ⟨bus, dev⟩
  refine .call ?_
  rintro s ⟨rfl, rfl⟩ _
  obtain ⟨r, answered, same⟩ := returns s
  exact ⟨fun transfer => absurd transfer quiet, r, answered, same⟩

theorem drives_issue {i : Instr P} (returns : ∀ s : Dongle P,
    ∃ r, (s.serve i).1 = .ok r ∧ (s.serve i).2.bus = s.bus ∧ (s.serve i).2.dev = s.dev) :
    Drives trusted (issue i) := by
  rintro ⟨n, dev⟩
  refine .call ?_
  rintro s ⟨isOpen, rfl⟩ _
  obtain ⟨r, answered, bus, dev⟩ := returns s
  refine ⟨fun _ => ⟨?_, isOpen.on, isOpen.agrees⟩, r, answered, ?_, dev⟩
  · rw [isOpen.depth]
    exact isOpen.held
  · rw [bus]
    exact isOpen

theorem getDev_plain : Plain trusted (getDev : Prog P Dev) :=
  plain_issue id fun s => ⟨s.dev, rfl, rfl, rfl⟩

theorem getChips_plain : Plain trusted (getChips : Prog P (Chips P)) :=
  plain_issue id fun s => ⟨s.chips, rfl, rfl, rfl⟩

theorem setChips_plain (chips : Chips P) : Plain trusted (setChips chips) :=
  plain_issue id fun _ => ⟨(), rfl, rfl, rfl⟩

theorem modifyChips_plain (f : Chips P → Chips P) : Plain trusted (modifyChips f) :=
  .bind getChips_plain fun chips => setChips_plain (f chips)

theorem read_reg_plain (block : UInt8) (addr : UInt16) :
    Plain trusted (read_reg block addr : Prog P UInt16) :=
  plain_issue id fun _ => ⟨_, rfl, rfl, rfl⟩

theorem write_reg_plain (block : UInt8) (addr val : UInt16) :
    Plain trusted (write_reg block addr val : Prog P Int32) :=
  plain_issue id fun _ => ⟨_, rfl, rfl, rfl⟩

theorem Dongle.demod_write_reg_same (s : Dongle P) (page : UInt8) (addr val : UInt16)
    (len : UInt8) :
    (s.demod_write_reg page addr val len).2.bus.cs_mutex = s.bus.cs_mutex ∧
      (s.demod_write_reg page addr val len).2.bus.i2c_repeater_on = s.bus.i2c_repeater_on ∧
      (s.demod_write_reg page addr val len).2.dev = s.dev := by
  simp only [Dongle.demod_write_reg, Dongle.transfer]
  by_cases written : (s.usb s.transfers).r = Int32.ofNat len.toNat
  · by_cases register : page = 1 ∧ addr = 0x01
    · simp [written, register]
    · simp [written, register]
  · simp [written]

theorem Dongle.demod_write_reg_other (s : Dongle P)
    (other : ¬ (page = 1 ∧ addr = 0x01)) (val : UInt16) (len : UInt8) :
    (s.demod_write_reg page addr val len).2.bus = s.bus := by
  simp only [Dongle.demod_write_reg, Dongle.transfer, if_neg other]
  split
  · rfl
  · rfl

theorem Dongle.demod_write_reg_repeater (s : Dongle P) (val : UInt16) (len : UInt8)
    (obeys : (s.usb s.transfers).r = Int32.ofNat len.toNat ∨
      s.bus.repeater = decide (val &&& 0x08 ≠ 0)) :
    (s.demod_write_reg 1 0x01 val len).2.bus.repeater = decide (val &&& 0x08 ≠ 0) := by
  simp only [Dongle.demod_write_reg, Dongle.transfer]
  by_cases written : (s.usb s.transfers).r = Int32.ofNat len.toNat
  · simp [written]
  · rw [if_neg written]
    exact obeys.resolve_left written

theorem demod_write_reg_plain (other : ¬ (page = 1 ∧ addr = 0x01)) (val : UInt16) (len : UInt8) :
    Plain trusted (demod_write_reg page addr val len : Prog P Int32) :=
  plain_issue id fun s => ⟨(s.demod_write_reg page addr val len).1, rfl,
    s.demod_write_reg_other other val len, (s.demod_write_reg_same page addr val len).2.2⟩

theorem modifyDev_calm (f : Dev → Dev) : Calm trusted (modifyDev f : Prog P Unit) := by
  refine .bind getDev_plain.calm fun dev bus => .call ?_
  rintro s rfl _
  exact ⟨False.elim, (), rfl, rfl⟩

end Instructions

section Repeater

variable {trusted : Prop}

variable {F : Dev → Prop}

theorem switch_register {n : Int} (on bit : Bool) (val : UInt16) (len : UInt8)
    (wrote : bit = decide (val &&& 0x08 ≠ 0)) :
    Does trusted
      (fun s : Dongle P => s.bus.cs_mutex = n ∧ s.bus.i2c_repeater_on = on ∧ F s.dev)
      (demod_write_reg 1 0x01 val len) (fun _ s => s.bus.cs_mutex = n ∧ s.bus.i2c_repeater_on = on ∧
        (trusted → s.bus.repeater = bit) ∧ F s.dev) := by
  refine .call ?_
  rintro s ⟨depth, flag, dev⟩ rely
  obtain ⟨depth', flag', dev'⟩ := s.demod_write_reg_same 1 0x01 val len
  refine ⟨False.elim, (s.demod_write_reg 1 0x01 val len).1, rfl, depth'.trans depth,
    flag'.trans flag, fun t => ?_, dev' ▸ dev⟩
  exact (s.demod_write_reg_repeater val len (rely t val len rfl)).trans wrote.symm

/-- `n` locks are held, and the register is as the flag says. -/
def Agrees (trusted : Prop) (n : Int) (F : Dev → Prop) (s : Dongle P) : Prop :=
  s.bus.cs_mutex = n ∧ (trusted → s.bus.repeater = s.bus.i2c_repeater_on) ∧ F s.dev

theorem switchRepeater_sets {n : Int} (on : Bool) :
    Does trusted (Agrees trusted n F : Dongle P → Prop) (switchRepeater on)
      (fun _ s => s.bus.cs_mutex = n ∧ s.bus.i2c_repeater_on = on ∧
        (trusted → s.bus.repeater = on) ∧ F s.dev) := by
  refine .bind (Q := fun flag s => s.bus.cs_mutex = n ∧ s.bus.i2c_repeater_on = flag ∧
    (trusted → s.bus.repeater = flag) ∧ F s.dev) (.call ?_) fun flag => ?_
  · rintro s ⟨depth, agrees, dev⟩ _
    exact ⟨False.elim, s.bus.i2c_repeater_on, rfl, depth, rfl, agrees, dev⟩
  · by_cases same : on = flag
    · rw [if_neg (not_not.mpr same), ← same]
      exact .ret fun s before => before
    · rw [if_pos same]
      refine .bind (Q := fun _ s => s.bus.cs_mutex = n ∧ s.bus.i2c_repeater_on = on ∧ F s.dev)
        (.call ?_) fun _ => .bind (switch_register on on _ _ ?_) fun _ => .ret fun s after => after
      · rintro s ⟨depth, -, -, dev⟩ _
        exact ⟨False.elim, (), rfl, depth, rfl, dev⟩
      · cases on with
        | false => rfl
        | true => rfl

variable {call : Prog P α}

theorem withRepeater_rests {n : Int} {quiet : Prop}
    (body : Does trusted (fun s => Open trusted (n + 1) s.bus ∧ F s.dev) call
      (fun _ s => Rests trusted (n + 1) False s.bus ∧ F s.dev)) :
    Does trusted (fun s => Rests trusted n quiet s.bus ∧ F s.dev) (withRepeater call)
      (fun _ s => Rests trusted n quiet s.bus ∧ F s.dev) := by
  refine .ofPure (fun s before => before.1.outer) fun outer => ?_
  have on : Does trusted (fun s : Dongle P => Rests trusted n quiet s.bus ∧ F s.dev)
      (set_i2c_repeater true) (fun _ s => Open trusted (n + 1) s.bus ∧ F s.dev) := by
    refine .bind (Q := fun _ => Agrees trusted (n + 1) F) (.call ?_) fun _ =>
      .bind (switchRepeater_sets true) fun _ => .ret ?_
    · rintro s ⟨rests, dev⟩ _
      exact ⟨False.elim, (), rfl, congrArg (· + 1) rests.depth, rests.agrees, dev⟩
    · rintro s ⟨depth, flag, agrees, dev⟩
      exact ⟨⟨by omega, depth, flag, agrees⟩, dev⟩
  have off : Does trusted (fun s : Dongle P => Rests trusted (n + 1) False s.bus ∧ F s.dev)
      (set_i2c_repeater false) (fun _ s => Rests trusted n quiet s.bus ∧ F s.dev) := by
    refine .mono (P := Agrees trusted (n + 1) F) (.bind (switchRepeater_sets false) fun _ =>
      .call ?_) (fun s before => ⟨before.1.depth, before.1.agrees, before.2⟩) fun _ _ after => after
    · rintro s ⟨depth, flag, agrees, dev⟩ _
      refine ⟨False.elim, (), rfl, ⟨outer, ?_, ?_, ?_, fun _ => flag⟩, dev⟩
      · change s.bus.cs_mutex - 1 = n
        omega
      · intro isOn
        exact absurd (flag.symm.trans isOn) (by decide)
      · intro t
        exact (agrees t).trans flag.symm
  exact .bind on fun _ => .bind body fun r => .bind off fun _ => .ret fun _ after => after

theorem withRepeater_steady (drives : Drives trusted call) :
    Steady trusted (withRepeater call) := by
  rintro ⟨n, quiet, dev⟩
  exact withRepeater_rests (F := (· = dev)) ((drives (n + 1, dev)).mono (fun _ before => before)
    fun _ _ after => ⟨after.1.rests, after.2⟩)

theorem withRepeater_public (body : Body trusted call) :
    Public trusted (withRepeater call) := by
  rintro ⟨n, quiet⟩
  exact (withRepeater_rests (F := fun _ => True) ((body (n + 1)).mono (fun _ before => before.1)
    fun _ _ after => ⟨after, trivial⟩)).mono (fun _ before => ⟨before, trivial⟩)
    fun _ _ after => after.1

end Repeater

section Tuners

variable {trusted : Prop} (parts : Parts P)

theorem set_gpio_bit_plain (gpio : UInt8) (val : Int32) :
    Plain trusted (set_gpio_bit gpio val : Prog P Int32) :=
  .bind (read_reg_plain SYSB GPO) fun _ => .bind (write_reg_plain SYSB GPO _) fun _ => .ret _

theorem set_gpio_output_calm (gpio : UInt8) :
    Calm trusted (set_gpio_output gpio : Prog P Int32) := by
  refine .bind getDev_plain.calm fun dev => .ite (fun _ => ?_) fun _ => .ret _
  refine .bind (read_reg_plain SYSB GPD).calm fun r => .bind (write_reg_plain SYSB GPD _).calm ?_
  refine fun retval => .ite (fun _ => .ret _) fun _ => ?_
  refine .bind (read_reg_plain SYSB GPOE).calm fun r => .bind (write_reg_plain SYSB GPOE _).calm ?_
  exact fun retval => .ite (fun _ => .ret _) fun _ => .bind (modifyDev_calm _) fun _ => .ret _

theorem set_if_freq_plain (freq : UInt32) : Plain trusted (set_if_freq parts freq) := by
  refine .bind getDev_plain fun dev => .bind (demod_write_reg_plain (by decide) _ _) fun r1 => ?_
  refine .bind (demod_write_reg_plain (by decide) _ _) fun r2 => ?_
  exact .bind (demod_write_reg_plain (by decide) _ _) fun r3 => .ret _

theorem set_spectrum_inversion_calm (sideband : Int32) :
    Calm trusted (set_spectrum_inversion sideband : Prog P Int32) := by
  refine .bind getDev_plain.calm fun dev => .ite (fun _ => ?_) fun _ => .ret _
  refine .bind (demod_write_reg_plain (by decide) _ _).calm fun r => ?_
  exact .bind (modifyDev_calm _) fun _ => .ret _

theorem set_sample_freq_correction_plain (ppm : Int32) :
    Plain trusted (set_sample_freq_correction parts ppm) := by
  refine .bind (demod_write_reg_plain (by decide) _ _) fun r1 => ?_
  exact .bind (demod_write_reg_plain (by decide) _ _) fun r2 => .ret _

theorem chipInstr_drives (i : ChipInstr P) : Drives trusted (chipInstr parts i) := by
  cases i with
  | i2c_write addr buffer => exact drives_issue fun _ => ⟨_, rfl, rfl, rfl⟩
  | i2c_read addr len => exact drives_issue fun _ => ⟨_, rfl, rfl, rfl⟩
  | get_tuner_clock => exact .bind getDev_plain.drives fun dev => .ret _
  | load => exact getChips_plain.drives
  | store chips => exact (setChips_plain chips).drives

theorem drive_drives (driver : Driver P α) : Drives trusted (drive parts driver) :=
  .interpret (chipInstr_drives parts) driver

theorem vga_control_calm (rc rtl_vga_control : Int32) :
    Calm trusted (vga_control rc rtl_vga_control : Prog P Int32) := by
  refine .ite (fun _ => .ret _) fun _ => .bind getDev_plain.calm fun dev => ?_
  exact .ite (fun _ => .bind (modifyDev_calm _) fun _ => .ret _) fun _ => .ret _

variable {tuner : TunerType}

theorem tunerInit_drives {init : Prog P Int32}
    (entry : tunerInit parts tuner = some init) : Drives trusted init := by
  have e4000 : Drives trusted (e4000_init parts) :=
    .bind getDev_plain.drives fun dev => .bind (modifyChips_plain _).drives fun _ =>
      drive_drives parts _
  have r820t : Drives trusted (r820t_init parts) :=
    .bind getDev_plain.drives fun dev => .bind (modifyChips_plain _).drives fun _ =>
      drive_drives parts _
  cases tuner with
  | unknown => cases entry
  | e4000 => exact Option.some.inj entry ▸ e4000
  | fc0012 => exact Option.some.inj entry ▸ drive_drives parts _
  | fc0013 => exact Option.some.inj entry ▸ drive_drives parts _
  | fc2580 => exact Option.some.inj entry ▸ drive_drives parts _
  | r820t => exact Option.some.inj entry ▸ r820t
  | r828d => exact Option.some.inj entry ▸ r820t

theorem tunerExit_drives {exit : Prog P Int32}
    (entry : tunerExit parts tuner = some exit) : Drives trusted exit := by
  cases tuner with
  | unknown => cases entry
  | e4000 => exact Option.some.inj entry ▸ drive_drives parts _
  | fc0012 => exact Option.some.inj entry ▸ .ret _
  | fc0013 => exact Option.some.inj entry ▸ .ret _
  | fc2580 => exact Option.some.inj entry ▸ .ret _
  | r820t => exact Option.some.inj entry ▸ drive_drives parts _
  | r828d => exact Option.some.inj entry ▸ drive_drives parts _

theorem r820t_set_freq64_opens (freq : UInt64) : Opens trusted (r820t_set_freq64 parts freq) := by
  refine .bind (drive_drives parts _).opens fun r => .bind getChips_plain.calm.opens fun chips => ?_
  exact .bind (set_spectrum_inversion_calm _).opens fun ri => .ret _

theorem tunerSetFreq_opens {set_freq : UInt32 → Prog P Int32}
    (entry : tunerSetFreq parts tuner = some set_freq) (freq : UInt32) :
    Opens trusted (set_freq freq) := by
  cases tuner with
  | unknown => cases entry
  | e4000 => exact Option.some.inj entry ▸ (drive_drives parts _).opens
  | fc0012 =>
    exact Option.some.inj entry ▸ .bind (set_gpio_bit_plain 6 _).calm.opens fun _ =>
      (drive_drives parts _).opens
  | fc0013 => exact Option.some.inj entry ▸ (drive_drives parts _).opens
  | fc2580 => exact Option.some.inj entry ▸ (drive_drives parts _).opens
  | r820t => exact Option.some.inj entry ▸ r820t_set_freq64_opens parts _
  | r828d => exact Option.some.inj entry ▸ r820t_set_freq64_opens parts _

theorem tunerSetFreq64_opens {set_freq64 : UInt64 → Prog P Int32}
    (entry : tunerSetFreq64 parts tuner = some set_freq64) (freq : UInt64) :
    Opens trusted (set_freq64 freq) := by
  cases tuner with
  | r820t => exact Option.some.inj entry ▸ r820t_set_freq64_opens parts freq
  | r828d => exact Option.some.inj entry ▸ r820t_set_freq64_opens parts freq
  | _ => cases entry

theorem tunerSetGain_opens {set_gain : Int32 → Prog P Int32}
    (entry : tunerSetGain parts tuner = some set_gain) (gain : Int32) :
    Opens trusted (set_gain gain) := by
  have e4000 : Opens trusted (e4000_set_gain parts gain) := by
    refine .bind (drive_drives parts _).opens fun r => .ite (fun _ => .ret _) fun _ => ?_
    exact .bind (drive_drives parts _).opens fun r => .ite (fun _ => .ret _) fun _ => .ret _
  have r820t : Opens trusted (r820t_set_gain parts gain) :=
    .bind (drive_drives parts _).opens fun r => (vga_control_calm r.1 r.2).opens
  cases tuner with
  | unknown => cases entry
  | e4000 => exact Option.some.inj entry ▸ e4000
  | fc0012 => exact Option.some.inj entry ▸ (drive_drives parts _).opens
  | fc0013 => exact Option.some.inj entry ▸ (drive_drives parts _).opens
  | fc2580 => exact Option.some.inj entry ▸ .ret _
  | r820t => exact Option.some.inj entry ▸ r820t
  | r828d => exact Option.some.inj entry ▸ r820t

theorem tunerSetGainMode_opens {set_gain_mode : Int32 → Prog P Int32}
    (entry : tunerSetGainMode parts tuner = some set_gain_mode) (manual : Int32) :
    Opens trusted (set_gain_mode manual) := by
  have r820t : Opens trusted (r820t_set_gain_mode parts manual) :=
    .bind (drive_drives parts _).opens fun r => (vga_control_calm r.1 r.2).opens
  cases tuner with
  | unknown => cases entry
  | e4000 => exact Option.some.inj entry ▸ (drive_drives parts _).opens
  | fc0012 => exact Option.some.inj entry ▸ .ret _
  | fc0013 => exact Option.some.inj entry ▸ .ret _
  | fc2580 => exact Option.some.inj entry ▸ .ret _
  | r820t => exact Option.some.inj entry ▸ r820t
  | r828d => exact Option.some.inj entry ▸ r820t

theorem tunerSetIfGain_opens {set_if_gain : Int32 → Int32 → Prog P Int32}
    (entry : tunerSetIfGain parts tuner = some set_if_gain) (stage gain : Int32) :
    Opens trusted (set_if_gain stage gain) := by
  cases tuner with
  | e4000 => exact Option.some.inj entry ▸ (drive_drives parts _).opens
  | _ => cases entry

theorem tunerSetI2cRegister_opens
    {set_i2c_register : UInt32 → UInt32 → UInt32 → Prog P Int32}
    (entry : tunerSetI2cRegister parts tuner = some set_i2c_register) (reg data mask : UInt32) :
    Opens trusted (set_i2c_register reg data mask) := by
  cases tuner with
  | fc0012 => exact Option.some.inj entry ▸ (drive_drives parts _).opens
  | r820t => exact Option.some.inj entry ▸ (drive_drives parts _).opens
  | r828d => exact Option.some.inj entry ▸ (drive_drives parts _).opens
  | _ => cases entry

theorem tunerSetI2cOverride_opens
    {set_i2c_override : UInt32 → UInt32 → UInt32 → Prog P Int32}
    (entry : tunerSetI2cOverride parts tuner = some set_i2c_override) (reg data mask : UInt32) :
    Opens trusted (set_i2c_override reg data mask) := by
  cases tuner with
  | r820t => exact Option.some.inj entry ▸ (drive_drives parts _).opens
  | r828d => exact Option.some.inj entry ▸ (drive_drives parts _).opens
  | _ => cases entry

theorem tunerGetI2cRegArray_opens
    {get_i2c_reg_array : Int32 → Prog P (Int32 × Bytes)}
    (entry : tunerGetI2cRegArray parts tuner = some get_i2c_reg_array) (len : Int32) :
    Opens trusted (get_i2c_reg_array len) := by
  cases tuner with
  | fc0012 => exact Option.some.inj entry ▸ (drive_drives parts _).opens
  | r820t => exact Option.some.inj entry ▸ (drive_drives parts _).opens
  | r828d => exact Option.some.inj entry ▸ (drive_drives parts _).opens
  | _ => cases entry

end Tuners

def Dev.Settled (dev : Dev) (freq : UInt64) : Prop :=
  dev.direct_sampling_mode ≤ RTLSDR_DS_Q ∨ dev.direct_sampling < 0 ∨
    dev.direct_sampling = dev.newDs freq

/-- Tuning to the frequency calls itself less deep than this. -/
def Dev.Fits : Nat → UInt64 → Dev → Prop
  | 0, _, _ => False
  | depth + 1, freq, dev => dev.Settled freq ∨
      Dev.Fits depth dev.freq { dev with direct_sampling := dev.newDs freq }

theorem Dev.fits_three (dev : Dev) (freq : UInt64) : dev.Fits 3 freq :=
  .inr (.inr (.inl (.inr (.inr rfl))))

section Tuning

variable {trusted : Prop} (parts : Parts P) {n : Int} {quiet : Prop} {dev : Dev}

abbrev RestsWith (trusted : Prop) (n : Int) (quiet : Prop) (dev : Dev) (s : Dongle P) : Prop :=
  Rests trusted n quiet s.bus ∧ s.dev = dev

theorem getDev_reads : Does trusted (RestsWith trusted n quiet dev : Dongle P → Prop) getDev
    (fun r s => r = dev ∧ RestsWith trusted n quiet dev s) := by
  refine .call ?_
  rintro s ⟨rests, rfl⟩ _
  exact ⟨False.elim, s.dev, rfl, rfl, rests, rfl⟩

theorem modifyDev_writes (f : Dev → Dev) :
    Does trusted (RestsWith trusted n quiet dev : Dongle P → Prop) (modifyDev f)
      (fun _ => RestsWith trusted n quiet (f dev)) := by
  refine .bind getDev_reads fun r => .ofPure (fun s before => before.1) ?_
  rintro rfl
  refine .call ?_
  rintro s ⟨-, rests, -⟩ _
  exact ⟨False.elim, (), rfl, rests, rfl⟩

theorem keepFreq_calm (r : Int32) (freq : UInt64) :
    Calm trusted (keepFreq r freq : Prog P Int32) :=
  .bind (modifyDev_calm _) fun _ => .ret _

theorem demod_write_reg_rests (other : ¬ (page = 1 ∧ addr = 0x01)) (val : UInt16) (len : UInt8) :
    Does trusted (RestsWith trusted n quiet dev : Dongle P → Prop)
      (demod_write_reg page addr val len) (fun _ => RestsWith trusted n quiet dev) :=
  (demod_write_reg_plain other val len).steady (n, quiet, dev)

theorem ofTuner_steady {call : Option (Prog P Int32)}
    (drives : ∀ p, call = some p → Drives trusted p) : Steady trusted (ofTuner call) := by
  cases call with
  | some p => exact withRepeater_steady (drives p rfl)
  | none => exact .ret _

theorem enable_direct_sampling_rests (tuner : TunerType) (on : Int32) :
    Does trusted (RestsWith trusted n quiet dev) (enable_direct_sampling parts tuner on)
      (fun _ => RestsWith trusted n quiet { dev with direct_sampling := on }) := by
  refine .bind (ofTuner_steady (fun p => tunerExit_drives parts) (n, quiet, dev)) fun r => ?_
  refine .bind (demod_write_reg_rests (by decide) _ _) fun r1 => ?_
  refine .bind (demod_write_reg_rests (by decide) _ _) fun r2 => ?_
  refine .bind (demod_write_reg_rests (by decide) _ _) fun r3 => ?_
  refine .bind (demod_write_reg_rests (by decide) _ _) fun r4 => ?_
  exact .bind (modifyDev_writes _) fun _ => .ret fun s after => after

theorem set_tuner_datapath_plain (tuner : TunerType) :
    Plain trusted (set_tuner_datapath parts tuner) := by
  refine .ite (fun _ => .bind (set_if_freq_plain parts _) fun r1 => ?_) fun _ =>
    .bind (set_if_freq_plain parts _) fun r1 => ?_
  · exact .bind (demod_write_reg_plain (by decide) _ _) fun r2 => .ret _
  · refine .bind (demod_write_reg_plain (by decide) _ _) fun r2 => ?_
    exact .bind (demod_write_reg_plain (by decide) _ _) fun r3 => .ret _

theorem disable_direct_sampling_rests (tuner : TunerType) :
    Does trusted (RestsWith trusted n quiet dev) (disable_direct_sampling parts tuner)
      (fun _ => RestsWith trusted n quiet { dev with direct_sampling := 0 }) := by
  refine .bind (ofTuner_steady (fun p => tunerInit_drives parts) (n, quiet, dev)) fun r1 => ?_
  refine .bind ((set_tuner_datapath_plain parts tuner).steady (n, quiet, dev)) fun r2 => ?_
  refine .bind (demod_write_reg_rests (by decide) _ _) fun r3 => ?_
  exact .bind (modifyDev_writes _) fun _ => .ret fun s after => after

theorem set_direct_sampling_rests {tune : UInt64 → Prog P Int32} {on : Int32}
    (tunes : Does trusted (RestsWith trusted n quiet { dev with direct_sampling := on })
      (tune dev.freq) (fun _ s => Rests trusted n quiet s.bus)) :
    Does trusted (RestsWith trusted n quiet dev) (set_direct_sampling parts tune on)
      (fun _ s => Rests trusted n quiet s.bus) := by
  refine .bind getDev_reads fun d => .ofPure (fun s before => before.1) ?_
  rintro rfl
  refine .bind (Q := fun _ => RestsWith trusted n quiet { d with direct_sampling := on }) ?_
    fun r => .bind getDev_reads fun d' => .ofPure (fun s before => before.1) ?_
  · refine Triple.mono ?_ (fun s before => before.2) fun _ _ after => after
    split
    · exact enable_direct_sampling_rests parts _ on
    · have isOff : on = 0 := not_not.mp ‹_›
      rw [isOff]
      exact disable_direct_sampling_rests parts _
  · rintro rfl
    refine .bind (tunes.mono (fun s before => before.2) fun _ _ after => after) fun tuned => ?_
    exact .ret fun s after => after

theorem update_ds_rests {tune : UInt64 → Prog P Int32} {freq : UInt64}
    (tunes : ¬ dev.Settled freq → Does trusted
      (RestsWith trusted n quiet { dev with direct_sampling := dev.newDs freq })
      (tune dev.freq) (fun _ s => Rests trusted n quiet s.bus))
    (sampled : RTLSDR_DS_Q < dev.direct_sampling_mode) :
    Does trusted (RestsWith trusted n quiet dev) (update_ds parts tune freq)
      (fun _ s => Rests trusted n quiet s.bus) := by
  refine .bind getDev_reads fun d => .ofPure (fun s before => before.1) ?_
  rintro rfl
  refine Triple.mono ?_ (fun s before => before.2) fun _ _ after => after
  by_cases negative : d.direct_sampling < 0
  · rw [if_pos negative]
    exact .ret fun s before => before.1
  rw [if_neg negative]
  by_cases changes : d.direct_sampling ≠ d.newDs freq
  · rw [if_pos changes]
    refine set_direct_sampling_rests parts (tunes ?_)
    rintro (low | below | same)
    · exact absurd sampled (UInt32.not_lt.mpr low)
    · exact negative below
    · exact changes same
  · rw [if_neg changes]
    exact .ret fun s before => before.1

theorem set_freq64_public (dev : Dev) (freq : UInt64) :
    Public trusted (set_freq64 parts dev freq) := by
  refine .ite (fun _ => (set_if_freq_plain parts _).calm.isPublic) fun _ => ?_
  cases entry64 : tunerSetFreq64 parts dev.tuner_type with
  | some set_freq64 => exact withRepeater_public (tunerSetFreq64_opens parts entry64 _).body
  | none =>
    cases entry : tunerSetFreq parts dev.tuner_type with
    | some set_freq => exact withRepeater_public (tunerSetFreq_opens parts entry _).body
    | none => exact .ret _

theorem center_freq64_rests {depth : Nat} {freq : UInt64} (fits : dev.Fits depth freq) :
    Does trusted (RestsWith trusted n quiet dev) (center_freq64 parts depth freq)
      (fun _ s => Rests trusted n quiet s.bus) := by
  induction depth generalizing freq dev with
  | zero => exact fits.elim
  | succ depth ih =>
    refine .bind getDev_reads fun d => .ofPure (fun s before => before.1) ?_
    rintro rfl
    have tuned : Public trusted (do
        let dev ← getDev
        let r ← set_freq64 parts dev freq
        keepFreq r freq) :=
      .bind getDev_plain.calm.isPublic fun dev => .bind (set_freq64_public parts dev freq)
        fun r => (keepFreq_calm r freq).isPublic
    refine Triple.mono ?_ (fun s before => before.2) fun _ _ after => after
    by_cases sampled : RTLSDR_DS_Q < d.direct_sampling_mode
    · rw [if_pos sampled]
      refine .bind (update_ds_rests parts (fun unsettled => ?_) sampled) fun _ =>
        tuned (n, quiet)
      exact ih (fits.resolve_left unsettled)
    · rw [if_neg sampled]
      exact (tuned (n, quiet)).mono (fun s before => before.1) fun _ _ after => after

theorem set_center_freq64_public (freq : UInt64) :
    Public trusted (set_center_freq64 parts freq) := by
  rintro ⟨n, quiet⟩
  exact .ofEach Dongle.dev fun dev => center_freq64_rests parts (dev.fits_three freq)

end Tuning

end Soapy.Rtl.Tuner
