import Soapy.Lime.ConfigFile
import Soapy.Lime.SynthesizerRoundTrip

/-! # What is saved in the configuration file

Registers are saved with their values. The correctors and the registers that the microcontroller is
asked through are all that changes.
-/

namespace Soapy.Lime.Session

open Lib LMS7002M

variable {cached : Bool} {v : Cell → UInt16} {r : Rat} {b : Session} {mcu : Microcontroller}
variable {bank : Bank} {address : UInt16}

/-- The registers that are followed: of those that the microcontroller is controlled with, nothing is
known once it was told to run. -/
def configCells (cached : Bool) : Set Cell :=
  {c | (cached = true ∨ 0x0006 < c.2) ∧ c.2 < 0x8000 ∧ c ∉ absent}

def servedCells (cached : Bool) : Set Cell := {c ∈ configCells cached | c.2 ∉ readOnlyRegs}

/-- Every transfer is done, the registers have these values, and the cache is used or not. -/
structure Config (cached : Bool) (v : Cell → UInt16) (r : Rat) (b : Session) : Prop where
  done : b.Done
  cache : b.lms.useCache = cached
  chip : ∀ c ∈ configCells cached, b.lms.chip.cell c = v c
  holds : Holds (servedCells cached) v r b

theorem mac_config (cached : Bool) : macCell ∈ servedCells cached :=
  ⟨⟨.inr (by decide), by decide, macCell_exists⟩, by decide⟩

theorem high_config (cached : Bool) (bank : Bank) (high : ¬ address < 0x0100)
    (small : address < 0x8000) : (bank, address) ∈ configCells cached := by
  refine ⟨.inr (UInt16.lt_of_lt_of_le (by decide) (UInt16.not_lt.mp high)), small, ?_⟩
  exact fun none => high none.2

namespace Config

theorem meant (active : v macCell &&& 0x0003 = channelOf bank)
    (member : (bank, address) ∈ configCells cached) :
    Meant (servedCells cached) v (bank, address) := by
  refine .inr ⟨mac_config cached, ?_⟩
  cases bank with
  | a => exact .inl ⟨rfl, active⟩
  | b => exact .inr ⟨rfl, fun low => member.2.2 ⟨rfl, low⟩, active⟩

theorem asks_of_shown {s : LMS7002M} (shown : address ∈ readOnlyRegs) (fromChip : Bool) :
    s.asksChip address fromChip = true := by
  rw [asksChip, List.contains_iff_mem.mpr shown, Bool.or_true]

theorem spiRead_same (done : b.Done) (small : address < 0x8000) (fromChip : Bool) :
    (Session.spiRead address fromChip b).2.Done ∧
      (Session.spiRead address fromChip b).2.lms.useCache = b.lms.useCache ∧
      (Session.spiRead address fromChip b).2.lms.chip = b.lms.chip := by
  rw [spiRead_done done]
  refine ⟨done.on _, ?_⟩
  by_cases asks : b.lms.asksChip address fromChip = true
  · obtain ⟨-, chip, cache, -⟩ := spiRead_chip small asks
    exact ⟨cache, chip⟩
  · rw [on_lms, spiRead_cached asks]
    exact ⟨rfl, rfl⟩

section

variable (config : Config cached v r b)

include config

theorem chip_mac : b.lms.chip.mac = v macCell &&& 0x0003 :=
  config.holds.knows.chip_mac (mac_config cached)

variable {c : Cell}

theorem spiRead (member : c ∈ configCells cached)
    (meant : Meant (servedCells cached) v c) (fromChip : Bool) :
    (Session.spiRead c.2 fromChip b).1 = v c ∧
      Config cached v r (Session.spiRead c.2 fromChip b).2 := by
  obtain ⟨done, cache, chip⟩ := spiRead_same config.done member.2.1 fromChip
  have values : ∀ d ∈ configCells cached,
      (Session.spiRead c.2 fromChip b).2.lms.chip.cell d = v d := by
    intro d known
    rw [chip]
    exact config.chip d known
  by_cases shown : c.2 ∈ readOnlyRegs
  · have outside : Outside (servedCells cached) c.2 :=
      ⟨fun d served same => served.2 (same ▸ shown), member.2.1⟩
    refine ⟨?_, done, cache.trans config.cache, values, spiRead_keeps outside _ _ config.holds⟩
    rw [spiRead_done config.done]
    rw [(spiRead_chip member.2.1 (asks_of_shown shown fromChip)).1,
      meant.read_eq fun _ => config.chip_mac]
    exact config.chip c member
  · obtain ⟨value, holds⟩ := config.holds.spiRead ⟨member, shown⟩ meant fromChip
    exact ⟨value, done, cache.trans config.cache, values, holds⟩

theorem spiWrite_other {d : Cell} (small : c.2 < 0x8000) (meant : Meant (servedCells cached) v c)
    (data : UInt16) (known : d ∈ configCells cached) (other : d ≠ c) :
    (Session.spiWrite c.2 data b).2.lms.chip.cell d = v d := by
  rw [spiWrite_done config.done, on_lms, ← config.chip d known]
  cases spiWrite_sent (s := b.lms) small data with
  | inl sent =>
    rw [sent, Chip.write_cell]
    exact if_neg fun means => other ((meant.selected_iff (fun _ => config.chip_mac) d).mp means)
  | inr kept => rw [kept.1]

theorem spiWrite_cache (address data : UInt16) : (Session.spiWrite address data b).2.Done ∧
    (Session.spiWrite address data b).2.lms.useCache = cached := by
  rw [spiWrite_done config.done]
  exact ⟨config.done.on _, (LMS7002M.spiWrite_useCache _ address data false).trans config.cache⟩

theorem spiWrite (member : c ∈ servedCells cached)
    (meant : Meant (servedCells cached) v c) (data : UInt16) :
    Config cached (Function.update v c data) r (Session.spiWrite c.2 data b).2 := by
  have holds := config.holds.spiWrite member meant data
  obtain ⟨done, cache⟩ := config.spiWrite_cache c.2 data
  refine ⟨done, cache, fun d known => ?_, holds⟩
  by_cases same : d = c
  · rw [same]
    exact holds.knows.chip c member
  · rw [Function.update_of_ne same]
    exact config.spiWrite_other member.1.2.1 meant data known same

theorem spiWrite_shown (shown : c.2 ∈ readOnlyRegs) (member : c ∈ configCells cached)
    (meant : Meant (servedCells cached) v c) (data : UInt16) :
    ∃ v', Config cached v' r (Session.spiWrite c.2 data b).2 ∧ ∀ d ≠ c, v' d = v d := by
  have outside : Outside (servedCells cached) c.2 :=
    ⟨fun d served same => served.2 (same ▸ shown), member.2.1⟩
  have holds := spiWrite_keeps outside data b config.holds
  obtain ⟨done, cache⟩ := config.spiWrite_cache c.2 data
  let v' := Function.update v c ((Session.spiWrite c.2 data b).2.lms.chip.cell c)
  have same (d : Cell) (other : d ≠ c) : v' d = v d := Function.update_of_ne other _ v
  refine ⟨v', ⟨done, cache, fun d known => ?_, ?_⟩, same⟩
  · by_cases here : d = c
    · rw [here]
      exact (Function.update_self c _ v).symm
    · rw [same d here]
      exact config.spiWrite_other member.2.1 meant data known here
  · apply holds.congr
    intro d served
    have other : d ≠ c := fun here => served.2 (here ▸ shown)
    exact (same d other).symm

theorem getActiveChannel (fromChip : Bool) :
    (Session.getActiveChannel fromChip b).1 = v macCell &&& 0x0003 ∧
      Config cached v r (Session.getActiveChannel fromChip b).2 := by
  obtain ⟨value, after⟩ := config.spiRead (mac_config cached).1 (macCell_meant _ v) fromChip
  refine ⟨?_, after⟩
  rw [← value]
  exact macBits _

theorem setActiveChannel (ch : UInt16) :
    Config cached (selecting v ch) r (Session.setActiveChannel ch b).2 := by
  obtain ⟨value, after⟩ := config.getActiveChannel false
  rw [Session.setActiveChannel, bind_run, value, selecting]
  by_cases active : ch = v macCell &&& 0x0003
  · rw [if_pos active, active, replaceBits_same, Function.update_eq_self]
    exact after
  · obtain ⟨register, last⟩ := after.spiRead (mac_config cached).1 (macCell_meant _ v) false
    rw [if_neg active, ← register]
    exact last.spiWrite (mac_config cached) (macCell_meant _ v) _

end

end Config

theorem Config.mcuRuns (config : Config false v r b) {procedure : Chip → Chip}
    {v' : Cell → UInt16} (does : (∀ c ∈ configCells false, b.lms.chip.cell c = v c) →
      ∀ c ∈ configCells false, (procedure b.lms.chip).cell c = v' c) :
    Config false v' r (Session.mcuRuns procedure b).2 where
  done := config.done
  cache := config.cache
  chip := does config.chip
  holds := {
    clock := config.holds.clock
    stores := config.holds.stores
    small := config.holds.small
    knows := ⟨fun c member => does config.chip c member.1, fun used =>
      absurd (config.cache.symm.trans used) (by decide)⟩ }

theorem Config.proxied (follows : mcu.Follows) (config : Config false v r b)
    (active : v macCell &&& 0x0003 = channelOf bank) (known : (bank, address) ∈ configCells false)
    (proxy : address = 0x0640 ∨ address = 0x0641) :
    (spiReadAny mcu address false b).1 = v (bank, address) ∧
      ∃ v', Config false v' r (spiReadAny mcu address false b).2 ∧ v' (.a, 0x002D) = address ∧
        ∀ c, c ≠ (.a, 0x002D) → c ≠ (bank, 0x040B) → v' c = v c := by
  have asks : b.lms.asksChip address false = true := by
    rw [asksChip, config.cache]
    rfl
  have first : Config false v r (Session.mcuRuns mcu.identify b).2 :=
    config.mcuRuns fun chip c member => by
      rw [follows.identify _ c (member.1.resolve_left (by rintro ⟨⟩)), chip c member]
  have mailbox : (.a, 0x002D) ∈ servedCells false :=
    ⟨⟨.inr (by decide), by decide, by rintro ⟨⟨⟩, _⟩⟩, by decide⟩
  have second := first.spiWrite (c := (.a, 0x002D)) mailbox (.inl ⟨rfl, by decide⟩) address
  let v₂ := Function.update v (.a, 0x002D) address
  have active₂ : v₂ macCell &&& 0x0003 = channelOf bank := by
    rw [show v₂ macCell = v macCell from Function.update_of_ne (by decide) _ v]
    exact active
  have answer : (bank, 0x040B) ∈ configCells false := high_config false bank (by decide) (by decide)
  let v₃ := Function.update v₂ (bank, 0x040B) (v (bank, address))
  have third : Config false v₃ r (Session.mcuRuns mcu.proxyRead
      (Session.spiWrite 0x002D address (Session.mcuRuns mcu.identify b).2).2).2 := by
    refine second.mcuRuns fun chip c member => ?_
    generalize (Session.spiWrite 0x002D address (Session.mcuRuns mcu.identify b).2).2.lms.chip =
      now at chip ⊢
    have mac : now.mac = v₂ macCell &&& 0x0003 :=
      congrArg (· &&& 0x0003) (chip macCell (mac_config false).1)
    have named : now.read 0x002D = address := by
      have here := chip _ mailbox.1
      rw [Function.update_self] at here
      exact (if_neg fun high => high.1 (by decide)).trans here
    have value : now.read address = v (bank, address) := by
      have there := (meant active₂ known).read_eq fun _ => mac
      rw [there, chip _ known]
      refine Function.update_of_ne (fun same => ?_) _ v
      cases proxy with
      | inl first => exact absurd ((congrArg Prod.snd same).symm.trans first) (by decide)
      | inr second => exact absurd ((congrArg Prod.snd same).symm.trans second) (by decide)
    rw [follows.proxyRead now c (member.1.resolve_left (by rintro ⟨⟩)), named, value, Chip.write_cell]
    by_cases here : c = (bank, 0x040B)
    · rw [if_pos (((meant active₂ answer).selected_iff (fun _ => mac) c).mpr here), here]
      exact (Function.update_self _ _ v₂).symm
    · rw [if_neg fun means => here
        (((meant active₂ answer).selected_iff (fun _ => mac) c).mp means), chip c member]
      exact (Function.update_of_ne here _ v₂).symm
  have active₃ : v₃ macCell &&& 0x0003 = channelOf bank := by
    have apart : macCell ≠ (bank, 0x040B) := fun same =>
      absurd (show macAddress = 0x040B from congrArg Prod.snd same) (by decide)
    rw [show v₃ macCell = v₂ macCell from Function.update_of_ne apart _ v₂]
    exact active₂
  obtain ⟨read, fourth⟩ := third.spiRead answer (meant active₃ answer) true
  have run : spiReadAny mcu address false b = Session.spiRead 0x040B true (Session.mcuRuns
      mcu.proxyRead (Session.spiWrite 0x002D address
        (Session.mcuRuns mcu.identify b).2).2).2 := by
    rw [spiReadAny, if_pos ⟨proxy, asks⟩]
    rfl
  rw [run, read]
  refine ⟨Function.update_self _ _ v₂, v₃, fourth, ?_, fun c other other' => ?_⟩
  · exact (Function.update_of_ne (by simp) _ v₂).trans (Function.update_self _ _ v)
  · exact (Function.update_of_ne other' _ v₂).trans (Function.update_of_ne other _ v)

/-- The registers that such a read changes. -/
def mailboxes (cached : Bool) (bank : Bank) : Set Cell :=
  {c | cached = false ∧ (c = (.a, 0x002D) ∨ c = (bank, 0x040B))}

section

variable (config : Config cached v r b) (active : v macCell &&& 0x0003 = channelOf bank)
  (known : (bank, address) ∈ configCells cached)

include config active known

theorem Config.readDirect
    (direct : ¬ ((address = 0x0640 ∨ address = 0x0641) ∧ b.lms.asksChip address false = true)) :
    (spiReadAny mcu address false b).1 = v (bank, address) ∧
      Config cached v r (spiReadAny mcu address false b).2 := by
  rw [spiReadAny, if_neg direct]
  exact config.spiRead known (Config.meant active known) false

theorem Config.readAny (follows : mcu.Follows) :
    (spiReadAny mcu address false b).1 = v (bank, address) ∧
      ∃ v', Config cached v' r (spiReadAny mcu address false b).2 ∧
        (∀ c ∉ mailboxes cached bank, v' c = v c) ∧
        (cached = false → address = 0x0640 ∨ address = 0x0641 → v' (.a, 0x002D) = address) := by
  cases cached with
  | true =>
    have direct : ¬ ((address = 0x0640 ∨ address = 0x0641) ∧
        b.lms.asksChip address false = true) := by
      rintro ⟨proxy, asks⟩
      rw [asksChip, config.cache] at asks
      cases proxy with
      | inl first => rw [first] at asks; exact absurd asks (by decide)
      | inr second => rw [second] at asks; exact absurd asks (by decide)
    obtain ⟨value, after⟩ := config.readDirect active known direct
    exact ⟨value, v, after, fun _ _ => rfl, by rintro ⟨⟩⟩
  | false =>
    by_cases proxy : address = 0x0640 ∨ address = 0x0641
    · obtain ⟨value, v', after, named, same⟩ := config.proxied follows active known proxy
      exact ⟨value, v', after, fun c outside => same c (fun here => outside ⟨rfl, .inl here⟩)
        fun here => outside ⟨rfl, .inr here⟩, fun _ _ => named⟩
    · obtain ⟨value, after⟩ := config.readDirect active known fun both => proxy both.1
      exact ⟨value, v, after, fun _ _ => rfl, fun _ here => absurd here proxy⟩

end

theorem bitsOf_all (register : UInt16) : bitsOf register 15 0 = register := by
  apply same_bits
  intro i inside
  rw [bitsOf_bit (by decide) (by decide)]
  have bits : (15 : UInt8).toNat = 15 ∧ (0 : UInt8).toNat = 0 := ⟨rfl, rfl⟩
  simp only [bits]
  rw [decide_eq_true (by omega), Bool.true_and, Nat.zero_add]

/-- The registers that the driver reads itself. -/
def directA : List UInt16 := addrToReadA.take (addrToReadA.length - 2)

def directB : List UInt16 := addrToReadB.take (addrToReadB.length - 2)

theorem addrToReadA_eq : addrToReadA = directA ++ [0x0640, 0x0641] := by decide +kernel

theorem addrToReadB_eq : addrToReadB = directB ++ [0x0640, 0x0641] := by decide +kernel

theorem directA_plain (member : address ∈ directA) :
    0x0006 < address ∧ address < 0x8000 ∧ address ≠ 0x0640 ∧ address ≠ 0x0641 := by
  have all : directA.all (fun a => decide (0x0006 < a ∧ a < 0x8000 ∧ a ≠ 0x0640 ∧
      a ≠ 0x0641)) = true := by decide +kernel
  exact of_decide_eq_true (List.all_eq_true.mp all address member)

theorem directB_plain (member : address ∈ directB) :
    ¬ address < 0x0100 ∧ address < 0x8000 ∧ address ≠ 0x0640 ∧ address ≠ 0x0641 := by
  have all : directB.all (fun a => decide (¬ a < 0x0100 ∧ a < 0x8000 ∧ a ≠ 0x0640 ∧
      a ≠ 0x0641)) = true := by decide +kernel
  exact of_decide_eq_true (List.all_eq_true.mp all address member)

/-- The registers have these values but for some. -/
def Within (cached : Bool) (X : Set Cell) (v : Cell → UInt16) (r : Rat) (b : Session) : Prop :=
  ∃ v', Config cached v' r b ∧ ∀ c ∉ X, v' c = v c

theorem Within.mono {X Y : Set Cell} (within : Within cached X v r b) (wider : ∀ c ∈ X, c ∈ Y) :
    Within cached Y v r b := by
  obtain ⟨v', config, same⟩ := within
  exact ⟨v', config, fun c outside => same c fun member => outside (wider c member)⟩

/-- The registers that the correctors show their values in. -/
def correctors : Set Cell := {c | c.1 = .a ∧ isCorrector c.2 = true}

theorem corrector_shown (corrector : isCorrector address = true) : address ∈ readOnlyRegs := by
  obtain ⟨low, high⟩ := of_decide_eq_true corrector
  simp only [readOnlyRegs, List.mem_cons, ← UInt16.toNat_inj]
  rw [UInt16.le_iff_toNat_le] at low high
  simp only [UInt16.reduceToNat] at low high ⊢
  omega

def SavedA (v : Cell → UInt16) (addr : UInt16) (pair : UInt16 × UInt16) : Prop :=
  pair.1 = addr ∧ (isCorrector addr = false → pair.2 = savedValue addr (v (.a, addr)))

def SavedB (v : Cell → UInt16) (addr : UInt16) (pair : UInt16 × UInt16) : Prop :=
  pair = (addr, v (.b, addr))

section Pass

variable {X : Set Cell} (mac : macCell ∉ X)

include mac

theorem Within.active {v' : Cell → UInt16} (same : ∀ c ∉ X, v' c = v c)
    (active : v macCell &&& 0x0003 = channelOf bank) : v' macCell &&& 0x0003 = channelOf bank := by
  rw [same macCell mac]
  exact active

theorem performReadBack_within (shown : ∀ c ∈ correctors, c ∈ X)
    (active : v macCell &&& 0x0003 = channelOf .a) (known : (.a, address) ∈ configCells cached)
    (before : Within cached X v r b) : Within cached X v r (performReadBack address b).2 := by
  rw [performReadBack]
  by_cases corrector : isCorrector address = true
  · obtain ⟨v', config, same⟩ := before
    have active' := Within.active mac same active
    rw [if_pos corrector]
    obtain ⟨v'', after, unchanged⟩ := config.spiWrite_shown (c := (.a, address))
      (corrector_shown corrector) known (Config.meant active' known) 0x4000
    refine ⟨v'', after, fun c outside => ?_⟩
    have other : c ≠ (.a, address) := by
      rintro rfl
      exact outside (shown _ ⟨rfl, corrector⟩)
    rw [unchanged c other]
    exact same c outside
  · rw [if_neg corrector]
    exact before

variable (follows : mcu.Follows)

include follows

/-- `asked`: the microcontroller is needed for the last two registers only. -/
theorem spiReadAny_within (active : v macCell &&& 0x0003 = channelOf bank)
    (known : (bank, address) ∈ configCells cached)
    (asked : address = 0x0640 ∨ address = 0x0641 → ∀ c ∈ mailboxes cached bank, c ∈ X)
    (before : Within cached X v r b) :
    ((bank, address) ∉ X → (spiReadAny mcu address false b).1 = v (bank, address)) ∧
      Within cached X v r (spiReadAny mcu address false b).2 := by
  obtain ⟨v', config, same⟩ := before
  have active' := Within.active mac same active
  by_cases proxy : address = 0x0640 ∨ address = 0x0641
  · obtain ⟨value, v'', after, unchanged, -⟩ := config.readAny active' known follows
    refine ⟨fun outside => value.trans (same _ outside), v'', after, fun c outside => ?_⟩
    rw [unchanged c fun member => outside (asked proxy c member)]
    exact same c outside
  · obtain ⟨value, after⟩ := config.readDirect active' known fun both => proxy both.1
    exact ⟨fun outside => value.trans (same _ outside), v', after, same⟩

theorem saveA_within (shown : ∀ c ∈ correctors, c ∈ X)
    (outside : isCorrector address = false → (.a, address) ∉ X)
    (active : v macCell &&& 0x0003 = channelOf .a) (known : (.a, address) ∈ configCells cached)
    (asked : address = 0x0640 ∨ address = 0x0641 → ∀ c ∈ mailboxes cached .a, c ∈ X)
    (before : Within cached X v r b) :
    SavedA v address (saveA mcu address b).1 ∧ Within cached X v r (saveA mcu address b).2 := by
  have shows := performReadBack_within mac shown active known before
  obtain ⟨value, after⟩ := spiReadAny_within mac follows active known asked shows
  refine ⟨⟨rfl, fun plain => ?_⟩, after⟩
  rw [← value (outside plain), ← bitsOf_all (spiReadAny mcu address false _).1]
  rfl

theorem saveB_within (outside : (.b, address) ∉ X)
    (active : v macCell &&& 0x0003 = channelOf .b) (known : (.b, address) ∈ configCells cached)
    (asked : address = 0x0640 ∨ address = 0x0641 → ∀ c ∈ mailboxes cached .b, c ∈ X)
    (before : Within cached X v r b) :
    SavedB v address (saveB mcu address b).1 ∧ Within cached X v r (saveB mcu address b).2 := by
  obtain ⟨value, after⟩ := spiReadAny_within mac follows active known asked before
  refine ⟨?_, after⟩
  rw [SavedB, ← value outside, ← bitsOf_all (spiReadAny mcu address false b).1]
  rfl

theorem saveB_named (active : v macCell &&& 0x0003 = channelOf .b)
    (known : (.b, address) ∈ configCells cached) (proxy : address = 0x0640 ∨ address = 0x0641)
    (before : Within cached X v r b) : ∃ v', Config cached v' r (saveB mcu address b).2 ∧
      (cached = false → v' (.a, 0x002D) = address) := by
  obtain ⟨v', config, same⟩ := before
  obtain ⟨-, v'', after, -, named⟩ :=
    config.readAny (Within.active mac same active) known follows
  exact ⟨v'', after, fun direct => named direct proxy⟩

end Pass

def changedA (cached : Bool) : Set Cell := correctors ∪ mailboxes cached .a

def changed (cached : Bool) : Set Cell := changedA cached ∪ mailboxes cached .b

theorem mac_unchanged (cached : Bool) : macCell ∉ changed cached := by
  intro member
  rcases member with (corrector | mailbox) | mailbox
  · exact absurd corrector.2 (by decide)
  · rcases mailbox.2 with same | same
    · exact absurd (congrArg Prod.snd same) (by decide)
    · exact absurd (congrArg Prod.snd same) (by decide)
  · rcases mailbox.2 with same | same
    · exact absurd (congrArg Prod.snd same) (by decide)
    · exact absurd (congrArg Prod.snd same) (by decide)

theorem unchangedA_b (cached : Bool) (address : UInt16) :
    (.b, address) ∉ changedA cached := by
  intro member
  cases member with
  | inl corrector => exact absurd corrector.1 nofun
  | inr mailbox =>
    cases mailbox.2 with
    | inl same => exact absurd (congrArg Prod.fst same) nofun
    | inr same => exact absurd (congrArg Prod.fst same) nofun

theorem proxied_plain (member : address ∈ [0x0640, 0x0641]) :
    (¬ address < 0x0100 ∧ address < 0x8000) ∧ ∀ (bank : Bank) (cached : Bool),
      (bank, address) ∉ changed cached ∧ (bank, address) ∉ changedA cached := by
  have plain : ¬ address < 0x0100 ∧ address < 0x8000 ∧ isCorrector address = false ∧
      address ≠ 0x002D ∧ address ≠ 0x040B := by
    rcases List.mem_cons.mp member with rfl | last
    · decide
    · rw [List.mem_singleton.mp last]
      decide
  obtain ⟨high, small, corrector, first, second⟩ := plain
  have outside (bank bank' : Bank) (cached : Bool) : (bank, address) ∉ mailboxes cached bank' :=
    fun mailbox => mailbox.2.elim (fun same => first (congrArg Prod.snd same))
      fun same => second (congrArg Prod.snd same)
  have outsideA (bank : Bank) (cached : Bool) : (bank, address) ∉ changedA cached :=
    fun either => either.elim
      (fun shown => Bool.false_ne_true (corrector.symm.trans shown.2)) (outside bank .a cached)
  exact ⟨⟨high, small⟩, fun bank cached =>
    ⟨fun either => either.elim (outsideA bank cached) (outside bank .b cached),
      outsideA bank cached⟩⟩

theorem Within.setActiveChannel {X : Set Cell} (mac : macCell ∉ X) (ch : UInt16)
    (before : Within cached X v r b) :
    Within cached X (selecting v ch) r (Session.setActiveChannel ch b).2 := by
  obtain ⟨v', config, same⟩ := before
  refine ⟨_, config.setActiveChannel ch, fun c outside => ?_⟩
  rw [selecting, selecting, same macCell mac]
  by_cases here : c = macCell
  · rw [here, Function.update_self, Function.update_self]
  · rw [Function.update_of_ne here, Function.update_of_ne here]
    exact same c outside

theorem selecting_b (v : Cell → UInt16) (ch : UInt16) :
    selecting v ch (.b, address) = v (.b, address) := by
  rw [selecting, Function.update_of_ne]
  intro same
  exact absurd (congrArg Prod.fst same) (by rintro ⟨⟩)

theorem selecting_back {ch : UInt16} (active : ch = v macCell &&& 0x0003) (other other' : UInt16) :
    selecting (selecting (selecting v other) other') ch = v := by
  rw [active, selecting, selecting, selecting, Function.update_idem, Function.update_idem,
    Function.update_self, Function.update_self, replaceBits_again, replaceBits_again,
    replaceBits_same, Function.update_eq_self]

section

variable (follows : mcu.Follows)

include follows

theorem saveA_pass (active : v macCell &&& 0x0003 = channelOf .a) (config : Config cached v r b) :
    List.Forall₂ (SavedA v) addrToReadA (addrToReadA.mapM (saveA mcu) b).1 ∧
      Within cached (changedA cached) v r (addrToReadA.mapM (saveA mcu) b).2 := by
  have mac : macCell ∉ changedA cached := fun member => mac_unchanged cached (.inl member)
  rw [addrToReadA_eq]
  have direct := mapM_yields (P := Within cached correctors v r) (Q := SavedA v)
    (f := saveA mcu) (l := directA) (s := b)
    (fun address member b before => by
      obtain ⟨high, small, first, second⟩ := directA_plain member
      have known : (.a, address) ∈ configCells cached := ⟨.inr high, small, nofun⟩
      exact saveA_within (fun member => mac (.inl member)) follows (fun _ shown => shown)
        (fun plain shown => Bool.false_ne_true (plain.symm.trans shown.2)) active known
        (fun proxy => absurd proxy (not_or.mpr ⟨first, second⟩)) before)
    ⟨v, config, fun _ _ => rfl⟩
  have proxied := mapM_yields (P := Within cached (changedA cached) v r) (Q := SavedA v)
    (f := saveA mcu) (l := [0x0640, 0x0641]) (s := (directA.mapM (saveA mcu) b).2)
    (fun address member b before => by
      obtain ⟨high, plain⟩ := proxied_plain member
      exact saveA_within mac follows (fun _ shown => .inl shown)
        (fun _ member => (plain .a cached).2 member) active
        (high_config cached .a high.1 high.2) (fun _ _ member => .inr member) before)
    (direct.2.mono fun _ member => .inl member)
  exact mapM_yields_append direct.1 proxied

section

variable (active : v macCell &&& 0x0003 = channelOf .b)
include active

theorem saveB_direct
    (before : Within cached (changedA cached) v r b) :
    List.Forall₂ (SavedB v) directB (directB.mapM (saveB mcu) b).1 ∧
      Within cached (changedA cached) v r (directB.mapM (saveB mcu) b).2 := by
  have mac : macCell ∉ changedA cached := fun member => mac_unchanged cached (.inl member)
  apply mapM_yields _ before
  intro address member b before
  obtain ⟨high, small, first, second⟩ := directB_plain member
  exact saveB_within mac follows (unchangedA_b cached address) active
    (high_config cached .b high small)
    (fun proxy => absurd proxy (not_or.mpr ⟨first, second⟩)) before

theorem saveB_proxied
    (member : address ∈ [0x0640, 0x0641]) (before : Within cached (changed cached) v r b) :
    SavedB v address (saveB mcu address b).1 ∧
      Within cached (changed cached) v r (saveB mcu address b).2 := by
  obtain ⟨high, plain⟩ := proxied_plain member
  exact saveB_within (mac_unchanged cached) follows (plain .b cached).1 active
    (high_config cached .b high.1 high.2) (fun _ _ member => .inr member) before

theorem saveB_pass
    (before : Within cached (changedA cached) v r b) :
    List.Forall₂ (SavedB v) addrToReadB (addrToReadB.mapM (saveB mcu) b).1 ∧
      Within cached (changed cached) v r (addrToReadB.mapM (saveB mcu) b).2 := by
  obtain ⟨values, direct⟩ := saveB_direct follows active before
  rw [addrToReadB_eq]
  apply mapM_yields_append values
  apply mapM_yields _ (direct.mono fun _ member => .inl member)
  intro address member b before
  exact saveB_proxied follows active member before

theorem saveB_last
    (before : Within cached (changedA cached) v r b) :
    ∃ v', Config cached v' r (addrToReadB.mapM (saveB mcu) b).2 ∧
      (cached = false → v' (.a, 0x002D) = 0x0641) := by
  obtain ⟨-, direct⟩ := saveB_direct follows active before
  have wider : Within cached (changed cached) v r _ := direct.mono fun _ member => .inl member
  obtain ⟨-, first⟩ :=
    saveB_proxied follows active (show (0x0640 : UInt16) ∈ [0x0640, 0x0641] by simp) wider
  have last := saveB_named (mac_unchanged cached) follows active
    (high_config cached .b (by decide) (by decide)) (.inr rfl) first
  have both (b : Session) : ([0x0640, 0x0641].mapM (saveB mcu) b).2 =
      (saveB mcu 0x0641 (saveB mcu 0x0640 b).2).2 := rfl
  rw [addrToReadB_eq, mapM_append_run, both]
  exact last

end

theorem saveConfig_spec (config : Config cached v r b) :
    List.Forall₂ (SavedA (selecting v ChA)) addrToReadA (saveConfig mcu b).1.lms7002_registers_a ∧
      List.Forall₂ (SavedB v) addrToReadB (saveConfig mcu b).1.lms7002_registers_b ∧
      Within cached (changed cached) v r (saveConfig mcu b).2 ∧
      ∃ v', Config cached v' r (saveConfig mcu b).2 ∧
        (cached = false → v' (.a, 0x002D) = 0x0641) := by
  obtain ⟨value, first⟩ := config.getActiveChannel true
  rw [saveConfig, bind_run]
  generalize Session.getActiveChannel true b = active at value first ⊢
  have second : Config cached (selecting v (channelOf .a)) r _ := first.setActiveChannel ChA
  rw [bind_run]
  generalize setActiveChannel ChA active.2 = selectedA at second ⊢
  obtain ⟨savedA, third⟩ := saveA_pass follows (channelOf_active v .a) second
  rw [bind_run]
  generalize addrToReadA.mapM (saveA mcu) selectedA.2 = registersA at savedA third ⊢
  have mac : macCell ∉ changedA cached := fun member => mac_unchanged cached (.inl member)
  have fourth : Within cached (changedA cached)
      (selecting (selecting v (channelOf .a)) (channelOf .b)) r _ := third.setActiveChannel mac ChB
  rw [bind_run]
  generalize setActiveChannel ChB registersA.2 = selectedB at fourth ⊢
  obtain ⟨savedB, fifth⟩ := saveB_pass follows (channelOf_active _ .b) fourth
  obtain ⟨v', config', named⟩ := saveB_last follows (channelOf_active _ .b) fourth
  rw [bind_run]
  generalize addrToReadB.mapM (saveB mcu) selectedB.2 = registersB at savedB fifth config' ⊢
  have sixth := fifth.setActiveChannel (mac_unchanged cached) active.1
  rw [selecting_back value] at sixth
  refine ⟨savedA, savedB.imp fun addr pair saved => ?_, sixth, _,
    config'.setActiveChannel active.1, fun direct => ?_⟩
  · rw [SavedB, selecting_b, selecting_b] at saved
    exact saved
  · rw [selecting_other (by decide)]
    exact named direct

end

end Soapy.Lime.Session
