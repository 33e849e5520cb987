import Soapy.Lime.ConfigSaved

/-! # The configuration file is loaded

The registers of both channels get the values that were saved, in whatever order the keys of a
section come back.
-/

namespace Soapy.Lime.Session

open Lib LMS7002M

variable {cached : Bool} {v : Cell → UInt16} {r : Rat} {b : Session} {mcu : Microcontroller}
variable {bank : Bank} {address : UInt16} {writes : List (UInt16 × UInt16)}

/-- The values once these writes are done. -/
def writing (bank : Bank) (v : Cell → UInt16) (writes : List (UInt16 × UInt16)) : Cell → UInt16 :=
  writes.foldl (fun v w => Function.update v (bank, w.1) w.2) v

theorem writing_congr {v' : Cell → UInt16} {c : Cell} (same : v c = v' c) :
    writing bank v writes c = writing bank v' writes c := by
  induction writes generalizing v v' with
  | nil => exact same
  | cons w rest ih =>
    rw [writing, writing, List.foldl_cons, List.foldl_cons]
    apply ih
    rw [Function.update_apply, Function.update_apply, same]

theorem writing_other {c : Cell} (other : ∀ w ∈ writes, (bank, w.1) ≠ c) :
    writing bank v writes c = v c := by
  induction writes generalizing v with
  | nil => rfl
  | cons w rest ih =>
    rw [writing, List.foldl_cons]
    rw [List.forall_mem_cons] at other
    exact (ih other.2).trans (Function.update_of_ne (Ne.symm other.1) _ v)

theorem writing_value {value : UInt16} (written : ∃ w ∈ writes, w.1 = address)
    (agree : ∀ w ∈ writes, w.1 = address → w.2 = value) :
    writing bank v writes (bank, address) = value := by
  induction writes generalizing v with
  | nil =>
    obtain ⟨w, member, -⟩ := written
    exact absurd member List.not_mem_nil
  | cons w rest ih =>
    rw [writing, List.foldl_cons]
    rw [List.forall_mem_cons] at agree
    by_cases later : ∃ w ∈ rest, w.1 = address
    · exact ih later agree.2
    · have here : w.1 = address := by
        obtain ⟨w', member, same⟩ := written
        cases List.mem_cons.mp member with
        | inl head => rw [← head, same]
        | inr tail => exact absurd ⟨w', tail, same⟩ later
      have untouched : writing bank (Function.update v (bank, w.1) w.2) rest (bank, address) =
          Function.update v (bank, w.1) w.2 (bank, address) :=
        writing_other fun w' member same => later ⟨w', member, congrArg Prod.snd same⟩
      rw [← here] at untouched ⊢
      rw [← agree.1 here]
      exact untouched.trans (Function.update_self _ _ v)

def Into (cached : Bool) (bank : Bank) (writes : List (UInt16 × UInt16)) : Prop :=
  ∀ w ∈ writes, (bank, w.1) ∈ configCells cached ∧ w.1 ≠ macAddress

theorem writeAll_known {K : Set Cell} {chip : Chip} (mac : macCell ∈ K)
    (into : Into cached bank writes) (active : v macCell &&& 0x0003 = channelOf bank)
    (known : ∀ c ∈ K, chip.cell c = v c) :
    ∀ c ∈ K, (chip.writeAll writes).cell c = writing bank v writes c := by
  induction writes generalizing v chip with
  | nil => exact known
  | cons w rest ih =>
    have ⟨member, other⟩ := into w List.mem_cons_self
    have meant := Config.meant active member
    have now : chip.mac = v macCell &&& 0x0003 := congrArg (· &&& 0x0003) (known macCell mac)
    rw [Chip.writeAll, writing, List.foldl_cons, List.foldl_cons]
    apply ih fun w' member => into w' (List.mem_cons_of_mem w member)
    · rw [Function.update_of_ne fun same => other (congrArg Prod.snd same).symm]
      exact active
    · intro c inside
      rw [Chip.write_cell, Function.update_apply]
      by_cases here : c = (bank, w.1)
      · rw [if_pos ((meant.selected_iff (fun _ => now) c).mpr here), if_pos here]
      · rw [if_neg fun means => here ((meant.selected_iff (fun _ => now) c).mp means),
          if_neg here]
        exact known c inside

theorem Config.spiWriteBatch (config : Config cached v r b) (into : Into cached bank writes)
    (active : v macCell &&& 0x0003 = channelOf bank) :
    (Session.spiWriteBatch writes true b).1 = 0 ∧
      Config cached (writing bank v writes) r (Session.spiWriteBatch writes true b).2 := by
  have small : ∀ w ∈ writes, w.1 < 0x8000 := fun w member => (into w member).1.2.1
  obtain ⟨map, chip, cache⟩ := spiWriteBatch_forced b.lms small
  have onChip := writeAll_known (mac_config cached).1 into active config.chip
  rw [spiWriteBatch_done config.done]
  refine ⟨rfl, config.done.on _, cache.trans config.cache, ?_, ?_⟩
  · rw [on_lms, chip]
    exact onChip
  · refine ⟨config.holds.clock, config.holds.stores, config.holds.small, ?_, ?_⟩
    · intro c member
      rw [on_lms, chip]
      exact onChip c member.1
    · intro used c member
      rw [on_lms] at used ⊢
      have before : ∀ d ∈ servedCells cached, b.lms.mRegistersMap.asChip.cell d = v d := by
        intro d inside
        rw [RegistersMap.asChip_cell]
        exact config.holds.knows.map (cache.symm.trans used) d inside
      have values := writeAll_known (mac_config cached) into active before c member
      rw [← map, RegistersMap.asChip_cell] at values
      exact values

theorem key_of_pair {α β : Type} {R : α → β → Prop} {keys : List α} {pairs : List β}
    (all : List.Forall₂ R keys pairs) {pair : β} (member : pair ∈ pairs) :
    ∃ key ∈ keys, R key pair := by
  induction all with
  | nil => exact absurd member List.not_mem_nil
  | @cons key _ _ _ suits _ ih =>
    cases List.mem_cons.mp member with
    | inl head => exact ⟨key, List.mem_cons_self, head ▸ suits⟩
    | inr tail =>
      obtain ⟨key', inside, suits'⟩ := ih tail
      exact ⟨key', List.mem_cons_of_mem _ inside, suits'⟩

theorem pair_of_key {α β : Type} {R : α → β → Prop} {keys : List α} {pairs : List β}
    (all : List.Forall₂ R keys pairs) {key : α} (member : key ∈ keys) :
    ∃ pair ∈ pairs, R key pair :=
  key_of_pair all.flip member

theorem readA_known (cached : Bool) (member : address ∈ addrToReadA) :
    (.a, address) ∈ configCells cached := by
  rw [addrToReadA_eq, List.mem_append] at member
  cases member with
  | inl direct =>
    obtain ⟨high, small, -⟩ := directA_plain direct
    exact ⟨.inr high, small, nofun⟩
  | inr proxied =>
    obtain ⟨high, -⟩ := proxied_plain proxied
    exact high_config cached .a high.1 high.2

theorem readB_known (cached : Bool) (member : address ∈ addrToReadB) :
    (.b, address) ∈ configCells cached ∧ address ≠ macAddress := by
  have high : ¬ address < 0x0100 ∧ address < 0x8000 := by
    rw [addrToReadB_eq, List.mem_append] at member
    cases member with
    | inl direct =>
      obtain ⟨high, small, -⟩ := directB_plain direct
      exact ⟨high, small⟩
    | inr proxied => exact (proxied_plain proxied).1
  refine ⟨high_config cached .b high.1 high.2, fun same => high.1 ?_⟩
  rw [same]
  decide

theorem writesOf_address {pair w : UInt16 × UInt16} (member : w ∈ writesOf pair) :
    w.1 = pair.1 ∧ w.1 ≠ macAddress := by
  rw [writesOf] at member
  by_cases mac : pair.1 = macAddress
  · rw [if_pos mac] at member
    exact absurd member List.not_mem_nil
  · have same : w.1 = pair.1 := by
      rw [if_neg mac] at member
      split at member
      · rcases List.mem_cons.mp member with rfl | last
        · rfl
        · rw [List.mem_singleton.mp last]
      · rw [List.mem_singleton.mp member]
    exact ⟨same, same ▸ mac⟩

theorem writesOf_plain {pair : UInt16 × UInt16} (mac : pair.1 ≠ macAddress)
    (plain : isCorrector pair.1 = false) : writesOf pair = [pair] := by
  rw [writesOf, if_neg mac, plain]
  rfl

theorem savedValue_plain (plain : isCorrector address = false) (other : address ≠ 0x05C2)
    (value : UInt16) : savedValue address value = value := by
  have outside : ¬ (0x05C3 ≤ address ∧ address ≤ 0x05CA) := of_decide_eq_false plain
  have first : ¬ (0x05C3 ≤ address ∧ address ≤ 0x05C6 ∧ value &&& 0x0400 ≠ 0) := fun within =>
    outside ⟨within.1, UInt16.le_trans within.2.1 (by decide)⟩
  have second : ¬ (0x05C7 ≤ address ∧ address ≤ 0x05CA ∧ value &&& 0x0040 ≠ 0) := fun within =>
    outside ⟨UInt16.le_trans (by decide) within.1, within.2.1⟩
  rw [savedValue, if_neg first, if_neg second, if_neg other]

variable {pairs section_a section_b : List (UInt16 × UInt16)}

theorem into_a (saved : List.Forall₂ (SavedA v) addrToReadA pairs) (same : section_a.Perm pairs) :
    Into cached .a (section_a.flatMap writesOf) := by
  intro w member
  obtain ⟨pair, inside, write⟩ := List.mem_flatMap.mp member
  obtain ⟨addr, listed, key, -⟩ := key_of_pair saved (same.mem_iff.mp inside)
  obtain ⟨address, other⟩ := writesOf_address write
  rw [address, key]
  exact ⟨readA_known cached listed, by rw [← key, ← address]; exact other⟩

theorem loaded_a {v' : Cell → UInt16} (saved : List.Forall₂ (SavedA v) addrToReadA pairs)
    (same : section_a.Perm pairs) (listed : address ∈ addrToReadA) (mac : address ≠ macAddress)
    (plain : isCorrector address = false) (other : address ≠ 0x05C2) :
    writing .a v' (section_a.flatMap writesOf) (.a, address) = v (.a, address) := by
  apply writing_value
  · obtain ⟨pair, inside, key, -⟩ := pair_of_key saved listed
    refine ⟨pair, List.mem_flatMap.mpr ⟨pair, same.mem_iff.mpr inside, ?_⟩, key⟩
    rw [writesOf_plain (key ▸ mac) (key ▸ plain)]
    exact List.mem_singleton_self pair
  · intro w member here
    obtain ⟨pair, inside, write⟩ := List.mem_flatMap.mp member
    have key : pair.1 = address := (writesOf_address write).1.symm.trans here
    obtain ⟨addr, -, key', value⟩ := key_of_pair saved (same.mem_iff.mp inside)
    have addr_eq : addr = address := key'.symm.trans key
    subst addr_eq
    rw [writesOf_plain (key ▸ mac) (key ▸ plain)] at write
    rw [List.mem_singleton.mp write, value plain, savedValue_plain plain other]

theorem into_b (saved : List.Forall₂ (SavedB v) addrToReadB pairs) (same : section_b.Perm pairs) :
    Into cached .b section_b := by
  intro w member
  obtain ⟨addr, listed, pair⟩ := key_of_pair saved (same.mem_iff.mp member)
  rw [pair]
  exact readB_known cached listed

theorem loaded_b {v' : Cell → UInt16} (saved : List.Forall₂ (SavedB v) addrToReadB pairs)
    (same : section_b.Perm pairs) (listed : address ∈ addrToReadB) :
    writing .b v' section_b (.b, address) = v (.b, address) := by
  apply writing_value
  · obtain ⟨pair, inside, key⟩ := pair_of_key saved listed
    exact ⟨pair, same.mem_iff.mpr inside, congrArg Prod.fst key⟩
  · intro w member here
    obtain ⟨addr, -, pair⟩ := key_of_pair saved (same.mem_iff.mp member)
    have addr_eq : addr = address := (congrArg Prod.fst pair).symm.trans here
    rw [pair, addr_eq]

/-- The driver has these values, but for the register with the MAC bits, whatever its clock. -/
def Loaded (cached : Bool) (v : Cell → UInt16) (b : Session) : Prop :=
  ∃ v' r, Config cached v' r b ∧ ∀ c ≠ macCell, v' c = v c

/-- What is known of the values stays so. -/
def StaysLoaded (cached : Bool) (v : Cell → UInt16) (b b' : Session) : Prop :=
  Loaded cached v b → Loaded cached v b'

instance : IsPreorder Session (StaysLoaded cached v) where
  refl _ := id
  trans _ _ _ first second := second ∘ first

theorem setActiveChannel_loaded (ch : UInt16) :
    Moves (StaysLoaded cached v) (setActiveChannel ch) := by
  intro b ⟨v', r, config, same⟩
  refine ⟨_, r, config.setActiveChannel ch, fun c other => ?_⟩
  rw [selecting, Function.update_of_ne other]
  exact same c other

theorem setReferenceClkSX_loaded (freq : Rat) :
    Moves (StaysLoaded cached v) (setReferenceClkSX freq) := by
  intro b ⟨v', r, config, same⟩
  have holds : Holds (servedCells cached) v' freq (setReferenceClkSX freq b).2 :=
    ⟨rfl, config.holds.stores, config.holds.small, config.holds.knows⟩
  exact ⟨v', freq, ⟨config.done, config.cache, config.chip, holds⟩, same⟩

theorem spiRead_loaded (fromChip : Bool) :
    Moves (StaysLoaded cached v) (spiRead 0x0020 fromChip) := by
  intro b ⟨v', r, config, same⟩
  exact ⟨v', r, (config.spiRead (mac_config cached).1 (macCell_meant _ v') fromChip).2, same⟩

theorem spiWrite_loaded (data : UInt16) : Moves (StaysLoaded cached v) (spiWrite 0x0020 data) := by
  intro b ⟨v', r, config, same⟩
  refine ⟨_, r, config.spiWrite (mac_config cached) (macCell_meant _ v') data, fun c other => ?_⟩
  rw [Function.update_of_ne other]
  exact same c other

theorem finishLoad_loaded (file : ConfigFile) (ch : UInt16) :
    Moves (StaysLoaded cached v) (finishLoad file ch) :=
  (setActiveChannel_loaded ch).bind fun _ => (setReferenceClkSX_loaded _).bind fun _ =>
    (setReferenceClkSX_loaded _).bind fun _ => ((spiRead_loaded false).bind fun _ =>
      (spiWrite_loaded _).bind fun _ => spiWrite_loaded _).bind fun _ =>
        (setActiveChannel_loaded ChA).bind fun _ => .pure 0

theorem finishLoad_status (file : ConfigFile) (ch : UInt16) (b : Session) :
    (finishLoad file ch b).1 = 0 := by
  rw [finishLoad, bind_run, bind_run, bind_run, bind_run, bind_run, pure_run]

theorem Loaded.spiWrite_status (loaded : Loaded cached v b) (data : UInt16) :
    (spiWrite 0x0020 data b).1 = 0 := by
  obtain ⟨v', r, config, -⟩ := loaded
  rw [spiWrite_done config.done]

theorem Loaded.batch (loaded : Loaded cached v b) {ch : UInt16} (bank_eq : channelOf bank = ch)
    (into : Into cached bank writes) :
    (spiWriteBatch writes true (setActiveChannel ch b).2).1 = 0 ∧
      Loaded cached (writing bank v writes)
        (spiWriteBatch writes true (setActiveChannel ch b).2).2 := by
  subst bank_eq
  obtain ⟨v', r, config, same⟩ := loaded
  have selected := config.setActiveChannel (channelOf bank)
  obtain ⟨status, after⟩ := selected.spiWriteBatch into (channelOf_active v' bank)
  refine ⟨status, _, r, after, fun c other => writing_congr ?_⟩
  rw [selecting, Function.update_of_ne other]
  exact same c other

theorem loadConfig_loaded (config : Config cached v r b) (file : ConfigFile)
    (intoA : Into cached .a (file.lms7002_registers_a.flatMap writesOf))
    (intoB : Into cached .b file.lms7002_registers_b) :
    (loadConfig file b).1 = 0 ∧
      Loaded cached (writing .b (writing .a v (file.lms7002_registers_a.flatMap writesOf))
        file.lms7002_registers_b) (loadConfig file b).2 := by
  obtain ⟨-, asked⟩ := config.getActiveChannel true
  have start : Loaded cached v (Session.getActiveChannel true b).2 := ⟨v, r, asked, fun _ _ => rfl⟩
  rw [loadConfig, bind_run]
  generalize Session.getActiveChannel true b = active at start ⊢
  obtain ⟨statusA, first⟩ := start.batch (show channelOf .a = ChA from rfl) intoA
  rw [bind_run, bind_run]
  generalize Session.spiWriteBatch _ true (setActiveChannel ChA active.2).2 = batchA
    at statusA first ⊢
  rw [statusA, if_neg (not_not_intro rfl), bind_run, first.spiWrite_status,
    if_neg (not_not_intro rfl), bind_run, bind_run, bind_run]
  have written := spiWrite_loaded (x0020_value file.lms7002_registers_a) _ first
  generalize Session.spiWrite 0x0020 _ batchA.2 = writtenA at written ⊢
  have selected := setActiveChannel_loaded ChB _ written
  generalize setActiveChannel ChB writtenA.2 = selectedB at selected ⊢
  obtain ⟨statusB, second⟩ := selected.batch (show channelOf .b = ChB from rfl) intoB
  generalize Session.spiWriteBatch _ true (setActiveChannel ChB selectedB.2).2 = batchB
    at statusB second ⊢
  rw [statusB, if_neg (not_not_intro rfl)]
  exact ⟨finishLoad_status file active.1 batchB.2, finishLoad_loaded file active.1 _ second⟩

def Serves (b : Session) : Prop := b.lms.useCache = true →
  ∀ c ∈ servedCells true, b.lms.mRegistersMap.cell c = b.lms.chip.cell c

theorem Serves.config (done : b.Done) (serves : b.Serves) :
    Config b.lms.useCache b.lms.chip.cell b._cachedRefClockRate b where
  done := done
  cache := rfl
  chip _ _ := rfl
  holds := {
    clock := rfl
    stores := by
      rw [StoresAt, done]
      exact fun _ _ => ⟨rfl, fun _ _ => rfl⟩
    small := fun c member => member.1.2.1
    knows := ⟨fun _ _ => rfl, fun used c member =>
      serves used c ⟨⟨.inl rfl, member.1.2⟩, member.2⟩⟩ }

def NotRestored (address : UInt16) : Prop :=
  address = macAddress ∨ address = 0x05C2 ∨ isCorrector address = true

/-- `file` is what the reader makes of what was saved: the keys of a section in any order. -/
theorem config_round_trip {S T : Session} {file : ConfigFile} (follows : mcu.Follows)
    (doneS : S.Done) (servesS : S.Serves) (doneT : T.Done) (servesT : T.Serves)
    (sectionA : file.lms7002_registers_a.Perm (saveConfig mcu S).1.lms7002_registers_a)
    (sectionB : file.lms7002_registers_b.Perm (saveConfig mcu S).1.lms7002_registers_b) :
    (loadConfig file T).1 = 0 ∧
      (∀ address ∈ addrToReadA, ¬ NotRestored address →
        (loadConfig file T).2.lms.chip.cell (.a, address) = S.lms.chip.cell (.a, address)) ∧
      (∀ address ∈ addrToReadB,
        (loadConfig file T).2.lms.chip.cell (.b, address) = S.lms.chip.cell (.b, address)) ∧
      ∀ c ∈ configCells S.lms.useCache, c ∉ changed S.lms.useCache →
        (saveConfig mcu S).2.lms.chip.cell c = S.lms.chip.cell c := by
  obtain ⟨savedA, savedB, ⟨v', saved, same⟩, -⟩ := saveConfig_spec follows (servesS.config doneS)
  obtain ⟨status, v'', r, config, loaded⟩ := loadConfig_loaded (servesT.config doneT) file
    (into_a savedA sectionA) (into_b savedB sectionB)
  refine ⟨status, fun address listed kept => ?_, fun address listed => ?_, fun c known outside => ?_⟩
  · obtain ⟨mac, other, plain⟩ := not_or.mp kept |>.imp_right not_or.mp
    have known := readA_known T.lms.useCache listed
    have banks (w : UInt16 × UInt16) : ((.b, w.1) : Cell) ≠ (.a, address) := fun same =>
      absurd (congrArg Prod.fst same) nofun
    rw [config.chip _ known, loaded _ fun here => mac (congrArg Prod.snd here),
      writing_other fun w _ => banks w]
    exact (loaded_a savedA sectionA listed mac (Bool.eq_false_iff.mpr plain) other).trans
      (selecting_other mac ChA .a)
  · have ⟨known, other⟩ := readB_known T.lms.useCache listed
    rw [config.chip _ known, loaded _ fun here => other (congrArg Prod.snd here)]
    exact loaded_b savedB sectionB listed
  · rw [saved.chip c known]
    exact same c outside

/-- A microcontroller that does nothing but what its procedure says. -/
def proxyReader : Microcontroller where
  identify chip := chip
  proxyRead chip := chip.write 0x040B (chip.read (chip.read 0x002D))

theorem proxyReader_follows : proxyReader.Follows := ⟨fun _ _ _ => rfl, fun _ _ _ => rfl⟩

/-- Every register of channel B has the same value, and the driver uses its cache. -/
def cachedB : Session where
  lms := ⟨⟨fun _ => 2, fun _ => 5⟩, true, ⟨fun _ => 2, fun _ => 5⟩⟩
  answers _ := doneAnswer
  _cachedRefClockRate := 40000000
  tuning_cache _ := none

theorem cachedB_serves : cachedB.Serves := by
  rintro - ⟨bank, address⟩ -
  cases bank with
  | a => rfl
  | b => rfl

theorem sessionA_serves : sessionA.Serves := nofun

theorem config_round_trip_between :
    (loadConfig (saveConfig proxyReader cachedB).1 sessionA).1 = 0 ∧
      (∀ address ∈ addrToReadA, ¬ NotRestored address →
        (loadConfig (saveConfig proxyReader cachedB).1 sessionA).2.lms.chip.cell (.a, address) =
          cachedB.lms.chip.cell (.a, address)) ∧
      (∀ address ∈ addrToReadB,
        (loadConfig (saveConfig proxyReader cachedB).1 sessionA).2.lms.chip.cell (.b, address) =
          cachedB.lms.chip.cell (.b, address)) ∧
      ∀ c ∈ configCells true, c ∉ changed true →
        (saveConfig proxyReader cachedB).2.lms.chip.cell c = cachedB.lms.chip.cell c :=
  config_round_trip proxyReader_follows rfl cachedB_serves rfl sessionA_serves (.refl _) (.refl _)

/-- Without the cache the address of the last register is left where the microcontroller found it. -/
theorem save_changes_mailbox :
    (saveConfig proxyReader sessionA).2.lms.chip.cell (.a, 0x002D) = 0x0641 ∧
      sessionA.lms.chip.cell (.a, 0x002D) = 1 ∧ isCorrector 0x002D = false := by
  obtain ⟨-, -, -, v', after, named⟩ :=
    saveConfig_spec proxyReader_follows (sessionA_serves.config (show sessionA.Done from rfl))
  have followed : (.a, 0x002D) ∈ configCells false := ⟨.inr (by decide), by decide, nofun⟩
  exact ⟨(after.chip _ followed).trans (named rfl), rfl, rfl⟩

end Soapy.Lime.Session
